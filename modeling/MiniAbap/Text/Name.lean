import MiniAbap.Text.Basic

/-!
Names and letter case. Case is folded for the ASCII letters only, and names
are built from ASCII characters only: a letter or underscore, then letters,
digits, underscores and hyphens.
-/

namespace MiniAbap.Text

def lower (text : Text) : Text :=
  text.map Char.toLower

def upper (text : Text) : Text :=
  text.map Char.toUpper

def sameWord (left right : Text) : Bool :=
  lower left == lower right

def isNameStart (c : Char) : Bool :=
  c.isAlpha || c == '_'

def isNameChar (c : Char) : Bool :=
  c.isAlphanum || c == '_' || c == '-'

def isName : Text → Bool
  | [] => false
  | c :: rest => isNameStart c && rest.all isNameChar

/-- The leading run of name characters in upper case, and what follows it
    unchanged. A text that starts with anything else has an empty run. -/
def leadingWord (text : Text) : Text × Text :=
  (upper (text.takeWhile isNameChar), text.dropWhile isNameChar)

def firstWord (text : Text) : Text × Text :=
  (splitFirst isBlank (trimStart text)).getD (trimStart text, [])

def isDigits (text : Text) : Bool :=
  text.all Char.isDigit

def digitsValue (text : Text) : Nat :=
  text.foldl (fun value c => 10 * value + (c.toNat - '0'.toNat)) 0

end MiniAbap.Text
