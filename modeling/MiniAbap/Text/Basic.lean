/-!
Program text as a list of characters, with the few operations every later
stage shares: white space, trimming, words and lines. White space is the
Unicode property of that name, so it is wider than the blanks that separate
the tokens of an expression.
-/

namespace MiniAbap

abbrev Text := List Char

namespace Text

/-- Inclusive code point ranges of the property White_Space. -/
def blankRanges : List (Nat × Nat) :=
  [(0x09, 0x0D), (0x20, 0x20), (0x85, 0x85), (0xA0, 0xA0), (0x1680, 0x1680),
    (0x2000, 0x200A), (0x2028, 0x2029), (0x202F, 0x202F), (0x205F, 0x205F),
    (0x3000, 0x3000)]

def isBlank (c : Char) : Bool :=
  blankRanges.any fun range => range.1 ≤ c.toNat && c.toNat ≤ range.2

def trimStart (text : Text) : Text :=
  text.dropWhile isBlank

def trimEnd (text : Text) : Text :=
  (text.reverse.dropWhile isBlank).reverse

def trim (text : Text) : Text :=
  trimEnd (trimStart text)

def cut (separates : Char → Bool) : Text → List Text
  | [] => [[]]
  | c :: rest =>
      if separates c then [] :: cut separates rest
      else (cut separates rest).modifyHead (c :: ·)

def words (text : Text) : List Text :=
  (cut isBlank text).filter fun word => !word.isEmpty

def splitFirst (separates : Char → Bool) (text : Text) : Option (Text × Text) :=
  match text.dropWhile fun c => !separates c with
  | [] => none
  | _ :: after => some (text.takeWhile fun c => !separates c, after)

/-- Lines end at a line feed, which takes one carriage return directly before
    it along. A text that ends in a line feed has no empty line after it. -/
def lines : Text → List Text
  | [] => []
  | '\n' :: rest => [] :: lines rest
  | '\r' :: '\n' :: rest => [] :: lines rest
  | c :: rest =>
      match lines rest with
      | [] => [[c]]
      | first :: more => (c :: first) :: more

def byteLength : Text → Nat
  | [] => 0
  | c :: rest => c.utf8Size + byteLength rest

end Text

end MiniAbap
