import MiniAbap.Text.Basic

/-!
Quoted literals. A literal runs from an apostrophe or a grave accent to the
next equal character; there are no escapes. Scans over a text carry the quote
that is open, if any, from character to character.
-/

namespace MiniAbap.Text

def isQuote (c : Char) : Bool :=
  c == '\x27' || c == '\x60'

def advance (quote : Option Char) (c : Char) : Option Char :=
  match quote with
  | some opened => if c = opened then none else some opened
  | none => if isQuote c then some c else none

def advanceAll (quote : Option Char) (text : Text) : Option Char :=
  text.foldl advance quote

def closesQuotes (text : Text) : Bool :=
  (advanceAll none text).isNone

def splitOutsideFrom (separator : Char) : Option Char → Text → List Text
  | _, [] => [[]]
  | quote, c :: rest =>
      if quote.isNone && !isQuote c && c == separator then
        [] :: splitOutsideFrom separator none rest
      else
        (splitOutsideFrom separator (advance quote c) rest).modifyHead (c :: ·)

def splitOutside (separator : Char) (text : Text) : List Text :=
  splitOutsideFrom separator none text

end MiniAbap.Text
