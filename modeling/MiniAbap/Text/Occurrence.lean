import MiniAbap.Text.Literal
import MiniAbap.Text.Name

/-!
Whole-word occurrences of a keyword outside the literals of a text. An
occurrence is kept as the way it divides the text; where it starts is a
measure of its first part.
-/

namespace MiniAbap.Text

structure Occurrence where
  before : Text
  found : Text
  after : Text
  deriving DecidableEq

def Occurrence.offset (occurrence : Occurrence) : Nat :=
  byteLength occurrence.before

def endsWord (rest : Text) : Bool :=
  !rest.head?.any isNameChar

def matchWord (keyword text : Text) : Option (Text × Text) :=
  let found := text.take keyword.length
  let after := text.drop keyword.length
  if sameWord found keyword && endsWord after then some (found, after) else none

/-- Occurrences from a point of a text on. `passed` holds what lies before the
    point, nearest character first. -/
def occurrencesFrom (keyword passed : Text) (quote : Option Char) :
    Text → List Occurrence
  | [] => []
  | c :: rest =>
      let later := occurrencesFrom keyword (c :: passed) (advance quote c) rest
      if quote.isNone && !isQuote c && endsWord passed then
        match matchWord keyword (c :: rest) with
        | some (found, after) => ⟨passed.reverse, found, after⟩ :: later
        | none => later
      else later

def occurrences (keyword text : Text) : List Occurrence :=
  occurrencesFrom keyword [] none text

def Occurrence.halves (occurrence : Occurrence) : Text × Text :=
  (trim occurrence.before, trim occurrence.after)

def splitAtFirst (keyword text : Text) : Option (Text × Text) :=
  (occurrences keyword text).head?.map Occurrence.halves

def splitAtLast (keyword text : Text) : Option (Text × Text) :=
  (occurrences keyword text).getLast?.map Occurrence.halves

def stripTrailing (keyword text : Text) : Option Text :=
  match (occurrences keyword (trimEnd text)).getLast? with
  | some occurrence =>
      if occurrence.after.isEmpty then some (trimEnd occurrence.before) else none
  | none => none

end MiniAbap.Text
