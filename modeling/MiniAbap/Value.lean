import MiniAbap.Number.Decimal

/-!
Values of expressions and the content of variables. Comparisons give truth
values; these are never stored as such, so content is a number or a text.
-/

namespace MiniAbap

inductive Kind where
  | number
  | text
  | truth
  deriving DecidableEq

def Kind.phrase : Kind → String
  | .number => "a number"
  | .text => "a string"
  | .truth => "a boolean"

inductive Value where
  | number (value : Float)
  | text (content : Text)
  | truth (holds : Bool)

inductive Content where
  | number (value : Float)
  | text (content : Text)

namespace Value

def kind : Value → Kind
  | .number _ => .number
  | .text _ => .text
  | .truth _ => .truth

def ofContent : Content → Value
  | .number value => .number value
  | .text content => .text content

def display : Value → Text
  | .number value => Number.text value
  | .text content => content
  | .truth true => "TRUE".toList
  | .truth false => "FALSE".toList

/-- Whether the value passes as a condition of its own. A number that compares
    equal to zero does not, nor does the empty text. -/
def isTrue : Value → Bool
  | .number value => value != 0
  | .text content => !content.isEmpty
  | .truth holds => holds

end Value

end MiniAbap
