import MiniAbap.DataType
import MiniAbap.Value

/-!
How a field takes a value. Numeric fields read numbers out of text; the other
fields hold the text that the value is shown as, in the form of their type. A
value that does not fit is a fault. Digits for a field that is too long to be
filled up are no fault: over these the program itself crashes.
-/

namespace MiniAbap

/-- Why something cannot be computed: for a reason that can be reported, or
    because the program crashes over it. -/
inductive Stop (ε : Type) where
  | fault (reason : ε)
  | crash
  deriving DecidableEq

def Stop.map {ε δ : Type} (shape : ε → δ) : Stop ε → Stop δ
  | .fault reason => .fault (shape reason)
  | .crash => .crash

inductive ValueFault where
  | notNumeric
  | notDigits
  | tooLong (length : Nat)
  | notDate
  deriving DecidableEq

/-- The largest length that leading zeros can be filled up to. Longer digit
    fields can be declared and cleared. -/
def widestPadding : Nat := 65535

def ValueFault.details : ValueFault → String
  | .notNumeric => "must be numeric"
  | .notDigits => "must contain only digits"
  | .tooLong length => s!"exceeds the declared length ({length})"
  | .notDate => "must have the format YYYYMMDD"

def ValueFault.message (fault : ValueFault) (variableName : Text) : String :=
  s!"Value assigned to {String.ofList variableName} {fault.details}."

def Value.numeric? (value : Value) : Option Float :=
  let number :=
    match value with
    | .number x => some x
    | .text content => Number.read? (Text.trim content)
    | .truth _ => none
  number.filter Float.isFinite

namespace FieldType

def initial : FieldType → Content
  | .integer | .float | .packed _ _ => .number 0
  | .string => .text []
  | .chars length => .text (List.replicate length ' ')
  | .digits length => .text (List.replicate (length.getD 1) '0')
  | .date => .text (List.replicate 8 '0')

def coerceNumber (value : Value) (shape : Float → Float) : Except (Stop ValueFault) Content :=
  match value.numeric? with
  | some x => .ok (.number (shape x))
  | none => .error (.fault .notNumeric)

def coerceDigits (length : Option Nat) (text : Text) : Except (Stop ValueFault) Content :=
  if Text.isDigits text then
    match length with
    | none => .ok (.text text)
    | some length =>
        if length < text.length then .error (.fault (.tooLong length))
        else if widestPadding < length then .error .crash
        else .ok (.text (List.replicate (length - text.length) '0' ++ text))
  else .error (.fault .notDigits)

def coerce (type : FieldType) (value : Value) : Except (Stop ValueFault) Content :=
  match type with
  | .integer => coerceNumber value Number.truncate
  | .float => coerceNumber value id
  | .packed _ decimals =>
      coerceNumber value fun x => decimals.elim x (Number.roundToDecimals x)
  | .string => .ok (.text value.display)
  | .chars length =>
      let kept := value.display.take length
      .ok (.text (kept ++ List.replicate (length - kept.length) ' '))
  | .digits length => coerceDigits length value.display
  | .date =>
      let text := value.display
      if text.length = 8 && Text.isDigits text then .ok (.text text)
      else .error (.fault .notDate)

end FieldType

end MiniAbap
