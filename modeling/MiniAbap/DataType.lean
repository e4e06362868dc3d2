import MiniAbap.Text.Name

/-!
Types of variables. An elementary field holds one value in the form its type
prescribes; an internal table holds rows of one of two types. A declaration
names a type with an optional length and number of decimals, and each type says
which of the two it takes.
-/

namespace MiniAbap

inductive TypeName where
  | i
  | f
  | p
  | string
  | c
  | n
  | d
  deriving DecidableEq

namespace TypeName

def all : List TypeName :=
  [.i, .f, .p, .string, .c, .n, .d]

def title : TypeName → String
  | .i => "I"
  | .f => "F"
  | .p => "P"
  | .string => "STRING"
  | .c => "C"
  | .n => "N"
  | .d => "D"

def ofText? (text : Text) : Option TypeName :=
  all.find? fun name => Text.sameWord name.title.toList text

def takesLength : TypeName → Bool
  | .p | .c | .n => true
  | .i | .f | .d | .string => false

def takesDecimals : TypeName → Bool
  | .p => true
  | .i | .f | .d | .string | .c | .n => false

end TypeName

inductive TypeClause where
  | field (typeName : Text) (length decimals : Option Nat)
  | table (rowType : Text)
  deriving DecidableEq

inductive FieldType where
  /-- Whole numbers, cut towards zero. -/
  | integer
  /-- Double precision numbers. -/
  | float
  /-- Decimal numbers, rounded to their decimals where these are given. -/
  | packed (length decimals : Option Nat)
  /-- Text of any length. -/
  | string
  /-- Text of a fixed length, cut or filled up with spaces. -/
  | chars (length : Nat)
  /-- Digits, filled up with leading zeros to a length where one is given. -/
  | digits (length : Option Nat)
  /-- Eight digits: year, month and day. -/
  | date
  deriving DecidableEq

inductive RowType where
  | integer
  | string
  deriving DecidableEq

inductive DataType where
  | field (type : FieldType)
  | table (rows : RowType)
  deriving DecidableEq

inductive TypeFault where
  | unknownType (typeName : Text)
  | unsupportedRows (typeName : Text)
  | lengthNotPositive
  | lengthTooLarge
  | refusesLength (name : TypeName)
  | refusesDecimals (name : TypeName)
  | decimalsExceedLength
  deriving DecidableEq

def longestField : Nat := 262143

def TypeFault.message (fault : TypeFault) (variableName : Text) : String :=
  let name := String.ofList variableName
  let invalid := fun (details : String) => s!"Invalid declaration of {name}: {details}."
  match fault with
  | .unknownType typeName =>
      s!"Type \"{String.ofList typeName}\" is not supported for variable {name}."
  | .unsupportedRows typeName =>
      let shown := String.ofList typeName
      s!"Internal tables of type \"{shown}\" are not supported (variable {name})."
  | .lengthNotPositive => invalid "LENGTH must be a positive integer"
  | .lengthTooLarge => invalid s!"LENGTH cannot exceed {longestField}"
  | .refusesLength type => invalid s!"type {type.title} does not accept LENGTH"
  | .refusesDecimals type => invalid s!"type {type.title} does not accept DECIMALS"
  | .decimalsExceedLength => invalid "DECIMALS cannot exceed LENGTH"

namespace FieldType

def isNumeric : FieldType → Bool
  | .integer | .float | .packed _ _ => true
  | .string | .chars _ | .digits _ | .date => false

/-- The field type of a name with its parameters, checked in this order: the
    range of the length, whether the type takes the parameters, and how they
    relate. -/
def ofName (name : TypeName) (length decimals : Option Nat) :
    Except TypeFault FieldType :=
  if length = some 0 then .error .lengthNotPositive
  else if length.any (longestField < ·) then .error .lengthTooLarge
  else if length.isSome && !name.takesLength then .error (.refusesLength name)
  else if decimals.isSome && !name.takesDecimals then .error (.refusesDecimals name)
  else
    match name with
    | .i => .ok .integer
    | .f => .ok .float
    | .p =>
        if length.any fun length => decimals.any (length < ·) then
          .error .decimalsExceedLength
        else .ok (.packed length decimals)
    | .string => .ok .string
    | .c => .ok (.chars (length.getD 1))
    | .n => .ok (.digits length)
    | .d => .ok .date

end FieldType

namespace RowType

def fieldType : RowType → FieldType
  | .integer => .integer
  | .string => .string

def fits (rows : RowType) (workArea : FieldType) : Bool :=
  match rows with
  | .integer => workArea.isNumeric
  | .string => !workArea.isNumeric

def phrase : RowType → String
  | .integer => "integer"
  | .string => "string"

def ofText? (text : Text) : Option RowType :=
  if Text.sameWord text "i".toList then some .integer
  else if Text.sameWord text "string".toList then some .string
  else none

end RowType

namespace DataType

def ofClause : TypeClause → Except TypeFault DataType
  | .table rowType =>
      match RowType.ofText? rowType with
      | some rows => .ok (.table rows)
      | none => .error (.unsupportedRows rowType)
  | .field typeName length decimals =>
      match TypeName.ofText? typeName with
      | some name => (FieldType.ofName name length decimals).map .field
      | none => .error (.unknownType (Text.lower typeName))

end DataType

end MiniAbap
