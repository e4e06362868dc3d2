import MiniAbap.Coercion

/-!
The variables of a run. A variable keeps its declared type next to content of
that type's shape, and stands under its name in lower case. Lookups take names
as written.
-/

namespace MiniAbap

/-- The rows of an internal table, kept latest first. -/
structure Rows where
  latestFirst : List Content := []

namespace Rows

def toList (rows : Rows) : List Content :=
  rows.latestFirst.reverse

def ofList (rows : List Content) : Rows :=
  ⟨rows.reverse⟩

def push (rows : Rows) (row : Content) : Rows :=
  ⟨row :: rows.latestFirst⟩

@[simp] theorem toList_ofList (rows : List Content) : (ofList rows).toList = rows := by
  simp [toList, ofList]

@[simp] theorem toList_push (rows : Rows) (row : Content) :
    (rows.push row).toList = rows.toList ++ [row] := by
  simp [toList, push]

end Rows

inductive Variable where
  | field (type : FieldType) (content : Content)
  | table (type : RowType) (rows : Rows)

namespace Variable

def type : Variable → DataType
  | .field type _ => .field type
  | .table type _ => .table type

def initial : DataType → Variable
  | .field type => .field type type.initial
  | .table type => .table type {}

def fieldType? : Variable → Option FieldType
  | .field type _ => some type
  | .table _ _ => none

@[simp] theorem type_initial (type : DataType) : (initial type).type = type := by
  cases type <;> rfl

end Variable

/-- Variables under their folded names, each name at most once. -/
structure Environment where
  entries : List (Text × Variable) := []

namespace Environment

def size (env : Environment) : Nat :=
  env.entries.length

def find? (key : Text) : List (Text × Variable) → Option Variable
  | [] => none
  | (name, found) :: rest => if name = key then some found else find? key rest

def put (key : Text) (new : Variable) : List (Text × Variable) → List (Text × Variable)
  | [] => [(key, new)]
  | (name, old) :: rest =>
      if name = key then (key, new) :: rest else (name, old) :: put key new rest

def get? (env : Environment) (name : Text) : Option Variable :=
  find? (Text.lower name) env.entries

def declare (env : Environment) (name : Text) (new : Variable) : Environment :=
  ⟨put (Text.lower name) new env.entries⟩

theorem find?_put (key other : Text) (new : Variable)
    (entries : List (Text × Variable)) :
    find? other (put key new entries) =
      if key = other then some new else find? other entries := by
  induction entries with
  | nil => simp [put, find?]
  | cons entry rest ih =>
      obtain ⟨name, old⟩ := entry
      simp only [put]
      split
      · next same => subst same; by_cases here : name = other <;> simp [find?, here]
      · next different =>
          by_cases here : name = other
          · subst here; simp [find?, Ne.symm different]
          · simp [find?, here, ih]

/-- What a declaration does to a lookup: it decides those of its own name and
    leaves the others alone. -/
theorem get?_declare (env : Environment) (name other : Text) (new : Variable) :
    (env.declare name new).get? other =
      if Text.lower name = Text.lower other then some new else env.get? other :=
  find?_put _ _ _ _

end Environment

end MiniAbap
