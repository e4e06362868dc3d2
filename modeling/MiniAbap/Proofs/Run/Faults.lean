import MiniAbap.Run.Block

/-!
Faults of lookups, of content made for a variable and of loop headers. Each of them
lets the run go on: the fault that stops a run comes from the budget alone.
-/

namespace MiniAbap

def RunError.isFatal : RunError → Bool
  | .passLimit _ => true
  | _ => false

def RunError.IsMinor (fault : RunError) : Prop :=
  fault.isFatal = false

def Stop.IsMinor : Stop RunError → Prop
  | .fault reason => reason.IsMinor
  | .crash => True

def Raises {ε α : Type} (allowed : ε → Prop) (result : Except ε α) : Prop :=
  ∀ error, result = .error error → allowed error

namespace Raises

variable {ε δ α β : Type} {allowed : ε → Prop} {first : Except ε α} {next : α → Except ε β}

theorem ok (value : α) : Raises allowed (.ok value) := by
  intro error failed
  cases failed

theorem error {error : ε} (fits : allowed error) :
    Raises allowed (.error error : Except ε α) := by
  rintro _ ⟨⟩
  exact fits

theorem bind (before : Raises allowed first) (after : ∀ value, Raises allowed (next value)) :
    Raises allowed (first >>= next) := by
  cases first with
  | error found => exact error (before found rfl)
  | ok value => exact after value

theorem map {shape : α → β} (before : Raises allowed first) :
    Raises allowed (first.map shape) := by
  cases first with
  | error found => exact error (before found rfl)
  | ok value => exact ok (shape value)

theorem mapError {shape : ε → δ} {others : δ → Prop} (before : Raises allowed first)
    (turned : ∀ error, allowed error → others (shape error)) :
    Raises others (first.mapError shape) := by
  cases first with
  | error found => exact error (turned found (before found rfl))
  | ok value => exact ok value

end Raises

namespace Environment

variable (env : Environment)

theorem minor_operand (source : Text) : Raises RunError.IsMinor (env.operand source) := by
  simp only [operand]
  split
  · exact .ok _
  · exact .error rfl

theorem minor_contentFor (name : Text) (type : FieldType) (value : Value) :
    Raises Stop.IsMinor (contentFor name type value) := by
  have any : Raises (fun _ => True) (type.coerce value) := fun _ _ => trivial
  refine any.mapError ?_
  rintro (fault | _) _
  · rfl
  · trivial

theorem minor_fieldType (name : Text) : Raises RunError.IsMinor (env.fieldType name) := by
  simp only [fieldType]
  split
  · exact .error rfl
  · exact .ok _
  · exact .error rfl

theorem minor_table (name : Text) : Raises RunError.IsMinor (env.table name) := by
  simp only [table]
  split
  · exact .error rfl
  · exact .error rfl
  · exact .ok _

theorem minor_copyRows (name : Text) (type : RowType) (rows : List Content) :
    Raises Stop.IsMinor (copyRows name type rows) := by
  induction rows with
  | nil => exact .ok _
  | cons row rest ih =>
      refine .bind (minor_contentFor name _ _) fun _ => .bind ih fun _ => .ok _

theorem minor_initialRows (name : Text) (type : RowType) (source : Text) :
    Raises Stop.IsMinor (env.initialRows name type source) := by
  fun_cases initialRows env name type source with
  | case1 | case2 | case4 => exact .error rfl
  | case3 _ _ rows _ => exact .map (minor_copyRows name type rows.toList)

theorem minor_initialVariable (name : Text) (type : DataType) (value : Option Text) :
    Raises Stop.IsMinor (env.initialVariable name type value) := by
  fun_cases initialVariable env name type value with
  | case1 => exact .ok _
  | case2 source type =>
      have operand : Raises Stop.IsMinor ((env.operand source).mapError .fault) :=
        (env.minor_operand source).mapError fun _ minor => minor
      exact operand.bind fun value => .bind (minor_contentFor name type value) fun _ => .ok _
  | case3 source type =>
      exact .bind (env.minor_initialRows name type source) fun _ => .ok _

theorem minor_itemTexts (items : List WriteItem) :
    Raises RunError.IsMinor (env.itemTexts items) := by
  induction items with
  | nil => exact .ok _
  | cons item rest ih =>
      have others (text : Option Text) := Raises.bind ih fun texts =>
        .ok ((item.newLine, text) :: texts)
      simp only [itemTexts]
      split
      · exact others none
      · exact .bind (env.minor_operand _) fun value => others (some value.display)

end Environment

namespace Loop

theorem minor_count (env : Environment) (source : Text) :
    Raises RunError.IsMinor (count env source) := by
  simp only [count]
  refine .bind (env.minor_operand source) fun value => ?_
  split
  · exact .ok _
  · exact .error rfl

theorem minor_entry (env : Environment) (table workArea : Text) :
    Raises RunError.IsMinor (entry env table workArea) := by
  simp only [entry]
  refine .bind (env.minor_table table) fun _ => .bind (env.minor_fieldType workArea) fun _ => ?_
  split
  · exact .ok _
  · exact .error rfl

end Loop

end MiniAbap
