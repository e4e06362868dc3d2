import MiniAbap.Proofs.Run.Faults

/-!
What a run can do in one step. Every write to a variable is one of four changes,
whichever statement makes it, and each of them keeps the types of all variables.
A statement that writes one variable does so at its very end, so one that fails or
crashes ends in the state it began in. A walk is a sequence of steps with the states
that they pass.
-/

namespace MiniAbap

namespace Environment

inductive Changes (env : Environment) : Environment → Prop where
  | declared {name : Text} {clause : TypeClause} {type : DataType} {value : Option Text}
      {new : Variable} (described : DataType.ofClause clause = .ok type)
      (agrees : ∀ old, env.get? name = some old → old.type = type)
      (initial : env.initialVariable name type value = .ok new) :
      Changes env (env.declare name new)
  | stored {name : Text} {type : FieldType} {value : Value} {content : Content}
      (found : env.fieldType name = .ok type) (coerced : type.coerce value = .ok content) :
      Changes env (env.declare name (.field type content))
  | cleared {name : Text} {old : Variable} (found : env.get? name = some old) :
      Changes env (env.declare name (.initial old.type))
  | appended {name : Text} {type : RowType} {rows : Rows} {value : Value} {row : Content}
      (found : env.table name = .ok (type, rows))
      (coerced : type.fieldType.coerce value = .ok row) :
      Changes env (env.declare name (.table type (rows.push row)))

section Reading

theorem bind_eq_ok {ε α β : Type} {first : Except ε α} {next : α → Except ε β} {result : β} :
    first >>= next = .ok result ↔ ∃ found, first = .ok found ∧ next found = .ok result := by
  cases first <;> simp [bind, Except.bind]

theorem map_eq_ok {ε α β : Type} {first : Except ε α} {shape : α → β} {result : β} :
    first.map shape = .ok result ↔ ∃ found, first = .ok found ∧ shape found = result := by
  cases first <;> simp [Except.map]

theorem mapError_eq_ok {ε δ α : Type} {first : Except ε α} {shape : ε → δ} {value : α} :
    first.mapError shape = .ok value ↔ first = .ok value := by
  cases first with
  | error found => constructor <;> nofun
  | ok found =>
      constructor
      · rintro ⟨⟩
        rfl
      · rintro ⟨⟩
        rfl

theorem contentFor_eq_ok {name : Text} {type : FieldType} {value : Value} {content : Content} :
    contentFor name type value = .ok content ↔ type.coerce value = .ok content :=
  mapError_eq_ok

theorem fieldType_eq_ok {env : Environment} {name : Text} {type : FieldType} :
    env.fieldType name = .ok type ↔ ∃ content, env.get? name = some (.field type content) := by
  simp only [fieldType]
  split <;> simp_all

theorem table_eq_ok {env : Environment} {name : Text} {type : RowType} {rows : Rows} :
    env.table name = .ok (type, rows) ↔ env.get? name = some (.table type rows) := by
  simp only [table]
  split <;> simp_all

end Reading

section Types

theorem type_of_initialVariable {env : Environment} {name : Text} {type : DataType}
    {value : Option Text} {new : Variable}
    (initial : env.initialVariable name type value = .ok new) : new.type = type := by
  simp only [initialVariable] at initial
  split at initial
  · cases initial
    exact Variable.type_initial type
  · obtain ⟨value, evaluated, initial⟩ := bind_eq_ok.mp initial
    obtain ⟨content, coerced, written⟩ := bind_eq_ok.mp initial
    cases written
    rfl
  · obtain ⟨rows, copied, written⟩ := bind_eq_ok.mp initial
    cases written
    rfl

-- A change declares one name, with the type that the name has already if it is
-- declared.
theorem Changes.declare_same_type {env next : Environment} (changes : env.Changes next) :
    ∃ name new, next = env.declare name new ∧
      ∀ old, env.get? name = some old → new.type = old.type := by
  cases changes with
  | @declared name _ type _ new _ agrees initial =>
      refine ⟨name, new, rfl, ?_⟩
      intro old found
      rw [type_of_initialVariable initial, agrees old found]
  | @stored name type _ content found _ =>
      refine ⟨name, .field type content, rfl, ?_⟩
      obtain ⟨earlier, known⟩ := fieldType_eq_ok.mp found
      intro old found
      rw [known] at found
      cases found
      rfl
  | @cleared name earlier known =>
      refine ⟨name, .initial earlier.type, rfl, ?_⟩
      intro old found
      rw [known] at found
      cases found
      exact Variable.type_initial _
  | @appended name type rows _ row found _ =>
      refine ⟨name, .table type (rows.push row), rfl, ?_⟩
      intro old known
      rw [table_eq_ok.mp found] at known
      cases known
      rfl

theorem Changes.type_kept {env next : Environment} (changes : env.Changes next) {name : Text}
    {old : Variable} (found : env.get? name = some old) :
    ∃ new, next.get? name = some new ∧ new.type = old.type := by
  obtain ⟨target, written, rfl, same⟩ := changes.declare_same_type
  rw [get?_declare]
  split
  · next here =>
      refine ⟨written, rfl, same old ?_⟩
      rw [get?, here]
      exact found
  · exact ⟨old, found, rfl⟩

theorem Changes.fieldType_kept {env next : Environment} (changes : env.Changes next)
    {name : Text} {type : FieldType} (found : env.fieldType name = .ok type) :
    next.fieldType name = .ok type := by
  obtain ⟨content, known⟩ := fieldType_eq_ok.mp found
  obtain ⟨new, stands, same⟩ := changes.type_kept known
  cases new with
  | field newType newContent =>
      cases same
      exact fieldType_eq_ok.mpr ⟨newContent, stands⟩
  | table rowType rows => cases same

end Types

end Environment

namespace State

/-- How a piece of work can end that writes one variable: it writes the variable and is
    done, or it has changed nothing. -/
inductive Attempts (state : State) (name : Text) : Outcome → Prop where
  | written {new : Variable} (changes : state.env.Changes (state.env.declare name new)) :
      Attempts state name (.done (state.declare name new))
  | failed {fault : RunError} (minor : fault.IsMinor) : Attempts state name (.failed fault state)
  | crashed : Attempts state name (.crashed state)

section Attempting

variable {α : Type} {name : Text}

theorem Attempts.require {state : State} {found : Except RunError α} {next : α → Outcome}
    (minor : Raises RunError.IsMinor found)
    (later : ∀ value, found = .ok value → state.Attempts name (next value)) :
    state.Attempts name (state.require found next) := by
  cases found with
  | error fault => exact .failed (minor fault rfl)
  | ok value => exact later value rfl

theorem Attempts.produce {state : State} {made : Except (Stop RunError) α} {next : α → Outcome}
    (minor : Raises Stop.IsMinor made)
    (later : ∀ value, made = .ok value → state.Attempts name (next value)) :
    state.Attempts name (state.produce made next) := by
  cases made with
  | error stop =>
      cases stop with
      | fault fault => exact .failed (minor (.fault fault) rfl)
      | crash => exact .crashed
  | ok value => exact later value rfl

variable (state : State)

theorem attempts_runDeclaration (declaration : Declaration) :
    state.Attempts declaration.name (state.runDeclaration declaration) := by
  simp only [runDeclaration]
  split
  · exact .failed rfl
  · next type described =>
      split
      · exact .failed rfl
      · next agrees =>
          apply Attempts.produce (state.env.minor_initialVariable _ _ _)
          intro new initial
          refine .written (.declared described ?_ initial)
          intro old found
          simpa [found] using agrees

theorem attempts_store {target : Text} {type : FieldType} (value : Value)
    (found : state.env.fieldType target = .ok type) :
    state.Attempts target (state.store target type value) := by
  apply Attempts.produce (Environment.minor_contentFor target type value)
  intro content made
  exact .written (.stored found (Environment.contentFor_eq_ok.mp made))

theorem attempts_runTally (form : Form) (combine : Float → Float → Float)
    (amount target : Text) : state.Attempts target (state.runTally form combine amount target) := by
  apply Attempts.require (state.env.minor_fieldType target)
  intro type found
  split
  · apply Attempts.require (state.env.minor_operand amount)
    intro value _
    apply Attempts.produce (Environment.minor_contentFor target type value)
    intro change _
    split
    · exact state.attempts_store _ found
    · exact .failed rfl
  · exact .failed rfl

theorem attempts_runClear (target : Text) : state.Attempts target (state.runClear target) := by
  simp only [runClear]
  split
  · exact .failed rfl
  · next found => exact .written (.cleared found)

theorem attempts_runAppend (value table : Text) :
    state.Attempts table (state.runAppend value table) := by
  apply Attempts.require (state.env.minor_table table)
  rintro ⟨type, rows⟩ found
  apply Attempts.require (state.env.minor_operand value)
  intro value _
  apply Attempts.produce (Environment.minor_contentFor table type.fieldType value)
  intro row made
  exact .written (.appended found (Environment.contentFor_eq_ok.mp made))

theorem attempts_runAssign (target value : Text) :
    state.Attempts target (state.runAssign target value) := by
  apply Attempts.require (state.env.minor_fieldType target)
  intro type found
  apply Attempts.require (state.env.minor_operand value)
  intro value _
  exact state.attempts_store value found

theorem attempts_bindRow {workArea : Text} {type : FieldType} (row : Content)
    (found : state.env.fieldType workArea = .ok type) :
    state.Attempts workArea (Loop.bindRow workArea type row state) :=
  state.attempts_store (.ofContent row) found

end Attempting

/-- One step of a run. A started loop pass is a step of its own, before anything
    in its body. -/
inductive Step : State → State → Prop where
  | change {state : State} {env : Environment} (changes : state.env.Changes env) :
      Step state { state with env }
  | newLine (state : State) : Step state { state with output := state.output.newLine }
  | write (state : State) (text : Text) :
      Step state { state with output := state.output.write text }
  | record (state : State) (fault : RunError) : Step state (state.record fault)
  | count (state : State) : Step state { state with passes := state.passes + 1 }

/-- Steps from the first state to the last one; the list has every state after
    the first. -/
inductive Walk : State → List State → State → Prop where
  | stay (state : State) : Walk state [] state
  | step {state next last : State} {rest : List State} (first : Step state next)
      (others : Walk next rest last) : Walk state (next :: rest) last

namespace Walk

variable {first middle last : State} {states more : List State}

theorem single (step : Step first last) : Walk first [last] last :=
  .step step (.stay last)

theorem append (before : Walk first states middle) (after : Walk middle more last) :
    Walk first (states ++ more) last := by
  induction before with
  | stay => exact after
  | step step _ ih => exact .step step (ih after)

theorem last_mem (walk : Walk first states last) : last ∈ first :: states := by
  induction walk with
  | stay => exact List.mem_cons_self
  | step _ _ ih => exact List.mem_cons_of_mem _ ih

-- What every step preserves holds of all the states of a walk.
theorem invariant (holds : State → Prop)
    (kept : ∀ {before after : State}, Step before after → holds before → holds after)
    (walk : Walk first states last) (initially : holds first) :
    ∀ state ∈ first :: states, holds state := by
  induction walk with
  | stay => simpa using initially
  | step step _ ih =>
      intro state member
      rcases List.mem_cons.mp member with rfl | later
      · exact initially
      · exact ih (kept step initially) state later

theorem fieldType_kept {name : Text} {type : FieldType} (walk : Walk first states last)
    (found : first.env.fieldType name = .ok type) : last.env.fieldType name = .ok type := by
  refine walk.invariant (fun state => state.env.fieldType name = .ok type) ?_ found last
    walk.last_mem
  intro before after step found
  cases step with
  | change changes => exact changes.fieldType_kept found
  | newLine | write | record | count => exact found

end Walk

end State

end MiniAbap
