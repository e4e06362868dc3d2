import MiniAbap.Proofs.Run.Budget
import MiniAbap.Proofs.Run.Typing

/-!
Loops over tables. The rows are those that the table has on entry, and the work area
keeps its type, so every pass starts as the loop promises it, whatever the passes before
it did to the table, to the work area or to any other variable. Only a pass that crashes
leaves rows behind which the budget does not refuse.
-/

namespace MiniAbap

namespace Loop

section Rules

/-- The pass for the row starts here: the work area has the row in the form of its type,
    one pass more is counted, and all else is as before. -/
structure StartsPass (workArea : Text) (type : FieldType) (row : Content)
    (before start : State) : Prop where
  declared : ∃ old, before.env.get? workArea = some (.field type old)
  taken : ∃ content, type.coerce (.ofContent row) = .ok content ∧
    start.env = before.env.declare workArea (.field type content) ∧
    start.env.get? workArea = some (.field type content)
  others : ∀ name, Text.lower name ≠ Text.lower workArea →
    start.env.get? name = before.env.get? name
  output : start.output = before.output
  faults : start.faults = before.faults
  passes : start.passes = before.passes + 1

/-- One pass of the body for each row, in order, each from where the last one ended. Only
    the budget ends them early: it refuses a pass, or stops the body of one. -/
inductive Visits (limit : Nat) (workArea : Text) (type : FieldType) (body : List Node) :
    List Content → State → Outcome → Prop where
  | finished (state : State) : Visits limit workArea type body [] state (.done state)
  | pass {row : Content} {rest : List Content} {state start next : State} {outcome : Outcome}
      (within : state.passes < limit) (starts : StartsPass workArea type row state start)
      (ran : Block.run limit body start = .done next)
      (others : Visits limit workArea type body rest next outcome) :
      Visits limit workArea type body (row :: rest) state outcome
  | stopped {row : Content} {rest : List Content} {state start last : State}
      (within : state.passes < limit) (starts : StartsPass workArea type row state start)
      (ran : Block.run limit body start = .exhausted last) :
      Visits limit workArea type body (row :: rest) state (.exhausted last)
  | refused {row : Content} {rest : List Content} {state : State}
      (full : limit ≤ state.passes) :
      Visits limit workArea type body (row :: rest) state
        (.exhausted { state with passes := state.passes + 1 })

/-- The pass for one of the rows crashes, after a whole pass for each row before it. -/
inductive CrashesIn (limit : Nat) (workArea : Text) (type : FieldType) (body : List Node) :
    List Content → State → State → Prop where
  | pass (before : List Content) {after : List Content} {row : Content}
      {state middle start last : State}
      (visited : Visits limit workArea type body before state (.done middle))
      (within : middle.passes < limit) (starts : StartsPass workArea type row middle start)
      (ran : Block.run limit body start = .crashed last) :
      CrashesIn limit workArea type body (before ++ row :: after) state last

end Rules

section Visiting

variable {limit : Nat} {workArea : Text} {type : FieldType} {body : List Node}
  {rows : List Content} {state : State}

theorem Visits.ne_failed {outcome : Outcome}
    (visits : Visits limit workArea type body rows state outcome) (fault : RunError)
    (last : State) : outcome ≠ .failed fault last := by
  induction visits with
  | finished => nofun
  | pass _ _ _ _ ih => exact ih
  | stopped => nofun
  | refused => nofun

theorem Visits.survives {outcome : Outcome}
    (visits : Visits limit workArea type body rows state outcome) :
    outcome.isCrashed = false := by
  induction visits with
  | pass _ _ _ _ ih => exact ih
  | finished | stopped | refused => rfl

theorem CrashesIn.later {row : Content} {start next last : State}
    (within : state.passes < limit) (starts : StartsPass workArea type row state start)
    (ran : Block.run limit body start = .done next)
    (crashes : CrashesIn limit workArea type body rows next last) :
    CrashesIn limit workArea type body (row :: rows) state last := by
  cases crashes with
  | pass before visited room begins crashed =>
      exact .pass (row :: before) (.pass within starts ran visited) room begins crashed

end Visiting

end Loop

section Rows

-- Rows of numbers are finite, and such a number goes into every numeric field.
theorem RowType.exists_coerce {rowType : RowType} {type : FieldType} {row : Content}
    (held : rowType.fieldType.Holds row) (fits : rowType.fits type = true)
    (simple : rowType = .integer ∨ type = .string ∨ ∃ length, type = .chars length) :
    ∃ content, type.coerce (.ofContent row) = .ok content := by
  cases rowType with
  | integer =>
      cases row with
      | text content => exact held.elim
      | number x =>
          have numeric : Value.numeric? (.number x) = some x := by
            simp [Value.numeric?, held.1]
          have taken (shape : Float → Float) :
              FieldType.coerceNumber (.ofContent (.number x)) shape = .ok (.number (shape x)) := by
            rw [FieldType.coerceNumber, Value.ofContent, numeric]
          cases type with
          | integer | float | packed => exact ⟨_, taken _⟩
          | string | chars | digits | date => cases fits
  | string =>
      rcases simple with other | rfl | ⟨length, rfl⟩
      · cases other
      · exact ⟨_, rfl⟩
      · exact ⟨_, rfl⟩

end Rows

namespace Loop

variable {limit : Nat} {workArea : Text} {type : FieldType} {body : List Node}

theorem startsPass_declare {row content : Content} {state : State}
    (found : state.env.fieldType workArea = .ok type)
    (coerced : type.coerce (.ofContent row) = .ok content) :
    StartsPass workArea type row state
      { state with
        env := state.env.declare workArea (.field type content)
        passes := state.passes + 1 } where
  declared := Environment.fieldType_eq_ok.mp found
  taken := by
    refine ⟨content, coerced, rfl, ?_⟩
    rw [Environment.get?_declare, if_pos rfl]
  others := by
    intro name different
    rw [Environment.get?_declare, if_neg (Ne.symm different)]
  output := rfl
  faults := rfl
  passes := rfl

-- A body that ends leaves the work area with its type, so the next row can be bound.
theorem StartsPass.fieldType_kept {row : Content} {state start next : State}
    (starts : StartsPass workArea type row state start)
    (ran : Block.run limit body start = .done next) :
    next.env.fieldType workArea = .ok type := by
  obtain ⟨content, _, _, stands⟩ := starts.taken
  have walk := Block.walk limit body start
  rw [ran] at walk
  exact walk.fieldType_kept (Environment.fieldType_eq_ok.mpr ⟨content, stands⟩)

theorem bindRow_eq_done {row content : Content} (state : State)
    (coerced : type.coerce (.ofContent row) = .ok content) :
    bindRow workArea type row state =
      .done { state with env := state.env.declare workArea (.field type content) } := by
  rw [bindRow, State.store, Environment.contentFor, coerced]
  rfl

theorem visits_or_crashes (rows : List Content) (state : State)
    (found : state.env.fieldType workArea = .ok type)
    (taken : ∀ row ∈ rows, ∃ content, type.coerce (.ofContent row) = .ok content) :
    let outcome := overRows limit workArea type (fun state => Block.run limit body state) rows
      state
    Visits limit workArea type body rows state outcome ∨
      ∃ last, outcome = .crashed last ∧ CrashesIn limit workArea type body rows state last := by
  induction rows generalizing state with
  | nil => exact .inl (.finished state)
  | cons row rest ih =>
      obtain ⟨⟨content, coerced⟩, others⟩ := List.forall_mem_cons.mp taken
      have starts := startsPass_declare found coerced
      simp only [overRows, State.pass, bindRow_eq_done _ coerced]
      split
      · next full => exact .inl (.refused (Nat.le_of_lt_succ full))
      · next within =>
          have room : state.passes < limit := Nat.lt_of_succ_le (Nat.le_of_not_lt within)
          simp only [Outcome.andThen]
          cases ran : Block.run limit body
              { state with
                env := state.env.declare workArea (.field type content)
                passes := state.passes + 1 } with
          | done next =>
              rcases ih next (starts.fieldType_kept ran) others with visits | ⟨last, ended, crashes⟩
              · exact .inl (.pass room starts ran visits)
              · exact .inr ⟨last, ended, crashes.later room starts ran⟩
          | failed fault last => exact absurd ran (Block.run_ne_failed _ _ _ _ _)
          | exhausted last => exact .inl (.stopped room starts ran)
          | crashed last =>
              exact .inr ⟨last, rfl, .pass [] (.finished state) room starts ran⟩

end Loop

namespace Program

/-- In every state of a run, a loop over a table visits the rows that the table has on
    entry, and fails for no reason but the budget, whatever its body does, unless one of
    its passes crashes. -/
theorem table_loop_visits_snapshot (limit : Nat) (source : Text) (state : State)
    (reached : state ∈ states limit source) {table workArea : Text} {rowType : RowType}
    {rows : Rows} {type : FieldType} {old : Content}
    (found : state.env.get? table = some (.table rowType rows))
    (area : state.env.get? workArea = some (.field type old))
    (fits : rowType.fits type = true)
    (simple : rowType = .integer ∨ type = .string ∨ ∃ length, type = .chars length)
    (body : List Node) :
    let outcome := Node.run limit (.overRows table workArea body) state
    (outcome.isCrashed = false ↔
      Loop.Visits limit workArea type body rows.toList state outcome) ∧
    (∀ fault last, outcome ≠ .failed fault last) ∧
    ∀ last, outcome = .crashed last →
      Loop.CrashesIn limit workArea type body rows.toList state last := by
  intro outcome
  have typed : state.env.WellTyped := by
    refine invariant_of_mem_states State.Step.wellTyped ?_ state reached
    intro entry member
    cases member
  have declared : state.env.fieldType workArea = .ok type :=
    Environment.fieldType_eq_ok.mpr ⟨old, area⟩
  have entered : Loop.entry state.env table workArea = .ok (rows.toList, type) := by
    simp only [Loop.entry, Environment.table_eq_ok.mpr found, declared]
    simp [bind, Except.bind, fits, pure, Except.pure]
  have taken : ∀ row ∈ rows.toList, ∃ content, type.coerce (.ofContent row) = .ok content :=
    fun row member => RowType.exists_coerce (typed.get? found row member) fits simple
  have either : Loop.Visits limit workArea type body rows.toList state outcome ∨
      ∃ last, outcome = .crashed last ∧
        Loop.CrashesIn limit workArea type body rows.toList state last := by
    simp only [outcome, Node.run, entered]
    exact Loop.visits_or_crashes rows.toList state declared taken
  rcases either with visits | ⟨last, crashed, crashes⟩
  · refine ⟨⟨fun _ => visits, Loop.Visits.survives⟩, visits.ne_failed, ?_⟩
    intro last crashed
    have survives := visits.survives
    rw [crashed] at survives
    cases survives
  · rw [crashed]
    refine ⟨⟨?_, Loop.Visits.survives⟩, ?_, ?_⟩
    · intro survives
      cases survives
    · intro fault other same
      cases same
    · intro other same
      cases same
      exact crashes

def rowsSample : Text :=
  "DATA t TYPE STANDARD TABLE OF i. APPEND 1 TO t. APPEND 2 TO t. DATA x TYPE i.".toList

-- The body adds to the table it is called for, empties it and declares both names again.
def meddlingBody : List Node :=
  [.leaf "APPEND x TO t".toList (.append "x".toList "t".toList),
    .leaf "CLEAR t".toList (.clear "t".toList),
    .leaf "DATA".toList (.data
      [⟨"t".toList, .table "i".toList, none⟩, ⟨"x".toList, .field "i".toList none none, none⟩])]

def loopTypes? (env : Environment) (table workArea : Text) :
    Option (RowType × Nat × FieldType) :=
  match env.get? table, env.get? workArea with
  | some (.table rowType rows), some (.field type _) => some (rowType, rows.toList.length, type)
  | _, _ => none

theorem table_loop_visits_snapshot_meddling :
    ∃ state ∈ states 9 rowsSample, ∃ rows old,
      state.env.get? "t".toList = some (.table .integer rows) ∧ rows.toList.length = 2 ∧
      state.env.get? "x".toList = some (.field .integer old) ∧
      Loop.Visits 9 "x".toList .integer meddlingBody rows.toList state
        (Node.run 9 (.overRows "t".toList "x".toList meddlingBody) state) := by
  have shape : (states 9 rowsSample).getLast?.bind (fun state =>
      loopTypes? state.env "t".toList "x".toList) = some (.integer, 2, .integer) := by
    decide +kernel
  have runs : (states 9 rowsSample).getLast?.map (fun state =>
      (Node.run 9 (.overRows "t".toList "x".toList meddlingBody) state).isCrashed) =
        some false := by
    decide +kernel
  obtain ⟨state, last, shown⟩ := Option.bind_eq_some_iff.mp shape
  have reached := List.mem_of_getLast? last
  rw [loopTypes?] at shown
  split at shown
  · next rowType rows type old found area =>
      obtain ⟨rfl, length, rfl⟩ : rowType = .integer ∧ rows.toList.length = 2 ∧
          type = .integer := by
        simpa using shown
      have visits := table_loop_visits_snapshot 9 rowsSample state reached found area rfl
        (.inl rfl) meddlingBody
      have survives : (Node.run 9 (.overRows "t".toList "x".toList meddlingBody)
          state).isCrashed = false := by
        rw [last] at runs
        simpa using runs
      exact ⟨state, reached, rows, old, found, length, area, visits.1.mp survives⟩
  · cases shown

-- The first pass stores a digit in a field that is too long to be filled up.
def crashingRowsSample : Text :=
  "DATA t TYPE STANDARD TABLE OF i. APPEND 1 TO t. APPEND 2 TO t. DATA x TYPE i.
DATA n TYPE n LENGTH 65536.".toList

theorem table_loop_crashes :
    let body : List Node := [.leaf "n = '1'".toList (.assign "n".toList "'1'".toList)]
    ∃ state ∈ states 9 crashingRowsSample, ∃ rows old,
      state.env.get? "t".toList = some (.table .integer rows) ∧ rows.toList.length = 2 ∧
      state.env.get? "x".toList = some (.field .integer old) ∧
      ¬ Loop.Visits 9 "x".toList .integer body rows.toList state
        (Node.run 9 (.overRows "t".toList "x".toList body) state) := by
  intro body
  have shape : (states 9 crashingRowsSample).getLast?.bind (fun state =>
      loopTypes? state.env "t".toList "x".toList) = some (.integer, 2, .integer) := by
    decide +kernel
  have runs : (states 9 crashingRowsSample).getLast?.map (fun state =>
      (Node.run 9 (.overRows "t".toList "x".toList body) state).isCrashed) = some true := by
    decide +kernel
  obtain ⟨state, last, shown⟩ := Option.bind_eq_some_iff.mp shape
  rw [loopTypes?] at shown
  split at shown
  · next rowType rows type old found area =>
      obtain ⟨rfl, length, rfl⟩ : rowType = .integer ∧ rows.toList.length = 2 ∧
          type = .integer := by
        simpa using shown
      refine ⟨state, List.mem_of_getLast? last, rows, old, found, length, area, ?_⟩
      intro visits
      rw [last, Option.map_some, visits.survives] at runs
      cases runs
  · cases shown

end Program

end MiniAbap
