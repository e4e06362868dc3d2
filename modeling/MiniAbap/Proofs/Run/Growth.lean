import MiniAbap.Proofs.Run.Trace

/-!
Output and diagnostics only grow. Lines before the last one never change, the
last one is only added to, and a fault once recorded stays recorded. So the
state that a piece of a program leaves shows all that was there before.
-/

namespace MiniAbap

namespace Output

/-- All lines but the last one stand unchanged where they were, and the last one
    starts the line in its place. -/
def Extended (before after : List Text) : Prop :=
  before = [] ∨ ∃ init last more rest, before = init ++ [last] ∧
    after = init ++ (last ++ more) :: rest

theorem Extended.refl (lines : List Text) : Extended lines lines := by
  rcases List.eq_nil_or_concat lines with empty | ⟨init, last, spelled⟩
  · exact .inl empty
  · rw [List.concat_eq_append] at spelled
    exact .inr ⟨init, last, [], [], spelled, by rw [List.append_nil, spelled]⟩

-- The line that grew is the last one of the lines between, unless others follow it.
theorem Extended.trans {first second third : List Text} (before : Extended first second)
    (after : Extended second third) : Extended first third := by
  rcases before with empty | ⟨init, last, more, rest, rfl, rfl⟩
  · exact .inl empty
  · rcases after with empty | ⟨init', last', more', rest', same, rfl⟩
    · simp at empty
    · refine .inr ⟨init, last, ?_⟩
      rcases List.eq_nil_or_concat rest with rfl | ⟨between, final, rfl⟩
      · obtain ⟨rfl, grown⟩ := List.append_inj' same rfl
        cases grown
        exact ⟨more ++ more', rest', rfl, by rw [List.append_assoc]⟩
      · rw [List.concat_eq_append, ← List.cons_append, ← List.append_assoc] at same
        obtain ⟨rfl, added⟩ := List.append_inj' same rfl
        cases added
        exact ⟨more, between ++ (last' ++ more') :: rest', rfl, by simp⟩

theorem extended_newLine (output : Output) : Extended output.lines output.newLine.lines := by
  rcases List.eq_nil_or_concat output.lines with empty | ⟨init, last, spelled⟩
  · exact .inl empty
  · rw [List.concat_eq_append] at spelled
    exact .inr ⟨init, last, [], [[]], spelled, by simp [spelled]⟩

theorem space_eq (line : Text) : ∃ gap, space line = gap ++ line := by
  fun_cases space line with
  | case1 => exact ⟨[], rfl⟩
  | case2 line => exact ⟨[], rfl⟩
  | case3 => exact ⟨[' '], rfl⟩

theorem extended_write (output : Output) (item : Text) :
    Extended output.lines (output.write item).lines := by
  obtain ⟨reversed⟩ := output
  cases reversed with
  | nil => exact .inl rfl
  | cons line before =>
      obtain ⟨gap, spaced⟩ := space_eq line
      refine .inr ⟨(before.map List.reverse).reverse, line.reverse, gap.reverse ++ item, [], ?_, ?_⟩
      · simp [lines]
      · simp [lines, write, spaced]

end Output

namespace State

structure GrowsTo (before after : State) : Prop where
  output : Output.Extended before.output.lines after.output.lines
  faults : before.faults <:+ after.faults

namespace GrowsTo

variable {first second third : State}

theorem refl (state : State) : state.GrowsTo state :=
  ⟨.refl _, List.suffix_refl _⟩

theorem trans (before : first.GrowsTo second) (after : second.GrowsTo third) :
    first.GrowsTo third :=
  ⟨before.output.trans after.output, before.faults.trans after.faults⟩

theorem record (state : State) (fault : RunError) : state.GrowsTo (state.record fault) :=
  ⟨.refl _, List.suffix_cons fault state.faults⟩

theorem diagnostics (grows : first.GrowsTo second) :
    first.diagnostics <+: second.diagnostics := by
  apply List.IsPrefix.map
  exact List.reverse_prefix.mpr grows.faults

end GrowsTo

theorem Step.growsTo {before after : State} (step : Step before after) :
    before.GrowsTo after := by
  cases step with
  | change changes => exact ⟨.refl _, List.suffix_refl _⟩
  | newLine => exact ⟨before.output.extended_newLine, List.suffix_refl _⟩
  | write text => exact ⟨before.output.extended_write text, List.suffix_refl _⟩
  | record fault => exact .record before fault
  | count => exact ⟨.refl _, List.suffix_refl _⟩

theorem Walk.growsTo {first last : State} {states : List State}
    (walk : Walk first states last) : first.GrowsTo last := by
  induction walk with
  | stay state => exact .refl state
  | step first _ ih => exact first.growsTo.trans ih

end State

section Runs

def Grows (run : State → Outcome) : Prop :=
  ∀ state : State, state.GrowsTo (run state).state

theorem Block.grows (limit : Nat) (nodes : List Node) : Grows (Block.run limit nodes) :=
  fun state => (Block.walk limit nodes state).growsTo

variable {limit : Nat} {body next : State → Outcome}

theorem Grows.andThen {state : State} {outcome : Outcome} (grows : Grows next)
    (before : state.GrowsTo outcome.state) :
    state.GrowsTo (outcome.andThen next).state := by
  cases outcome with
  | done middle => exact before.trans (grows middle)
  | failed fault middle | exhausted middle | crashed middle => exact before

theorem Grows.pass (grows : Grows body) : Grows (State.pass limit body) := by
  intro state
  simp only [State.pass]
  split
  · exact (State.Step.count state).growsTo
  · exact (State.Step.count state).growsTo.trans (grows _)

theorem Grows.times (grows : Grows body) (count : Nat) :
    Grows (Loop.times limit body count) := by
  induction count with
  | zero => exact State.GrowsTo.refl
  | succ count ih => exact fun state => ih.andThen (grows.pass state)

theorem grows_bindRow (workArea : Text) (type : FieldType) (row : Content) :
    Grows (Loop.bindRow workArea type row) := by
  intro state
  simp only [Loop.bindRow, State.store, State.produce]
  split
  · exact ⟨.refl _, List.suffix_refl _⟩
  · exact .refl state
  · exact .refl state

theorem Grows.overRows (grows : Grows body) (workArea : Text) (type : FieldType)
    (rows : List Content) : Grows (Loop.overRows limit workArea type body rows) := by
  induction rows with
  | nil => exact State.GrowsTo.refl
  | cons row rest ih =>
      have bound : Grows fun counted =>
          (Loop.bindRow workArea type row counted).andThen body :=
        fun counted => grows.andThen (grows_bindRow workArea type row counted)
      exact fun state => ih.andThen (bound.pass state)

end Runs

end MiniAbap
