import MiniAbap.Proofs.Run.Failure
import MiniAbap.Proofs.Run.Growth

/-!
Two runs of one program that differ in their budgets. They do the same until the
smaller budget refuses a pass; a run that it does not stop is the same under the
larger one, and a run that it stops is the beginning of the longer one. What the
longer one has shown by then is lost if it crashes later.
-/

namespace MiniAbap

inductive Outcome.ContinuedBy : Outcome → Outcome → Prop where
  | same (outcome : Outcome) : ContinuedBy outcome outcome
  | stopped {last : State} {longer : Outcome} (grows : last.GrowsTo longer.state) :
      ContinuedBy (.exhausted last) longer

def Continued (shorter longer : State → Outcome) : Prop :=
  ∀ state, (shorter state).ContinuedBy (longer state)

section Loops

variable {small large : Nat} {shorter longer next follow : State → Outcome}

theorem Outcome.ContinuedBy.andThen {first second : Outcome} (before : first.ContinuedBy second)
    (after : Continued next follow) (grows : Grows follow) :
    (first.andThen next).ContinuedBy (second.andThen follow) := by
  cases before with
  | same =>
      cases first with
      | done state => exact after state
      | failed | exhausted | crashed => exact .same _
  | stopped reached => exact .stopped (grows.andThen reached)

-- Where only the smaller budget refuses the pass, the longer run goes on from the
-- state in which the shorter one stops.
theorem Continued.pass (le : small ≤ large) (continued : Continued shorter longer)
    (grows : Grows longer) :
    Continued (State.pass small shorter) (State.pass large longer) := by
  intro state
  simp only [State.pass]
  by_cases refused : small < state.passes + 1
  · rw [if_pos refused]
    by_cases also : large < state.passes + 1
    · rw [if_pos also]
      exact .same _
    · rw [if_neg also]
      exact .stopped (grows _)
  · have allowed : ¬ large < state.passes + 1 := by omega
    rw [if_neg refused, if_neg allowed]
    exact continued _

theorem Continued.times (le : small ≤ large) (continued : Continued shorter longer)
    (grows : Grows longer) (count : Nat) :
    Continued (Loop.times small shorter count) (Loop.times large longer count) := by
  induction count with
  | zero => exact fun state => .same _
  | succ count ih =>
      exact fun state => (continued.pass le grows state).andThen ih (grows.times count)

theorem Continued.overRows (le : small ≤ large) (continued : Continued shorter longer)
    (grows : Grows longer) (workArea : Text) (type : FieldType) (rows : List Content) :
    Continued (Loop.overRows small workArea type shorter rows)
      (Loop.overRows large workArea type longer rows) := by
  induction rows with
  | nil => exact fun state => .same _
  | cons row rest ih =>
      have bound : Continued
          (fun counted => (Loop.bindRow workArea type row counted).andThen shorter)
          (fun counted => (Loop.bindRow workArea type row counted).andThen longer) :=
        fun counted => (Outcome.ContinuedBy.same _).andThen continued grows
      have boundGrows : Grows fun counted =>
          (Loop.bindRow workArea type row counted).andThen longer :=
        fun counted => grows.andThen (grows_bindRow workArea type row counted)
      exact fun state =>
        (bound.pass le boundGrows state).andThen ih (grows.overRows workArea type rest)

end Loops

mutual

theorem Node.continued {small large : Nat} (le : small ≤ large) :
    (node : Node) → Continued (node.run small) (node.run large)
  | .leaf text statement => fun state => by
      simp only [Node.run]
      exact .same _
  | .conditional clauses none => fun state => by
      simp only [Node.run]
      exact Clause.continuedFirst le clauses (fun next => .same _) state
  | .conditional clauses (some body) => fun state => by
      simp only [Node.run]
      exact Clause.continuedFirst le clauses (Block.continued le body) state
  | .counted _ count body => fun state => by
      simp only [Node.run]
      cases Loop.count state.env count with
      | error fault => exact .same _
      | ok passes =>
          exact (Block.continued le body).times le (Block.grows large body) passes state
  | .overRows table workArea body => fun state => by
      simp only [Node.run]
      cases Loop.entry state.env table workArea with
      | error fault => exact .same _
      | ok taken =>
          exact (Block.continued le body).overRows le (Block.grows large body) workArea
            taken.2 taken.1 state

theorem Clause.continuedFirst {small large : Nat} (le : small ≤ large) :
    (clauses : List Clause) → {shorter longer : State → Outcome} →
      Continued shorter longer →
        Continued (Clause.runFirst small clauses shorter)
          (Clause.runFirst large clauses longer)
  | [], shorter, longer, last => fun state => by
      simp only [Clause.runFirst]
      exact last state
  | .mk condition body :: rest, shorter, longer, last => fun state => by
      simp only [Clause.runFirst]
      cases state.env.operand condition with
      | error fault => exact .same _
      | ok value =>
          by_cases holds : value.isTrue
          · simp only [holds, if_true]
            exact Block.continued le body state
          · simp only [holds]
            exact Clause.continuedFirst le rest last state

theorem Block.continued {small large : Nat} (le : small ≤ large) :
    (nodes : List Node) → Continued (Block.run small nodes) (Block.run large nodes)
  | [] => fun state => by
      simp only [Block.run]
      exact .same _
  | node :: rest => fun state => by
      have first := Node.continued le node state
      simp only [Block.run]
      generalize node.run small state = short at first ⊢
      generalize node.run large state = long at first ⊢
      cases first with
      | same =>
          cases short with
          | done next => exact Block.continued le rest next
          | failed fault next => exact Block.continued le rest (next.record fault)
          | exhausted last | crashed last => exact .same _
      | stopped grows =>
          apply Outcome.ContinuedBy.stopped
          cases long with
          | done next => exact grows.trans (Block.grows large rest next)
          | failed fault next =>
              exact (grows.trans (.record next fault)).trans
                (Block.grows large rest (next.record fault))
          | exhausted last | crashed last => exact grows

end

theorem Outcome.isExhausted_iff {outcome : Outcome} :
    outcome.isExhausted = true ↔ ∃ last, outcome = .exhausted last := by
  cases outcome <;> simp [isExhausted]

theorem Outcome.isCrashed_iff {outcome : Outcome} :
    outcome.isCrashed = true ↔ ∃ last, outcome = .crashed last := by
  cases outcome <;> simp [isCrashed]

namespace Program

def isStopped (limit : Nat) (nodes : List Node) (start : State) : Bool :=
  (Block.run limit nodes start).isExhausted

theorem growsTo_finalState (limit : Nat) (nodes : List Node) (start : State) :
    (Block.run limit nodes start).state.GrowsTo (finalState limit nodes start) := by
  simp only [finalState]
  cases Block.run limit nodes start with
  | done last | crashed last => exact .refl last
  | failed fault last => exact .record last fault
  | exhausted last => exact .record last _

section TwoBudgets

variable {small large : Nat} {nodes : List Node} {start : State}

theorem not_crashes_of_stopped {limit : Nat} (stopped : isStopped limit nodes start = true) :
    crashes limit nodes start = false := by
  obtain ⟨last, ended⟩ := Outcome.isExhausted_iff.mp stopped
  rw [crashes, ended]
  rfl

theorem run_of_not_stopped (le : small ≤ large)
    (finished : isStopped small nodes start = false) :
    Block.run large nodes start = Block.run small nodes start := by
  have continued := Block.continued le nodes start
  simp only [isStopped] at finished
  generalize Block.run small nodes start = short at continued finished ⊢
  generalize Block.run large nodes start = long at continued ⊢
  cases continued with
  | same => rfl
  | stopped grows => cases finished

-- The final state has the budget in it only when the run is stopped.
theorem shownState?_of_not_stopped (le : small ≤ large)
    (finished : isStopped small nodes start = false) :
    shownState? large nodes start = shownState? small nodes start := by
  have same := run_of_not_stopped le finished
  have crashes : crashes large nodes start = crashes small nodes start := by
    simp only [crashes, same]
  have final : finalState large nodes start = finalState small nodes start := by
    simp only [isStopped] at finished
    simp only [finalState, same]
    cases ended : Block.run small nodes start with
    | done | failed | crashed => rfl
    | exhausted last =>
        rw [ended] at finished
        cases finished
  rw [shownState?, shownState?, crashes, final]

theorem stopped_growsTo (le : small ≤ large) (stopped : isStopped small nodes start = true) :
    ∃ last : State, finalState small nodes start = last.record (.passLimit small) ∧
      last.GrowsTo (finalState large nodes start) := by
  have continued := Block.continued le nodes start
  have final := growsTo_finalState large nodes start
  obtain ⟨last, ended⟩ := Outcome.isExhausted_iff.mp stopped
  refine ⟨last, by simp only [finalState, ended, Outcome.final], ?_⟩
  rw [ended] at continued
  generalize Block.run large nodes start = long at continued final
  cases continued with
  | same => exact final
  | stopped grows => exact grows.trans final

end TwoBudgets

/-- A larger budget changes nothing in a run that the smaller one does not stop, and
    only adds to a run that it does, unless the part that it adds crashes. -/
theorem larger_budget_extends {small large : Nat} (le : small ≤ large) (nodes : List Node)
    (env : Environment) :
    let start : State := { env }
    (isStopped small nodes start = false →
      shownState? large nodes start = shownState? small nodes start) ∧
    (isStopped small nodes start = true →
      ∃ short, shownState? small nodes start = some short ∧
        short.diagnostics.getLast? = some (RunError.passLimit small).message ∧
        (crashes large nodes start = false ↔
          ∃ long, shownState? large nodes start = some long ∧
            short.diagnostics.dropLast <+: long.diagnostics ∧
              Output.Extended short.output.lines long.output.lines)) := by
  intro start
  refine ⟨shownState?_of_not_stopped le, ?_⟩
  intro stopped
  obtain ⟨last, ended, grows⟩ := stopped_growsTo le stopped
  refine ⟨last.record (.passLimit small), ?_, ?_, ?_⟩
  · exact shownState?_eq_some.mpr ⟨not_crashes_of_stopped stopped, ended⟩
  · rw [State.diagnostics_record, List.getLast?_concat]
  · rw [State.diagnostics_record, List.dropLast_concat]
    constructor
    · intro survives
      exact ⟨_, shownState?_eq_some.mpr ⟨survives, rfl⟩, grows.diagnostics, grows.output⟩
    · rintro ⟨long, shown, _⟩
      exact (shownState?_eq_some.mp shown).1

-- Under a budget of one the second pass of the loop is refused, before its output and
-- its fault.
def loopSample : List Node :=
  [.counted .doWord "2".toList
    [.leaf [] (.write [⟨false, some "1".toList⟩]), .leaf [] .unsupported],
    .leaf [] (.write [⟨true, some "2".toList⟩])]

theorem larger_budget_extends_loop :
    1 ≤ 2 ∧ isStopped 1 loopSample {} = true ∧ isStopped 2 loopSample {} = false ∧
      (∃ short long, shownState? 1 loopSample {} = some short ∧
        shownState? 2 loopSample {} = some long ∧
          short.diagnostics.dropLast <+: long.diagnostics ∧
            Output.Extended short.output.lines long.output.lines) ∧
      shownState? 3 loopSample {} = shownState? 2 loopSample {} := by
  have stopped : isStopped 1 loopSample {} = true := by decide +kernel
  have finished : isStopped 2 loopSample {} = false := by decide +kernel
  have survives : crashes 2 loopSample {} = false := by decide +kernel
  obtain ⟨short, shown, _, longer⟩ :=
    (larger_budget_extends (by decide : 1 ≤ 2) loopSample {}).2 stopped
  obtain ⟨long, also, diagnostics, output⟩ := longer.mp survives
  have same := (larger_budget_extends (by decide : 2 ≤ 3) loopSample {}).1 finished
  exact ⟨by decide, stopped, finished, ⟨short, long, shown, also, diagnostics, output⟩, same⟩

-- The pass that a budget of one allows stores a digit in a field that is too long to be
-- filled up.
def fillingSample : List Node :=
  [.leaf [] (.data [⟨"n".toList, .field "n".toList (some 65536) none, none⟩]),
    .leaf [] (.write [⟨false, some "'a'".toList⟩]),
    .counted .doWord "1".toList [.leaf [] (.assign "n".toList "'1'".toList)]]

theorem larger_budget_crashes :
    isStopped 0 fillingSample {} = true ∧
      (∃ short, shownState? 0 fillingSample {} = some short ∧
        short.output.lines = ["a".toList] ∧
          short.diagnostics = [(RunError.passLimit 0).message]) ∧
      shownState? 1 fillingSample {} = none := by
  have stopped : isStopped 0 fillingSample {} = true := by decide +kernel
  have crashed : crashes 1 fillingSample {} = true := by decide +kernel
  have lines : (finalState 0 fillingSample {}).output.lines = ["a".toList] := by
    decide +kernel
  have diagnostics : (finalState 0 fillingSample {}).diagnostics =
      [(RunError.passLimit 0).message] := by
    decide +kernel
  have shown := shownState?_eq_some.mpr ⟨not_crashes_of_stopped stopped, rfl⟩
  exact ⟨stopped, ⟨_, shown, lines, diagnostics⟩, shownState?_eq_none.mpr crashed⟩

end Program

end MiniAbap
