import MiniAbap.Proofs.Run.Budget
import MiniAbap.Proofs.Run.LargerBudget

/-!
Counted loops against their bodies written out. A run looks at the number of passes
only to compare it with the budget, so a run that starts with more passes counted is the
other one under a budget smaller by their number. A loop that the budget does not stop
therefore does what its body does, written as often as the count says.
-/

namespace MiniAbap

def State.ahead (extra : Nat) (state : State) : State :=
  { state with passes := state.passes + extra }

@[simp] theorem State.env_ahead (extra : Nat) (state : State) :
    (state.ahead extra).env = state.env := rfl

theorem State.ahead_ahead (first second : Nat) (state : State) :
    (state.ahead first).ahead second = state.ahead (first + second) := by
  simp only [ahead, Nat.add_assoc]

def Outcome.ahead (extra : Nat) : Outcome → Outcome
  | .done state => .done (state.ahead extra)
  | .failed fault state => .failed fault (state.ahead extra)
  | .exhausted state => .exhausted (state.ahead extra)
  | .crashed state => .crashed (state.ahead extra)

@[simp] theorem Outcome.isExhausted_ahead (extra : Nat) (outcome : Outcome) :
    (outcome.ahead extra).isExhausted = outcome.isExhausted := by
  cases outcome <;> rfl

/-- With `extra` passes counted before, the first run does what the second one does
    without them. -/
def Shifted (extra : Nat) (run reduced : State → Outcome) : Prop :=
  ∀ state, run (state.ahead extra) = (reduced state).ahead extra

section Statements

variable {α : Type} {extra : Nat} {next follow : State → Outcome}

theorem Shifted.andThen (shifted : Shifted extra next follow) (outcome : Outcome) :
    (outcome.ahead extra).andThen next = (outcome.andThen follow).ahead extra := by
  cases outcome with
  | done state => exact shifted state
  | failed | exhausted | crashed => rfl

theorem State.require_ahead {state : State} {found : Except RunError α}
    {next follow : α → Outcome} (shifted : ∀ value, next value = (follow value).ahead extra) :
    (state.ahead extra).require found next = (state.require found follow).ahead extra := by
  cases found with
  | error fault => rfl
  | ok value => exact shifted value

theorem State.produce_ahead {state : State} {made : Except (Stop RunError) α}
    {next follow : α → Outcome} (shifted : ∀ value, next value = (follow value).ahead extra) :
    (state.ahead extra).produce made next = (state.produce made follow).ahead extra := by
  cases made with
  | error stop => cases stop <;> rfl
  | ok value => exact shifted value

theorem shifted_store (target : Text) (type : FieldType) (value : Value) :
    Shifted extra (State.store · target type value) (State.store · target type value) :=
  fun _ => State.produce_ahead fun _ => rfl

theorem shifted_runDeclaration (declaration : Declaration) :
    Shifted extra (State.runDeclaration · declaration) (State.runDeclaration · declaration) := by
  intro state
  simp only [State.runDeclaration, State.env_ahead]
  cases DataType.ofClause declaration.type with
  | error fault => rfl
  | ok type =>
      by_cases other : ((state.env.get? declaration.name).any fun old => old.type != type) = true
      · simp only [other, if_true]
        rfl
      · simp only [other]
        exact State.produce_ahead fun new => rfl

theorem shifted_runData (declarations : List Declaration) :
    Shifted extra (State.runData · declarations) (State.runData · declarations) := by
  induction declarations with
  | nil => exact fun state => rfl
  | cons first rest ih =>
      intro state
      simp only [State.runData, shifted_runDeclaration first state]
      exact ih.andThen _

theorem shifted_runTally (form : Form) (combine : Float → Float → Float)
    (amount target : Text) :
    Shifted extra (State.runTally · form combine amount target)
      (State.runTally · form combine amount target) := by
  intro state
  refine State.require_ahead fun type => ?_
  split
  · refine State.require_ahead fun value => State.produce_ahead fun change => ?_
    simp only [State.env_ahead]
    split
    · exact shifted_store _ _ _ state
    · rfl
  · rfl

theorem shifted_runStatement (text : Text) (statement : Statement) :
    Shifted extra (fun state => state.runStatement text statement)
      (fun state => state.runStatement text statement) := by
  intro state
  cases statement with
  | data declarations => exact shifted_runData declarations state
  | write items => exact State.require_ahead fun texts => rfl
  | add | subtract => exact shifted_runTally _ _ _ _ state
  | clear target =>
      simp only [State.runStatement, State.runClear, State.env_ahead]
      split <;> rfl
  | append value table =>
      exact State.require_ahead fun _ => State.require_ahead fun _ =>
        State.produce_ahead fun _ => rfl
  | assign target value =>
      exact State.require_ahead fun _ => State.require_ahead fun _ => shifted_store _ _ _ state
  | malformed | unsupported => rfl

end Statements

section Loops

variable {extra limit : Nat} {run reduced : State → Outcome}

-- Where the budget is smaller than the passes ahead, the difference is zero, and both
-- sides refuse every pass.
theorem Shifted.pass (shifted : Shifted extra run reduced) :
    Shifted extra (State.pass limit run) (State.pass (limit - extra) reduced) := by
  intro state
  have counted : { state.ahead extra with passes := (state.ahead extra).passes + 1 } =
      State.ahead extra { state with passes := state.passes + 1 } := by
    simp only [State.ahead, Nat.add_right_comm]
  have refused : limit < state.passes + extra + 1 ↔ limit - extra < state.passes + 1 := by omega
  simp only [State.pass, counted]
  by_cases full : limit - extra < state.passes + 1
  · rw [if_pos full, if_pos (by simpa [State.ahead] using refused.mpr full)]
    rfl
  · rw [if_neg full, if_neg (by simpa [State.ahead] using full ∘ refused.mp)]
    exact shifted _

theorem Shifted.times (shifted : Shifted extra run reduced) (count : Nat) :
    Shifted extra (Loop.times limit run count) (Loop.times (limit - extra) reduced count) := by
  induction count with
  | zero => exact fun state => rfl
  | succ count ih =>
      intro state
      rw [Loop.times, shifted.pass state, ih.andThen, Loop.times]

theorem shifted_bindRow (workArea : Text) (type : FieldType) (row : Content) :
    Shifted extra (Loop.bindRow workArea type row) (Loop.bindRow workArea type row) :=
  shifted_store workArea type _

theorem Shifted.overRows (shifted : Shifted extra run reduced) (workArea : Text)
    (type : FieldType) (rows : List Content) :
    Shifted extra (Loop.overRows limit workArea type run rows)
      (Loop.overRows (limit - extra) workArea type reduced rows) := by
  induction rows with
  | nil => exact fun state => rfl
  | cons row rest ih =>
      have bound : Shifted extra
          (fun counted => (Loop.bindRow workArea type row counted).andThen run)
          (fun counted => (Loop.bindRow workArea type row counted).andThen reduced) := by
        intro counted
        simp only [shifted_bindRow workArea type row counted, shifted.andThen]
      intro state
      rw [Loop.overRows, bound.pass state, ih.andThen, Loop.overRows]

end Loops

mutual

theorem Node.shifted (limit extra : Nat) :
    (node : Node) → Shifted extra (node.run limit) (node.run (limit - extra))
  | .leaf text statement => fun state => by
      simp only [Node.run]
      exact shifted_runStatement text statement state
  | .conditional clauses none => fun state => by
      simp only [Node.run]
      exact Clause.shiftedFirst limit extra clauses (fun next => rfl) state
  | .conditional clauses (some body) => fun state => by
      simp only [Node.run]
      exact Clause.shiftedFirst limit extra clauses (Block.shifted limit extra body) state
  | .counted _ count body => fun state => by
      simp only [Node.run, State.env_ahead]
      cases Loop.count state.env count with
      | error fault => rfl
      | ok passes => exact (Block.shifted limit extra body).times passes state
  | .overRows table workArea body => fun state => by
      simp only [Node.run, State.env_ahead]
      cases Loop.entry state.env table workArea with
      | error fault => rfl
      | ok taken =>
          exact (Block.shifted limit extra body).overRows workArea taken.2 taken.1 state

theorem Clause.shiftedFirst (limit extra : Nat) :
    (clauses : List Clause) → {run reduced : State → Outcome} → Shifted extra run reduced →
      Shifted extra (Clause.runFirst limit clauses run)
        (Clause.runFirst (limit - extra) clauses reduced)
  | [], run, reduced, last => fun state => by
      simp only [Clause.runFirst]
      exact last state
  | .mk condition body :: rest, run, reduced, last => fun state => by
      simp only [Clause.runFirst, State.env_ahead]
      cases state.env.operand condition with
      | error fault => rfl
      | ok value =>
          by_cases holds : value.isTrue
          · simp only [holds, if_true]
            exact Block.shifted limit extra body state
          · simp only [holds]
            exact Clause.shiftedFirst limit extra rest last state

theorem Block.shifted (limit extra : Nat) :
    (nodes : List Node) → Shifted extra (Block.run limit nodes) (Block.run (limit - extra) nodes)
  | [] => fun state => by
      simp only [Block.run]
      rfl
  | node :: rest => fun state => by
      simp only [Block.run, Node.shifted limit extra node state]
      cases node.run (limit - extra) state with
      | done next => exact Block.shifted limit extra rest next
      | failed fault next => exact Block.shifted limit extra rest (next.record fault)
      | exhausted last | crashed last => rfl

end

section Unrolling

variable {limit extra count : Nat} {run reduced : State → Outcome} {body : List Node}
  {state last : State}

-- The passes ahead only lower the budget, and a run that the lower budget does not stop
-- is the same under the whole one.
theorem Shifted.without (shifted : Shifted extra run reduced)
    (continued : Continued reduced run) (within : (run (state.ahead extra)).isExhausted = false) :
    run (state.ahead extra) = (run state).ahead extra := by
  have same := continued state
  rw [shifted state, Outcome.isExhausted_ahead] at within
  rw [shifted state]
  generalize reduced state = short at same within ⊢
  generalize run state = long at same ⊢
  cases same with
  | same => rfl
  | stopped => cases within

theorem Block.run_ahead (within : (Block.run limit body (state.ahead extra)).isExhausted = false) :
    Block.run limit body (state.ahead extra) = (Block.run limit body state).ahead extra :=
  (Block.shifted limit extra body).without
    (Block.continued (Nat.sub_le limit extra) body) within

theorem Loop.times_ahead
    (within : (times limit (Block.run limit body) count (state.ahead extra)).isExhausted =
      false) :
    times limit (Block.run limit body) count (state.ahead extra) =
      (times limit (Block.run limit body) count state).ahead extra := by
  have less := Nat.sub_le limit extra
  exact ((Block.shifted limit extra body).times count).without
    ((Block.continued less body).times less (Block.grows limit body) count) within

theorem State.pass_eq (within : (state.pass limit run).isExhausted = false) :
    state.pass limit run = run (state.ahead 1) := by
  rw [pass] at within ⊢
  split at within
  · cases within
  · next allowed => exact if_neg allowed

theorem Outcome.within_of_andThen {outcome : Outcome} {next : State → Outcome}
    (within : (outcome.andThen next).isExhausted = false) : outcome.isExhausted = false := by
  cases outcome with
  | done | failed | crashed => rfl
  | exhausted => cases within

/-- How a loop of so many passes ends beside its body written out: both are done, with
    the passes counted on top, or both crash, in the same state but for passes. -/
inductive Outcome.Unrolls (count : Nat) : Outcome → Outcome → Prop where
  | done (plain : State) : Unrolls count (.done (plain.ahead count)) (.done plain)
  | crashed (begun : Nat) (plain : State) :
      Unrolls count (.crashed (plain.ahead begun)) (.crashed plain)

theorem Outcome.Unrolls.ahead {looped written : Outcome} (unrolls : Unrolls count looped written) :
    Unrolls (count + 1) (looped.ahead 1) written := by
  cases unrolls with
  | done plain =>
      rw [Outcome.ahead, State.ahead_ahead]
      exact .done plain
  | crashed begun plain =>
      rw [Outcome.ahead, State.ahead_ahead]
      exact .crashed (begun + 1) plain

-- A pass has one more pass counted than the same stretch of the body written out, and so
-- has all that follows it.
theorem Loop.unrolled
    (within : (times limit (Block.run limit body) count state).isExhausted = false) :
    Outcome.Unrolls count (times limit (Block.run limit body) count state)
      (Block.run limit (List.replicate count body).flatten state) := by
  induction count generalizing state with
  | zero =>
      simp only [times, List.replicate_zero, List.flatten_nil, Block.run]
      exact .done state
  | succ count ih =>
      have passed := State.pass_eq (Outcome.within_of_andThen within)
      have first := Outcome.within_of_andThen within
      rw [passed] at first
      rw [times, passed, Block.run_ahead first] at within ⊢
      rw [List.replicate_succ, List.flatten_cons, Block.run_append]
      cases ran : Block.run limit body state with
      | done next =>
          rw [ran] at within
          simp only [Outcome.ahead, Outcome.andThen] at within ⊢
          have later := Loop.times_ahead within
          rw [later, Outcome.isExhausted_ahead] at within
          rw [later]
          exact (ih within).ahead
      | failed fault last => exact absurd ran (Block.run_ne_failed _ _ _ _ _)
      | exhausted last =>
          rw [ran] at within
          cases within
      | crashed last => exact .crashed 1 last

theorem Loop.count_eq_ok {env : Environment} {source : Text} :
    Loop.count env source = .ok count ↔
      ∃ x, env.evaluate source = .ok (.number x) ∧ Number.count? x = some count := by
  simp only [Loop.count, Environment.operand]
  cases env.evaluate source with
  | error fault => simp [bind, Except.bind]
  | ok value =>
      cases value with
      | number x =>
          cases found : Number.count? x <;>
            simp [bind, Except.bind, found, pure, Except.pure, throw, throwThe, MonadExceptOf.throw]
      | text | truth =>
          simp [bind, Except.bind, throw, throwThe, MonadExceptOf.throw]

end Unrolling

/-- A counted loop that the budget does not stop ends as its body does, written out as
    often as the count says on entry; its passes are counted on top. The two crash alike.
    With anything else for a count the loop fails and changes nothing. -/
theorem Loop.counted_loop_unrolls (limit : Nat) (word : LoopWord) (source : Text)
    (body : List Node) (state : State) :
    let looped := Node.run limit (.counted word source body) state
    (∀ x count, state.env.evaluate source = .ok (.number x) → Number.count? x = some count →
      looped.isExhausted = false →
        ∃ last plain, plain.env = last.env ∧ plain.output = last.output ∧
          plain.diagnostics = last.diagnostics ∧ plain.faults = last.faults ∧
          (looped = .done last ∧
              Block.run limit (List.replicate count body).flatten state = .done plain ∧
                last.passes = plain.passes + count ∨
            looped = .crashed last ∧
              Block.run limit (List.replicate count body).flatten state = .crashed plain)) ∧
    ((∀ x count, state.env.evaluate source = .ok (.number x) → Number.count? x ≠ some count) →
      ∃ fault, looped = .failed fault state) := by
  simp only [Node.run]
  constructor
  · intro x count evaluated counts within
    rw [Loop.count_eq_ok.mpr ⟨x, evaluated, counts⟩] at within ⊢
    simp only at within ⊢
    have unrolled := Loop.unrolled within
    generalize Loop.times limit (fun state => Block.run limit body state) count state = looped
      at unrolled ⊢
    generalize Block.run limit (List.replicate count body).flatten state = written
      at unrolled ⊢
    cases unrolled with
    | done plain =>
        exact ⟨plain.ahead count, plain, rfl, rfl, rfl, rfl, .inl ⟨rfl, rfl, rfl⟩⟩
    | crashed begun plain =>
        exact ⟨plain.ahead begun, plain, rfl, rfl, rfl, rfl, .inr ⟨rfl, rfl⟩⟩
  · intro countless
    cases counted : Loop.count state.env source with
    | error fault => exact ⟨fault, rfl⟩
    | ok count =>
        obtain ⟨x, evaluated, counts⟩ := Loop.count_eq_ok.mp counted
        exact absurd counts (countless x count evaluated)

-- The body raises the variable that its count reads, and has a loop and a fault in it.
def risingBody : List Node :=
  [.leaf [] (.add "1".toList "n".toList),
    .counted .doWord "1".toList [.leaf [] (.write [⟨false, some "n".toList⟩])],
    .leaf [] .unsupported]

def risingSample : State :=
  { env := ({} : Environment).declare "n".toList (.field .integer (.number 2)) }

theorem Loop.counted_loop_unrolls_rising :
    (∃ last plain, Node.run 4 (.counted .doWord "n".toList risingBody) risingSample = .done last ∧
      Block.run 4 (risingBody ++ risingBody) risingSample = .done plain ∧
      plain.env = last.env ∧ plain.output = last.output ∧
      last.passes = 4 ∧ plain.passes = 2) ∧
    ∃ fault, Node.run 4 (.counted .doWord "'n'".toList risingBody) risingSample =
      .failed fault risingSample := by
  constructor
  · have counted : (Loop.count risingSample.env "n".toList).toOption = some 2 := by
      decide +kernel
    have within : (Node.run 4 (.counted .doWord "n".toList risingBody)
        risingSample).isExhausted = false := by
      decide +kernel
    have survives : (Node.run 4 (.counted .doWord "n".toList risingBody)
        risingSample).isCrashed = false := by
      decide +kernel
    have passes : (Node.run 4 (.counted .doWord "n".toList risingBody)
        risingSample).state.passes = 4 := by
      decide +kernel
    cases found : Loop.count risingSample.env "n".toList with
    | error fault =>
        rw [found] at counted
        cases counted
    | ok count =>
        rw [found] at counted
        cases counted
        obtain ⟨x, evaluated, counts⟩ := Loop.count_eq_ok.mp found
        obtain ⟨last, plain, env, output, _, _, ⟨ended, written, more⟩ | ⟨ended, _⟩⟩ :=
          (Loop.counted_loop_unrolls 4 .doWord "n".toList risingBody risingSample).1 x 2
            evaluated counts within
        · rw [ended] at passes
          change last.passes = 4 at passes
          exact ⟨last, plain, ended, written, env, output, passes, by omega⟩
        · rw [ended] at survives
          cases survives
  · have countless : (Loop.count risingSample.env "'n'".toList).toOption = none := by
      decide +kernel
    refine (Loop.counted_loop_unrolls 4 .doWord "'n'".toList risingBody risingSample).2 ?_
    intro x count evaluated counts
    rw [Loop.count_eq_ok.mpr ⟨x, evaluated, counts⟩] at countless
    cases countless

end MiniAbap
