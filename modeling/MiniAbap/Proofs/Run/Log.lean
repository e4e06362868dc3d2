import MiniAbap.Program

/-!
Runs that keep a log. The log has an entry for every node that is entered, every
loop pass that is attempted or started, and every fault that is recorded, in the
order in which they happen. Without its log, such a run is the run itself.
-/

namespace MiniAbap

inductive Event where
  | entered (node : Node)
  /-- A loop pass was counted. -/
  | attempted
  /-- The budget let the pass begin. -/
  | started
  | recorded (fault : RunError)

structure Logged where
  log : List Event := []
  outcome : Outcome

namespace Logged

def after (events : List Event) (run : Logged) : Logged :=
  { run with log := events ++ run.log }

def andThen (first : Logged) (next : State → Logged) : Logged :=
  match first.outcome with
  | .done state => (next state).after first.log
  | .failed _ _ | .exhausted _ | .crashed _ => first

end Logged

def State.loggedPass (limit : Nat) (body : State → Logged) (state : State) : Logged :=
  let counted := { state with passes := state.passes + 1 }
  if limit < counted.passes then { log := [.attempted], outcome := .exhausted counted }
  else (body counted).after [.attempted, .started]

namespace Loop

def loggedTimes (limit : Nat) (body : State → Logged) : Nat → State → Logged
  | 0, state => { outcome := .done state }
  | count + 1, state => (state.loggedPass limit body).andThen (loggedTimes limit body count)

def loggedOverRows (limit : Nat) (workArea : Text) (type : FieldType)
    (body : State → Logged) : List Content → State → Logged
  | [], state => { outcome := .done state }
  | row :: rest, state =>
      (state.loggedPass limit fun counted =>
        Logged.andThen { outcome := bindRow workArea type row counted } body).andThen
          (loggedOverRows limit workArea type body rest)

end Loop

mutual

def Node.logged (limit : Nat) : Node → State → Logged
  | .leaf text statement, state => { outcome := state.runStatement text statement }
  | .conditional clauses otherwise, state =>
      Clause.loggedFirst limit clauses (fun state =>
        match otherwise with
        | none => { outcome := .done state }
        | some body => Block.logged limit body state) state
  | .counted _ count body, state =>
      match Loop.count state.env count with
      | .error fault => { outcome := .failed fault state }
      | .ok passes =>
          Loop.loggedTimes limit (fun state => Block.logged limit body state) passes state
  | .overRows table workArea body, state =>
      match Loop.entry state.env table workArea with
      | .error fault => { outcome := .failed fault state }
      | .ok (rows, type) =>
          Loop.loggedOverRows limit workArea type (fun state => Block.logged limit body state)
            rows state

def Clause.loggedFirst (limit : Nat) : List Clause → (State → Logged) → State → Logged
  | [], otherwise, state => otherwise state
  | .mk condition body :: rest, otherwise, state =>
      match state.env.operand condition with
      | .error fault => { outcome := .failed fault state }
      | .ok value =>
          if value.isTrue then Block.logged limit body state
          else Clause.loggedFirst limit rest otherwise state

def Block.logged (limit : Nat) : List Node → State → Logged
  | [], state => { outcome := .done state }
  | node :: rest, state =>
      let first := node.logged limit state
      match first.outcome with
      | .done next => (Block.logged limit rest next).after (.entered node :: first.log)
      | .failed fault next =>
          (Block.logged limit rest (next.record fault)).after
            (.entered node :: first.log ++ [.recorded fault])
      | .exhausted last => { log := .entered node :: first.log, outcome := .exhausted last }
      | .crashed last => { log := .entered node :: first.log, outcome := .crashed last }

end

section Erasure

variable {limit : Nat} {body : State → Outcome} {logged : State → Logged}

@[simp] theorem Logged.outcome_after (events : List Event) (run : Logged) :
    (run.after events).outcome = run.outcome := rfl

theorem Logged.outcome_andThen {first : Logged} {next : State → Logged}
    {follow : State → Outcome} (erased : ∀ state, (next state).outcome = follow state) :
    (first.andThen next).outcome = first.outcome.andThen follow := by
  simp only [Logged.andThen]
  cases ended : first.outcome with
  | done state => exact erased state
  | failed | exhausted | crashed => exact ended

theorem State.outcome_loggedPass (erased : ∀ state, (logged state).outcome = body state)
    (state : State) : (state.loggedPass limit logged).outcome = state.pass limit body := by
  simp only [State.loggedPass, State.pass]
  split
  · rfl
  · exact erased _

namespace Loop

theorem outcome_loggedTimes (erased : ∀ state, (logged state).outcome = body state)
    (count : Nat) (state : State) :
    (loggedTimes limit logged count state).outcome = times limit body count state := by
  induction count generalizing state with
  | zero => rfl
  | succ count ih =>
      rw [loggedTimes, times, Logged.outcome_andThen ih, State.outcome_loggedPass erased]

theorem outcome_loggedOverRows {workArea : Text} {type : FieldType}
    (erased : ∀ state, (logged state).outcome = body state) (rows : List Content)
    (state : State) :
    (loggedOverRows limit workArea type logged rows state).outcome =
      overRows limit workArea type body rows state := by
  induction rows generalizing state with
  | nil => rfl
  | cons row rest ih =>
      rw [loggedOverRows, overRows, Logged.outcome_andThen ih]
      rw [State.outcome_loggedPass fun counted => Logged.outcome_andThen erased]

end Loop

mutual

theorem Node.outcome_logged (limit : Nat) :
    (node : Node) → (state : State) →
      (node.logged limit state).outcome = node.run limit state
  | .leaf text statement, state => by simp only [Node.logged, Node.run]
  | .conditional clauses none, state => by
      simp only [Node.logged, Node.run]
      exact Clause.outcome_loggedFirst limit clauses _ _ (fun next => rfl) state
  | .conditional clauses (some body), state => by
      simp only [Node.logged, Node.run]
      exact Clause.outcome_loggedFirst limit clauses _ _
        (fun next => Block.outcome_logged limit body next) state
  | .counted _ count body, state => by
      simp only [Node.logged, Node.run]
      cases Loop.count state.env count with
      | error fault => rfl
      | ok passes =>
          exact Loop.outcome_loggedTimes (fun next => Block.outcome_logged limit body next)
            passes state
  | .overRows table workArea body, state => by
      simp only [Node.logged, Node.run]
      cases Loop.entry state.env table workArea with
      | error fault => rfl
      | ok taken =>
          exact Loop.outcome_loggedOverRows (fun next => Block.outcome_logged limit body next)
            taken.1 state

theorem Clause.outcome_loggedFirst (limit : Nat) :
    (clauses : List Clause) → (logged : State → Logged) → (run : State → Outcome) →
      (∀ next, (logged next).outcome = run next) → (state : State) →
        (Clause.loggedFirst limit clauses logged state).outcome =
          Clause.runFirst limit clauses run state
  | [], logged, run, erased, state => by
      simp only [Clause.loggedFirst, Clause.runFirst]
      exact erased state
  | .mk condition body :: rest, logged, run, erased, state => by
      simp only [Clause.loggedFirst, Clause.runFirst]
      cases state.env.operand condition with
      | error fault => rfl
      | ok value =>
          by_cases holds : value.isTrue
          · simp only [holds, if_true]
            exact Block.outcome_logged limit body state
          · simp only [holds]
            exact Clause.outcome_loggedFirst limit rest logged run erased state

theorem Block.outcome_logged (limit : Nat) :
    (nodes : List Node) → (state : State) →
      (Block.logged limit nodes state).outcome = Block.run limit nodes state
  | [], state => by simp only [Block.logged, Block.run]
  | node :: rest, state => by
      simp only [Block.logged, Block.run, ← Node.outcome_logged limit node state]
      cases (node.logged limit state).outcome with
      | done next => exact Block.outcome_logged limit rest next
      | failed fault next => exact Block.outcome_logged limit rest (next.record fault)
      | exhausted last | crashed last => rfl

end

end Erasure

def Program.log (limit : Nat) (nodes : List Node) (start : State) : List Event :=
  let run := Block.logged limit nodes start
  run.log ++
    match run.outcome with
    | .done _ | .crashed _ => []
    | .failed fault _ => [.recorded fault]
    | .exhausted _ => [.recorded (.passLimit limit)]

end MiniAbap
