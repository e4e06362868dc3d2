import MiniAbap.Proofs.Run.Step
import MiniAbap.Program

/-!
The states that a run passes, in order: after every declaration of a chain, every
item written, every loop pass started, every row put into a work area and every
fault recorded. They form a walk from the first state of the run to its last one,
so what each step preserves holds wherever a run is looked at.
-/

namespace MiniAbap

open State (Walk)

section Passing

def Output.itemStates (output : Output) : Bool × Option Text → List Output
  | (false, none) => []
  | (false, some text) => [output.write text]
  | (true, none) => [output.newLine]
  | (true, some text) => [output.newLine, output.newLine.write text]

def Output.emittedStates (output : Output) : List (Bool × Option Text) → List Output
  | [] => []
  | item :: rest => output.itemStates item ++ (output.emit item).emittedStates rest

def Outcome.thenStates (outcome : Outcome) (states : State → List State) : List State :=
  match outcome with
  | .done state => states state
  | .failed _ _ | .exhausted _ | .crashed _ => []

def Outcome.oneState (outcome : Outcome) : List State :=
  outcome.thenStates fun state => [state]

def State.declaredStates (state : State) : List Declaration → List State
  | [] => []
  | declaration :: rest =>
      (state.runDeclaration declaration).thenStates fun next => next :: next.declaredStates rest

def State.statementStates (state : State) (text : Text) : Statement → List State
  | .data declarations => state.declaredStates declarations
  | .write items =>
      match state.env.itemTexts items with
      | .error _ => []
      | .ok texts => (state.output.emittedStates texts).map fun output => { state with output }
  | other => (state.runStatement text other).oneState

def State.passStates (limit : Nat) (states : State → List State) (state : State) :
    List State :=
  let counted := { state with passes := state.passes + 1 }
  counted :: if limit < counted.passes then [] else states counted

namespace Loop

def timesStates (limit : Nat) (body : State → Outcome) (states : State → List State) :
    Nat → State → List State
  | 0, _ => []
  | count + 1, state =>
      state.passStates limit states ++
        (state.pass limit body).thenStates (timesStates limit body states count)

def rowStates (workArea : Text) (type : FieldType) (row : Content)
    (states : State → List State) (counted : State) : List State :=
  let bound := bindRow workArea type row counted
  bound.oneState ++ bound.thenStates states

def overRowsStates (limit : Nat) (workArea : Text) (type : FieldType)
    (body : State → Outcome) (states : State → List State) :
    List Content → State → List State
  | [], _ => []
  | row :: rest, state =>
      state.passStates limit (rowStates workArea type row states) ++
        (state.pass limit fun counted =>
          (bindRow workArea type row counted).andThen body).thenStates
            (overRowsStates limit workArea type body states rest)

end Loop

mutual

def Node.states (limit : Nat) : Node → State → List State
  | .leaf text statement, state => state.statementStates text statement
  | .conditional clauses otherwise, state =>
      Clause.firstStates limit clauses (fun state =>
        match otherwise with
        | none => []
        | some body => Block.states limit body state) state
  | .counted _ count body, state =>
      match Loop.count state.env count with
      | .error _ => []
      | .ok passes =>
          Loop.timesStates limit (fun state => Block.run limit body state)
            (fun state => Block.states limit body state) passes state
  | .overRows table workArea body, state =>
      match Loop.entry state.env table workArea with
      | .error _ => []
      | .ok (rows, type) =>
          Loop.overRowsStates limit workArea type (fun state => Block.run limit body state)
            (fun state => Block.states limit body state) rows state

def Clause.firstStates (limit : Nat) :
    List Clause → (State → List State) → State → List State
  | [], otherwise, state => otherwise state
  | .mk condition body :: rest, otherwise, state =>
      match state.env.operand condition with
      | .error _ => []
      | .ok value =>
          if value.isTrue then Block.states limit body state
          else Clause.firstStates limit rest otherwise state

def Block.states (limit : Nat) : List Node → State → List State
  | [], _ => []
  | node :: rest, state =>
      node.states limit state ++
        match node.run limit state with
        | .done next => Block.states limit rest next
        | .failed fault next =>
            next.record fault :: Block.states limit rest (next.record fault)
        | .exhausted _ | .crashed _ => []

end

end Passing

section Statements

theorem walk_attempt {state : State} {name : Text} {outcome : Outcome}
    (attempts : state.Attempts name outcome) : Walk state outcome.oneState outcome.state := by
  cases attempts with
  | written changes => exact .single (.change changes)
  | failed | crashed => exact .stay state

theorem walk_declarations (declarations : List Declaration) (state : State) :
    Walk state (state.declaredStates declarations) (state.runData declarations).state := by
  induction declarations generalizing state with
  | nil => exact .stay state
  | cons declaration rest ih =>
      have declared := walk_attempt (state.attempts_runDeclaration declaration)
      rw [State.declaredStates, State.runData]
      cases ended : state.runDeclaration declaration with
      | done next =>
          rw [ended] at declared
          exact declared.append (ih next)
      | failed | exhausted | crashed =>
          rw [ended] at declared
          exact declared

theorem walk_item (item : Bool × Option Text) (state : State) :
    Walk state ((state.output.itemStates item).map fun output => { state with output })
      { state with output := state.output.emit item } := by
  obtain ⟨newLine, text⟩ := item
  cases newLine <;> cases text
  · exact .stay state
  · exact .single (.write state _)
  · exact .single (.newLine state)
  · exact .step (.newLine state) (.single (.write _ _))

theorem walk_items (items : List (Bool × Option Text)) (state : State) :
    Walk state ((state.output.emittedStates items).map fun output => { state with output })
      { state with output := items.foldl Output.emit state.output } := by
  induction items generalizing state with
  | nil => exact .stay state
  | cons item rest ih =>
      rw [Output.emittedStates, List.map_append]
      exact (walk_item item state).append (ih { state with output := state.output.emit item })

theorem walk_statement (text : Text) (statement : Statement) (state : State) :
    Walk state (state.statementStates text statement)
      (state.runStatement text statement).state := by
  cases statement with
  | data declarations =>
      simp only [State.statementStates, State.runStatement]
      exact walk_declarations declarations state
  | write items =>
      simp only [State.statementStates, State.runStatement, State.runWrite]
      cases state.env.itemTexts items with
      | error fault => exact .stay state
      | ok texts => exact walk_items texts state
  | add | subtract => exact walk_attempt (state.attempts_runTally _ _ _ _)
  | clear target => exact walk_attempt (state.attempts_runClear target)
  | append value table => exact walk_attempt (state.attempts_runAppend value table)
  | assign target value => exact walk_attempt (state.attempts_runAssign target value)
  | malformed | unsupported => exact .stay state

end Statements

section Loops

variable {limit : Nat} {body : State → Outcome} {states : State → List State}

theorem walk_andThen {state : State} {outcome : Outcome} {passed : List State}
    {follow : State → Outcome} {more : State → List State}
    (before : Walk state passed outcome.state)
    (after : ∀ next, outcome = .done next → Walk next (more next) (follow next).state) :
    Walk state (passed ++ outcome.thenStates more) (outcome.andThen follow).state := by
  cases outcome with
  | done next => exact before.append (after next rfl)
  | failed fault next | exhausted next | crashed next => exact before.append (.stay next)

theorem walk_pass {state : State}
    (inside : Walk { state with passes := state.passes + 1 }
      (states { state with passes := state.passes + 1 })
      (body { state with passes := state.passes + 1 }).state) :
    Walk state (state.passStates limit states) (state.pass limit body).state := by
  simp only [State.passStates, State.pass]
  split
  · exact .single (.count state)
  · exact .step (.count state) inside

namespace Loop

theorem walk_times (walks : ∀ state, Walk state (states state) (body state).state)
    (count : Nat) (state : State) :
    Walk state (timesStates limit body states count state)
      (times limit body count state).state := by
  induction count generalizing state with
  | zero => exact .stay state
  | succ count ih => exact walk_andThen (walk_pass (walks _)) fun next _ => ih next

-- The work area keeps the type it has on entry, whatever the passes do.
theorem walk_overRows {workArea : Text} {type : FieldType}
    (walks : ∀ state, Walk state (states state) (body state).state)
    (rows : List Content) (state : State) (found : state.env.fieldType workArea = .ok type) :
    Walk state (overRowsStates limit workArea type body states rows state)
      (overRows limit workArea type body rows state).state := by
  induction rows generalizing state with
  | nil => exact .stay state
  | cons row rest ih =>
      have pass : Walk state (state.passStates limit (rowStates workArea type row states))
          (state.pass limit fun counted =>
            (bindRow workArea type row counted).andThen body).state :=
        walk_pass (walk_andThen (walk_attempt (State.attempts_bindRow _ row found))
          fun next _ => walks next)
      refine walk_andThen pass ?_
      intro next ended
      rw [ended] at pass
      exact ih next (pass.fieldType_kept found)

theorem fieldType_of_entry {env : Environment} {table workArea : Text} {rows : List Content}
    {type : FieldType} (entered : entry env table workArea = .ok (rows, type)) :
    env.fieldType workArea = .ok type := by
  simp only [entry] at entered
  obtain ⟨⟨rowType, stored⟩, _, entered⟩ := Environment.bind_eq_ok.mp entered
  obtain ⟨found, known, entered⟩ := Environment.bind_eq_ok.mp entered
  split at entered
  · cases entered
    exact known
  · cases entered

end Loop

end Loops

section Blocks

-- By recursion on the nodes: the walks of the bodies are what the loops and
-- conditionals around them ask for.
mutual

theorem Node.walk (limit : Nat) :
    (node : Node) → (state : State) →
      Walk state (node.states limit state) (node.run limit state).state
  | .leaf text statement, state => by
      simp only [Node.states, Node.run]
      exact walk_statement text statement state
  | .conditional clauses none, state => by
      simp only [Node.states, Node.run]
      exact Clause.walkFirst limit clauses _ _ (fun next => .stay next) state
  | .conditional clauses (some body), state => by
      simp only [Node.states, Node.run]
      exact Clause.walkFirst limit clauses _ _ (fun next => Block.walk limit body next) state
  | .counted _ count body, state => by
      simp only [Node.states, Node.run]
      cases Loop.count state.env count with
      | error fault => exact .stay state
      | ok passes => exact Loop.walk_times (fun next => Block.walk limit body next) passes state
  | .overRows table workArea body, state => by
      simp only [Node.states, Node.run]
      cases entered : Loop.entry state.env table workArea with
      | error fault => exact .stay state
      | ok taken =>
          exact Loop.walk_overRows (fun next => Block.walk limit body next) taken.1 state
            (Loop.fieldType_of_entry entered)

theorem Clause.walkFirst (limit : Nat) :
    (clauses : List Clause) → (run : State → Outcome) → (states : State → List State) →
      (∀ next, Walk next (states next) (run next).state) → (state : State) →
        Walk state (Clause.firstStates limit clauses states state)
          (Clause.runFirst limit clauses run state).state
  | [], run, states, walks, state => by
      simp only [Clause.firstStates, Clause.runFirst]
      exact walks state
  | .mk condition body :: rest, run, states, walks, state => by
      simp only [Clause.firstStates, Clause.runFirst]
      cases state.env.operand condition with
      | error fault => exact .stay state
      | ok value =>
          by_cases holds : value.isTrue
          · simp only [holds, if_true]
            exact Block.walk limit body state
          · simp only [holds]
            exact Clause.walkFirst limit rest run states walks state

theorem Block.walk (limit : Nat) :
    (nodes : List Node) → (state : State) →
      Walk state (Block.states limit nodes state) (Block.run limit nodes state).state
  | [], state => by
      simp only [Block.states, Block.run]
      exact .stay state
  | node :: rest, state => by
      have first := Node.walk limit node state
      simp only [Block.states, Block.run]
      cases ended : node.run limit state with
      | done next =>
          rw [ended] at first
          exact first.append (Block.walk limit rest next)
      | failed fault next =>
          rw [ended] at first
          exact first.append (.step (.record next fault)
            (Block.walk limit rest (next.record fault)))
      | exhausted last | crashed last =>
          rw [ended] at first
          exact first.append (.stay last)

end

end Blocks

namespace Program

def passedStates (limit : Nat) (nodes : List Node) (start : State) : List State :=
  Block.states limit nodes start ++
    match Block.run limit nodes start with
    | .done _ | .crashed _ => []
    | .failed fault state => [state.record fault]
    | .exhausted state => [state.record (.passLimit limit)]

theorem shownState?_eq_none {limit : Nat} {nodes : List Node} {start : State} :
    shownState? limit nodes start = none ↔ crashes limit nodes start = true := by
  simp [shownState?]

theorem shownState?_eq_some {limit : Nat} {nodes : List Node} {start last : State} :
    shownState? limit nodes start = some last ↔
      crashes limit nodes start = false ∧ finalState limit nodes start = last := by
  simp [shownState?]

/-- Every state of a run of the source. A source that is not started has none. -/
def states (limit : Nat) (source : Text) : List State :=
  match read source with
  | .error _ => []
  | .ok nodes => {} :: passedStates limit nodes {}

theorem walk (limit : Nat) (nodes : List Node) (start : State) :
    start.Walk (passedStates limit nodes start) (finalState limit nodes start) := by
  have blocks := Block.walk limit nodes start
  simp only [passedStates]
  simp only [finalState]
  cases ended : Block.run limit nodes start with
  | done state | crashed state =>
      rw [ended] at blocks
      exact blocks.append (.stay state)
  | failed fault state =>
      rw [ended] at blocks
      exact blocks.append (.single (.record state fault))
  | exhausted state =>
      rw [ended] at blocks
      exact blocks.append (.single (.record state _))

/-- What holds at the start and is kept by every step holds in all states of a run. -/
theorem invariant_of_mem_states {limit : Nat} {source : Text} {holds : State → Prop}
    (kept : ∀ {before after : State}, State.Step before after → holds before → holds after)
    (initially : holds {}) : ∀ state ∈ states limit source, holds state := by
  intro state passed
  simp only [states] at passed
  split at passed
  · cases passed
  · next nodes _ => exact (walk limit nodes {}).invariant holds kept initially state passed

end Program

end MiniAbap
