import MiniAbap.Proofs.Run.Failure
import MiniAbap.Proofs.Run.Log
import MiniAbap.Proofs.Run.Trace

/-!
The budget of loop passes. Only the budget raises the fault that stops a run; it
does so when a pass is attempted after as many passes as the budget allows, at
whatever depth, and nothing happens after that but its record.
-/

namespace MiniAbap

section Account

namespace Event

def isAttempt : Event → Bool
  | .attempted => true
  | .entered _ | .started | .recorded _ => false

def isStart : Event → Bool
  | .started => true
  | .entered _ | .attempted | .recorded _ => false

def fault? : Event → Option RunError
  | .recorded fault => some fault
  | .entered _ | .attempted | .started => none

end Event

def Event.faults (events : List Event) : List RunError :=
  events.filterMap Event.fault?

theorem Event.faults_append (events more : List Event) :
    faults (events ++ more) = faults events ++ faults more :=
  List.filterMap_append

/-- Events that lead from one state to another within the budget: every pass that
    was attempted was started, and no fault stopped the run. -/
structure State.Reaches (limit : Nat) (start : State) (events : List Event) (last : State) :
    Prop where
  within : last.passes ≤ limit
  counted : last.passes = start.passes + events.countP Event.isAttempt
  started : events.countP Event.isStart = events.countP Event.isAttempt
  recorded : last.faults = (Event.faults events).reverse ++ start.faults
  minor : ∀ fault ∈ Event.faults events, fault.isFatal = false

namespace State.Reaches

variable {limit : Nat} {start middle last : State} {events more : List Event}

theorem unchanged (within : start.passes ≤ limit) (passes : last.passes = start.passes)
    (faults : last.faults = start.faults) : start.Reaches limit [] last where
  within := by omega
  counted := passes
  started := rfl
  recorded := faults
  minor := by simp [Event.faults]

theorem entered (within : start.passes ≤ limit) (node : Node) :
    start.Reaches limit [.entered node] start where
  within := within
  counted := rfl
  started := rfl
  recorded := rfl
  minor := by simp [Event.faults, Event.fault?]

theorem record (within : start.passes ≤ limit) {fault : RunError}
    (minor : fault.isFatal = false) :
    start.Reaches limit [.recorded fault] (start.record fault) where
  within := within
  counted := rfl
  started := rfl
  recorded := rfl
  minor := by simpa [Event.faults, Event.fault?] using minor

theorem pass (within : start.passes < limit) :
    start.Reaches limit [.attempted, .started] { start with passes := start.passes + 1 } where
  within := within
  counted := rfl
  started := rfl
  recorded := rfl
  minor := by simp [Event.faults, Event.fault?]

theorem append (before : start.Reaches limit events middle)
    (after : middle.Reaches limit more last) : start.Reaches limit (events ++ more) last where
  within := after.within
  counted := by rw [after.counted, before.counted, List.countP_append, Nat.add_assoc]
  started := by rw [List.countP_append, List.countP_append, before.started, after.started]
  recorded := by
    rw [after.recorded, before.recorded, Event.faults_append, List.reverse_append,
      List.append_assoc]
  minor := by
    rw [Event.faults_append]
    exact List.forall_mem_append.mpr ⟨before.minor, after.minor⟩

end State.Reaches

inductive Logged.Accounted (limit : Nat) (start : State) : Logged → Prop where
  | done {log : List Event} {state : State} (reaches : start.Reaches limit log state) :
      Accounted limit start ⟨log, .done state⟩
  | failed {log : List Event} {state : State} {fault : RunError}
      (reaches : start.Reaches limit log state) (minor : fault.isFatal = false) :
      Accounted limit start ⟨log, .failed fault state⟩
  | exhausted {log : List Event} {state : State} (reaches : start.Reaches limit log state)
      (full : state.passes = limit) :
      Accounted limit start
        ⟨log ++ [.attempted], .exhausted { state with passes := state.passes + 1 }⟩
  | crashed {log : List Event} {state : State} (reaches : start.Reaches limit log state) :
      Accounted limit start ⟨log, .crashed state⟩

namespace Logged.Accounted

variable {limit : Nat} {start middle : State} {first second : Logged} {events : List Event}

theorem after (before : start.Reaches limit events middle)
    (rest : Accounted limit middle second) : Accounted limit start (second.after events) := by
  cases rest with
  | done reaches => exact .done (before.append reaches)
  | failed reaches minor => exact .failed (before.append reaches) minor
  | exhausted reaches full =>
      simp only [Logged.after, ← List.append_assoc]
      exact .exhausted (before.append reaches) full
  | crashed reaches => exact .crashed (before.append reaches)

theorem andThen {next : State → Logged} (before : Accounted limit start first)
    (afterwards : ∀ state, state.passes ≤ limit → Accounted limit state (next state)) :
    Accounted limit start (first.andThen next) := by
  cases before with
  | done reaches => exact after reaches (afterwards _ reaches.within)
  | failed reaches minor => exact .failed reaches minor
  | exhausted reaches full => exact .exhausted reaches full
  | crashed reaches => exact .crashed reaches

end Logged.Accounted

open Logged (Accounted)

variable {limit : Nat} {state : State}

theorem accounted_done (within : state.passes ≤ limit) :
    Accounted limit state { outcome := .done state } :=
  .done (.unchanged within rfl rfl)

theorem accounted_failed (within : state.passes ≤ limit) {fault : RunError}
    (minor : fault.isFatal = false) :
    Accounted limit state { outcome := .failed fault state } :=
  .failed (.unchanged within rfl rfl) minor

theorem accounted_statement (within : state.passes ≤ limit) (text : Text)
    (statement : Statement) :
    Accounted limit state { outcome := state.runStatement text statement } := by
  have ends := state.ends_runStatement text statement
  cases ended : state.runStatement text statement with
  | done next =>
      rw [ended] at ends
      cases ends
      exact .done (.unchanged within rfl rfl)
  | failed fault next =>
      rw [ended] at ends
      obtain ⟨_, faults, passes⟩ := ends.kept
      exact .failed (.unchanged within passes faults) (State.minor_runStatement ended)
  | exhausted last =>
      rw [ended] at ends
      cases ends
  | crashed last =>
      rw [ended] at ends
      cases ends
      exact .crashed (.unchanged within rfl rfl)

theorem accounted_bindRow (within : state.passes ≤ limit) (workArea : Text) (type : FieldType)
    (row : Content) :
    Accounted limit state { outcome := Loop.bindRow workArea type row state } := by
  have minor := Environment.minor_contentFor workArea type (.ofContent row)
  simp only [Loop.bindRow, State.store, State.produce]
  split
  · exact .done (.unchanged within rfl rfl)
  · next fault found => exact accounted_failed within (minor (.fault fault) found)
  · exact .crashed (.unchanged within rfl rfl)

section Loops

variable {body : State → Logged}
  (accounted : ∀ state, state.passes ≤ limit → Accounted limit state (body state))

include accounted

theorem accounted_pass (within : state.passes ≤ limit) :
    Accounted limit state (state.loggedPass limit body) := by
  simp only [State.loggedPass]
  split
  · next refused =>
      have full : state.passes = limit := by omega
      exact .exhausted (.unchanged within rfl rfl) full
  · next allowed =>
      have below : state.passes < limit := by omega
      exact .after (.pass below) (accounted _ below)

theorem accounted_times (count : Nat) (within : state.passes ≤ limit) :
    Accounted limit state (Loop.loggedTimes limit body count state) := by
  induction count generalizing state with
  | zero => exact accounted_done within
  | succ count ih => exact (accounted_pass accounted within).andThen fun _ => ih

theorem accounted_overRows (workArea : Text) (type : FieldType) (rows : List Content)
    (within : state.passes ≤ limit) :
    Accounted limit state (Loop.loggedOverRows limit workArea type body rows state) := by
  induction rows generalizing state with
  | nil => exact accounted_done within
  | cons row rest ih =>
      refine (accounted_pass ?_ within).andThen fun _ => ih
      intro counted below
      exact (accounted_bindRow below workArea type row).andThen accounted

end Loops

-- By recursion on the nodes, like the run itself.
mutual

theorem Node.accounted (limit : Nat) :
    (node : Node) → (state : State) → state.passes ≤ limit →
      Accounted limit state (node.logged limit state)
  | .leaf text statement, state, within => by
      simp only [Node.logged]
      exact accounted_statement within text statement
  | .conditional clauses none, state, within => by
      simp only [Node.logged]
      exact Clause.accountedFirst limit clauses _ (fun next => accounted_done) state within
  | .conditional clauses (some body), state, within => by
      simp only [Node.logged]
      exact Clause.accountedFirst limit clauses _ (fun next => Block.accounted limit body next)
        state within
  | .counted _ count body, state, within => by
      have minor := Loop.minor_count state.env count
      simp only [Node.logged]
      cases counted : Loop.count state.env count with
      | error fault => exact accounted_failed within (minor fault counted)
      | ok passes =>
          exact accounted_times (fun next => Block.accounted limit body next) passes within
  | .overRows table workArea body, state, within => by
      have minor := Loop.minor_entry state.env table workArea
      simp only [Node.logged]
      cases entered : Loop.entry state.env table workArea with
      | error fault => exact accounted_failed within (minor fault entered)
      | ok taken =>
          exact accounted_overRows (fun next => Block.accounted limit body next) workArea
            taken.2 taken.1 within

theorem Clause.accountedFirst (limit : Nat) :
    (clauses : List Clause) → (otherwise : State → Logged) →
      (∀ next, next.passes ≤ limit → Accounted limit next (otherwise next)) →
        (state : State) → state.passes ≤ limit →
          Accounted limit state (Clause.loggedFirst limit clauses otherwise state)
  | [], otherwise, last, state, within => by
      simp only [Clause.loggedFirst]
      exact last state within
  | .mk condition body :: rest, otherwise, last, state, within => by
      have minor := state.env.minor_operand condition
      simp only [Clause.loggedFirst]
      cases evaluated : state.env.operand condition with
      | error fault => exact accounted_failed within (minor fault evaluated)
      | ok value =>
          by_cases holds : value.isTrue
          · simp only [holds, if_true]
            exact Block.accounted limit body state within
          · simp only [holds]
            exact Clause.accountedFirst limit rest otherwise last state within

theorem Block.accounted (limit : Nat) :
    (nodes : List Node) → (state : State) → state.passes ≤ limit →
      Accounted limit state (Block.logged limit nodes state)
  | [], state, within => by
      simp only [Block.logged]
      exact accounted_done within
  | node :: rest, state, within => by
      have entering := State.Reaches.entered within node
      have first := Node.accounted limit node state within
      simp only [Block.logged]
      generalize node.logged limit state = run at first ⊢
      cases first with
      | done reaches =>
          exact .after (entering.append reaches)
            (Block.accounted limit rest _ reaches.within)
      | failed reaches minor =>
          exact .after ((entering.append reaches).append (.record reaches.within minor))
            (Block.accounted limit rest _ reaches.within)
      | exhausted reaches full => exact .exhausted (entering.append reaches) full
      | crashed reaches => exact .crashed (entering.append reaches)

end

end Account

section Passes

end Passes

theorem Block.run_ne_failed (limit : Nat) (nodes : List Node) (state : State)
    (fault : RunError) (last : State) : Block.run limit nodes state ≠ .failed fault last := by
  induction nodes generalizing state with
  | nil =>
      simp only [Block.run]
      intro same
      cases same
  | cons node rest ih =>
      simp only [Block.run]
      cases node.run limit state with
      | done next => exact ih next
      | failed found next => exact ih (next.record found)
      | exhausted next | crashed next =>
          intro same
          cases same

namespace Program

/-- The log of a whole run and the state it ends in: either everything until its end or
    its crash fits into the budget, or one pass is refused and that is the end. -/
inductive Concluded (limit : Nat) (start : State) : List Event → State → Prop where
  | completed {events : List Event} {last : State}
      (reaches : start.Reaches limit events last) : Concluded limit start events last
  | stopped {events : List Event} {state : State}
      (reaches : start.Reaches limit events state) (full : state.passes = limit) :
      Concluded limit start (events ++ [.attempted] ++ [.recorded (.passLimit limit)])
        (State.record { state with passes := state.passes + 1 } (.passLimit limit))

theorem concluded {limit : Nat} {start : State} (within : start.passes ≤ limit)
    (nodes : List Node) :
    Concluded limit start (log limit nodes start) (finalState limit nodes start) := by
  have accounted := Block.accounted limit nodes start within
  have unfailed := Block.run_ne_failed limit nodes start
  simp only [log, finalState, ← Block.outcome_logged] at unfailed ⊢
  generalize Block.logged limit nodes start = run at accounted unfailed ⊢
  cases accounted with
  | done reaches | crashed reaches =>
      rw [List.append_nil]
      exact .completed reaches
  | failed => exact absurd rfl (unfailed _ _)
  | exhausted reaches full => exact .stopped reaches full

namespace Concluded

variable {limit : Nat} {start last : State} {events : List Event}

theorem minor (concluded : Concluded limit start events last)
    (within : start.passes + events.countP Event.isAttempt ≤ limit) :
    ∀ fault ∈ Event.faults events, fault.isFatal = false := by
  cases concluded with
  | completed reaches => exact reaches.minor
  | @stopped events state reaches full =>
      have counted := reaches.counted
      rw [List.countP_append, List.countP_append] at within
      change start.passes + (events.countP Event.isAttempt + 1 + 0) ≤ limit at within
      omega

end Concluded

end Program

end MiniAbap
