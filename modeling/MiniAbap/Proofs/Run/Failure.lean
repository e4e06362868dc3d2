import MiniAbap.Proofs.Run.Step

/-!
What a statement leaves behind when it fails. All of its checks come before its
first write, so it changes nothing; only a chain of declarations keeps the ones
before its fault. The block around it adds one fault to the record and goes on
with the next node.
-/

namespace MiniAbap

namespace State

/-- How a plain statement can end. It never touches the record of faults or the
    count of passes, and it never meets the budget. -/
inductive Ends (state : State) : Statement → Outcome → Prop where
  | finished {statement : Statement} (env : Environment) (output : Output) :
      Ends state statement (.done { state with env, output })
  | abandoned {statement : Statement} {fault : RunError} (minor : fault.IsMinor)
      (single : ∀ declarations, statement ≠ .data declarations) :
      Ends state statement (.failed fault state)
  | cutShort (earlier : List Declaration) {later : List Declaration} {failing : Declaration}
      {env : Environment} {fault : RunError} (minor : fault.IsMinor)
      (reached : state.runData earlier = .done { state with env })
      (failed : { state with env }.runDeclaration failing = .failed fault { state with env }) :
      Ends state (.data (earlier ++ failing :: later)) (.failed fault { state with env })
  | crashed {statement : Statement} (env : Environment) :
      Ends state statement (.crashed { state with env })

theorem Attempts.ends {state : State} {name : Text} {outcome : Outcome} {statement : Statement}
    (attempts : state.Attempts name outcome)
    (single : ∀ declarations, statement ≠ .data declarations) :
    state.Ends statement outcome := by
  cases attempts with
  | written => exact .finished _ state.output
  | failed minor => exact .abandoned minor single
  | crashed => exact .crashed state.env

-- A declaration that is done stands in front of the ones before the fault.
theorem Ends.after {state : State} {env : Environment} {first : Declaration}
    {rest : List Declaration} {outcome : Outcome}
    (declared : state.runDeclaration first = .done { state with env })
    (ends : { state with env }.Ends (.data rest) outcome) :
    state.Ends (.data (first :: rest)) outcome := by
  cases ends with
  | finished last output => exact .finished last output
  | abandoned _ single => exact absurd rfl (single rest)
  | cutShort earlier minor reached failed =>
      refine .cutShort (first :: earlier) minor ?_ failed
      rw [runData, declared]
      exact reached
  | crashed last => exact .crashed last

theorem ends_runData (state : State) (declarations : List Declaration) :
    state.Ends (.data declarations) (state.runData declarations) := by
  induction declarations generalizing state with
  | nil => exact .finished state.env state.output
  | cons first rest ih =>
      have attempts := state.attempts_runDeclaration first
      rw [runData]
      generalize run : state.runDeclaration first = outcome at attempts
      cases attempts with
      | written => exact .after run (ih _)
      | failed minor => exact .cutShort [] minor rfl run
      | crashed => exact .crashed state.env

theorem ends_runWrite (state : State) (items : List WriteItem) :
    state.Ends (.write items) (state.runWrite items) := by
  have minor := state.env.minor_itemTexts items
  rw [runWrite]
  generalize state.env.itemTexts items = found at minor
  cases found with
  | error fault => exact .abandoned (minor fault rfl) nofun
  | ok texts => exact .finished state.env _

theorem ends_runStatement (state : State) (text : Text) (statement : Statement) :
    state.Ends statement (state.runStatement text statement) := by
  cases statement with
  | data declarations => exact ends_runData state declarations
  | write items => exact ends_runWrite state items
  | add | subtract => exact (state.attempts_runTally _ _ _ _).ends nofun
  | clear target => exact (state.attempts_runClear target).ends nofun
  | append value table => exact (state.attempts_runAppend value table).ends nofun
  | assign target value => exact (state.attempts_runAssign target value).ends nofun
  | malformed | unsupported => exact .abandoned rfl nofun

theorem minor_runStatement {state next : State} {text : Text} {statement : Statement}
    {fault : RunError} (failed : state.runStatement text statement = .failed fault next) :
    fault.IsMinor := by
  have ends := state.ends_runStatement text statement
  rw [failed] at ends
  cases ends with
  | abandoned minor _ => exact minor
  | cutShort _ minor _ _ => exact minor

namespace Ends

variable {state next : State} {statement : Statement} {fault : RunError}

theorem exists_failed {outcome : Outcome} (ends : state.Ends statement outcome)
    (failed : ∀ done, outcome ≠ .done done) (survives : outcome.isCrashed = false) :
    ∃ fault next, outcome = .failed fault next := by
  cases ends with
  | finished env output => exact absurd rfl (failed _)
  | abandoned | cutShort => exact ⟨_, _, rfl⟩
  | crashed => cases survives

theorem kept (ends : state.Ends statement (.failed fault next)) :
    next.output = state.output ∧ next.faults = state.faults ∧ next.passes = state.passes := by
  cases ends <;> exact ⟨rfl, rfl, rfl⟩

theorem env_kept (ends : state.Ends statement (.failed fault next))
    (single : ∀ declarations, statement ≠ .data declarations) : next.env = state.env := by
  cases ends with
  | abandoned => rfl
  | cutShort => exact absurd rfl (single _)

theorem env_declared {declarations : List Declaration}
    (ends : state.Ends (.data declarations) (.failed fault next)) :
    ∃ earlier failing later, declarations = earlier ++ failing :: later ∧
      state.runData earlier = .done next ∧ next.runDeclaration failing = .failed fault next := by
  cases ends with
  | abandoned _ single => exact absurd rfl (single declarations)
  | cutShort earlier _ reached failed => exact ⟨earlier, _, _, rfl, reached, failed⟩

end Ends

end State

section Blocks

variable {limit : Nat} {before after : List Node} {start state next : State} {text : Text}
  {statement : Statement} {fault : RunError}

theorem Block.run_append (limit : Nat) (first second : List Node) (state : State) :
    Block.run limit (first ++ second) state =
      (Block.run limit first state).andThen (Block.run limit second) := by
  induction first generalizing state with
  | nil => simp only [List.nil_append, Block.run, Outcome.andThen]
  | cons node rest ih =>
      simp only [List.cons_append, Block.run]
      cases node.run limit state with
      | done next => exact ih next
      | failed fault next => exact ih (next.record fault)
      | exhausted last | crashed last => rfl

theorem Block.run_past_failed (reached : Block.run limit before start = .done state)
    (failed : state.runStatement text statement = .failed fault next) :
    Block.run limit (before ++ .leaf text statement :: after) start =
      Block.run limit after (next.record fault) := by
  rw [Block.run_append, reached]
  simp only [Outcome.andThen, Block.run, Node.run, failed]

theorem State.diagnostics_record (state : State) (fault : RunError) :
    (state.record fault).diagnostics = state.diagnostics ++ [fault.message] := by
  simp [diagnostics, record]

end Blocks

namespace State

/-- A failed statement leaves its fault and, for a chain of declarations, what
    the chain declared before it. Wherever it stands in a block, the block records
    that fault and goes on from there. -/
theorem failed_statement_leaves (state : State) (text : Text) (statement : Statement)
    (failed : ∀ done, state.runStatement text statement ≠ .done done)
    (survives : (state.runStatement text statement).isCrashed = false) :
    ∃ fault next, state.runStatement text statement = .failed fault next ∧
      next.output = state.output ∧ next.faults = state.faults ∧
      next.passes = state.passes ∧
      ((∀ declarations, statement ≠ .data declarations) → next.env = state.env) ∧
      (∀ declarations, statement = .data declarations →
        ∃ earlier failing later, declarations = earlier ++ failing :: later ∧
          state.runData earlier = .done next ∧
            next.runDeclaration failing = .failed fault next) ∧
      (next.record fault).diagnostics = state.diagnostics ++ [fault.message] ∧
      ∀ limit before after start, Block.run limit before start = .done state →
        Block.run limit (before ++ .leaf text statement :: after) start =
          Block.run limit after (next.record fault) := by
  have ends := ends_runStatement state text statement
  obtain ⟨fault, next, ended⟩ := ends.exists_failed failed survives
  rw [ended] at ends
  obtain ⟨output, faults, passes⟩ := ends.kept
  refine ⟨fault, next, ended, output, faults, passes, ends.env_kept, ?_, ?_, ?_⟩
  · rintro declarations rfl
    exact ends.env_declared
  · rw [diagnostics_record, diagnostics, diagnostics, faults]
  · intro limit before after start reached
    exact Block.run_past_failed reached ended

-- The second of three declarations fails: a text that is no number.
def chainSample : List Declaration :=
  [⟨"a".toList, .field "i".toList none none, some "1".toList⟩,
    ⟨"b".toList, .field "i".toList none none, some "'x'".toList⟩,
    ⟨"c".toList, .field "i".toList none none, none⟩]

theorem failed_statement_leaves_chain :
    ((∀ done, ({} : State).runStatement [] (.data chainSample) ≠ .done done) ∧
        (({} : State).runStatement [] (.data chainSample)).isCrashed = false) ∧
      ∃ fault next, ({} : State).runStatement [] (.data chainSample) = .failed fault next ∧
        next.env.size = 1 ∧ next.output = {} ∧
          ∀ limit after, Block.run limit (.leaf [] (.data chainSample) :: after) {} =
            Block.run limit after (next.record fault) := by
  have size : (({} : State).runStatement [] (.data chainSample)).state.env.size = 1 := by
    decide +kernel
  have failed : ∀ done, ({} : State).runStatement [] (.data chainSample) ≠ .done done := by
    -- Nothing that follows it is run.
    have stops : ((({} : State).runStatement [] (.data chainSample)).andThen
        .exhausted).isExhausted = false := by
      decide +kernel
    intro done ended
    rw [ended] at stops
    cases stops
  have survives : (({} : State).runStatement [] (.data chainSample)).isCrashed = false := by
    decide +kernel
  obtain ⟨fault, next, ended, output, _, _, _, _, _, goesOn⟩ :=
    failed_statement_leaves {} [] (.data chainSample) failed survives
  rw [ended] at size
  exact ⟨⟨failed, survives⟩, fault, next, ended, size, output,
    fun limit after => goesOn limit [] after {} (by simp only [Block.run])⟩

end State

end MiniAbap
