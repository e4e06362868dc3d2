import MiniAbap.Proofs.Run.Failure

/-!
Conditionals with several clauses against nested ones: the clauses after the first are a
conditional of their own in its else branch. The two forms differ in who records the fault of
a later condition, the block around the conditional or the block of the else branch. A fault
is recorded once in either form, since a block that has recorded one ends well.
-/

namespace MiniAbap

def Outcome.recorded : Outcome → Outcome
  | .done state => .done state
  | .failed fault state => .done (state.record fault)
  | .exhausted state => .exhausted state
  | .crashed state => .crashed state

theorem Outcome.recorded_recorded (outcome : Outcome) :
    outcome.recorded.recorded = outcome.recorded := by
  cases outcome <;> rfl

def Node.nested : Clause → List Clause → Option (List Node) → Node
  | first, [], otherwise => .conditional [first] otherwise
  | first, second :: rest, otherwise => .conditional [first] (some [nested second rest otherwise])

section Nesting

variable {limit : Nat} {one other : List Node}

theorem Block.run_singleton (limit : Nat) (node : Node) (state : State) :
    Block.run limit [node] state = (node.run limit state).recorded := by
  simp only [Block.run]
  cases node.run limit state <;> rfl

theorem Block.run_between (same : ∀ state, Block.run limit one state = Block.run limit other state)
    (before after : List Node) (state : State) :
    Block.run limit (before ++ (one ++ after)) state =
      Block.run limit (before ++ (other ++ after)) state := by
  have inner : Block.run limit (one ++ after) = Block.run limit (other ++ after) := by
    funext next
    rw [Block.run_append, same, ← Block.run_append]
  rw [Block.run_append, inner, ← Block.run_append]

theorem Node.run_conditional_cons (limit : Nat) (first : Clause) (rest : List Clause)
    (otherwise : Option (List Node)) (state : State) :
    (Node.conditional (first :: rest) otherwise).run limit state =
      match state.env.operand first.condition with
      | .error fault => .failed fault state
      | .ok value =>
          if value.isTrue then Block.run limit first.body state
          else (Node.conditional rest otherwise).run limit state := by
  obtain ⟨condition, body⟩ := first
  rw [Node.run, Clause.runFirst, Node.run]
  rfl

theorem Node.run_otherwise_congr
    (same : ∀ state, Block.run limit one state = Block.run limit other state)
    (clauses : List Clause) (state : State) :
    (Node.conditional clauses (some one)).run limit state =
      (Node.conditional clauses (some other)).run limit state := by
  simp only [Node.run, same]

/-- The clauses after the first can stand in its else branch. -/
theorem Block.run_conditional_cons (limit : Nat) (first : Clause) (rest : List Clause)
    (otherwise : Option (List Node)) (state : State) :
    Block.run limit [.conditional (first :: rest) otherwise] state =
      Block.run limit [.conditional [first] (some [.conditional rest otherwise])] state := by
  rw [run_singleton, run_singleton, Node.run_conditional_cons, Node.run_conditional_cons]
  cases state.env.operand first.condition with
  | error fault => rfl
  | ok value =>
      by_cases holds : value.isTrue = true
      · simp only [holds, if_true]
      · have inner : (Node.conditional [] (some [.conditional rest otherwise])).run limit state =
            ((Node.conditional rest otherwise).run limit state).recorded := by
          rw [← run_singleton]
          simp only [Node.run, Clause.runFirst]
        simp only [holds, Bool.false_eq_true, if_false, inner, Outcome.recorded_recorded]

-- By induction on the further clauses, which are nested in one else branch after the other.
theorem Block.run_nested (limit : Nat) (first : Clause) (rest : List Clause)
    (otherwise : Option (List Node)) (state : State) :
    Block.run limit [.conditional (first :: rest) otherwise] state =
      Block.run limit [Node.nested first rest otherwise] state := by
  induction rest generalizing first state with
  | nil => rfl
  | cons second rest ih =>
      rw [run_conditional_cons, run_singleton, Node.run_otherwise_congr (ih second),
        ← run_singleton]
      rfl

/-- A conditional with further clauses does the same as one that has the others in its else
    branch, and so does one that nests every clause, wherever they stand in a block: the run
    ends alike and in the same state. -/
theorem Block.run_elseIf_nested (limit : Nat) (before after : List Node) (first second : Clause)
    (rest : List Clause) (otherwise : Option (List Node)) (state : State) :
    Block.run limit (before ++ ([.conditional (first :: second :: rest) otherwise] ++ after))
        state =
      Block.run limit (before ++
        ([.conditional [first] (some [.conditional (second :: rest) otherwise])] ++ after)) state ∧
    Block.run limit (before ++ ([.conditional (first :: second :: rest) otherwise] ++ after))
        state =
      Block.run limit (before ++ ([Node.nested first (second :: rest) otherwise] ++ after))
        state := by
  constructor
  · exact run_between (run_conditional_cons limit first _ otherwise) before after state
  · exact run_between (run_nested limit first _ otherwise) before after state

end Nesting

end MiniAbap
