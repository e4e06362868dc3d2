import MiniAbap.Block.Build

/-!
Statements after statements that make up a block of their own. What the later
ones build, and the error that they stop at, does not depend on the finished
nodes before them.
-/

namespace MiniAbap

namespace Builder

def after (builder : Builder) (earlier : List Node) : Builder :=
  { builder with nodes := builder.nodes ++ earlier.reverse }

variable (builder : Builder) (earlier : List Node)

theorem add_after (node : Node) :
    (builder.after earlier).add node = (builder.add node).after earlier := by
  obtain ⟨nodes, blocks⟩ := builder
  cases blocks <;> rfl

theorem openBlock_after (opening : Text) (branch : Branch) :
    (builder.after earlier).openBlock opening branch =
      (builder.openBlock opening branch).map (·.after earlier) := by
  by_cases full : deepestBlock ≤ builder.blocks.length
  · simp only [openBlock, after, full, if_true]
    rfl
  · simp only [openBlock, after, full, if_false]
    rfl

theorem nextBranch_after (word : BlockWord) (text : Text) (next : List Clause → Branch) :
    (builder.after earlier).nextBranch word text next =
      (builder.nextBranch word text next).map (·.after earlier) := by
  obtain ⟨nodes, blocks⟩ := builder
  cases blocks with
  | nil => rfl
  | cons block outer =>
      simp only [nextBranch, after]
      cases block.branch <;> rfl

theorem closeBlock_after (found : Terminator) (text : Text) :
    (builder.after earlier).closeBlock found text =
      (builder.closeBlock found text).map (·.after earlier) := by
  obtain ⟨nodes, blocks⟩ := builder
  cases blocks with
  | nil => rfl
  | cons block outer =>
      simp only [closeBlock, after]
      split
      · exact congrArg Except.ok (add_after ⟨nodes, outer⟩ earlier block.close)
      · rfl

theorem addLeaf_after (text : Text) :
    (builder.after earlier).addLeaf text = (builder.addLeaf text).map (·.after earlier) := by
  simp only [addLeaf]
  cases Statement.read text with
  | error error => rfl
  | ok statement => exact congrArg Except.ok (add_after builder earlier _)

-- One case for each kind of statement; the readers for openings see the text only.
theorem step_after (text : Text) :
    (builder.after earlier).step text = (builder.step text).map (·.after earlier) := by
  simp only [step, addLeaf_after, openBlock_after, nextBranch_after, closeBlock_after]
  split
  · rfl
  · split <;> rfl
  · split <;> rfl
  · split <;> rfl
  · split <;> rfl
  · split <;> rfl
  · split <;> rfl

theorem steps_after (statements : List Text) :
    (builder.after earlier).steps statements =
      (builder.steps statements).map (·.after earlier) := by
  induction statements generalizing builder with
  | nil => rfl
  | cons text rest ih =>
      simp only [steps, step_after]
      cases builder.step text with
      | error error => rfl
      | ok next => exact ih next

theorem finish_after :
    (builder.after earlier).finish = builder.finish.map (earlier ++ ·) := by
  obtain ⟨nodes, blocks⟩ := builder
  cases blocks with
  | nil => simp [finish, after, Except.map]
  | cons block outer => rfl

theorem steps_append (first second : List Text) :
    builder.steps (first ++ second) =
      (builder.steps first).bind fun next => next.steps second := by
  induction first generalizing builder with
  | nil => rfl
  | cons text rest ih =>
      simp only [List.cons_append, steps]
      cases builder.step text with
      | error error => rfl
      | ok next => exact ih next

theorem eq_after_of_finish {builder : Builder} {nodes : List Node}
    (finished : builder.finish = .ok nodes) : builder = ({} : Builder).after nodes := by
  obtain ⟨stored, blocks⟩ := builder
  cases blocks with
  | nil =>
      cases finished
      simp [after]
  | cons block outer => cases finished

end Builder

namespace Block

/-- After statements that make up a block, further ones add their own block or fail
    with their own error. -/
theorem ofStatements_append {first : List Text} {nodes : List Node}
    (accepted : ofStatements first = .ok nodes) (second : List Text) :
    ofStatements (first ++ second) = (ofStatements second).map (nodes ++ ·) := by
  simp only [ofStatements] at accepted
  cases built : Builder.steps {} first with
  | error error =>
      rw [built] at accepted
      cases accepted
  | ok builder =>
      rw [built] at accepted
      simp only [ofStatements, Builder.steps_append, built, Except.bind,
        Builder.eq_after_of_finish accepted, Builder.steps_after]
      cases Builder.steps {} second with
      | error error => rfl
      | ok later => exact later.finish_after nodes

end Block

end MiniAbap
