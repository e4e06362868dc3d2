import Mathlib.Logic.Function.Iterate
import MiniAbap.Proofs.Block.Append
import MiniAbap.Proofs.Block.Grammar

/-!
Statements that make up no block. Either some statement cannot stand where it does,
and then nothing after it helps; or blocks are left open, and then adding the word that
is reported as missing, again and again, closes them one by one from the inside.
-/

namespace MiniAbap

namespace Block

section Rules

def openAfter (opened : List Text) (text : Text) : List Text :=
  match Builder.blockWord? text with
  | some (.openIf, _) | some (.openLoop _, _) => text :: opened
  | some (.close _, _) => opened.tail
  | some (.elseIf, _) | some (.elseWord, _) | none => opened

def openTexts (statements : List Text) : List Text :=
  statements.foldl openAfter []

def repair (statements : List Text) : List Text :=
  match ofStatements statements with
  | .error (.missingTerminator expected _) => statements ++ [expected.title.toList]
  | _ => statements

end Rules

end Block

section Errors

def StructureError.isFinal : StructureError → Bool
  | .missingTerminator _ _ => false
  | _ => true

def Final {α : Type} (result : Except StructureError α) : Prop :=
  ∀ error, result = .error error → error.isFinal = true

namespace Final

variable {α β : Type}

theorem ok (value : α) : Final (.ok value) := by
  intro error failed
  cases failed

theorem error {error : StructureError} (final : error.isFinal = true) :
    Final (.error error : Except StructureError α) := by
  rintro _ ⟨⟩
  exact final

end Final

namespace Builder

theorem final_readCondition (word : BlockWord) (text rest : Text) :
    Final (readCondition word text rest) := by
  simp only [readCondition]
  split
  · exact .error rfl
  · exact .ok _

theorem final_readCounted (word : LoopWord) (text rest : Text) :
    Final (readCounted word text rest) := by
  simp only [readCounted]
  split
  · exact .error rfl
  · split
    · exact .error rfl
    · split
      · exact .error rfl
      · exact .ok _

theorem final_readLoop (text rest : Text) : Final (readLoop text rest) := by
  simp only [readLoop]
  split
  · split
    · split
      · exact .ok _
      · exact .error rfl
    · exact .error rfl
  · exact final_readCounted .loopWord text rest

variable (builder : Builder)

theorem final_openBlock (opening : Text) (branch : Branch) :
    Final (builder.openBlock opening branch) := by
  simp only [openBlock]
  split
  · exact .error rfl
  · exact .ok _

theorem final_nextBranch (word : BlockWord) (text : Text) (next : List Clause → Branch) :
    Final (builder.nextBranch word text next) := by
  simp only [nextBranch]
  split
  · split
    · exact .ok _
    · exact .error rfl
    · exact .error rfl
    · exact .error rfl
  · exact .error rfl

theorem final_closeBlock (found : Terminator) (text : Text) :
    Final (builder.closeBlock found text) := by
  simp only [closeBlock]
  split
  · exact .error rfl
  · split
    · exact .ok _
    · exact .error rfl

theorem final_addLeaf (text : Text) : Final (builder.addLeaf text) := by
  simp only [addLeaf]
  split
  · exact .error rfl
  · exact .ok _

-- One case for each kind of statement.
theorem final_step (text : Text) : Final (builder.step text) := by
  simp only [step]
  split
  · exact builder.final_addLeaf text
  · split
    · next failed => exact .error (final_readCondition _ _ _ _ failed)
    · exact builder.final_openBlock _ _
  · split
    · next failed => exact .error (final_readCondition _ _ _ _ failed)
    · exact builder.final_nextBranch _ _ _
  · split
    · exact builder.final_nextBranch _ _ _
    · exact .error rfl
  · split
    · next failed => exact .error (final_readCounted _ _ _ _ failed)
    · exact builder.final_openBlock _ _
  · split
    · next failed => exact .error (final_readLoop _ _ _ failed)
    · exact builder.final_openBlock _ _
  · split
    · exact builder.final_closeBlock _ _
    · exact .error rfl

theorem final_steps (statements : List Text) : Final (builder.steps statements) := by
  induction statements generalizing builder with
  | nil => exact .ok _
  | cons text rest ih =>
      simp only [steps]
      split
      · next failed => exact .error (builder.final_step text _ failed)
      · exact ih _

end Builder

end Errors

section Stack

namespace Builder

def openings (builder : Builder) : List Text :=
  builder.blocks.map OpenBlock.opening

@[simp] theorem openings_add (builder : Builder) (node : Node) :
    (builder.add node).openings = builder.openings := by
  obtain ⟨nodes, blocks⟩ := builder
  cases blocks <;> rfl

theorem Opens.openAfter_eq {text : Text} {branch : Branch} (opens : Opens text branch)
    (opened : List Text) : Block.openAfter opened text = text :: opened := by
  cases opens with
  | ifClause heads _ | doTimes heads _ | loopTimes heads _ | loopAt heads _ =>
      simp only [Block.openAfter, (blockWord?_eq_some_iff _ _ _).mpr heads]

theorem Divides.openAfter_eq {text : Text} {clauses : List Clause} {branch : Branch}
    (divides : Divides text clauses branch) (opened : List Text) :
    Block.openAfter opened text = opened := by
  cases divides with
  | elseIf heads _ | otherwise heads =>
      simp only [Block.openAfter, (blockWord?_eq_some_iff _ _ _).mpr heads]

theorem StepsTo.openings_eq {builder next : Builder} {text : Text}
    (steps : StepsTo builder text next) :
    next.openings = Block.openAfter builder.openings text := by
  cases steps with
  | leaf plain _ =>
      simp only [openings_add, Block.openAfter, (blockWord?_eq_none_iff _).mpr plain]
  | opening opens _ => exact (opens.openAfter_eq _).symm
  | dividing divides stack _ => simp only [openings, stack, divides.openAfter_eq, List.map_cons]
  | closing closes stack =>
      simp only [openings_add, Block.openAfter, (blockWord?_eq_some_iff _ _ _).mpr closes]
      simp only [openings, stack, List.map_cons, List.tail_cons]

theorem openings_of_steps {builder last : Builder} {statements : List Text}
    (ran : builder.steps statements = .ok last) :
    last.openings = statements.foldl Block.openAfter builder.openings := by
  induction statements generalizing builder with
  | nil =>
      cases ran
      rfl
  | cons text rest ih =>
      simp only [steps] at ran
      split at ran
      · cases ran
      · next next stepped =>
          rw [List.foldl_cons, ← (stepsTo_of_step _ _ _ stepped).openings_eq]
          exact ih ran

theorem length_openings_le {last : Builder} {statements : List Text}
    (ran : Builder.steps {} statements = .ok last) : last.openings.length ≤ deepestBlock := by
  have spells := Spells.steps (.outside .nil) ran
  rw [openings, List.length_map]
  cases spells with
  | outside => exact Nat.zero_le _
  | inside _ room _ _ => exact room

-- The word that closes a kind of block is read as nothing else.
theorem closes_title (terminator : Terminator) : terminator.Closes terminator.title.toList := by
  apply (blockWord?_eq_some_iff _ _ _).mp
  cases terminator <;> decide +kernel

/-- A block is closed by the word that is reported as missing for it. -/
theorem step_title {builder : Builder} {block : OpenBlock} {outer : List OpenBlock}
    (stack : builder.blocks = block :: outer) :
    builder.step block.branch.terminator.title.toList =
      .ok (add { builder with blocks := outer } block.close) :=
  step_of_stepsTo _ _ _ (.closing (closes_title _) stack)

end Builder

end Stack

namespace Block

section Outcomes

theorem ofStatements_of_steps {statements : List Text} {builder : Builder}
    (ran : Builder.steps {} statements = .ok builder) :
    ofStatements statements = builder.finish := by
  rw [ofStatements, ran]

theorem openTexts_of_steps {statements : List Text} {builder : Builder}
    (ran : Builder.steps {} statements = .ok builder) :
    openTexts statements = builder.openings :=
  (Builder.openings_of_steps ran).symm

/-- Statements are refused for good by one of them, or the builder goes through them
    all. -/
theorem refused_or_built (statements : List Text) :
    (∃ error, error.isFinal = true ∧ ∀ more, ofStatements (statements ++ more) = .error error) ∨
      ∃ builder, Builder.steps {} statements = .ok builder := by
  cases ran : Builder.steps {} statements with
  | ok builder => exact .inr ⟨builder, rfl⟩
  | error error =>
      refine .inl ⟨error, Builder.final_steps {} statements error ran, ?_⟩
      intro more
      rw [ofStatements, Builder.steps_append, ran]
      rfl

theorem exists_built_of_missing {statements : List Text} {expected : Terminator} {opening : Text}
    (failed : ofStatements statements = .error (.missingTerminator expected opening)) :
    ∃ builder, Builder.steps {} statements = .ok builder := by
  refine (refused_or_built statements).resolve_left ?_
  rintro ⟨error, final, refused⟩
  have same := refused []
  rw [List.append_nil, failed] at same
  cases same
  cases final

-- A builder that went through all statements can only lack ends of blocks.
theorem missing_of_built {statements : List Text} {builder : Builder} {error : StructureError}
    (ran : Builder.steps {} statements = .ok builder)
    (failed : ofStatements statements = .error error) :
    ∃ expected opening outer, error = .missingTerminator expected opening ∧
      builder.openings = opening :: outer := by
  rw [ofStatements_of_steps ran, Builder.finish] at failed
  split at failed
  · cases failed
  · next block outer stack =>
      cases failed
      exact ⟨_, _, outer.map OpenBlock.opening, rfl, by rw [Builder.openings, stack]; rfl⟩

theorem ofStatements_append_of_isFinal {statements : List Text} {error : StructureError}
    (failed : ofStatements statements = .error error) (final : error.isFinal = true)
    (more : List Text) : ofStatements (statements ++ more) = .error error := by
  rcases refused_or_built statements with ⟨other, _, refused⟩ | ⟨builder, ran⟩
  · have same := refused []
    rw [List.append_nil, failed] at same
    cases same
    exact refused more
  · obtain ⟨expected, opening, _, rfl, _⟩ := missing_of_built ran failed
    cases final

end Outcomes

section Repairing

-- The report on a builder names its innermost open block.
theorem ofStatements_built {statements : List Text} {builder : Builder} {opening : Text}
    {outer : List Text} (ran : Builder.steps {} statements = .ok builder)
    (stack : builder.openings = opening :: outer) :
    ∃ expected, ofStatements statements = .error (.missingTerminator expected opening) ∧
      ∃ next, Builder.steps {} (repair statements) = .ok next ∧ next.openings = outer := by
  obtain ⟨block, blocks, whole, rfl, rfl⟩ := List.map_eq_cons_iff.mp stack
  have reported : ofStatements statements =
      .error (.missingTerminator block.branch.terminator block.opening) := by
    rw [ofStatements_of_steps ran, Builder.finish, whole]
  refine ⟨_, reported, _, ?_, Builder.openings_add ⟨builder.nodes, blocks⟩ block.close⟩
  rw [repair, reported]
  simp only [Builder.steps_append, ran, Except.bind, Builder.steps, Builder.step_title whole]

theorem iterate_repair {statements : List Text} {builder : Builder}
    (ran : Builder.steps {} statements = .ok builder) (count : Nat)
    (within : count ≤ builder.openings.length) :
    ∃ next, Builder.steps {} (repair^[count] statements) = .ok next ∧
      next.openings = builder.openings.drop count := by
  induction count with
  | zero => exact ⟨builder, ran, rfl⟩
  | succ count ih =>
      obtain ⟨next, built, left⟩ := ih (Nat.le_of_succ_le within)
      rw [List.drop_eq_getElem_cons within] at left
      obtain ⟨_, _, last, closed, rest⟩ := ofStatements_built built left
      rw [Function.iterate_succ_apply']
      exact ⟨last, closed, rest⟩

theorem exists_append_iterate_repair (statements : List Text) (count : Nat) :
    ∃ more, repair^[count] statements = statements ++ more := by
  induction count with
  | zero => exact ⟨[], (List.append_nil _).symm⟩
  | succ count ih =>
      obtain ⟨more, same⟩ := ih
      rw [Function.iterate_succ_apply', same, repair]
      split
      · exact ⟨more ++ [_], List.append_assoc _ _ _⟩
      · exact ⟨more, rfl⟩

theorem repaired {statements : List Text} {builder : Builder}
    (ran : Builder.steps {} statements = .ok builder) :
    ∃ nodes, ofStatements (repair^[builder.openings.length] statements) = .ok nodes := by
  obtain ⟨last, built, left⟩ := iterate_repair ran _ (Nat.le_refl _)
  rw [List.drop_length, Builder.openings, List.map_eq_nil_iff] at left
  refine ⟨last.nodes.reverse, ?_⟩
  rw [ofStatements_of_steps built, Builder.finish, left]

theorem exists_ok_append_iff (statements : List Text) :
    (∃ more nodes, ofStatements (statements ++ more) = .ok nodes) ↔
      (∃ nodes, ofStatements statements = .ok nodes) ∨
        ∃ expected opening,
          ofStatements statements = .error (.missingTerminator expected opening) := by
  constructor
  · rintro ⟨more, nodes, accepted⟩
    rcases refused_or_built statements with ⟨error, _, refused⟩ | ⟨builder, ran⟩
    · rw [refused more] at accepted
      cases accepted
    · cases outcome : ofStatements statements with
      | ok nodes => exact .inl ⟨nodes, rfl⟩
      | error error =>
          obtain ⟨expected, opening, _, rfl, _⟩ := missing_of_built ran outcome
          exact .inr ⟨expected, opening, rfl⟩
  · rintro (⟨nodes, accepted⟩ | ⟨expected, opening, failed⟩)
    · exact ⟨[], nodes, by rw [List.append_nil, accepted]⟩
    · obtain ⟨builder, ran⟩ := exists_built_of_missing failed
      obtain ⟨more, same⟩ := exists_append_iterate_repair statements builder.openings.length
      obtain ⟨nodes, accepted⟩ := repaired ran
      rw [same] at accepted
      exact ⟨more, nodes, accepted⟩

end Repairing

/-- An error other than a missing end stays, whatever follows. With ends missing, the report
    names the innermost open block, and each word added as reported closes one block, until
    all are closed. So statements can be completed exactly if they make up a block or lack
    ends only. -/
theorem errors_final_or_repairable (statements : List Text) :
    (∀ error, ofStatements statements = .error error → error.isFinal = true →
      ∀ more, ofStatements (statements ++ more) = .error error) ∧
    (∀ expected opening,
      ofStatements statements = .error (.missingTerminator expected opening) →
        (openTexts statements).head? = some opening ∧
        (openTexts statements).length ≤ deepestBlock ∧
        (∀ count < (openTexts statements).length, ∃ next reported,
          (openTexts statements)[count]? = some reported ∧
          ofStatements (repair^[count] statements) =
            .error (.missingTerminator next reported)) ∧
        ∃ nodes, ofStatements (repair^[(openTexts statements).length] statements) = .ok nodes) ∧
    ((∃ more nodes, ofStatements (statements ++ more) = .ok nodes) ↔
      (∃ nodes, ofStatements statements = .ok nodes) ∨
        ∃ expected opening,
          ofStatements statements = .error (.missingTerminator expected opening)) := by
  refine ⟨?_, ?_, ?_⟩
  · intro error failed final
    exact ofStatements_append_of_isFinal failed final
  · intro expected opening failed
    obtain ⟨builder, ran⟩ := exists_built_of_missing failed
    obtain ⟨_, _, outer, same, stack⟩ := missing_of_built ran failed
    cases same
    rw [openTexts_of_steps ran]
    refine ⟨by rw [stack]; rfl, Builder.length_openings_le ran, ?_, repaired ran⟩
    intro count within
    obtain ⟨next, built, left⟩ := iterate_repair ran count (Nat.le_of_lt within)
    rw [List.drop_eq_getElem_cons within] at left
    obtain ⟨missing, reported, _⟩ := ofStatements_built built left
    exact ⟨missing, _, List.getElem?_eq_getElem within, reported⟩
  · exact exists_ok_append_iff statements

-- Three blocks are open, each of another kind, and the outer one is in its second branch.
def unclosedSample : List Text :=
  ["IF 1 = 1".toList, "x = 1".toList, "ELSE".toList, "DO 2 TIMES".toList,
    "loop at t into x".toList]

theorem errors_final_or_repairable_unclosed :
    ofStatements unclosedSample =
        .error (.missingTerminator .endLoop "loop at t into x".toList) ∧
      openTexts unclosedSample =
        ["loop at t into x".toList, "DO 2 TIMES".toList, "IF 1 = 1".toList] ∧
      (∃ nodes, ofStatements (repair^[3] unclosedSample) = .ok nodes) ∧
      ∃ error, ofStatements (unclosedSample ++ ["ENDDO".toList]) = .error error ∧
        ∀ more, ofStatements (unclosedSample ++ ["ENDDO".toList] ++ more) = .error error := by
  have failed : ofStatements unclosedSample =
      .error (.missingTerminator .endLoop "loop at t into x".toList) := by
    rfl
  have opened : openTexts unclosedSample =
      ["loop at t into x".toList, "DO 2 TIMES".toList, "IF 1 = 1".toList] := by
    decide +kernel
  have refused : ofStatements (unclosedSample ++ ["ENDDO".toList]) =
      .error (.mismatchedTerminator .endDo .endLoop "loop at t into x".toList) := by
    rfl
  obtain ⟨_, _, _, closed⟩ := (errors_final_or_repairable unclosedSample).2.1 _ _ failed
  rw [opened] at closed
  exact ⟨failed, opened, closed, _, refused,
    (errors_final_or_repairable (unclosedSample ++ ["ENDDO".toList])).1 _ refused rfl⟩

end Block

end MiniAbap
