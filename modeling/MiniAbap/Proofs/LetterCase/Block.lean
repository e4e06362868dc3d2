import MiniAbap.Block.Build
import MiniAbap.Proofs.LetterCase.Statement

/-!
Statement lists that differ in the case of letters outside literals make up the
same blocks but for case. Where they make up none, the errors differ in the case
of the texts that they quote.
-/

namespace MiniAbap

open Text (lower)

mutual

inductive Node.Recased : Node → Node → Prop where
  | leaf {text text' : Text} {statement statement' : Statement}
      (texts : lower text = lower text') (statements : statement.Recased statement') :
      Node.Recased (.leaf text statement) (.leaf text' statement')
  | conditional {clauses clauses' : List Clause}
      (alike : List.Forall₂ Clause.Recased clauses clauses') :
      Node.Recased (.conditional clauses none) (.conditional clauses' none)
  | alternative {clauses clauses' : List Clause} {body body' : List Node}
      (alike : List.Forall₂ Clause.Recased clauses clauses')
      (bodies : List.Forall₂ Node.Recased body body') :
      Node.Recased (.conditional clauses (some body)) (.conditional clauses' (some body'))
  | counted (word : LoopWord) {count count' : Text} {body body' : List Node}
      (counts : Text.Recased none count count') (bodies : List.Forall₂ Node.Recased body body') :
      Node.Recased (.counted word count body) (.counted word count' body')
  | overRows {table table' workArea workArea' : Text} {body body' : List Node}
      (tables : lower table = lower table') (workAreas : lower workArea = lower workArea')
      (bodies : List.Forall₂ Node.Recased body body') :
      Node.Recased (.overRows table workArea body) (.overRows table' workArea' body')

inductive Clause.Recased : Clause → Clause → Prop where
  | mk {condition condition' : Text} {body body' : List Node}
      (conditions : Text.Recased none condition condition')
      (bodies : List.Forall₂ Node.Recased body body') :
      Clause.Recased (.mk condition body) (.mk condition' body')

end

inductive Branch.Recased : Branch → Branch → Prop where
  | clause {earlier earlier' : List Clause} {condition condition' : Text}
      (alike : List.Forall₂ Clause.Recased earlier earlier')
      (conditions : Text.Recased none condition condition') :
      Recased (.clause earlier condition) (.clause earlier' condition')
  | otherwise {clauses clauses' : List Clause}
      (alike : List.Forall₂ Clause.Recased clauses clauses') :
      Recased (.otherwise clauses) (.otherwise clauses')
  | counted (word : LoopWord) {count count' : Text} (counts : Text.Recased none count count') :
      Recased (.counted word count) (.counted word count')
  | overRows {table table' workArea workArea' : Text} (tables : lower table = lower table')
      (workAreas : lower workArea = lower workArea') :
      Recased (.overRows table workArea) (.overRows table' workArea')

structure OpenBlock.Recased (one other : OpenBlock) : Prop where
  opening : lower one.opening = lower other.opening
  branch : one.branch.Recased other.branch
  nodes : List.Forall₂ Node.Recased one.nodes other.nodes

structure Builder.Recased (one other : Builder) : Prop where
  nodes : List.Forall₂ Node.Recased one.nodes other.nodes
  blocks : List.Forall₂ OpenBlock.Recased one.blocks other.blocks

inductive StructureError.Recased : StructureError → StructureError → Prop where
  | unexpectedTerminator (found : Terminator) {text text' : Text}
      (same : lower text = lower text') :
      Recased (.unexpectedTerminator found text) (.unexpectedTerminator found text')
  | mismatchedTerminator (found expected : Terminator) {text text' : Text}
      (same : lower text = lower text') :
      Recased (.mismatchedTerminator found expected text)
        (.mismatchedTerminator found expected text')
  | clauseOutsideIf (word : BlockWord) {text text' : Text} (same : lower text = lower text') :
      Recased (.clauseOutsideIf word text) (.clauseOutsideIf word text')
  | clauseAfterElse (word : BlockWord) {text text' : Text} (same : lower text = lower text') :
      Recased (.clauseAfterElse word text) (.clauseAfterElse word text')
  | missingTerminator (expected : Terminator) {text text' : Text}
      (same : lower text = lower text') :
      Recased (.missingTerminator expected text) (.missingTerminator expected text')
  | nestingTooDeep {text text' : Text} (same : lower text = lower text') :
      Recased (.nestingTooDeep text) (.nestingTooDeep text')
  | missingCondition (word : BlockWord) {text text' : Text} (same : lower text = lower text') :
      Recased (.missingCondition word text) (.missingCondition word text')
  | unboundedLoop (word : LoopWord) {text text' : Text} (same : lower text = lower text') :
      Recased (.unboundedLoop word text) (.unboundedLoop word text')
  | malformedBlock (word : BlockWord) (fault : BlockFault) {text text' : Text}
      (same : lower text = lower text') :
      Recased (.malformedBlock word text fault) (.malformedBlock word text' fault)
  | malformedDeclaration {error error' : MalformedDeclaration}
      (same : SameMessage MalformedDeclaration.message error error') :
      Recased (.malformedDeclaration error) (.malformedDeclaration error')

theorem StructureError.Recased.sameMessage {error error' : StructureError}
    (recased : error.Recased error') : SameMessage StructureError.message error error' := by
  cases recased with
  | malformedDeclaration same => exact same
  | _ =>
      dsimp only [SameMessage, StructureError.message, toString]
      simp only [folded_append, folded_ofList, *]

namespace OpenBlock.Recased

variable {one other : OpenBlock}

theorem terminator_eq (recased : one.Recased other) :
    one.branch.terminator = other.branch.terminator := by
  have branches := recased.branch
  generalize one.branch = branch at branches
  generalize other.branch = branch' at branches
  cases branches <;> rfl

theorem body (recased : one.Recased other) : List.Forall₂ Node.Recased one.body other.body :=
  List.rel_reverse recased.nodes

theorem add (recased : one.Recased other) {node node' : Node} (nodes : node.Recased node') :
    (one.add node).Recased (other.add node') :=
  ⟨recased.opening, recased.branch, .cons nodes recased.nodes⟩

-- The clause that was being collected comes last.
theorem clauses (recased : one.Recased other) {earlier earlier' : List Clause}
    {condition condition' : Text} (alike : List.Forall₂ Clause.Recased earlier earlier')
    (conditions : Text.Recased none condition condition') :
    List.Forall₂ Clause.Recased (earlier ++ [.mk condition one.body])
      (earlier' ++ [.mk condition' other.body]) :=
  List.rel_append alike (.cons (.mk conditions recased.body) .nil)

theorem close (recased : one.Recased other) : one.close.Recased other.close := by
  have branches := recased.branch
  simp only [OpenBlock.close]
  generalize one.branch = branch at branches
  generalize other.branch = branch' at branches
  cases branches with
  | clause alike conditions => exact .conditional (recased.clauses alike conditions)
  | otherwise alike => exact .alternative alike recased.body
  | counted word counts => exact .counted word counts recased.body
  | overRows tables workAreas => exact .overRows tables workAreas recased.body

end OpenBlock.Recased

namespace Builder

variable {builder other : Builder} {text text' rest rest' : Text}

theorem Recased.add (recased : builder.Recased other) {node node' : Node}
    (nodes : node.Recased node') : (builder.add node).Recased (other.add node') := by
  have blocks := recased.blocks
  obtain ⟨finished, opened⟩ := builder
  obtain ⟨finished', opened'⟩ := other
  cases blocks with
  | nil => exact ⟨.cons nodes recased.nodes, .nil⟩
  | cons here later => exact ⟨recased.nodes, .cons (here.add nodes) later⟩

theorem Recased.openBlock (recased : builder.Recased other) {branch branch' : Branch}
    (texts : lower text = lower text') (branches : branch.Recased branch') :
    Alike StructureError.Recased Recased (builder.openBlock text branch)
      (other.openBlock text' branch') := by
  simp only [Builder.openBlock, recased.blocks.length_eq]
  split
  · exact .error (.nestingTooDeep texts)
  · exact .ok ⟨recased.nodes, .cons ⟨texts, branches, .nil⟩ recased.blocks⟩

theorem Recased.nextBranch (recased : builder.Recased other) (word : BlockWord)
    (texts : lower text = lower text') {next next' : List Clause → Branch}
    (branches : ∀ clauses clauses', List.Forall₂ Clause.Recased clauses clauses' →
      (next clauses).Recased (next' clauses')) :
    Alike StructureError.Recased Recased (builder.nextBranch word text next)
      (other.nextBranch word text' next') := by
  have blocks := recased.blocks
  obtain ⟨finished, opened⟩ := builder
  obtain ⟨finished', opened'⟩ := other
  cases blocks with
  | nil => exact .error (.clauseOutsideIf word texts)
  | @cons block block' outer outer' here later =>
      have current := here.branch
      simp only [Builder.nextBranch]
      generalize block.branch = branch at current
      generalize block'.branch = branch' at current
      cases current with
      | clause alike conditions =>
          exact .ok ⟨recased.nodes,
            .cons ⟨here.opening, branches _ _ (here.clauses alike conditions), .nil⟩ later⟩
      | otherwise => exact .error (.clauseAfterElse word here.opening)
      | counted => exact .error (.clauseOutsideIf word texts)
      | overRows => exact .error (.clauseOutsideIf word texts)

theorem Recased.closeBlock (recased : builder.Recased other) (found : Terminator)
    (texts : lower text = lower text') :
    Alike StructureError.Recased Recased (builder.closeBlock found text)
      (other.closeBlock found text') := by
  have blocks := recased.blocks
  obtain ⟨finished, opened⟩ := builder
  obtain ⟨finished', opened'⟩ := other
  cases blocks with
  | nil => exact .error (.unexpectedTerminator found texts)
  | @cons block block' outer outer' here later =>
      simp only [Builder.closeBlock, here.terminator_eq]
      split
      · have around : Recased ⟨finished, outer⟩ ⟨finished', outer'⟩ := ⟨recased.nodes, later⟩
        exact .ok (around.add here.close)
      · exact .error (.mismatchedTerminator found _ here.opening)

theorem Recased.addLeaf (recased : builder.Recased other)
    (texts : Text.Recased none text text') :
    Alike StructureError.Recased Recased (builder.addLeaf text) (other.addLeaf text') := by
  simp only [Builder.addLeaf]
  rcases (Statement.read_alike texts).result_cases with
    ⟨error, error', read, read', same⟩ | ⟨statement, statement', read, read', same⟩
  · simp only [read, read']
    exact .error (.malformedDeclaration same)
  · simp only [read, read']
    exact .ok (recased.add (.leaf texts.lower_eq same))

section Openings

theorem readCondition_alike (word : BlockWord) (texts : lower text = lower text')
    (recased : Text.Recased none rest rest') :
    Alike StructureError.Recased (Text.Recased none) (readCondition word text rest)
      (readCondition word text' rest') := by
  have plain : ∀ c ∈ "THEN".toList, Text.isQuote c = false := by simp [Text.isQuote]
  have stripped := recased.stripTrailing plain
  have kept : Text.Recased none ((Text.stripTrailing "THEN".toList rest).getD rest)
      ((Text.stripTrailing "THEN".toList rest').getD rest') := by
    generalize Text.stripTrailing "THEN".toList rest = one at stripped
    generalize Text.stripTrailing "THEN".toList rest' = other at stripped
    cases stripped with
    | none => exact recased
    | some same => exact same
  simp only [readCondition, kept.trim.isEmpty_eq]
  split
  · exact .error (.missingCondition word texts)
  · exact .ok kept.trim

theorem readCounted_alike (word : LoopWord) (texts : lower text = lower text')
    (recased : Text.Recased none rest rest') :
    Alike StructureError.Recased Branch.Recased (readCounted word text rest)
      (readCounted word text' rest') := by
  have plain : ∀ c ∈ "TIMES".toList, Text.isQuote c = false := by simp [Text.isQuote]
  have stripped := recased.stripTrailing plain
  simp only [readCounted, recased.isEmpty_eq]
  split
  · exact .error (.unboundedLoop word texts)
  · generalize Text.stripTrailing "TIMES".toList rest = one at stripped
    generalize Text.stripTrailing "TIMES".toList rest' = other at stripped
    cases stripped with
    | none => exact .error (.malformedBlock _ _ texts)
    | some counts =>
        simp only [counts.isEmpty_eq]
        split
        · exact .error (.malformedBlock _ _ texts)
        · exact .ok (.counted word counts)

theorem readLoop_alike (texts : lower text = lower text')
    (recased : Text.Recased none rest rest') :
    Alike StructureError.Recased Branch.Recased (readLoop text rest) (readLoop text' rest') := by
  have words := sameWords_words recased.lower_eq
  have heads : (Text.words rest).head?.any (Text.sameWord "AT".toList) =
      (Text.words rest').head?.any (Text.sameWord "AT".toList) := by
    generalize Text.words rest = one at words
    generalize Text.words rest' = other at words
    cases words with
    | nil => rfl
    | cons here _ => exact Text.sameWord_right here _
  simp only [readLoop, heads]
  split
  · generalize Text.words rest = one at words
    generalize Text.words rest' = other at words
    -- Four words, no more and no fewer, name the table and the work area.
    rcases words with _ | ⟨_, _ | ⟨table, _ | ⟨into, _ | ⟨workArea, _ | _⟩⟩⟩⟩
    · exact .error (.malformedBlock _ _ texts)
    · exact .error (.malformedBlock _ _ texts)
    · exact .error (.malformedBlock _ _ texts)
    · exact .error (.malformedBlock _ _ texts)
    · simp only [Text.sameWord_left into, Text.isName_eq table, Text.isName_eq workArea]
      split
      · exact .ok (.overRows table workArea)
      · exact .error (.malformedBlock _ _ texts)
    · exact .error (.malformedBlock _ _ texts)
  · exact readCounted_alike _ texts recased

end Openings

theorem blockWord?_alike (texts : Text.Recased none text text') :
    Option.Rel (fun one other => one.1 = other.1 ∧ Text.Recased none one.2 other.2)
      (blockWord? text) (blockWord? text') := by
  obtain ⟨word, rest⟩ := texts.leadingWord
  simp only [blockWord?, Statement.isAssignment_eq texts, word]
  split
  · exact .none
  · cases BlockWord.ofText? (Text.leadingWord text').1 with
    | none => exact .none
    | some keyword => exact .some ⟨rfl, rest.trim⟩

theorem Recased.step (recased : builder.Recased other)
    (texts : Text.Recased none text text') :
    Alike StructureError.Recased Recased (builder.step text) (other.step text') := by
  have words := blockWord?_alike texts
  have same := texts.lower_eq
  simp only [Builder.step]
  generalize blockWord? text = one at words
  generalize blockWord? text' = other' at words
  cases words with
  | none => exact recased.addLeaf texts
  | @some one other' alike =>
      obtain ⟨word, rest⟩ := one
      obtain ⟨word', rest'⟩ := other'
      obtain ⟨rfl, following⟩ := alike
      cases word with
      | openIf =>
          rcases (readCondition_alike .openIf same following).result_cases with
            ⟨error, error', read, read', errors⟩ | ⟨condition, condition', read, read', conditions⟩
          · simp only [read, read']
            exact .error errors
          · simp only [read, read']
            exact recased.openBlock same (.clause .nil conditions)
      | elseIf =>
          rcases (readCondition_alike .elseIf same following).result_cases with
            ⟨error, error', read, read', errors⟩ | ⟨condition, condition', read, read', conditions⟩
          · simp only [read, read']
            exact .error errors
          · simp only [read, read']
            exact recased.nextBranch _ same fun _ _ clauses => .clause clauses conditions
      | elseWord =>
          simp only [following.isEmpty_eq]
          split
          · exact recased.nextBranch _ same fun _ _ clauses => .otherwise clauses
          · exact .error (.malformedBlock _ _ same)
      | openLoop word =>
          cases word with
          | doWord =>
              rcases (readCounted_alike .doWord same following).result_cases with
                ⟨error, error', read, read', errors⟩ | ⟨branch, branch', read, read', branches⟩
              · simp only [read, read']
                exact .error errors
              · simp only [read, read']
                exact recased.openBlock same branches
          | loopWord =>
              rcases (readLoop_alike same following).result_cases with
                ⟨error, error', read, read', errors⟩ | ⟨branch, branch', read, read', branches⟩
              · simp only [read, read']
                exact .error errors
              · simp only [read, read']
                exact recased.openBlock same branches
      | close terminator =>
          simp only [following.isEmpty_eq]
          split
          · exact recased.closeBlock terminator same
          · exact .error (.malformedBlock _ _ same)

theorem Recased.steps {texts texts' : List Text} (recased : builder.Recased other)
    (alike : List.Forall₂ (Text.Recased none) texts texts') :
    Alike StructureError.Recased Recased (builder.steps texts) (other.steps texts') := by
  induction alike generalizing builder other with
  | nil => exact .ok recased
  | cons here _ ih =>
      simp only [Builder.steps]
      rcases (recased.step here).result_cases with
        ⟨error, error', step, step', same⟩ | ⟨next, next', step, step', same⟩
      · simp only [step, step']
        exact .error same
      · simp only [step, step']
        exact ih same

theorem Recased.finish (recased : builder.Recased other) :
    Alike StructureError.Recased (List.Forall₂ Node.Recased) builder.finish other.finish := by
  have blocks := recased.blocks
  obtain ⟨finished, opened⟩ := builder
  obtain ⟨finished', opened'⟩ := other
  cases blocks with
  | nil => exact .ok (List.rel_reverse recased.nodes)
  | cons here _ =>
      simp only [Builder.finish, here.terminator_eq]
      exact .error (.missingTerminator _ here.opening)

end Builder

theorem Block.ofStatements_alike {texts texts' : List Text}
    (alike : List.Forall₂ (Text.Recased none) texts texts') :
    Alike StructureError.Recased (List.Forall₂ Node.Recased) (ofStatements texts)
      (ofStatements texts') := by
  have start : Builder.Recased {} {} := ⟨.nil, .nil⟩
  simp only [ofStatements]
  rcases (start.steps alike).result_cases with
    ⟨error, error', steps, steps', same⟩ | ⟨builder, builder', steps, steps', same⟩
  · simp only [steps, steps']
    exact .error same
  · simp only [steps, steps']
    exact same.finish

end MiniAbap
