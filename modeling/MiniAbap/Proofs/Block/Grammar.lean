import MiniAbap.Block.Build

/-!
The block grammar, and that the builder accepts exactly it:

  block       := item*
  item        := plain | conditional | loop
  conditional := IF block (ELSEIF block)* (ELSE block)? ENDIF
  loop        := DO block ENDDO | LOOP block ENDLOOP

Derivations count the blocks that are open around the statements they derive, so
the limit on nesting is part of the grammar. How the text of an opening statement
is read is left to the readers for openings; the stack of the builder has no part
in it.
-/

namespace MiniAbap

def BlockWord.Heads (word : BlockWord) (text rest : Text) : Prop :=
  Statement.isAssignment text = false ∧ (Text.leadingWord text).1 = word.title.toList ∧
    Text.trim (Text.leadingWord text).2 = rest

def Statement.IsPlain (text : Text) : Prop :=
  Statement.isAssignment text = true ∨
    ∀ word : BlockWord, (Text.leadingWord text).1 ≠ word.title.toList

def Terminator.Closes (terminator : Terminator) (text : Text) : Prop :=
  (BlockWord.close terminator).Heads text []

mutual

/-- The statements make up the nodes of a block, with `depth` blocks open around
    them. -/
inductive Block.Spelled : Nat → List Text → List Node → Prop where
  | nil {depth : Nat} : Block.Spelled depth [] []
  | snoc {depth : Nat} {texts item : List Text} {nodes : List Node} {node : Node} :
      Block.Spelled depth texts nodes →
      Node.Spelled depth item node →
      Block.Spelled depth (texts ++ item) (nodes ++ [node])

inductive Node.Spelled : Nat → List Text → Node → Prop where
  | leaf {depth : Nat} {text : Text} {statement : Statement} :
      Statement.IsPlain text →
      Statement.read text = .ok statement →
      Node.Spelled depth [text] (.leaf text statement)
  | conditional {depth : Nat} {texts : List Text} {ending : Text} {clauses : List Clause} :
      depth < deepestBlock →
      Clause.Spelled depth texts clauses →
      Terminator.endIf.Closes ending →
      Node.Spelled depth (texts ++ [ending]) (.conditional clauses none)
  | conditionalElse {depth : Nat} {texts body : List Text} {middle ending : Text}
      {clauses : List Clause} {nodes : List Node} :
      depth < deepestBlock →
      Clause.Spelled depth texts clauses →
      BlockWord.elseWord.Heads middle [] →
      Block.Spelled (depth + 1) body nodes →
      Terminator.endIf.Closes ending →
      Node.Spelled depth (texts ++ [middle] ++ body ++ [ending])
        (.conditional clauses (some nodes))
  | doTimes {depth : Nat} {opening rest ending count : Text} {body : List Text}
      {nodes : List Node} :
      depth < deepestBlock →
      (BlockWord.openLoop .doWord).Heads opening rest →
      Builder.readCounted .doWord opening rest = .ok (.counted .doWord count) →
      Block.Spelled (depth + 1) body nodes →
      Terminator.endDo.Closes ending →
      Node.Spelled depth ([opening] ++ body ++ [ending]) (.counted .doWord count nodes)
  | loopTimes {depth : Nat} {opening rest ending count : Text} {body : List Text}
      {nodes : List Node} :
      depth < deepestBlock →
      (BlockWord.openLoop .loopWord).Heads opening rest →
      Builder.readLoop opening rest = .ok (.counted .loopWord count) →
      Block.Spelled (depth + 1) body nodes →
      Terminator.endLoop.Closes ending →
      Node.Spelled depth ([opening] ++ body ++ [ending]) (.counted .loopWord count nodes)
  | loopAt {depth : Nat} {opening rest ending table workArea : Text} {body : List Text}
      {nodes : List Node} :
      depth < deepestBlock →
      (BlockWord.openLoop .loopWord).Heads opening rest →
      Builder.readLoop opening rest = .ok (.overRows table workArea) →
      Block.Spelled (depth + 1) body nodes →
      Terminator.endLoop.Closes ending →
      Node.Spelled depth ([opening] ++ body ++ [ending]) (.overRows table workArea nodes)

inductive Clause.Spelled : Nat → List Text → List Clause → Prop where
  | ifClause {depth : Nat} {opening rest condition : Text} {body : List Text}
      {nodes : List Node} :
      BlockWord.openIf.Heads opening rest →
      Builder.readCondition .openIf opening rest = .ok condition →
      Block.Spelled (depth + 1) body nodes →
      Clause.Spelled depth ([opening] ++ body) [.mk condition nodes]
  | elseIf {depth : Nat} {opening rest condition : Text} {texts body : List Text}
      {clauses : List Clause} {nodes : List Node} :
      Clause.Spelled depth texts clauses →
      BlockWord.elseIf.Heads opening rest →
      Builder.readCondition .elseIf opening rest = .ok condition →
      Block.Spelled (depth + 1) body nodes →
      Clause.Spelled depth (texts ++ [opening] ++ body) (clauses ++ [.mk condition nodes])

end

namespace Builder

section Steps

/-! What a statement can do to the builder, as a relation. -/

theorem ofText?_eq_some_iff (text : Text) (word : BlockWord) :
    BlockWord.ofText? text = some word ↔ text = word.title.toList := by
  constructor
  · intro found
    have same := List.find?_some found
    exact (beq_iff_eq.mp same).symm
  · rintro rfl
    cases word with
    | openIf | elseIf | elseWord => decide
    | openLoop word => cases word <;> decide
    | close terminator => cases terminator <;> decide

theorem blockWord?_eq_some_iff (text rest : Text) (word : BlockWord) :
    blockWord? text = some (word, rest) ↔ word.Heads text rest := by
  unfold blockWord? BlockWord.Heads
  cases assigned : Statement.isAssignment text with
  | true => simp
  | false =>
      simp only [Bool.false_eq_true, if_false, Option.map_eq_some_iff, Prod.mk.injEq,
        true_and]
      constructor
      · rintro ⟨found, read, rfl, rfl⟩
        exact ⟨(ofText?_eq_some_iff _ _).mp read, rfl⟩
      · rintro ⟨same, rfl⟩
        exact ⟨word, (ofText?_eq_some_iff _ _).mpr same, rfl, rfl⟩

theorem blockWord?_eq_none_iff (text : Text) :
    blockWord? text = none ↔ Statement.IsPlain text := by
  unfold blockWord? Statement.IsPlain
  cases assigned : Statement.isAssignment text with
  | true => simp
  | false =>
      simp only [Bool.false_eq_true, if_false, Option.map_eq_none_iff, false_or]
      constructor
      · intro unread word same
        rw [(ofText?_eq_some_iff _ _).mpr same] at unread
        cases unread
      · intro different
        cases read : BlockWord.ofText? (Text.leadingWord text).1 with
        | none => rfl
        | some word => exact absurd ((ofText?_eq_some_iff _ _).mp read) (different word)

inductive Opens : Text → Branch → Prop where
  | ifClause {text rest condition : Text} :
      BlockWord.openIf.Heads text rest →
      readCondition .openIf text rest = .ok condition →
      Opens text (.clause [] condition)
  | doTimes {text rest count : Text} :
      (BlockWord.openLoop .doWord).Heads text rest →
      readCounted .doWord text rest = .ok (.counted .doWord count) →
      Opens text (.counted .doWord count)
  | loopTimes {text rest count : Text} :
      (BlockWord.openLoop .loopWord).Heads text rest →
      readLoop text rest = .ok (.counted .loopWord count) →
      Opens text (.counted .loopWord count)
  | loopAt {text rest table workArea : Text} :
      (BlockWord.openLoop .loopWord).Heads text rest →
      readLoop text rest = .ok (.overRows table workArea) →
      Opens text (.overRows table workArea)

inductive Divides : Text → List Clause → Branch → Prop where
  | elseIf {text rest condition : Text} {clauses : List Clause} :
      BlockWord.elseIf.Heads text rest →
      readCondition .elseIf text rest = .ok condition →
      Divides text clauses (.clause clauses condition)
  | otherwise {text : Text} {clauses : List Clause} :
      BlockWord.elseWord.Heads text [] →
      Divides text clauses (.otherwise clauses)

inductive StepsTo (builder : Builder) (text : Text) : Builder → Prop where
  | leaf {statement : Statement} :
      Statement.IsPlain text →
      Statement.read text = .ok statement →
      StepsTo builder text (builder.add (.leaf text statement))
  | opening {branch : Branch} :
      Opens text branch →
      builder.blocks.length < deepestBlock →
      StepsTo builder text { builder with blocks := ⟨text, branch, []⟩ :: builder.blocks }
  | dividing {block : OpenBlock} {outer : List OpenBlock} {earlier : List Clause}
      {condition : Text} {branch : Branch} :
      Divides text (earlier ++ [.mk condition block.body]) branch →
      builder.blocks = block :: outer →
      block.branch = .clause earlier condition →
      StepsTo builder text { builder with blocks := ⟨block.opening, branch, []⟩ :: outer }
  | closing {block : OpenBlock} {outer : List OpenBlock} :
      block.branch.terminator.Closes text →
      builder.blocks = block :: outer →
      StepsTo builder text (add { builder with blocks := outer } block.close)

theorem readCounted_eq_ok (word : LoopWord) (text rest : Text) (branch : Branch)
    (accepted : readCounted word text rest = .ok branch) :
    ∃ count, branch = .counted word count := by
  unfold readCounted at accepted
  split at accepted
  · cases accepted
  · split at accepted
    · cases accepted
    · next count _ =>
        split at accepted
        · cases accepted
        · cases accepted
          exact ⟨count, rfl⟩

theorem opens_of_readCounted (text rest : Text) (branch : Branch)
    (heads : (BlockWord.openLoop .doWord).Heads text rest)
    (accepted : readCounted .doWord text rest = .ok branch) : Opens text branch := by
  obtain ⟨count, rfl⟩ := readCounted_eq_ok _ _ _ _ accepted
  exact .doTimes heads accepted

theorem opens_of_readLoop (text rest : Text) (branch : Branch)
    (heads : (BlockWord.openLoop .loopWord).Heads text rest)
    (accepted : readLoop text rest = .ok branch) : Opens text branch := by
  have read := accepted
  unfold readLoop at read
  simp only at read
  split at read
  · split at read
    · split at read
      · cases read
        exact .loopAt heads accepted
      · cases read
    · cases read
  · obtain ⟨count, rfl⟩ := readCounted_eq_ok _ _ _ _ read
    exact .loopTimes heads accepted

theorem openBlock_eq_ok_iff (builder next : Builder) (opening : Text) (branch : Branch) :
    builder.openBlock opening branch = .ok next ↔
      builder.blocks.length < deepestBlock ∧
        next = { builder with blocks := ⟨opening, branch, []⟩ :: builder.blocks } := by
  unfold openBlock
  split
  · next full => simp [Nat.not_lt.mpr full]
  · next room => simp [Nat.not_le.mp room, eq_comm]

theorem nextBranch_eq_ok_iff (builder next : Builder) (word : BlockWord) (text : Text)
    (branch : List Clause → Branch) :
    builder.nextBranch word text branch = .ok next ↔
      ∃ block outer earlier condition, builder.blocks = block :: outer ∧
        block.branch = .clause earlier condition ∧
        next = { builder with
          blocks :=
            ⟨block.opening, branch (earlier ++ [.mk condition block.body]), []⟩ :: outer } := by
  unfold nextBranch
  cases stack : builder.blocks with
  | nil => simp
  | cons block outer =>
      simp only [List.cons.injEq]
      cases current : block.branch with
      | clause earlier condition =>
          constructor
          · intro stepped
            cases stepped
            exact ⟨block, outer, earlier, condition, ⟨rfl, rfl⟩, current, rfl⟩
          · rintro ⟨_, _, _, _, ⟨rfl, rfl⟩, same, rfl⟩
            rw [current] at same
            cases same
            rfl
      | otherwise | counted | overRows =>
          constructor
          · intro stepped
            cases stepped
          · rintro ⟨_, _, _, _, ⟨rfl, rfl⟩, same, rfl⟩
            rw [current] at same
            cases same

theorem closeBlock_eq_ok_iff (builder next : Builder) (found : Terminator) (text : Text) :
    builder.closeBlock found text = .ok next ↔
      ∃ block outer, builder.blocks = block :: outer ∧ block.branch.terminator = found ∧
        next = add { builder with blocks := outer } block.close := by
  unfold closeBlock
  cases stack : builder.blocks with
  | nil => simp
  | cons block outer =>
      by_cases same : block.branch.terminator = found
      · simp only [same, if_true, Except.ok.injEq, List.cons.injEq]
        constructor
        · rintro rfl
          exact ⟨block, outer, ⟨rfl, rfl⟩, same, rfl⟩
        · rintro ⟨_, _, ⟨rfl, rfl⟩, _, rfl⟩
          rfl
      · simp only [same, if_false, reduceCtorEq, List.cons.injEq, false_iff]
        rintro ⟨_, _, ⟨rfl, rfl⟩, matching, _⟩
        exact same matching

theorem stepsTo_of_step (builder next : Builder) (text : Text)
    (stepped : builder.step text = .ok next) : StepsTo builder text next := by
  unfold step at stepped
  split at stepped
  · next plain =>
      unfold addLeaf at stepped
      split at stepped
      · cases stepped
      · next statement read =>
          cases stepped
          exact .leaf ((blockWord?_eq_none_iff _).mp plain) read
  · next rest headed =>
      have heads := (blockWord?_eq_some_iff _ _ _).mp headed
      split at stepped
      · cases stepped
      · next condition accepted =>
          obtain ⟨room, rfl⟩ := (openBlock_eq_ok_iff _ _ _ _).mp stepped
          exact .opening (.ifClause heads accepted) room
  · next rest headed =>
      have heads := (blockWord?_eq_some_iff _ _ _).mp headed
      split at stepped
      · cases stepped
      · next condition accepted =>
          obtain ⟨block, outer, earlier, before, stack, current, rfl⟩ :=
            (nextBranch_eq_ok_iff _ _ _ _ _).mp stepped
          exact .dividing (.elseIf heads accepted) stack current
  · next rest headed =>
      have heads := (blockWord?_eq_some_iff _ _ _).mp headed
      split at stepped
      · next empty =>
          rw [List.isEmpty_iff.mp empty] at heads
          obtain ⟨block, outer, earlier, before, stack, current, rfl⟩ :=
            (nextBranch_eq_ok_iff _ _ _ _ _).mp stepped
          exact .dividing (.otherwise heads) stack current
      · cases stepped
  · next rest headed =>
      have heads := (blockWord?_eq_some_iff _ _ _).mp headed
      split at stepped
      · cases stepped
      · next branch accepted =>
          obtain ⟨room, rfl⟩ := (openBlock_eq_ok_iff _ _ _ _).mp stepped
          exact .opening (opens_of_readCounted _ _ _ heads accepted) room
  · next rest headed =>
      have heads := (blockWord?_eq_some_iff _ _ _).mp headed
      split at stepped
      · cases stepped
      · next branch accepted =>
          obtain ⟨room, rfl⟩ := (openBlock_eq_ok_iff _ _ _ _).mp stepped
          exact .opening (opens_of_readLoop _ _ _ heads accepted) room
  · next terminator rest headed =>
      have heads := (blockWord?_eq_some_iff _ _ _).mp headed
      split at stepped
      · next empty =>
          rw [List.isEmpty_iff.mp empty] at heads
          obtain ⟨block, outer, stack, rfl, rfl⟩ := (closeBlock_eq_ok_iff _ _ _ _).mp stepped
          exact .closing heads stack
      · cases stepped

theorem step_of_stepsTo (builder next : Builder) (text : Text)
    (steps : StepsTo builder text next) : builder.step text = .ok next := by
  unfold step
  cases steps with
  | leaf plain read =>
      simp [(blockWord?_eq_none_iff _).mpr plain, addLeaf, read]
  | opening opens room =>
      cases opens with
      | ifClause heads accepted | doTimes heads accepted | loopTimes heads accepted
      | loopAt heads accepted =>
          simp only [(blockWord?_eq_some_iff _ _ _).mpr heads, accepted]
          exact (openBlock_eq_ok_iff _ _ _ _).mpr ⟨room, rfl⟩
  | dividing divides stack current =>
      cases divides with
      | elseIf heads accepted =>
          simp only [(blockWord?_eq_some_iff _ _ _).mpr heads, accepted]
          exact (nextBranch_eq_ok_iff _ _ _ _ _).mpr ⟨_, _, _, _, stack, current, rfl⟩
      | otherwise heads =>
          simp only [(blockWord?_eq_some_iff _ _ _).mpr heads, List.isEmpty_nil, if_true]
          exact (nextBranch_eq_ok_iff _ _ _ _ _).mpr ⟨_, _, _, _, stack, current, rfl⟩
  | closing closes stack =>
      simp only [(blockWord?_eq_some_iff _ _ _).mpr closes, List.isEmpty_nil, if_true]
      exact (closeBlock_eq_ok_iff _ _ _ _).mpr ⟨_, _, stack, rfl, rfl⟩

end Steps

section Soundness

/-! What the builder holds after some statements was derived from them: finished
nodes by whole derivations, every open block by one that lacks its end. -/

inductive Leads (depth : Nat) : List Text → Branch → Prop where
  | opening {text : Text} {branch : Branch} :
      Opens text branch → Leads depth [text] branch
  | dividing {texts : List Text} {text : Text} {clauses : List Clause} {branch : Branch} :
      Clause.Spelled depth texts clauses →
      Divides text clauses branch →
      Leads depth (texts ++ [text]) branch

inductive Spells : List Text → Builder → Prop where
  | outside {texts : List Text} {nodes : List Node} :
      Block.Spelled 0 texts nodes.reverse → Spells texts ⟨nodes, []⟩
  | inside {before head body : List Text} {nodes : List Node} {block : OpenBlock}
      {outer : List OpenBlock} :
      Spells before ⟨nodes, outer⟩ →
      outer.length < deepestBlock →
      Leads outer.length head block.branch →
      Block.Spelled (outer.length + 1) body block.body →
      Spells (before ++ (head ++ body)) ⟨nodes, block :: outer⟩

theorem Leads.clauses {depth : Nat} {head body : List Text} {earlier : List Clause}
    {condition : Text} {nodes : List Node}
    (leads : Leads depth head (.clause earlier condition))
    (spelled : Block.Spelled (depth + 1) body nodes) :
    Clause.Spelled depth (head ++ body) (earlier ++ [.mk condition nodes]) := by
  cases leads with
  | opening opens =>
      cases opens with
      | ifClause heads accepted => exact .ifClause heads accepted spelled
  | dividing clauses divides =>
      cases divides with
      | elseIf heads accepted => exact .elseIf clauses heads accepted spelled

theorem Leads.close {depth : Nat} {head body : List Text} {block : OpenBlock}
    {ending : Text} (room : depth < deepestBlock)
    (leads : Leads depth head block.branch)
    (spelled : Block.Spelled (depth + 1) body block.body)
    (closes : block.branch.terminator.Closes ending) :
    Node.Spelled depth (head ++ body ++ [ending]) block.close := by
  unfold OpenBlock.close
  generalize block.branch = branch at leads closes
  cases branch with
  | clause earlier condition => exact .conditional room (leads.clauses spelled) closes
  | otherwise clauses =>
      cases leads with
      | opening opens => cases opens
      | dividing before divides =>
          cases divides with
          | otherwise heads => exact .conditionalElse room before heads spelled closes
  | counted word count =>
      cases leads with
      | opening opens =>
          cases opens with
          | doTimes heads accepted => exact .doTimes room heads accepted spelled closes
          | loopTimes heads accepted => exact .loopTimes room heads accepted spelled closes
      | dividing _ divides => cases divides
  | overRows table workArea =>
      cases leads with
      | opening opens =>
          cases opens with
          | loopAt heads accepted => exact .loopAt room heads accepted spelled closes
      | dividing _ divides => cases divides

theorem Spells.start {before head : List Text} {nodes : List Node} {outer : List OpenBlock}
    {opening : Text} {branch : Branch} (spells : Spells before ⟨nodes, outer⟩)
    (room : outer.length < deepestBlock) (leads : Leads outer.length head branch) :
    Spells (before ++ head) ⟨nodes, ⟨opening, branch, []⟩ :: outer⟩ := by
  have started : Spells (before ++ (head ++ [])) ⟨nodes, ⟨opening, branch, []⟩ :: outer⟩ :=
    .inside spells room leads .nil
  simpa using started

theorem Spells.add {texts item : List Text} {builder : Builder} {node : Node}
    (spells : Spells texts builder)
    (spelled : Node.Spelled builder.blocks.length item node) :
    Spells (texts ++ item) (builder.add node) := by
  cases spells with
  | outside nodes =>
      apply Spells.outside
      rw [List.reverse_cons]
      exact .snoc nodes spelled
  | inside before room leads body =>
      have longer := Block.Spelled.snoc body spelled
      rw [← OpenBlock.body_add] at longer
      rw [List.append_assoc, List.append_assoc]
      exact .inside before room leads longer

theorem Spells.step {texts : List Text} {builder next : Builder} {text : Text}
    (spells : Spells texts builder) (steps : StepsTo builder text next) :
    Spells (texts ++ [text]) next := by
  cases steps with
  | leaf plain read => exact spells.add (.leaf plain read)
  | opening opens room => exact spells.start room (.opening opens)
  | dividing divides stack current =>
      obtain ⟨nodes, blocks⟩ := builder
      subst stack
      cases spells with
      | inside before room leads body =>
          rw [current] at leads
          rw [List.append_assoc]
          exact before.start room (.dividing (leads.clauses body) divides)
  | closing closes stack =>
      obtain ⟨nodes, blocks⟩ := builder
      subst stack
      cases spells with
      | inside before room leads body =>
          have closed := leads.close room body closes
          rw [List.append_assoc]
          exact before.add closed

theorem Spells.steps {texts more : List Text} {builder last : Builder}
    (spells : Spells texts builder) (ran : builder.steps more = .ok last) :
    Spells (texts ++ more) last := by
  induction more generalizing texts builder with
  | nil =>
      cases ran
      simpa using spells
  | cons text rest ih =>
      unfold Builder.steps at ran
      split at ran
      · cases ran
      · next next stepped =>
          have onward := ih (spells.step (stepsTo_of_step _ _ _ stepped)) ran
          simpa using onward

end Soundness

section Completeness

/-! Along a derivation the builder takes a step at every statement, and what it has
added at the end is the derived nodes. -/

theorem steps_cons {builder next : Builder} {text : Text} (steps : StepsTo builder text next)
    (rest : List Text) : builder.steps (text :: rest) = next.steps rest := by
  simp only [Builder.steps, step_of_stepsTo _ _ _ steps]

@[simp] theorem length_blocks_add (builder : Builder) (node : Node) :
    (builder.add node).blocks.length = builder.blocks.length := by
  unfold add
  split
  · rfl
  · next stack => simp [stack]

@[simp] theorem length_blocks_foldl_add (builder : Builder) (nodes : List Node) :
    (nodes.foldl add builder).blocks.length = builder.blocks.length := by
  induction nodes generalizing builder with
  | nil => rfl
  | cons node rest ih => rw [List.foldl_cons, ih, length_blocks_add]

theorem foldl_add_outside (done nodes : List Node) :
    nodes.foldl add ⟨done, []⟩ = ⟨nodes.reverse ++ done, []⟩ := by
  induction nodes generalizing done with
  | nil => rfl
  | cons node rest ih => simp [add, ih]

theorem foldl_add_inside (done nodes : List Node) (block : OpenBlock)
    (outer : List OpenBlock) :
    nodes.foldl add ⟨done, block :: outer⟩ =
      ⟨done, { block with nodes := nodes.reverse ++ block.nodes } :: outer⟩ := by
  induction nodes generalizing block with
  | nil => rfl
  | cons node rest ih => simp [add, OpenBlock.add, ih]

def Reads (builder : Builder) (texts : List Text) (nodes : List Node) : Prop :=
  ∀ rest, builder.steps (texts ++ rest) = (nodes.foldl add builder).steps rest

def Collects (builder : Builder) (texts : List Text) (block : OpenBlock) : Prop :=
  ∀ rest, builder.steps (texts ++ rest) =
    steps ⟨builder.nodes, block :: builder.blocks⟩ rest

/-- A block that has just been opened or divided collects what its body derives. -/
theorem Reads.collects {body : List Text} {nodes done : List Node} {opening : Text}
    {branch : Branch} {outer : List OpenBlock}
    (reads : Reads ⟨done, ⟨opening, branch, []⟩ :: outer⟩ body nodes) (rest : List Text) :
    steps ⟨done, ⟨opening, branch, []⟩ :: outer⟩ (body ++ rest) =
      steps ⟨done, ⟨opening, branch, nodes.reverse⟩ :: outer⟩ rest := by
  rw [reads rest, foldl_add_inside]
  simp

theorem collects_opening {builder : Builder} {opening : Text} {branch : Branch}
    {body : List Text} {nodes : List Node} (opens : Opens opening branch)
    (room : builder.blocks.length < deepestBlock)
    (reads : Reads ⟨builder.nodes, ⟨opening, branch, []⟩ :: builder.blocks⟩ body nodes) :
    builder.Collects ([opening] ++ body) ⟨opening, branch, nodes.reverse⟩ := by
  intro rest
  rw [List.append_assoc, List.singleton_append, steps_cons (.opening opens room),
    reads.collects]

theorem Collects.dividing {builder : Builder} {texts body : List Text} {block : OpenBlock}
    {text condition : Text} {earlier : List Clause} {branch : Branch} {nodes : List Node}
    (collects : builder.Collects texts block) (current : block.branch = .clause earlier condition)
    (divides : Divides text (earlier ++ [.mk condition block.body]) branch)
    (reads : Reads ⟨builder.nodes, ⟨block.opening, branch, []⟩ :: builder.blocks⟩ body nodes) :
    builder.Collects (texts ++ [text] ++ body) ⟨block.opening, branch, nodes.reverse⟩ := by
  intro rest
  rw [List.append_assoc, List.append_assoc, collects, List.singleton_append,
    steps_cons (.dividing divides rfl current), reads.collects]

theorem Collects.closing {builder : Builder} {texts : List Text} {block : OpenBlock}
    {ending : Text} (collects : builder.Collects texts block)
    (closes : block.branch.terminator.Closes ending) :
    builder.Reads (texts ++ [ending]) [block.close] := by
  intro rest
  rw [List.append_assoc, collects, List.singleton_append, steps_cons (.closing closes rfl)]
  rfl

end Completeness

end Builder

mutual

theorem Block.Spelled.reads : {depth : Nat} → {texts : List Text} → {nodes : List Node} →
    Block.Spelled depth texts nodes →
    ∀ builder : Builder, builder.blocks.length = depth → builder.Reads texts nodes
  | _, _, _, .nil => fun _ _ _ => rfl
  | _, _, _, .snoc items last => by
      intro builder around rest
      rw [List.append_assoc, items.reads builder around, last.reads _ (by simpa using around)]
      simp

theorem Node.Spelled.reads : {depth : Nat} → {item : List Text} → {node : Node} →
    Node.Spelled depth item node →
    ∀ builder : Builder, builder.blocks.length = depth → builder.Reads item [node]
  | _, _, _, .leaf plain read => fun _ _ rest => Builder.steps_cons (.leaf plain read) rest
  | _, _, _, .conditional room clauses closes => by
      have leave := clauses.collects
      rintro builder rfl
      obtain ⟨block, earlier, condition, current, rfl, collects⟩ := leave builder rfl room
      have closed := collects.closing (by rwa [current])
      simpa [OpenBlock.close, current] using closed
  | _, _, _, .conditionalElse room clauses heads body closes => by
      have leave := clauses.collects
      have reads := body.reads
      rintro builder rfl
      obtain ⟨block, earlier, condition, current, rfl, collects⟩ := leave builder rfl room
      have divided := collects.dividing current (.otherwise heads) (reads _ rfl)
      simpa [OpenBlock.close, OpenBlock.body] using divided.closing closes
  | _, _, _, .doTimes room heads accepted body closes => by
      have reads := body.reads
      rintro builder rfl
      have opened := Builder.collects_opening (.doTimes heads accepted) room (reads _ rfl)
      simpa [OpenBlock.close, OpenBlock.body] using opened.closing closes
  | _, _, _, .loopTimes room heads accepted body closes => by
      have reads := body.reads
      rintro builder rfl
      have opened := Builder.collects_opening (.loopTimes heads accepted) room (reads _ rfl)
      simpa [OpenBlock.close, OpenBlock.body] using opened.closing closes
  | _, _, _, .loopAt room heads accepted body closes => by
      have reads := body.reads
      rintro builder rfl
      have opened := Builder.collects_opening (.loopAt heads accepted) room (reads _ rfl)
      simpa [OpenBlock.close, OpenBlock.body] using opened.closing closes

/-- The statements of some clauses leave a block that collects the last of them. -/
theorem Clause.Spelled.collects : {depth : Nat} → {texts : List Text} →
    {clauses : List Clause} → Clause.Spelled depth texts clauses →
    ∀ builder : Builder, builder.blocks.length = depth → depth < deepestBlock →
      ∃ block earlier condition, block.branch = .clause earlier condition ∧
        clauses = earlier ++ [.mk condition block.body] ∧ builder.Collects texts block
  | _, _, _, .ifClause heads accepted body => by
      have reads := body.reads
      rintro builder rfl room
      have opened := Builder.collects_opening (.ifClause heads accepted) room (reads _ rfl)
      exact ⟨_, _, _, rfl, by simp [OpenBlock.body], opened⟩
  | _, _, _, .elseIf before heads accepted body => by
      have leave := before.collects
      have reads := body.reads
      rintro builder rfl room
      obtain ⟨block, earlier, condition, current, rfl, collects⟩ := leave builder rfl room
      have divided := collects.dividing current (.elseIf heads accepted) (reads _ rfl)
      exact ⟨_, _, _, rfl, by simp [OpenBlock.body], divided⟩

end

/-- Reading statements as blocks succeeds exactly on what the block grammar derives,
    with the nodes that it derives. -/
theorem Block.ofStatements_eq_ok_iff_spelled (statements : List Text) (nodes : List Node) :
    Block.ofStatements statements = .ok nodes ↔ Block.Spelled 0 statements nodes := by
  unfold Block.ofStatements
  constructor
  · intro built
    split at built
    · cases built
    · next last ran =>
        have spells := Builder.Spells.steps (.outside .nil) ran
        unfold Builder.finish at built
        split at built
        · next closed =>
            cases built
            obtain ⟨done, blocks⟩ := last
            subst closed
            cases spells with
            | outside spelled => exact spelled
        · cases built
  · intro spelled
    have ran := spelled.reads {} rfl []
    rw [List.append_nil, Builder.foldl_add_outside] at ran
    rw [ran]
    simp [Builder.steps, Builder.finish]

end MiniAbap
