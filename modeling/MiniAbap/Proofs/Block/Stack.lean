import MiniAbap.Proofs.Block.Grammar

/-!
The open blocks as one stack of frames, with the whole program as the frame at its bottom.
Such a stack can be broken: it can be empty, have the program in the middle, or hold a
conditional without a clause. The machine on stacks marks every place where it would have
to go on with a broken one. It agrees with the builder, which has no broken states, so it
never reaches a mark.
-/

namespace MiniAbap

inductive Frame where
  | program (nodes : List Node)
  | conditional (opening : Text) (clauses : List Clause) (otherwise : Option (List Node))
  | counted (opening : Text) (word : LoopWord) (count : Text) (body : List Node)
  | overRows (opening table workArea : Text) (body : List Node)

abbrev Stack := List Frame

/-- What only a broken stack leads to. -/
inductive Break where
  /-- A conditional without a clause has no body to add to. -/
  | noClause
  /-- There is no frame to add to. -/
  | noFrame
  /-- The program is closed like a block. -/
  | programClosed
  /-- No frame is left at the end. -/
  | nothingLeft
  /-- The frame that is left open at the end is one that nothing closes. -/
  | noTerminator

inductive Halt where
  | refused (error : StructureError)
  | broken (reason : Break)

section Machine

namespace Frame

def opening : Frame → Text
  | .program _ => []
  | .conditional opening _ _ | .counted opening _ _ _ | .overRows opening _ _ _ => opening

def terminator? : Frame → Option Terminator
  | .program _ => none
  | .conditional _ _ _ => some .endIf
  | .counted _ word _ _ => some word.terminator
  | .overRows _ _ _ _ => some .endLoop

def node? : Frame → Option Node
  | .program _ => none
  | .conditional _ clauses otherwise => some (.conditional clauses otherwise)
  | .counted _ word count body => some (.counted word count body)
  | .overRows _ table workArea body => some (.overRows table workArea body)

def add (node : Node) : Frame → Except Halt Frame
  | .program nodes => .ok (.program (nodes ++ [node]))
  | .conditional opening clauses (some body) =>
      .ok (.conditional opening clauses (some (body ++ [node])))
  | .conditional opening clauses none =>
      match clauses.getLast? with
      | none => .error (.broken .noClause)
      | some last =>
          let grown := Clause.mk last.condition (last.body ++ [node])
          .ok (.conditional opening (clauses.dropLast ++ [grown]) none)
  | .counted opening word count body => .ok (.counted opening word count (body ++ [node]))
  | .overRows opening table workArea body =>
      .ok (.overRows opening table workArea (body ++ [node]))

def isProgram : Frame → Bool
  | .program _ => true
  | .conditional _ _ _ | .counted _ _ _ _ | .overRows _ _ _ _ => false

end Frame

def OpenBlock.frame (block : OpenBlock) : Frame :=
  match block.branch with
  | .clause earlier condition =>
      .conditional block.opening (earlier ++ [.mk condition block.body]) none
  | .otherwise clauses => .conditional block.opening clauses (some block.body)
  | .counted word count => .counted block.opening word count block.body
  | .overRows table workArea => .overRows block.opening table workArea block.body

namespace Stack

def start : Stack :=
  [.program []]

def add (node : Node) : Stack → Except Halt Stack
  | [] => .error (.broken .noFrame)
  | frame :: outer => (frame.add node).map (· :: outer)

def openFrame (stack : Stack) (frame : Frame) : Except Halt Stack :=
  if deepestBlock < stack.length then .error (.refused (.nestingTooDeep frame.opening))
  else .ok (frame :: stack)

def nextBranch (word : BlockWord) (text : Text) (next : Text → List Clause → Frame) :
    Stack → Except Halt Stack
  | .conditional opening _ (some _) :: _ =>
      .error (.refused (.clauseAfterElse word opening))
  | .conditional opening clauses none :: outer => .ok (next opening clauses :: outer)
  | _ => .error (.refused (.clauseOutsideIf word text))

def pop? : Stack → Option (Frame × Stack)
  | [] => none
  | frame :: outer => if frame.isProgram then none else some (frame, outer)

def close (stack : Stack) (found : Terminator) (text : Text) : Except Halt Stack :=
  match stack.pop? with
  | none => .error (.refused (.unexpectedTerminator found text))
  | some (frame, outer) =>
      match frame.terminator?, frame.node? with
      | some expected, some node =>
          if expected = found then outer.add node
          else .error (.refused (.mismatchedTerminator found expected frame.opening))
      | _, _ => .error (.broken .programClosed)

def step (stack : Stack) (text : Text) : Except Halt Stack :=
  match Builder.blockWord? text with
  | none =>
      match Statement.read text with
      | .error error => .error (.refused (.malformedDeclaration error))
      | .ok statement => stack.add (.leaf text statement)
  | some (.openIf, rest) =>
      match Builder.readCondition .openIf text rest with
      | .error error => .error (.refused error)
      | .ok condition => stack.openFrame (.conditional text [.mk condition []] none)
  | some (.elseIf, rest) =>
      match Builder.readCondition .elseIf text rest with
      | .error error => .error (.refused error)
      | .ok condition =>
          stack.nextBranch .elseIf text fun opening clauses =>
            .conditional opening (clauses ++ [.mk condition []]) none
  | some (.elseWord, rest) =>
      if rest.isEmpty then
        stack.nextBranch .elseWord text fun opening clauses =>
          .conditional opening clauses (some [])
      else .error (.refused (.malformedBlock .elseWord text .textAfterWord))
  | some (.openLoop .doWord, rest) =>
      match Builder.readCounted .doWord text rest with
      | .error error => .error (.refused error)
      | .ok branch => stack.openFrame (OpenBlock.frame ⟨text, branch, []⟩)
  | some (.openLoop .loopWord, rest) =>
      match Builder.readLoop text rest with
      | .error error => .error (.refused error)
      | .ok branch => stack.openFrame (OpenBlock.frame ⟨text, branch, []⟩)
  | some (.close terminator, rest) =>
      if rest.isEmpty then stack.close terminator text
      else .error (.refused (.malformedBlock (.close terminator) text .textAfterWord))

def states (stack : Stack) : List Text → List Stack
  | [] => [stack]
  | text :: rest =>
      stack :: match stack.step text with
        | .error _ => []
        | .ok next => next.states rest

def finish : Stack → Except Halt (List Node)
  | [] => .error (.broken .nothingLeft)
  | frame :: outer =>
      match frame, outer with
      | .program nodes, [] => .ok nodes
      | _, _ =>
          match frame.terminator? with
          | none => .error (.broken .noTerminator)
          | some expected => .error (.refused (.missingTerminator expected frame.opening))

def build (stack : Stack) : List Text → Except Halt (List Node)
  | [] => stack.finish
  | text :: rest =>
      match stack.step text with
      | .error halt => .error halt
      | .ok next => next.build rest

end Stack

end Machine

section Agreement

variable (builder : Builder)

def Builder.stack : Stack :=
  builder.blocks.map OpenBlock.frame ++ [.program builder.nodes.reverse]

def Halt.lift (result : Except StructureError Builder) : Except Halt Stack :=
  (result.mapError refused).map Builder.stack

namespace Stack

theorem opening_frame (block : OpenBlock) : block.frame.opening = block.opening := by
  obtain ⟨opening, branch, nodes⟩ := block
  cases branch <;> rfl

theorem terminator?_frame (block : OpenBlock) :
    block.frame.terminator? = some block.branch.terminator := by
  obtain ⟨opening, branch, nodes⟩ := block
  cases branch <;> rfl

theorem node?_frame (block : OpenBlock) : block.frame.node? = some block.close := by
  obtain ⟨opening, branch, nodes⟩ := block
  cases branch <;> rfl

theorem isProgram_frame (block : OpenBlock) : block.frame.isProgram = false := by
  obtain ⟨opening, branch, nodes⟩ := block
  cases branch <;> rfl

theorem add_frame (block : OpenBlock) (node : Node) :
    block.frame.add node = .ok (block.add node).frame := by
  obtain ⟨opening, branch, nodes⟩ := block
  cases branch <;>
    simp [OpenBlock.frame, Frame.add, OpenBlock.add, OpenBlock.body, Clause.condition,
      Clause.body]

theorem add_stack (node : Node) : builder.stack.add node = .ok (builder.add node).stack := by
  obtain ⟨nodes, blocks⟩ := builder
  cases blocks with
  | nil => simp [Builder.stack, Builder.add, add, Frame.add, Except.map]
  | cons block outer =>
      have grown := add_frame block node
      simp [Builder.stack, Builder.add, add, grown, Except.map]

theorem openFrame_stack (opening : Text) (branch : Branch) :
    builder.stack.openFrame (OpenBlock.frame ⟨opening, branch, []⟩) =
      Halt.lift (builder.openBlock opening branch) := by
  have size : builder.stack.length = builder.blocks.length + 1 := by simp [Builder.stack]
  have named : (OpenBlock.frame ⟨opening, branch, []⟩).opening = opening := opening_frame _
  rw [openFrame, Builder.openBlock, size, named]
  by_cases full : deepestBlock ≤ builder.blocks.length
  · rw [if_pos full, if_pos (Nat.lt_succ_of_le full)]
    rfl
  · rw [if_neg full, if_neg (fun more => full (Nat.le_of_lt_succ more))]
    rfl

theorem nextBranch_stack (word : BlockWord) (text : Text) (next : List Clause → Branch) :
    builder.stack.nextBranch word text
        (fun opening clauses => OpenBlock.frame ⟨opening, next clauses, []⟩) =
      Halt.lift (builder.nextBranch word text next) := by
  obtain ⟨nodes, blocks⟩ := builder
  cases blocks with
  | nil => rfl
  | cons block outer =>
      obtain ⟨opening, branch, body⟩ := block
      cases branch <;> rfl

theorem close_stack (found : Terminator) (text : Text) :
    builder.stack.close found text =
      Halt.lift (builder.closeBlock found text) := by
  obtain ⟨nodes, blocks⟩ := builder
  cases blocks with
  | nil => rfl
  | cons block outer =>
      have popped : (Builder.stack ⟨nodes, block :: outer⟩).pop? =
          some (block.frame, Builder.stack ⟨nodes, outer⟩) := by
        simp [Builder.stack, pop?, isProgram_frame]
      rw [close, popped, Builder.closeBlock]
      simp only [terminator?_frame, node?_frame, opening_frame, add_stack]
      by_cases same : block.branch.terminator = found
      · rw [if_pos same, if_pos same]
        rfl
      · rw [if_neg same, if_neg same]
        rfl

theorem finish_stack : builder.stack.finish = builder.finish.mapError .refused := by
  obtain ⟨nodes, blocks⟩ := builder
  cases blocks with
  | nil => rfl
  | cons block outer =>
      obtain ⟨opening, branch, body⟩ := block
      cases branch <;> rfl

/-- A statement does to the stack what it does to the builder. -/
theorem step_stack (text : Text) :
    builder.stack.step text = Halt.lift (builder.step text) := by
  unfold step Builder.step
  cases Builder.blockWord? text with
  | none =>
      simp only [Builder.addLeaf]
      cases Statement.read text with
      | error error => rfl
      | ok statement => exact add_stack builder _
  | some headed =>
      obtain ⟨word, rest⟩ := headed
      cases word with
      | openIf =>
          simp only
          cases Builder.readCondition .openIf text rest with
          | error error => rfl
          | ok condition => exact openFrame_stack builder text (.clause [] condition)
      | elseIf =>
          simp only
          cases Builder.readCondition .elseIf text rest with
          | error error => rfl
          | ok condition => exact nextBranch_stack builder .elseIf text (.clause · condition)
      | elseWord =>
          cases rest with
          | nil => exact nextBranch_stack builder .elseWord text .otherwise
          | cons c more => rfl
      | openLoop loop =>
          cases loop with
          | doWord =>
              simp only
              cases Builder.readCounted .doWord text rest with
              | error error => rfl
              | ok branch => exact openFrame_stack builder text branch
          | loopWord =>
              simp only
              cases Builder.readLoop text rest with
              | error error => rfl
              | ok branch => exact openFrame_stack builder text branch
      | close terminator =>
          cases rest with
          | nil => exact close_stack builder terminator text
          | cons c more => rfl

theorem build_stack (statements : List Text) :
    builder.stack.build statements =
      ((builder.steps statements).bind Builder.finish).mapError .refused := by
  induction statements generalizing builder with
  | nil => exact finish_stack builder
  | cons text rest ih =>
      rw [build, step_stack, Builder.steps]
      cases builder.step text with
      | error error => rfl
      | ok next => exact ih next

end Stack

end Agreement

section Clauses

inductive Node.Claused : Node → Prop where
  | leaf (text : Text) (statement : Statement) : Node.Claused (.leaf text statement)
  | conditional {clauses : List Clause} {otherwise : Option (List Node)} (filled : clauses ≠ [])
      (bodies : ∀ clause ∈ clauses, ∀ node ∈ clause.body, Node.Claused node)
      (others : ∀ body ∈ otherwise, ∀ node ∈ body, Node.Claused node) :
      Node.Claused (.conditional clauses otherwise)
  | counted {word : LoopWord} {count : Text} {body : List Node}
      (inside : ∀ node ∈ body, Node.Claused node) : Node.Claused (.counted word count body)
  | overRows {table workArea : Text} {body : List Node}
      (inside : ∀ node ∈ body, Node.Claused node) :
      Node.Claused (.overRows table workArea body)

def Branch.clauses : Branch → List Clause
  | .clause earlier _ => earlier
  | .otherwise clauses => clauses
  | .counted _ _ | .overRows _ _ => []

structure OpenBlock.Claused (block : OpenBlock) : Prop where
  nodes : ∀ node ∈ block.nodes, node.Claused
  earlier : ∀ clause ∈ block.branch.clauses, ∀ node ∈ clause.body, node.Claused
  filled : ∀ clauses, block.branch = .otherwise clauses → clauses ≠ []

structure Builder.Fits (builder : Builder) : Prop where
  nodes : ∀ node ∈ builder.nodes, node.Claused
  blocks : ∀ block ∈ builder.blocks, block.Claused
  room : builder.blocks.length ≤ deepestBlock

variable {builder next : Builder} {block : OpenBlock} {node : Node} {text : Text}

theorem OpenBlock.Claused.body (claused : block.Claused) :
    ∀ node ∈ block.body, node.Claused :=
  fun node member => claused.nodes node (List.mem_reverse.mp member)

/-- A clause that ends keeps what its body has been shown to have. -/
theorem OpenBlock.Claused.clauses {earlier : List Clause} {condition : Text}
    (claused : block.Claused) (current : block.branch = .clause earlier condition) :
    ∀ clause ∈ earlier ++ [.mk condition block.body], ∀ node ∈ clause.body, node.Claused := by
  intro clause member
  rcases List.mem_append.mp member with before | last
  · apply claused.earlier clause
    rw [current]
    exact before
  · rw [List.mem_singleton.mp last]
    exact claused.body

theorem OpenBlock.Claused.close (claused : block.Claused) : block.close.Claused := by
  rw [OpenBlock.close]
  cases current : block.branch with
  | clause earlier condition =>
      have filled : earlier ++ [Clause.mk condition block.body] ≠ [] := by simp
      exact .conditional filled (claused.clauses current) (by simp)
  | otherwise clauses =>
      have earlier := claused.earlier
      rw [current] at earlier
      refine .conditional (claused.filled clauses current) earlier ?_
      rintro body ⟨⟩
      exact claused.body
  | counted word count => exact .counted claused.body
  | overRows table workArea => exact .overRows claused.body

namespace Builder

theorem Fits.add (fits : builder.Fits) (claused : node.Claused) : (builder.add node).Fits := by
  obtain ⟨nodes, blocks⟩ := builder
  obtain ⟨finished, opened, room⟩ := fits
  cases blocks with
  | nil => exact ⟨List.forall_mem_cons.mpr ⟨claused, finished⟩, opened, room⟩
  | cons block outer =>
      obtain ⟨inner, others⟩ := List.forall_mem_cons.mp opened
      have grown : (block.add node).Claused :=
        ⟨List.forall_mem_cons.mpr ⟨claused, inner.nodes⟩, inner.earlier, inner.filled⟩
      exact ⟨finished, List.forall_mem_cons.mpr ⟨grown, others⟩, room⟩

theorem claused_of_opens {branch : Branch} (opens : Opens text branch) :
    OpenBlock.Claused ⟨text, branch, []⟩ := by
  cases opens <;> exact ⟨by simp, by simp [Branch.clauses], by simp⟩

theorem claused_of_divides {opening : Text} {clauses : List Clause} {branch : Branch}
    (divides : Divides text clauses branch) (filled : clauses ≠ [])
    (bodies : ∀ clause ∈ clauses, ∀ node ∈ clause.body, node.Claused) :
    OpenBlock.Claused ⟨opening, branch, []⟩ := by
  cases divides with
  | elseIf => exact ⟨by simp, bodies, by simp⟩
  | otherwise =>
      refine ⟨by simp, bodies, ?_⟩
      rintro _ ⟨⟩
      exact filled

theorem Fits.step (fits : builder.Fits) (step : StepsTo builder text next) : next.Fits := by
  obtain ⟨finished, opened, room⟩ := fits
  cases step with
  | leaf plain read => exact Fits.add ⟨finished, opened, room⟩ (.leaf text _)
  | opening opens less =>
      exact ⟨finished, List.forall_mem_cons.mpr ⟨claused_of_opens opens, opened⟩, less⟩
  | @dividing block outer earlier condition branch divides stack current =>
      rw [stack] at opened room
      obtain ⟨inner, others⟩ := List.forall_mem_cons.mp opened
      have filled : earlier ++ [Clause.mk condition block.body] ≠ [] := by simp
      have divided : OpenBlock.Claused ⟨block.opening, branch, []⟩ :=
        claused_of_divides divides filled (inner.clauses current)
      exact ⟨finished, List.forall_mem_cons.mpr ⟨divided, others⟩, room⟩
  | @closing block outer closes stack =>
      rw [stack] at opened room
      obtain ⟨inner, others⟩ := List.forall_mem_cons.mp opened
      have around : Fits { builder with blocks := outer } :=
        ⟨finished, others, Nat.le_of_succ_le room⟩
      exact around.add inner.close

theorem fits_empty : Fits {} :=
  ⟨by simp, by simp, Nat.zero_le _⟩

theorem Fits.steps {last : Builder} {statements : List Text} (fits : builder.Fits)
    (steps : builder.steps statements = .ok last) : last.Fits := by
  induction statements generalizing builder with
  | nil =>
      cases steps
      exact fits
  | cons text rest ih =>
      rw [Builder.steps] at steps
      cases stepped : builder.step text with
      | error error =>
          rw [stepped] at steps
          cases steps
      | ok next =>
          rw [stepped] at steps
          exact ih (fits.step (stepsTo_of_step _ _ _ stepped)) steps

theorem Fits.finish {nodes : List Node} (fits : builder.Fits)
    (finished : builder.finish = .ok nodes) : ∀ node ∈ nodes, node.Claused := by
  obtain ⟨stored, blocks⟩ := builder
  cases blocks with
  | nil =>
      cases finished
      exact fun node member => fits.nodes node (List.mem_reverse.mp member)
  | cons block outer => cases finished

end Builder

end Clauses

section Soundness

/-- The program is at the bottom of the stack and nowhere else, at most as many frames are
    above it as blocks may be open, and every conditional has a clause. -/
structure Stack.Sound (stack : Stack) : Prop where
  bottom : ∃ blocks nodes, stack = blocks ++ [.program nodes] ∧
    ∀ frame ∈ blocks, frame.isProgram = false
  size : stack.length ≤ deepestBlock + 1
  clauses : ∀ opening clauses otherwise,
    .conditional opening clauses otherwise ∈ stack → clauses ≠ []

namespace Stack

theorem ne_nil_of_frame {block : OpenBlock} {opening : Text} {clauses : List Clause}
    {otherwise : Option (List Node)} (claused : block.Claused)
    (same : block.frame = .conditional opening clauses otherwise) : clauses ≠ [] := by
  obtain ⟨opening, branch, nodes⟩ := block
  cases branch with
  | clause earlier condition =>
      cases same
      simp
  | otherwise clauses =>
      cases same
      exact claused.filled clauses rfl
  | counted | overRows => cases same

theorem sound_of_fits {builder : Builder} (fits : builder.Fits) : builder.stack.Sound where
  bottom := by
    refine ⟨_, _, rfl, ?_⟩
    intro frame member
    obtain ⟨block, _, rfl⟩ := List.mem_map.mp member
    exact isProgram_frame block
  size := by simpa [Builder.stack] using fits.room
  clauses := by
    intro opening clauses otherwise member
    rcases List.mem_append.mp member with opened | program
    · obtain ⟨block, listed, same⟩ := List.mem_map.mp opened
      exact ne_nil_of_frame (fits.blocks block listed) same
    · cases List.mem_singleton.mp program

theorem sound_of_mem_states {builder : Builder} (fits : builder.Fits) {statements : List Text}
    {stack : Stack} (member : stack ∈ builder.stack.states statements) : stack.Sound := by
  induction statements generalizing builder with
  | nil =>
      rw [List.mem_singleton.mp member]
      exact sound_of_fits fits
  | cons text rest ih =>
      rcases List.mem_cons.mp member with rfl | later
      · exact sound_of_fits fits
      · rw [step_stack] at later
        cases stepped : builder.step text with
        | error error =>
            rw [stepped] at later
            cases later
        | ok next =>
            rw [stepped] at later
            exact ih (fits.step (Builder.stepsTo_of_step _ _ _ stepped)) later

theorem ofStatements_eq_bind (statements : List Text) :
    Block.ofStatements statements = (Builder.steps {} statements).bind Builder.finish := by
  rw [Block.ofStatements]
  cases Builder.steps {} statements <;> rfl

/-- The stack is sound before the first statement and after every one that is accepted. So
    no statement and no end of a program meets a broken one, the blocks are those of the
    builder, and every conditional in them has a clause. -/
theorem stack_stays_sound (statements : List Text) :
    (∀ stack ∈ start.states statements, stack.Sound) ∧
    (∀ reason, start.build statements ≠ .error (.broken reason)) ∧
    start.build statements = (Block.ofStatements statements).mapError .refused ∧
    ∀ nodes, Block.ofStatements statements = .ok nodes → ∀ node ∈ nodes, node.Claused := by
  have agreed : start.build statements = (Block.ofStatements statements).mapError .refused := by
    rw [ofStatements_eq_bind]
    exact build_stack {} statements
  refine ⟨?_, ?_, agreed, ?_⟩
  · intro stack member
    exact sound_of_mem_states Builder.fits_empty member
  · intro reason broken
    rw [agreed] at broken
    cases built : Block.ofStatements statements with
    | error error =>
        rw [built] at broken
        cases broken
    | ok nodes =>
        rw [built] at broken
        cases broken
  · intro nodes built
    rw [ofStatements_eq_bind] at built
    cases stepped : Builder.steps {} statements with
    | error error =>
        rw [stepped] at built
        cases built
    | ok builder =>
        rw [stepped] at built
        exact (Builder.fits_empty.steps stepped).finish built

-- A loop in the second branch of a conditional, and a word that does not close the loop.
def crossedSample : List Text :=
  ["IF x".toList, "ELSE".toList, "DO 2 TIMES".toList, "ENDIF".toList]

def crossedStack : Stack :=
  [.counted "DO 2 TIMES".toList .doWord "2".toList [],
    .conditional "IF x".toList [.mk "x".toList []] (some []), .program []]

theorem stack_stays_sound_crossed :
    crossedStack ∈ start.states crossedSample ∧ crossedStack.Sound ∧
      start.build crossedSample =
        .error (.refused (.mismatchedTerminator .endIf .endDo "DO 2 TIMES".toList)) := by
  have passed : start.states crossedSample =
      [start, [.conditional "IF x".toList [.mk "x".toList []] none, .program []],
        [.conditional "IF x".toList [.mk "x".toList []] (some []), .program []],
        crossedStack] := by
    rfl
  have member : crossedStack ∈ start.states crossedSample := by
    rw [passed]
    simp only [List.mem_cons, true_or, or_true]
  have refused : start.build crossedSample =
      .error (.refused (.mismatchedTerminator .endIf .endDo "DO 2 TIMES".toList)) := by
    rfl
  exact ⟨member, (stack_stays_sound crossedSample).1 crossedStack member, refused⟩

end Stack

end Soundness

end MiniAbap
