import MiniAbap.Block

/-!
Statement texts to blocks. The blocks that are open form a stack; a statement
adds to the innermost one, opens a block inside it, starts its next branch, or
closes it. An assignment is a plain statement even where its target spells a
block word.
-/

namespace MiniAbap

inductive Branch where
  /-- A clause of a conditional, after the clauses before it. -/
  | clause (earlier : List Clause) (condition : Text)
  | otherwise (clauses : List Clause)
  | counted (word : LoopWord) (count : Text)
  | overRows (table workArea : Text)

def Branch.terminator : Branch → Terminator
  | .clause _ _ | .otherwise _ => .endIf
  | .counted word _ => word.terminator
  | .overRows _ _ => .endLoop

/-- An open block: the text that opened it, its current branch, and the nodes of
    that branch, latest first. -/
structure OpenBlock where
  opening : Text
  branch : Branch
  nodes : List Node := []

namespace OpenBlock

def body (block : OpenBlock) : List Node :=
  block.nodes.reverse

def add (block : OpenBlock) (node : Node) : OpenBlock :=
  { block with nodes := node :: block.nodes }

@[simp] theorem body_add (block : OpenBlock) (node : Node) :
    (block.add node).body = block.body ++ [node] := by
  simp [body, add]

def close (block : OpenBlock) : Node :=
  match block.branch with
  | .clause earlier condition =>
      .conditional (earlier ++ [.mk condition block.body]) none
  | .otherwise clauses => .conditional clauses (some block.body)
  | .counted word count => .counted word count block.body
  | .overRows table workArea => .overRows table workArea block.body

end OpenBlock

/-- Finished nodes outside all blocks, latest first, and the open blocks,
    innermost first. -/
structure Builder where
  nodes : List Node := []
  blocks : List OpenBlock := []

namespace Builder

def add (builder : Builder) (node : Node) : Builder :=
  match builder.blocks with
  | [] => { builder with nodes := node :: builder.nodes }
  | block :: outer => { builder with blocks := block.add node :: outer }

def openBlock (builder : Builder) (opening : Text) (branch : Branch) :
    Except StructureError Builder :=
  if deepestBlock ≤ builder.blocks.length then .error (.nestingTooDeep opening)
  else .ok { builder with blocks := ⟨opening, branch, []⟩ :: builder.blocks }

def readCondition (word : BlockWord) (text rest : Text) : Except StructureError Text :=
  let condition := Text.trim ((Text.stripTrailing "THEN".toList rest).getD rest)
  if condition.isEmpty then .error (.missingCondition word text) else .ok condition

def readCounted (word : LoopWord) (text rest : Text) : Except StructureError Branch :=
  if rest.isEmpty then .error (.unboundedLoop word text)
  else
    match Text.stripTrailing "TIMES".toList rest with
    | none => .error (.malformedBlock (.openLoop word) text .missingTimes)
    | some count =>
        if count.isEmpty then .error (.malformedBlock (.openLoop word) text .missingCount)
        else .ok (.counted word count)

/-- The branch of either form of `LOOP`: anything that starts with the word `AT`
    has to be `AT table INTO work-area`. -/
def readLoop (text rest : Text) : Except StructureError Branch :=
  let words := Text.words rest
  if words.head?.any (Text.sameWord "AT".toList) then
    match words with
    | [_, table, into, workArea] =>
        if Text.sameWord into "INTO".toList && Text.isName table && Text.isName workArea
        then .ok (.overRows table workArea)
        else .error (.malformedBlock (.openLoop .loopWord) text .notLoopAt)
    | _ => .error (.malformedBlock (.openLoop .loopWord) text .notLoopAt)
  else readCounted .loopWord text rest

def nextBranch (builder : Builder) (word : BlockWord) (text : Text)
    (next : List Clause → Branch) : Except StructureError Builder :=
  match builder.blocks with
  | block :: outer =>
      match block.branch with
      | .clause earlier condition =>
          let clauses := earlier ++ [.mk condition block.body]
          .ok { builder with blocks := ⟨block.opening, next clauses, []⟩ :: outer }
      | .otherwise _ => .error (.clauseAfterElse word block.opening)
      | .counted _ _ | .overRows _ _ => .error (.clauseOutsideIf word text)
  | [] => .error (.clauseOutsideIf word text)

def closeBlock (builder : Builder) (found : Terminator) (text : Text) :
    Except StructureError Builder :=
  match builder.blocks with
  | [] => .error (.unexpectedTerminator found text)
  | block :: outer =>
      let expected := block.branch.terminator
      if expected = found then .ok (add { builder with blocks := outer } block.close)
      else .error (.mismatchedTerminator found expected block.opening)

def addLeaf (builder : Builder) (text : Text) : Except StructureError Builder :=
  match Statement.read text with
  | .error error => .error (.malformedDeclaration error)
  | .ok statement => .ok (builder.add (.leaf text statement))

def blockWord? (text : Text) : Option (BlockWord × Text) :=
  if Statement.isAssignment text then none
  else
    let (word, rest) := Text.leadingWord text
    (BlockWord.ofText? word).map fun word => (word, Text.trim rest)

def step (builder : Builder) (text : Text) : Except StructureError Builder :=
  match blockWord? text with
  | none => builder.addLeaf text
  | some (.openIf, rest) =>
      match readCondition .openIf text rest with
      | .error error => .error error
      | .ok condition => builder.openBlock text (.clause [] condition)
  | some (.elseIf, rest) =>
      match readCondition .elseIf text rest with
      | .error error => .error error
      | .ok condition => builder.nextBranch .elseIf text (.clause · condition)
  | some (.elseWord, rest) =>
      if rest.isEmpty then builder.nextBranch .elseWord text .otherwise
      else .error (.malformedBlock .elseWord text .textAfterWord)
  | some (.openLoop .doWord, rest) =>
      match readCounted .doWord text rest with
      | .error error => .error error
      | .ok branch => builder.openBlock text branch
  | some (.openLoop .loopWord, rest) =>
      match readLoop text rest with
      | .error error => .error error
      | .ok branch => builder.openBlock text branch
  | some (.close terminator, rest) =>
      if rest.isEmpty then builder.closeBlock terminator text
      else .error (.malformedBlock (.close terminator) text .textAfterWord)

def steps (builder : Builder) : List Text → Except StructureError Builder
  | [] => .ok builder
  | text :: rest =>
      match builder.step text with
      | .error error => .error error
      | .ok next => next.steps rest

/-- All blocks have to be closed; the innermost open one is reported. -/
def finish (builder : Builder) : Except StructureError (List Node) :=
  match builder.blocks with
  | [] => .ok builder.nodes.reverse
  | block :: _ => .error (.missingTerminator block.branch.terminator block.opening)

end Builder

namespace Block

def ofStatements (statements : List Text) : Except StructureError (List Node) :=
  match Builder.steps {} statements with
  | .error error => .error error
  | .ok builder => builder.finish

end Block

end MiniAbap
