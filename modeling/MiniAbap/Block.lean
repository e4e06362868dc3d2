import MiniAbap.Statement.Read

/-!
Blocks: statements nested by conditionals and loops, and the words that open,
divide and close them.
-/

namespace MiniAbap

/-- The word that opens a loop with a count. It decides the closing word. -/
inductive LoopWord where
  | doWord
  | loopWord
  deriving DecidableEq

mutual

inductive Node where
  | leaf (text : Text) (statement : Statement)
  /-- The clauses of an `IF` in order, and the branch taken when none holds. -/
  | conditional (clauses : List Clause) (otherwise : Option (List Node))
  | counted (word : LoopWord) (count : Text) (body : List Node)
  | overRows (table workArea : Text) (body : List Node)

inductive Clause where
  | mk (condition : Text) (body : List Node)

end

def Clause.condition : Clause → Text
  | .mk condition _ => condition

def Clause.body : Clause → List Node
  | .mk _ body => body

inductive Terminator where
  | endIf
  | endDo
  | endLoop
  deriving DecidableEq

namespace Terminator

def title : Terminator → String
  | .endIf => "ENDIF"
  | .endDo => "ENDDO"
  | .endLoop => "ENDLOOP"

def opener : Terminator → String
  | .endIf => "IF"
  | .endDo => "DO"
  | .endLoop => "LOOP"

end Terminator

namespace LoopWord

def title : LoopWord → String
  | .doWord => "DO"
  | .loopWord => "LOOP"

def terminator : LoopWord → Terminator
  | .doWord => .endDo
  | .loopWord => .endLoop

end LoopWord

inductive BlockWord where
  | openIf
  | elseIf
  | elseWord
  | openLoop (word : LoopWord)
  | close (terminator : Terminator)
  deriving DecidableEq

namespace BlockWord

def all : List BlockWord :=
  [.openIf, .elseIf, .elseWord, .openLoop .doWord, .openLoop .loopWord,
    .close .endIf, .close .endDo, .close .endLoop]

def title : BlockWord → String
  | .openIf => "IF"
  | .elseIf => "ELSEIF"
  | .elseWord => "ELSE"
  | .openLoop word => word.title
  | .close terminator => terminator.title

def ofText? (word : Text) : Option BlockWord :=
  all.find? fun keyword => keyword.title.toList == word

end BlockWord

inductive BlockFault where
  | textAfterWord
  | missingTimes
  | missingCount
  | notLoopAt
  deriving DecidableEq

inductive StructureError where
  | unexpectedTerminator (found : Terminator) (text : Text)
  | mismatchedTerminator (found expected : Terminator) (opening : Text)
  | clauseOutsideIf (word : BlockWord) (text : Text)
  | clauseAfterElse (word : BlockWord) (opening : Text)
  | missingTerminator (expected : Terminator) (opening : Text)
  | nestingTooDeep (opening : Text)
  | missingCondition (word : BlockWord) (text : Text)
  | unboundedLoop (word : LoopWord) (text : Text)
  | malformedBlock (word : BlockWord) (text : Text) (fault : BlockFault)
  | malformedDeclaration (error : MalformedDeclaration)
  deriving DecidableEq

def deepestBlock : Nat := 128

def BlockFault.reason (fault : BlockFault) (word : BlockWord) : String :=
  match fault with
  | .textAfterWord => s!"unexpected text after {word.title}"
  | .missingTimes => "expected <count> TIMES"
  | .missingCount => "TIMES requires a count"
  | .notLoopAt => "expected LOOP AT <table> INTO <work area>"

def StructureError.message : StructureError → String
  | .unexpectedTerminator found text =>
      let shown := String.ofList text
      s!"{found.title} without a matching {found.opener}: \"{shown}\"."
  | .mismatchedTerminator found expected opening =>
      let shown := String.ofList opening
      s!"{found.title} cannot close \"{shown}\"; expected {expected.title}."
  | .clauseOutsideIf word text =>
      s!"{word.title} without an open IF: \"{String.ofList text}\"."
  | .clauseAfterElse word opening =>
      s!"{word.title} after ELSE in \"{String.ofList opening}\"."
  | .missingTerminator expected opening =>
      s!"Missing {expected.title} for \"{String.ofList opening}\"."
  | .nestingTooDeep opening =>
      let shown := String.ofList opening
      s!"Blocks nested too deeply at \"{shown}\" (limit {deepestBlock})."
  | .missingCondition word text =>
      s!"{word.title} requires a condition: \"{String.ofList text}\"."
  | .unboundedLoop word text =>
      let shown := String.ofList text
      s!"{word.title} without a TIMES count or table is not supported: \"{shown}\"."
  | .malformedBlock word text fault =>
      let shown := String.ofList text
      s!"Malformed {word.title} statement \"{shown}\": {fault.reason word}."
  | .malformedDeclaration error => error.message

end MiniAbap
