import MiniAbap.Statement.Declaration

/-!
Statement text to statements. An assignment is recognised first, whatever word
its target spells; then the leading word decides. Operands of the wrong shape
make a malformed statement, which is reported when it runs. A declaration that
cannot be read is an error at once.
-/

namespace MiniAbap

inductive StatementWord where
  | data
  | write
  | add
  | subtract
  | clear
  | append
  deriving DecidableEq

namespace StatementWord

def all : List StatementWord :=
  [.data, .write, .add, .subtract, .clear, .append]

def title : StatementWord → String
  | .data => "DATA"
  | .write => "WRITE"
  | .add => "ADD"
  | .subtract => "SUBTRACT"
  | .clear => "CLEAR"
  | .append => "APPEND"

def ofText? (word : Text) : Option StatementWord :=
  all.find? fun keyword => keyword.title.toList == word

end StatementWord

namespace Statement

def assignment? (text : Text) : Option (Text × Text) :=
  match Text.splitFirst (· == '=') text with
  | none => none
  | some (left, right) =>
      if Text.isName (Text.trim left) then some (Text.trim left, Text.trim right)
      else none

def isAssignment (text : Text) : Bool :=
  (assignment? text).isSome

def stripColon (rest : Text) : Text :=
  match Text.trimStart rest with
  | ':' :: chain => Text.trim chain
  | chain => Text.trim chain

/-- The items of a chain: between commas outside literals, trimmed, blank ones
    left out. -/
def chainItems (rest : Text) : List Text :=
  ((Text.splitOutside ',' (stripColon rest)).map Text.trim).filter fun item =>
    !item.isEmpty

def writeItem (item : Text) : WriteItem :=
  let present := fun (value : Text) => if value.isEmpty then none else some value
  match item with
  | '/' :: value => ⟨true, present (Text.trim value)⟩
  | value => ⟨false, present value⟩

def readWrite (rest : Text) : Statement :=
  let items := (chainItems rest).map writeItem
  if items.isEmpty then .malformed .write else .write items

def operandAndTarget? (keyword rest : Text) : Option (Text × Text) :=
  match Text.splitAtLast keyword rest with
  | none => none
  | some (operand, target) =>
      if operand.isEmpty || !Text.isName target then none else some (operand, target)

def readPair (form : Form) (keyword : String) (build : Text → Text → Statement)
    (rest : Text) : Statement :=
  match operandAndTarget? keyword.toList rest with
  | some (operand, target) => build operand target
  | none => .malformed form

def readClear (rest : Text) : Statement :=
  if Text.isName (Text.trim rest) then .clear (Text.trim rest) else .malformed .clear

def readData (text rest : Text) : Except MalformedDeclaration Statement :=
  match Declaration.readAll (chainItems rest) with
  | .error error => .error error
  | .ok [] => .error ⟨text, .nothingDeclared⟩
  | .ok declarations => .ok (.data declarations)

def read (text : Text) : Except MalformedDeclaration Statement :=
  match assignment? text with
  | some (target, value) =>
      .ok (if value.isEmpty then .malformed .assignment else .assign target value)
  | none =>
      let (word, rest) := Text.leadingWord text
      match StatementWord.ofText? word with
      | some .data => readData text rest
      | some .write => .ok (readWrite rest)
      | some .add => .ok (readPair .add "TO" .add rest)
      | some .subtract => .ok (readPair .subtract "FROM" .subtract rest)
      | some .clear => .ok (readClear rest)
      | some .append => .ok (readPair .append "TO" .append rest)
      | none => .ok .unsupported

end Statement

end MiniAbap
