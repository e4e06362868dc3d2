import MiniAbap.DataType

/-!
Plain statements: those that open and close no block. Operands are kept as
text and read when the statement runs, so a statement with a faulty operand is
still a statement.
-/

namespace MiniAbap

structure Declaration where
  name : Text
  type : TypeClause
  value : Option Text
  deriving DecidableEq

structure WriteItem where
  newLine : Bool
  value : Option Text
  deriving DecidableEq

inductive Form where
  | assignment
  | write
  | add
  | subtract
  | clear
  | append
  deriving DecidableEq

def Form.title : Form → String
  | .assignment => "assignment"
  | .write => "WRITE"
  | .add => "ADD"
  | .subtract => "SUBTRACT"
  | .clear => "CLEAR"
  | .append => "APPEND"

inductive Statement where
  | data (declarations : List Declaration)
  | write (items : List WriteItem)
  | add (amount target : Text)
  | subtract (amount target : Text)
  | clear (target : Text)
  | append (value table : Text)
  | assign (target value : Text)
  | malformed (form : Form)
  | unsupported
  deriving DecidableEq

end MiniAbap
