import MiniAbap.Environment
import MiniAbap.Expr.Read

/-!
Values of expressions. Arithmetic is that of double precision numbers, so a
division by zero has a value. Arithmetic, signs and order take numbers only;
equality takes two values of one kind.
-/

namespace MiniAbap

namespace BinaryOp

def onNumbers (op : BinaryOp) (apply : Float → Float → Value) (left right : Value) :
    Except ExprError Value :=
  match left, right with
  | .number x, .number y => .ok (apply x y)
  | .number _, other => .error (.notNumeric op.symbol other.kind)
  | other, _ => .error (.notNumeric op.symbol other.kind)

def equalValues (op : BinaryOp) (left right : Value) : Except ExprError Bool :=
  match left, right with
  | .number x, .number y => .ok (x == y)
  | .text x, .text y => .ok (x == y)
  | .truth x, .truth y => .ok (x == y)
  | _, _ => .error (.incomparable op.symbol left.kind right.kind)

def eval (op : BinaryOp) (left right : Value) : Except ExprError Value :=
  match op with
  | .times => op.onNumbers (fun x y => .number (x * y)) left right
  | .over => op.onNumbers (fun x y => .number (x / y)) left right
  | .plus => op.onNumbers (fun x y => .number (x + y)) left right
  | .minus => op.onNumbers (fun x y => .number (x - y)) left right
  | .greater => op.onNumbers (fun x y => .truth (x > y)) left right
  | .less => op.onNumbers (fun x y => .truth (x < y)) left right
  | .equal => (op.equalValues left right).map .truth
  | .notEqual => (op.equalValues left right).map fun same => .truth !same

end BinaryOp

def Sign.eval (sign : Sign) : Value → Except ExprError Value
  | .number x =>
      match sign with
      | .plus => .ok (.number x)
      | .minus => .ok (.number (-x))
  | other => .error (.notNumeric sign.symbol other.kind)

namespace Environment

def valueOf (env : Environment) (name : Text) : Except ExprError Value :=
  match env.get? name with
  | none => .error (.undeclared name)
  | some (.field _ content) => .ok (.ofContent content)
  | some (.table _ _) => .error (.tableOperand name)

end Environment

namespace Expr

/-- Operands are evaluated from left to right, and the first fault is the
    result. -/
def eval (env : Environment) : Expr → Except ExprError Value
  | .number value => .ok (.number value)
  | .literal content => .ok (.text content)
  | .name word => env.valueOf word
  | .signed sign operand =>
      match eval env operand with
      | .error error => .error error
      | .ok value => sign.eval value
  | .binary op left right =>
      match eval env left with
      | .error error => .error error
      | .ok leftValue =>
          match eval env right with
          | .error error => .error error
          | .ok rightValue => op.eval leftValue rightValue

end Expr

def Environment.evaluate (env : Environment) (source : Text) : Except ExprError Value :=
  match Expr.read source with
  | .error error => .error error
  | .ok expr => expr.eval env

end MiniAbap
