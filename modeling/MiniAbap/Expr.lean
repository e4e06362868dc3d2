import MiniAbap.Token.Scan
import MiniAbap.Value

/-!
Expressions: literals, variables, prefix signs and infix operators.
-/

namespace MiniAbap

inductive Expr where
  | number (value : Float)
  | literal (content : Text)
  | name (word : Text)
  | signed (sign : Sign) (operand : Expr)
  | binary (op : BinaryOp) (left right : Expr)

inductive SyntaxFault where
  | empty
  | tooDeep
  | unexpectedToken (token : Token)
  | unexpectedEnd
  | trailingToken (token : Token)
  | unbalanced

inductive ExprError where
  | lexical (error : LexError)
  | malformed (fault : SyntaxFault) (expression : Text)
  | undeclared (name : Text)
  | tableOperand (name : Text)
  | notNumeric (operator : String) (found : Kind)
  | incomparable (operator : String) (left right : Kind)

def deepestNesting : Nat := 256

def SyntaxFault.message (fault : SyntaxFault) (expression : Text) : String :=
  let quoted := String.ofList expression
  match fault with
  | .empty => "Empty expression."
  | .tooDeep => s!"Expression \"{quoted}\" is nested too deeply (limit {deepestNesting})."
  | .unexpectedToken token =>
      s!"Unexpected token '{String.ofList token.spelling}' in expression \"{quoted}\"."
  | .unexpectedEnd => s!"Incomplete expression \"{quoted}\"."
  | .trailingToken token =>
      let shown := String.ofList token.spelling
      s!"Unexpected '{shown}' after the end of expression \"{quoted}\"."
  | .unbalanced => s!"Unbalanced parentheses in expression \"{quoted}\"."

def ExprError.message : ExprError → String
  | .lexical error => error.message
  | .malformed fault expression => fault.message expression
  | .undeclared name => s!"Variable \"{String.ofList name}\" is not declared."
  | .tableOperand name =>
      s!"Internal table \"{String.ofList name}\" cannot be used in an expression."
  | .notNumeric operator found =>
      s!"Operator '{operator}' requires numeric operands, found {found.phrase}."
  | .incomparable operator left right =>
      s!"Cannot compare {left.phrase} with {right.phrase} using '{operator}'."

end MiniAbap
