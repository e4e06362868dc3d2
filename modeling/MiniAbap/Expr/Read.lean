import MiniAbap.Expr.Nesting

/-!
Tokens to expressions. An operand is a literal, a variable, a signed operand or
a group; operands join into products, products into sums, both grouping to the
left, and at most one comparison joins two sums:

  comparison := sum ((= | <> | > | <) sum)?
  sum        := product ((+ | -) product)*
  product    := operand ((* | /) operand)*
  operand    := (+ | -) operand | number | literal | name | ( comparison )

Reading an operand is bounded by an allowance of open groups and pending signs,
so that the readers for the other levels can be built on any operand reader.
-/

namespace MiniAbap

abbrev Reader := List Token → Except SyntaxFault (Expr × List Token)

namespace Reader

def nextOperator? (level : Level) : List Token → Option (BinaryOp × List Token)
  | [] => none
  | token :: rest =>
      match token.binary? with
      | some op => if op.level = level then some (op, rest) else none
      | none => none

def chain (level : Level) (operand : Reader) : Nat → Expr → Reader
  | 0, left, tokens => .ok (left, tokens)
  | steps + 1, left, tokens =>
      match nextOperator? level tokens with
      | none => .ok (left, tokens)
      | some (op, after) =>
          match operand after with
          | .error fault => .error fault
          | .ok (right, rest) => chain level operand steps (.binary op left right) rest

/-- Operands of one level, grouped to the left. No chain has more links than
    there are tokens. -/
def leftGrouped (level : Level) (operand : Reader) : Reader := fun tokens =>
  match operand tokens with
  | .error fault => .error fault
  | .ok (first, rest) => chain level operand rest.length first rest

def product (operand : Reader) : Reader :=
  leftGrouped .product operand

def sum (operand : Reader) : Reader :=
  leftGrouped .sum (product operand)

def comparison (operand : Reader) : Reader := fun tokens =>
  match sum operand tokens with
  | .error fault => .error fault
  | .ok (left, rest) =>
      match nextOperator? .comparison rest with
      | none => .ok (left, rest)
      | some (op, after) =>
          match sum operand after with
          | .error fault => .error fault
          | .ok (right, rest) => .ok (.binary op left right, rest)

def closeGroup : Expr × List Token → Except SyntaxFault (Expr × List Token)
  | (inner, .rightParen :: rest) => .ok (inner, rest)
  | (_, token :: _) => .error (.unexpectedToken token)
  | (_, []) => .error .unbalanced

/-- An operand with at most `allowance` groups and signs around each other. -/
def operand : Nat → Reader
  | _, [] => .error .unexpectedEnd
  | _, .number value :: rest => .ok (.number value, rest)
  | _, .literal content :: rest => .ok (.literal content, rest)
  | _, .name word :: rest => .ok (.name word, rest)
  | _, .rightParen :: _ => .error .unbalanced
  | 0, .leftParen :: _ => .error .tooDeep
  | allowance + 1, .leftParen :: rest =>
      match comparison (operand allowance) rest with
      | .error fault => .error fault
      | .ok read => closeGroup read
  | allowance, .operator op :: rest =>
      match (Token.operator op).sign? with
      | none => .error (.unexpectedToken (.operator op))
      | some sign =>
          match allowance with
          | 0 => .error .tooDeep
          | allowance + 1 =>
              match operand allowance rest with
              | .error fault => .error fault
              | .ok (inner, rest) => .ok (.signed sign inner, rest)

end Reader

namespace Expr

def complete : Expr × List Token → Except SyntaxFault Expr
  | (expr, []) => .ok expr
  | (_, .rightParen :: _) => .error .unbalanced
  | (_, token :: _) => .error (.trailingToken token)

def ofTokens (tokens : List Token) : Except SyntaxFault Expr :=
  if tokens.isEmpty then .error .empty
  else if deepestNesting < nestingDepth tokens then .error .tooDeep
  else
    match Reader.comparison (Reader.operand tokens.length) tokens with
    | .error fault => .error fault
    | .ok read => complete read

def read (source : Text) : Except ExprError Expr :=
  match Token.scan source with
  | .error error => .error (.lexical error)
  | .ok tokens =>
      match ofTokens tokens with
      | .error fault => .error (.malformed fault source)
      | .ok expr => .ok expr

end Expr

end MiniAbap
