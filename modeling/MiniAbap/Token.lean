import MiniAbap.Number.Decimal

/-!
The tokens of an expression and its operators. Keywords are no tokens: they
are taken off a statement before its operands are read.
-/

namespace MiniAbap

inductive Level where
  | product
  | sum
  | comparison
  deriving DecidableEq

inductive BinaryOp where
  | times
  | over
  | plus
  | minus
  | equal
  | notEqual
  | greater
  | less
  deriving DecidableEq

inductive Sign where
  | plus
  | minus
  deriving DecidableEq

namespace BinaryOp

def symbol : BinaryOp → String
  | .times => "*"
  | .over => "/"
  | .plus => "+"
  | .minus => "-"
  | .equal => "="
  | .notEqual => "<>"
  | .greater => ">"
  | .less => "<"

def level : BinaryOp → Level
  | .times | .over => .product
  | .plus | .minus => .sum
  | .equal | .notEqual | .greater | .less => .comparison

end BinaryOp

def Sign.symbol : Sign → String
  | .plus => "+"
  | .minus => "-"

inductive Token where
  | number (value : Float)
  | literal (content : Text)
  | name (word : Text)
  | operator (op : BinaryOp)
  | leftParen
  | rightParen

namespace Token

/-- The token as diagnostics quote it. Literals are shown between apostrophes
    whichever quote they were written with. -/
def spelling : Token → Text
  | .number value => Number.text value
  | .literal content => '\x27' :: (content ++ ['\x27'])
  | .name word => word
  | .operator op => op.symbol.toList
  | .leftParen => ['(']
  | .rightParen => [')']

def binary? : Token → Option BinaryOp
  | .operator op => some op
  | _ => none

def sign? : Token → Option Sign
  | .operator .plus => some .plus
  | .operator .minus => some .minus
  | _ => none

end Token

end MiniAbap
