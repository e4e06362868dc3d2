import MiniAbap.Expr

/-!
How deep the expression of a token list can nest, estimated in one pass before
it is read. Every group, prefix sign and infix operator adds a level. Levels
count for the group they stand in and go when it closes, so groups side by side
do not add up.
-/

namespace MiniAbap

structure Nesting where
  /-- Levels added inside the innermost open group. -/
  levels : Nat := 0
  /-- Levels added inside the groups around it, innermost first. -/
  outer : List Nat := []
  depth : Nat := 0
  deepest : Nat := 0

namespace Nesting

def enterGroup (state : Nesting) : Nesting :=
  { state with
    levels := 0, outer := state.levels :: state.outer, depth := state.depth + 1 }

/-- A parenthesis that closes no group leaves the count alone. -/
def leaveGroup (state : Nesting) : Nesting :=
  match state.outer with
  | [] => state
  | around :: outer =>
      { state with
        levels := around, outer := outer, depth := state.depth - (state.levels + 1) }

def addLevel (state : Nesting) : Nesting :=
  { state with levels := state.levels + 1, depth := state.depth + 1 }

-- A plus or minus adds its level whether it is a sign or joins two operands.
def move (state : Nesting) : Token → Nesting
  | .leftParen => state.enterGroup
  | .rightParen => state.leaveGroup
  | .operator _ => state.addLevel
  | .number _ | .literal _ | .name _ => state

def step (state : Nesting) (token : Token) : Nesting :=
  let next := state.move token
  { next with deepest := max next.deepest next.depth }

end Nesting

def nestingDepth (tokens : List Token) : Nat :=
  (tokens.foldl Nesting.step {}).deepest

end MiniAbap
