import MiniAbap.Block
import MiniAbap.Block.Build
import MiniAbap.Coercion
import MiniAbap.CommandLine
import MiniAbap.DataType
import MiniAbap.Environment
import MiniAbap.Expr
import MiniAbap.Expr.Eval
import MiniAbap.Expr.Nesting
import MiniAbap.Expr.Read
import MiniAbap.Main
import MiniAbap.Number.Decimal
import MiniAbap.Number.Whole
import MiniAbap.Output
import MiniAbap.Program
import MiniAbap.Run.Block
import MiniAbap.Run.State
import MiniAbap.Run.Statement
import MiniAbap.Source
import MiniAbap.Statement
import MiniAbap.Statement.Declaration
import MiniAbap.Statement.Read
import MiniAbap.Text.Basic
import MiniAbap.Text.Literal
import MiniAbap.Text.Name
import MiniAbap.Text.Occurrence
import MiniAbap.Token
import MiniAbap.Token.Scan
import MiniAbap.Value
import MiniAbap.Proofs.Block.Grammar
import MiniAbap.Proofs.Expr.Grammar
import MiniAbap.Proofs.Expr.Height
import MiniAbap.Proofs.Expr.Allowance
import MiniAbap.Proofs.Number.Finite
import MiniAbap.Proofs.Coercion
import MiniAbap.Proofs.Run.Step
import MiniAbap.Proofs.Run.Trace
import MiniAbap.Proofs.Run.Typing
import MiniAbap.Proofs.Run.Budget
import MiniAbap.Proofs.Run.Growth
import MiniAbap.Proofs.Run.LargerBudget
import MiniAbap.Proofs.Expr.Kinds
import MiniAbap.Proofs.Block.Append
import MiniAbap.Proofs.Text.Blank
import MiniAbap.Proofs.Source.Line
import MiniAbap.Proofs.Source.Append
import MiniAbap.Proofs.Run.Permanence
import MiniAbap.Proofs.Run.Continuation
import MiniAbap.Proofs.Source.Layout
import MiniAbap.Proofs.LetterCase.Text
import MiniAbap.Proofs.LetterCase.Token
import MiniAbap.Proofs.LetterCase.Expr
import MiniAbap.Proofs.LetterCase.Statement
import MiniAbap.Proofs.LetterCase.Block
import MiniAbap.Proofs.LetterCase.Run
import MiniAbap.Proofs.LetterCase.Program
import MiniAbap.Proofs.Source.Conservation
import MiniAbap.Proofs.Source.LineLiterals
import MiniAbap.Proofs.Block.Repair
import MiniAbap.Proofs.Run.Snapshot
import MiniAbap.Proofs.Run.Footprint
import MiniAbap.Proofs.Run.Unrolling
import MiniAbap.Proofs.Text.Occurrence
import MiniAbap.Proofs.Statement.Opening
import MiniAbap.Proofs.Statement.Target
import MiniAbap.Proofs.Statement.Declaration
import MiniAbap.Proofs.Token.Pattern
import MiniAbap.Proofs.Token.Scan
import MiniAbap.Proofs.Token.Occurrence
import MiniAbap.Proofs.Token.Division
import MiniAbap.Proofs.Block.Opening
import MiniAbap.Proofs.Run.Chain
import MiniAbap.Proofs.Run.Nesting
import MiniAbap.Proofs.Output
import MiniAbap.Proofs.Text.Literal
import MiniAbap.Proofs.Text.Splitting
import MiniAbap.Proofs.Text.Position
import MiniAbap.Proofs.Block.Stack
