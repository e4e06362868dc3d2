import MiniAbap.Text.Literal

/-!
Program text to statement texts. A full stop ends a statement and a double
quote starts a comment that runs to the end of its line; a line whose first
character other than white space is an asterisk is a comment as a whole. None
of this holds inside a literal, and a full stop between two digits is a decimal
point. Literals end with their line for these rules.

White space outside literals is then reduced to single spaces. That last step
sees a statement as a whole, so there a literal may run over several lines.
-/

namespace MiniAbap.Source

inductive Piece where
  | char (c : Char)
  | stop
  deriving DecidableEq

def isDecimalPoint (previous : Option Char) (rest : Text) : Bool :=
  previous.any Char.isDigit && rest.head?.any Char.isDigit

def piecesFrom (quote previous : Option Char) : Text → List Piece
  | [] => []
  | c :: rest =>
      if quote.isNone && c == '"' then []
      else if quote.isNone && c == '.' && !isDecimalPoint previous rest then
        .stop :: piecesFrom none (some c) rest
      else .char c :: piecesFrom (Text.advance quote c) (some c) rest

def isCommentLine (line : Text) : Bool :=
  (Text.trimStart line).head? == some '*'

def linePieces (line : Text) : List Piece :=
  if isCommentLine line then [] else piecesFrom none none line ++ [.char ' ']

def pieces (source : Text) : List Piece :=
  (Text.lines source).flatMap linePieces

def chunks : List Piece → List Text
  | [] => [[]]
  | .stop :: rest => [] :: chunks rest
  | .char c :: rest => (chunks rest).modifyHead (c :: ·)

/-- Reduces white space outside literals. `pending` says that some has been
    passed since the last character kept. -/
def squeeze (quote : Option Char) (pending : Bool) : Text → Text
  | [] => []
  | c :: rest =>
      if quote.isNone && Text.isBlank c then squeeze none true rest
      else
        let kept := c :: squeeze (Text.advance quote c) false rest
        if pending then ' ' :: kept else kept

def collapse (text : Text) : Text :=
  squeeze none false (Text.trim text)

def statements (source : Text) : List Text :=
  ((chunks (pieces source)).map collapse).filter fun text => !text.isEmpty

end MiniAbap.Source
