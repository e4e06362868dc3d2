import MiniAbap.Text.Basic

/-!
The list output of a run. Items land on the last line, one space apart; a new
line can be asked for at any time, and the first line starts by itself. Lines
before the last one never change.
-/

namespace MiniAbap

/-- The lines so far, latest first, and the characters of each latest first. -/
structure Output where
  reversed : List Text := []
  deriving DecidableEq

namespace Output

def isEmpty (output : Output) : Bool :=
  output.reversed.isEmpty

def lines (output : Output) : List Text :=
  (output.reversed.map List.reverse).reverse

def newLine (output : Output) : Output :=
  ⟨[] :: output.reversed⟩

def space : Text → Text
  | [] => []
  | ' ' :: line => ' ' :: line
  | line => ' ' :: line

def write (output : Output) (item : Text) : Output :=
  match output.reversed with
  | [] => ⟨[item.reverse]⟩
  | line :: before => ⟨(item.reverse ++ space line) :: before⟩

@[simp] theorem lines_newLine (output : Output) :
    output.newLine.lines = output.lines ++ [[]] := by
  simp [newLine, lines]

/-- The lines without trailing white space, joined by line feeds; a last line
    that is empty then is left out. -/
def render (output : Output) : Text :=
  let trimmed := output.lines.map Text.trimEnd
  let shown := if trimmed.getLast? == some [] then trimmed.dropLast else trimmed
  List.intercalate ['\n'] shown

end Output

end MiniAbap
