import MiniAbap.Run.Block
import MiniAbap.Source

/-!
Whole programs. A program whose blocks do not fit together is not started: its
only diagnostic says why. Every run starts without variables and output, and
leaves a report unless it crashes.
-/

namespace MiniAbap

structure Report where
  output : Text
  diagnostics : List String
  deriving DecidableEq

def Report.isClean (report : Report) : Bool :=
  report.diagnostics.isEmpty

def State.report (state : State) : Report :=
  ⟨state.output.render, state.diagnostics⟩

def Outcome.final (limit : Nat) : Outcome → State
  | .done state => state
  | .failed fault state => state.record fault
  | .exhausted state => state.record (.passLimit limit)
  | .crashed state => state

namespace Program

def defaultLimit : Nat := 100000

def read (source : Text) : Except StructureError (List Node) :=
  Block.ofStatements (Source.statements source)

def finalState (limit : Nat) (nodes : List Node) (start : State) : State :=
  (Block.run limit nodes start).final limit

def crashes (limit : Nat) (nodes : List Node) (start : State) : Bool :=
  (Block.run limit nodes start).isCrashed

/-- The state that a run shows at its end. One that crashes shows nothing, not even
    what it had reached. -/
def shownState? (limit : Nat) (nodes : List Node) (start : State) : Option State :=
  if crashes limit nodes start then none else some (finalState limit nodes start)

def run (limit : Nat) (source : Text) : Option Report :=
  match read source with
  | .error error => some ⟨[], [error.message]⟩
  | .ok nodes => (shownState? limit nodes {}).map State.report

def demo : Text :=
  "* Ejemplo básico ABAP
DATA: lv_text TYPE string VALUE 'Hola mundo',
      lv_num  TYPE i VALUE 5.

WRITE: / 'Mensaje:', lv_text.
ADD 3 TO lv_num.
WRITE: / 'Resultado:', lv_num.".toList

end Program

end MiniAbap
