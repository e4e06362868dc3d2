import MiniAbap.Block
import MiniAbap.Expr.Eval
import MiniAbap.Output

/-!
What a run carries from statement to statement, and how a piece of a program
can end: done, abandoned with a fault that is recorded while the run goes on,
stopped because the budget of loop passes is used up, or crashed, where nothing
around it goes on. Every outcome has the state that was reached: a statement
that wrote something before it failed has written it.
-/

namespace MiniAbap

inductive RunError where
  | expression (error : ExprError)
  | undeclared (name : Text)
  | badType (name : Text) (fault : TypeFault)
  | redeclared (name : Text)
  | badValue (name : Text) (fault : ValueFault)
  | notNumericTarget (form : Form) (name : Text)
  | notTable (name : Text)
  | notField (name : Text)
  | workAreaMismatch (workArea table : Text) (rows : RowType)
  | badTableSource (name : Text)
  | badCount (source found : Text)
  | passLimit (limit : Nat)
  | unsupported (text : Text)
  | malformed (form : Form) (text : Text)

def RunError.message : RunError → String
  | .expression error => error.message
  | .undeclared name => s!"Variable \"{String.ofList name}\" is not declared."
  | .badType name fault => fault.message name
  | .redeclared name =>
      s!"Variable {String.ofList name} is already declared with a different type."
  | .badValue name fault => fault.message name
  | .notNumericTarget form name =>
      let shown := String.ofList name
      s!"{form.title} only supports numeric variables, but {shown} is not numeric."
  | .notTable name => s!"Variable {String.ofList name} is not an internal table."
  | .notField name =>
      s!"Internal table {String.ofList name} cannot be used as a single value."
  | .workAreaMismatch workArea table rows =>
      let area := String.ofList workArea
      s!"Work area {area} cannot hold the {rows.phrase} elements of {String.ofList table}."
  | .badTableSource name =>
      let shown := String.ofList name
      s!"Internal table {shown} can only be initialized from another internal table."
  | .badCount source found =>
      let shown := String.ofList found
      let quoted := String.ofList source
      s!"Loop count \"{quoted}\" must be a non-negative integer, found {shown}."
  | .passLimit limit =>
      s!"Too many iterations: the limit of {limit} loop passes was exceeded."
  | .unsupported text => s!"Unsupported statement: \"{String.ofList text}\"."
  | .malformed form text => s!"Invalid {form.title} syntax: \"{String.ofList text}\"."

/-- The state of a run. Faults are kept latest first. A loop pass counts when it
    is attempted, also when the budget refuses it. -/
structure State where
  env : Environment := {}
  output : Output := {}
  faults : List RunError := []
  passes : Nat := 0

namespace State

def record (state : State) (fault : RunError) : State :=
  { state with faults := fault :: state.faults }

def diagnostics (state : State) : List String :=
  state.faults.reverse.map RunError.message

end State

inductive Outcome where
  | done (state : State)
  | failed (fault : RunError) (state : State)
  | exhausted (state : State)
  | crashed (state : State)

namespace Outcome

def state : Outcome → State
  | .done state => state
  | .failed _ state => state
  | .exhausted state => state
  | .crashed state => state

def isExhausted : Outcome → Bool
  | .exhausted _ => true
  | .done _ | .failed _ _ | .crashed _ => false

def isCrashed : Outcome → Bool
  | .crashed _ => true
  | .done _ | .failed _ _ | .exhausted _ => false

def andThen (outcome : Outcome) (next : State → Outcome) : Outcome :=
  match outcome with
  | .done state => next state
  | other => other

end Outcome

namespace State

variable {α : Type}

def require (state : State) (found : Except RunError α) (next : α → Outcome) : Outcome :=
  match found with
  | .ok value => next value
  | .error fault => .failed fault state

def produce (state : State) (made : Except (Stop RunError) α) (next : α → Outcome) : Outcome :=
  match made with
  | .ok value => next value
  | .error (.fault fault) => .failed fault state
  | .error .crash => .crashed state

def declare (state : State) (name : Text) (new : Variable) : State :=
  { state with env := state.env.declare name new }

end State

end MiniAbap
