import MiniAbap.Block.Build
import MiniAbap.Run.Statement

/-!
Runs of blocks. A block records the fault of a statement that fails and goes on
with the next one; only an exhausted budget and a crash end it early, and every
block and loop around it. The budget limits the loop passes of a whole run, over
all loops at all depths.
-/

namespace MiniAbap

def State.pass (limit : Nat) (body : State → Outcome) (state : State) : Outcome :=
  let counted := { state with passes := state.passes + 1 }
  if limit < counted.passes then .exhausted counted else body counted

namespace Loop

def times (limit : Nat) (body : State → Outcome) : Nat → State → Outcome
  | 0, state => .done state
  | count + 1, state => (state.pass limit body).andThen (times limit body count)

def bindRow (workArea : Text) (type : FieldType) (row : Content) (state : State) : Outcome :=
  state.store workArea type (.ofContent row)

def overRows (limit : Nat) (workArea : Text) (type : FieldType) (body : State → Outcome) :
    List Content → State → Outcome
  | [], state => .done state
  | row :: rest, state =>
      (state.pass limit fun counted =>
        (bindRow workArea type row counted).andThen body).andThen
          (overRows limit workArea type body rest)

def count (env : Environment) (source : Text) : Except RunError Nat := do
  let value ← env.operand source
  let passes := match value with
    | .number x => Number.count? x
    | .text _ | .truth _ => none
  match passes with
  | some passes => return passes
  | none => throw (.badCount source value.display)

def entry (env : Environment) (table workArea : Text) :
    Except RunError (List Content × FieldType) := do
  let (rowType, rows) ← env.table table
  let type ← env.fieldType workArea
  if rowType.fits type then return (rows.toList, type)
  else throw (.workAreaMismatch workArea table rowType)

end Loop

mutual

def Node.run (limit : Nat) : Node → State → Outcome
  | .leaf text statement, state => state.runStatement text statement
  | .conditional clauses otherwise, state =>
      Clause.runFirst limit clauses (fun state =>
        match otherwise with
        | none => .done state
        | some body => Block.run limit body state) state
  | .counted _ count body, state =>
      match Loop.count state.env count with
      | .error fault => .failed fault state
      | .ok passes => Loop.times limit (fun state => Block.run limit body state) passes state
  | .overRows table workArea body, state =>
      match Loop.entry state.env table workArea with
      | .error fault => .failed fault state
      | .ok (rows, type) =>
          Loop.overRows limit workArea type (fun state => Block.run limit body state) rows state

/-- Runs the first clause whose condition holds, or `otherwise` when none does.
    A condition that fails abandons the conditional. -/
def Clause.runFirst (limit : Nat) :
    List Clause → (State → Outcome) → State → Outcome
  | [], otherwise, state => otherwise state
  | .mk condition body :: rest, otherwise, state =>
      match state.env.operand condition with
      | .error fault => .failed fault state
      | .ok value =>
          if value.isTrue then Block.run limit body state
          else Clause.runFirst limit rest otherwise state

def Block.run (limit : Nat) : List Node → State → Outcome
  | [], state => .done state
  | node :: rest, state =>
      match node.run limit state with
      | .done next => Block.run limit rest next
      | .failed fault next => Block.run limit rest (next.record fault)
      | .exhausted last => .exhausted last
      | .crashed last => .crashed last

end

end MiniAbap
