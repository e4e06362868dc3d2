import MiniAbap.Run.State

/-!
What each plain statement does. A statement looks things up, makes content for
a variable and writes, in this order; where one of these gives nothing, it ends
in the state that it has reached. A chain of declarations runs one after the
other.
-/

namespace MiniAbap

namespace Environment

def operand (env : Environment) (source : Text) : Except RunError Value :=
  match env.evaluate source with
  | .ok value => .ok value
  | .error error => .error (.expression error)

def contentFor (name : Text) (type : FieldType) (value : Value) :
    Except (Stop RunError) Content :=
  (type.coerce value).mapError fun stop => stop.map (.badValue name)

def fieldType (env : Environment) (name : Text) : Except RunError FieldType :=
  match env.get? name with
  | none => .error (.undeclared name)
  | some (.field type _) => .ok type
  | some (.table _ _) => .error (.notField name)

def table (env : Environment) (name : Text) : Except RunError (RowType × Rows) :=
  match env.get? name with
  | none => .error (.undeclared name)
  | some (.field _ _) => .error (.notTable name)
  | some (.table type rows) => .ok (type, rows)

def copyRows (name : Text) (type : RowType) :
    List Content → Except (Stop RunError) (List Content)
  | [] => .ok []
  | row :: rest => do
      let first ← contentFor name type.fieldType (.ofContent row)
      let others ← copyRows name type rest
      return first :: others

def initialRows (env : Environment) (name : Text) (type : RowType) (source : Text) :
    Except (Stop RunError) Rows :=
  if Text.isName source then
    match env.get? source with
    | none => .error (.fault (.undeclared source))
    | some (.field _ _) => .error (.fault (.badTableSource name))
    | some (.table _ rows) => (copyRows name type rows.toList).map Rows.ofList
  else .error (.fault (.badTableSource name))

def initialVariable (env : Environment) (name : Text) (type : DataType)
    (value : Option Text) : Except (Stop RunError) Variable :=
  match value, type with
  | none, _ => .ok (.initial type)
  | some source, .field type => do
      let value ← (env.operand source).mapError .fault
      return .field type (← contentFor name type value)
  | some source, .table type => do
      return .table type (← env.initialRows name type source)

def itemTexts (env : Environment) :
    List WriteItem → Except RunError (List (Bool × Option Text))
  | [] => .ok []
  | item :: rest => do
      let text ← match item.value with
        | none => pure none
        | some source => do
            let value ← env.operand source
            pure (some value.display)
      let others ← env.itemTexts rest
      return (item.newLine, text) :: others

end Environment

def Output.emit (output : Output) (item : Bool × Option Text) : Output :=
  let output := if item.1 then output.newLine else output
  match item.2 with
  | none => output
  | some text => output.write text

namespace State

section Declaring

/-- Declares one variable. A name keeps its type for good: declaring it again
    with the same type resets it, with another type is a fault. -/
def runDeclaration (state : State) (declaration : Declaration) : Outcome :=
  let name := declaration.name
  match DataType.ofClause declaration.type with
  | .error fault => .failed (.badType name fault) state
  | .ok type =>
      if (state.env.get? name).any fun old => old.type != type then
        .failed (.redeclared name) state
      else
        state.produce (state.env.initialVariable name type declaration.value) fun new =>
          .done (state.declare name new)

def runData (state : State) : List Declaration → Outcome
  | [] => .done state
  | declaration :: rest =>
      (state.runDeclaration declaration).andThen fun next => next.runData rest

end Declaring

section Changing

def store (state : State) (target : Text) (type : FieldType) (value : Value) : Outcome :=
  state.produce (Environment.contentFor target type value) fun content =>
    .done (state.declare target (.field type content))

/-- Adds to or subtracts from a numeric field. The amount takes the type of the
    field before, and the result after the operation. -/
def runTally (state : State) (form : Form) (combine : Float → Float → Float)
    (amount target : Text) : Outcome :=
  state.require (state.env.fieldType target) fun type =>
    if type.isNumeric then
      state.require (state.env.operand amount) fun value =>
        state.produce (Environment.contentFor target type value) fun change =>
          match change, state.env.get? target with
          | .number change, some (.field _ (.number current)) =>
              state.store target type (.number (combine current change))
          | _, _ => .failed (.notNumericTarget form target) state
    else .failed (.notNumericTarget form target) state

def runClear (state : State) (target : Text) : Outcome :=
  match state.env.get? target with
  | none => .failed (.undeclared target) state
  | some found => .done (state.declare target (.initial found.type))

def runAppend (state : State) (value table : Text) : Outcome :=
  state.require (state.env.table table) fun (type, rows) =>
    state.require (state.env.operand value) fun value =>
      state.produce (Environment.contentFor table type.fieldType value) fun row =>
        .done (state.declare table (.table type (rows.push row)))

def runAssign (state : State) (target value : Text) : Outcome :=
  state.require (state.env.fieldType target) fun type =>
    state.require (state.env.operand value) fun value => state.store target type value

end Changing

def runWrite (state : State) (items : List WriteItem) : Outcome :=
  state.require (state.env.itemTexts items) fun texts =>
    .done { state with output := texts.foldl Output.emit state.output }

def runStatement (state : State) (text : Text) : Statement → Outcome
  | .data declarations => state.runData declarations
  | .write items => state.runWrite items
  | .add amount target => state.runTally .add (fun x y => x + y) amount target
  | .subtract amount target => state.runTally .subtract (fun x y => x - y) amount target
  | .clear target => state.runClear target
  | .append value table => state.runAppend value table
  | .assign target value => state.runAssign target value
  | .malformed form => .failed (.malformed form text) state
  | .unsupported => .failed (.unsupported text) state

end State

end MiniAbap
