import MiniAbap.Proofs.LetterCase.Block
import MiniAbap.Run.Block

/-!
Blocks that differ in the case of letters outside literals run alike: variables,
output and passes are the same after every statement, and the recorded faults
differ in the case of what they quote.
-/

namespace MiniAbap

open Text (lower)

section Faults

inductive TypeFault.Recased : TypeFault → TypeFault → Prop where
  | same (fault : TypeFault) : Recased fault fault
  | unsupportedRows {rows other : Text} (same : lower rows = lower other) :
      Recased (.unsupportedRows rows) (.unsupportedRows other)

inductive RunError.Recased : RunError → RunError → Prop where
  | expression {error error' : ExprError} (same : SameMessage ExprError.message error error') :
      Recased (.expression error) (.expression error')
  | undeclared {name name' : Text} (same : lower name = lower name') :
      Recased (.undeclared name) (.undeclared name')
  | badType {name name' : Text} {fault fault' : TypeFault} (same : lower name = lower name')
      (faults : fault.Recased fault') : Recased (.badType name fault) (.badType name' fault')
  | redeclared {name name' : Text} (same : lower name = lower name') :
      Recased (.redeclared name) (.redeclared name')
  | badValue {name name' : Text} (same : lower name = lower name') (fault : ValueFault) :
      Recased (.badValue name fault) (.badValue name' fault)
  | notNumericTarget (form : Form) {name name' : Text} (same : lower name = lower name') :
      Recased (.notNumericTarget form name) (.notNumericTarget form name')
  | notTable {name name' : Text} (same : lower name = lower name') :
      Recased (.notTable name) (.notTable name')
  | notField {name name' : Text} (same : lower name = lower name') :
      Recased (.notField name) (.notField name')
  | workAreaMismatch {workArea workArea' table table' : Text}
      (workAreas : lower workArea = lower workArea') (tables : lower table = lower table')
      (rows : RowType) :
      Recased (.workAreaMismatch workArea table rows) (.workAreaMismatch workArea' table' rows)
  | badTableSource {name name' : Text} (same : lower name = lower name') :
      Recased (.badTableSource name) (.badTableSource name')
  | badCount {source source' : Text} (same : lower source = lower source') (found : Text) :
      Recased (.badCount source found) (.badCount source' found)
  | passLimit (limit : Nat) : Recased (.passLimit limit) (.passLimit limit)
  | unsupported {text text' : Text} (same : lower text = lower text') :
      Recased (.unsupported text) (.unsupported text')
  | malformed (form : Form) {text text' : Text} (same : lower text = lower text') :
      Recased (.malformed form text) (.malformed form text')

inductive Stop.Recased : Stop RunError → Stop RunError → Prop where
  | fault {fault fault' : RunError} (faults : fault.Recased fault') :
      Recased (.fault fault) (.fault fault')
  | crash : Recased .crash .crash

theorem TypeFault.Recased.message_eq {fault fault' : TypeFault} (recased : fault.Recased fault')
    {name name' : Text} (same : lower name = lower name') :
    folded (fault.message name) = folded (fault'.message name') := by
  cases recased with
  | same =>
      cases fault <;> dsimp only [TypeFault.message, toString] <;>
        simp only [folded_append, folded_ofList, same]
  | unsupportedRows rows =>
      dsimp only [TypeFault.message, toString]
      simp only [folded_append, folded_ofList, same, rows]

theorem RunError.Recased.sameMessage {fault fault' : RunError} (recased : fault.Recased fault') :
    SameMessage RunError.message fault fault' := by
  cases recased with
  | expression same => exact same
  | badType same faults => exact faults.message_eq same
  | badValue same fault =>
      dsimp only [SameMessage, RunError.message, ValueFault.message, toString]
      simp only [folded_append, folded_ofList, same]
  | passLimit => rfl
  | _ =>
      dsimp only [SameMessage, RunError.message, toString]
      simp only [folded_append, folded_ofList, *]

end Faults

abbrev FoundAlike {α : Type} : Except RunError α → Except RunError α → Prop :=
  Alike RunError.Recased Eq

abbrev MadeAlike {α : Type} :
    Except (Stop RunError) α → Except (Stop RunError) α → Prop :=
  Alike Stop.Recased Eq

theorem MadeAlike.of_found {α : Type} {found found' : Except RunError α}
    (alike : FoundAlike found found') :
    MadeAlike (found.mapError .fault) (found'.mapError .fault) := by
  cases alike with
  | error faults => exact .error (.fault faults)
  | ok same => exact .ok same

theorem DataType.ofClause_alike {clause clause' : TypeClause} (recased : clause.Recased clause') :
    Alike TypeFault.Recased Eq (ofClause clause) (ofClause clause') := by
  cases recased with
  | @table rows rows' same =>
      simp only [ofClause, RowType.ofText?, Text.sameWord_left same]
      split
      · exact .ok rfl
      · exact .error (.unsupportedRows same)
  | @field name name' same length decimals =>
      simp only [ofClause, TypeName.ofText?, Text.sameWord_right same, same]
      split
      · next found _ =>
          cases FieldType.ofName found length decimals with
          | error fault => exact .error (.same fault)
          | ok type => exact .ok rfl
      · exact .error (.same _)

namespace Environment

variable (env : Environment) {name name' source source' : Text}

theorem operand_alike (recased : Text.Recased none source source') :
    FoundAlike (env.operand source) (env.operand source') := by
  simp only [operand]
  rcases (recased.evaluate env).result_cases with
    ⟨error, error', value, value', same⟩ | ⟨result, _, value, value', rfl⟩
  · simp only [value, value']
    exact .error (.expression same)
  · simp only [value, value']
    exact .ok rfl

theorem contentFor_alike (same : lower name = lower name') (type : FieldType) (value : Value) :
    MadeAlike (contentFor name type value) (contentFor name' type value) := by
  simp only [contentFor]
  cases type.coerce value with
  | error stop =>
      cases stop with
      | fault fault => exact .error (.fault (.badValue same fault))
      | crash => exact .error .crash
  | ok content => exact .ok rfl

theorem fieldType_alike (same : lower name = lower name') :
    FoundAlike (env.fieldType name) (env.fieldType name') := by
  simp only [fieldType, env.get?_eq same]
  split
  · exact .error (.undeclared same)
  · exact .ok rfl
  · exact .error (.notField same)

theorem table_alike (same : lower name = lower name') :
    FoundAlike (env.table name) (env.table name') := by
  simp only [table, env.get?_eq same]
  split
  · exact .error (.undeclared same)
  · exact .error (.notTable same)
  · exact .ok rfl

theorem copyRows_alike (same : lower name = lower name') (type : RowType)
    (rows : List Content) : MadeAlike (copyRows name type rows) (copyRows name' type rows) := by
  induction rows with
  | nil => exact .ok rfl
  | cons row rest ih =>
      refine (contentFor_alike same _ _).bind ?_
      rintro first _ rfl
      refine ih.bind ?_
      rintro others _ rfl
      exact .ok rfl

theorem initialRows_alike (same : lower name = lower name') (type : RowType)
    (sources : lower source = lower source') :
    MadeAlike (env.initialRows name type source) (env.initialRows name' type source') := by
  simp only [initialRows, Text.isName_eq sources, env.get?_eq sources]
  split
  · split
    · exact .error (.fault (.undeclared sources))
    · exact .error (.fault (.badTableSource same))
    · refine (copyRows_alike same type _).map ?_
      rintro rows _ rfl
      rfl
  · exact .error (.fault (.badTableSource same))

theorem initialVariable_alike (same : lower name = lower name') (type : DataType)
    {value value' : Option Text} (values : Option.Rel (Text.Recased none) value value') :
    MadeAlike (env.initialVariable name type value) (env.initialVariable name' type value') := by
  cases values with
  | none => exact .ok rfl
  | some sources =>
      cases type with
      | field type =>
          refine (MadeAlike.of_found (env.operand_alike sources)).bind ?_
          rintro value _ rfl
          refine (contentFor_alike same type value).bind ?_
          rintro content _ rfl
          exact .ok rfl
      | table type =>
          refine (env.initialRows_alike same type sources.lower_eq).bind ?_
          rintro rows _ rfl
          exact .ok rfl

theorem itemTexts_alike {items items' : List WriteItem}
    (alike : List.Forall₂ WriteItem.Recased items items') :
    FoundAlike (env.itemTexts items) (env.itemTexts items') := by
  induction alike with
  | nil => exact .ok rfl
  | @cons item item' rest rest' here _ ih =>
      have others (text : Option Text) : FoundAlike
          (env.itemTexts rest >>= fun texts => .ok ((item.newLine, text) :: texts))
          (env.itemTexts rest' >>= fun texts => .ok ((item'.newLine, text) :: texts)) := by
        refine ih.bind ?_
        rintro texts _ rfl
        rw [here.newLine]
        exact .ok rfl
      have values := here.value
      simp only [itemTexts]
      generalize item.value = value at values
      generalize item'.value = value' at values
      cases values with
      | none => exact others none
      | some sources =>
          refine (env.operand_alike sources).bind ?_
          rintro value _ rfl
          exact others (some value.display)

end Environment

structure State.Recased (one other : State) : Prop where
  env : one.env = other.env
  output : one.output = other.output
  faults : List.Forall₂ RunError.Recased one.faults other.faults
  passes : one.passes = other.passes

inductive Outcome.Recased : Outcome → Outcome → Prop where
  | done {state state' : State} (states : state.Recased state') :
      Recased (.done state) (.done state')
  | failed {fault fault' : RunError} {state state' : State} (faults : fault.Recased fault')
      (states : state.Recased state') : Recased (.failed fault state) (.failed fault' state')
  | exhausted {state state' : State} (states : state.Recased state') :
      Recased (.exhausted state) (.exhausted state')
  | crashed {state state' : State} (states : state.Recased state') :
      Recased (.crashed state) (.crashed state')

def RunsAlike (run run' : State → Outcome) : Prop :=
  ∀ state state', State.Recased state state' → (run state).Recased (run' state')

theorem Outcome.Recased.andThen {outcome outcome' : Outcome} {next next' : State → Outcome}
    (before : outcome.Recased outcome') (after : RunsAlike next next') :
    (outcome.andThen next).Recased (outcome'.andThen next') := by
  cases before with
  | done states => exact after _ _ states
  | failed faults states => exact .failed faults states
  | exhausted states => exact .exhausted states
  | crashed states => exact .crashed states

namespace State

variable {α : Type} {state state' : State} {name name' source source' : Text}

theorem Recased.record (recased : state.Recased state') {fault fault' : RunError}
    (faults : fault.Recased fault') : (state.record fault).Recased (state'.record fault') :=
  ⟨recased.env, recased.output, .cons faults recased.faults, recased.passes⟩

theorem Recased.require (recased : state.Recased state') {found found' : Except RunError α}
    (alike : FoundAlike found found') {next next' : α → Outcome}
    (later : ∀ value, (next value).Recased (next' value)) :
    (state.require found next).Recased (state'.require found' next') := by
  cases alike with
  | error faults => exact .failed faults recased
  | ok same =>
      cases same
      exact later _

theorem Recased.produce (recased : state.Recased state')
    {made made' : Except (Stop RunError) α} (alike : MadeAlike made made')
    {next next' : α → Outcome} (later : ∀ value, (next value).Recased (next' value)) :
    (state.produce made next).Recased (state'.produce made' next') := by
  cases alike with
  | error stops =>
      cases stops with
      | fault faults => exact .failed faults recased
      | crash => exact .crashed recased
  | ok same =>
      cases same
      exact later _

theorem Recased.declare (recased : state.Recased state') (same : lower name = lower name')
    (new : Variable) : (state.declare name new).Recased (state'.declare name' new) where
  env := by
    simp only [State.declare, recased.env]
    exact state'.env.declare_eq same new
  output := recased.output
  faults := recased.faults
  passes := recased.passes

theorem Recased.store (recased : state.Recased state') (same : lower name = lower name')
    (type : FieldType) (value : Value) :
    (state.store name type value).Recased (state'.store name' type value) := by
  refine recased.produce (Environment.contentFor_alike same type value) fun content => ?_
  exact .done (recased.declare same _)

theorem Recased.runDeclaration (recased : state.Recased state')
    {declaration declaration' : Declaration} (alike : declaration.Recased declaration') :
    (state.runDeclaration declaration).Recased (state'.runDeclaration declaration') := by
  simp only [State.runDeclaration, recased.env, state'.env.get?_eq alike.name]
  rcases (DataType.ofClause_alike alike.type).result_cases with
    ⟨fault, fault', type, type', faults⟩ | ⟨type, _, clause, clause', rfl⟩
  · simp only [type, type']
    exact .failed (.badType alike.name faults) recased
  · simp only [clause, clause']
    split
    · exact .failed (.redeclared alike.name) recased
    · refine recased.produce (state'.env.initialVariable_alike alike.name type alike.value) ?_
      intro new
      exact .done (recased.declare alike.name new)

theorem runData_alike {declarations declarations' : List Declaration}
    (alike : List.Forall₂ Declaration.Recased declarations declarations') :
    RunsAlike (State.runData · declarations) (State.runData · declarations') := by
  induction alike with
  | nil => exact fun _ _ recased => .done recased
  | cons here _ ih => exact fun _ _ recased => (recased.runDeclaration here).andThen ih

theorem Recased.runWrite (recased : state.Recased state') {items items' : List WriteItem}
    (alike : List.Forall₂ WriteItem.Recased items items') :
    (state.runWrite items).Recased (state'.runWrite items') := by
  simp only [State.runWrite, recased.env, recased.output]
  refine recased.require (state'.env.itemTexts_alike alike) ?_
  intro texts
  exact .done ⟨rfl, rfl, recased.faults, recased.passes⟩

theorem Recased.runTally (recased : state.Recased state') (form : Form)
    (combine : Float → Float → Float) (operands : Text.Recased none source source')
    (same : lower name = lower name') :
    (state.runTally form combine source name).Recased
      (state'.runTally form combine source' name') := by
  simp only [State.runTally, recased.env, state'.env.get?_eq same]
  refine recased.require (state'.env.fieldType_alike same) fun type => ?_
  split
  · refine recased.require (state'.env.operand_alike operands) fun value => ?_
    refine recased.produce (Environment.contentFor_alike same type value) fun change => ?_
    split
    · exact recased.store same type _
    · exact .failed (.notNumericTarget form same) recased
  · exact .failed (.notNumericTarget form same) recased

theorem Recased.runClear (recased : state.Recased state') (same : lower name = lower name') :
    (state.runClear name).Recased (state'.runClear name') := by
  simp only [State.runClear, recased.env, state'.env.get?_eq same]
  split
  · exact .failed (.undeclared same) recased
  · exact .done (recased.declare same _)

theorem Recased.runAppend (recased : state.Recased state')
    (operands : Text.Recased none source source') (same : lower name = lower name') :
    (state.runAppend source name).Recased (state'.runAppend source' name') := by
  simp only [State.runAppend, recased.env]
  refine recased.require (state'.env.table_alike same) fun found => ?_
  refine recased.require (state'.env.operand_alike operands) fun value => ?_
  refine recased.produce (Environment.contentFor_alike same _ value) fun row => ?_
  exact .done (recased.declare same _)

theorem Recased.runAssign (recased : state.Recased state') (same : lower name = lower name')
    (operands : Text.Recased none source source') :
    (state.runAssign name source).Recased (state'.runAssign name' source') := by
  simp only [State.runAssign, recased.env]
  refine recased.require (state'.env.fieldType_alike same) fun type => ?_
  exact recased.require (state'.env.operand_alike operands) fun value =>
    recased.store same type value

theorem Recased.runStatement (recased : state.Recased state') {text text' : Text}
    (texts : lower text = lower text') {statement statement' : Statement}
    (statements : statement.Recased statement') :
    (state.runStatement text statement).Recased (state'.runStatement text' statement') := by
  cases statements with
  | data alike => exact runData_alike alike _ _ recased
  | write alike => exact recased.runWrite alike
  | add operand name | subtract operand name => exact recased.runTally _ _ operand name
  | clear name => exact recased.runClear name
  | append operand name => exact recased.runAppend operand name
  | assign name operand => exact recased.runAssign name operand
  | malformed form => exact .failed (.malformed form texts) recased
  | unsupported => exact .failed (.unsupported texts) recased

end State

section Loops

variable {limit : Nat} {run run' : State → Outcome}

theorem RunsAlike.pass (alike : RunsAlike run run') :
    RunsAlike (State.pass limit run) (State.pass limit run') := by
  intro state state' states
  have counted : State.Recased { state with passes := state.passes + 1 }
      { state' with passes := state'.passes + 1 } :=
    ⟨states.env, states.output, states.faults, congrArg (· + 1) states.passes⟩
  simp only [State.pass]
  rw [states.passes] at counted ⊢
  split
  · exact .exhausted counted
  · exact alike _ _ counted

theorem RunsAlike.times (alike : RunsAlike run run') (count : Nat) :
    RunsAlike (Loop.times limit run count) (Loop.times limit run' count) := by
  induction count with
  | zero => exact fun state state' states => .done states
  | succ count ih => exact fun state state' states => (alike.pass _ _ states).andThen ih

variable {workArea workArea' : Text}

theorem bindRow_alike (same : lower workArea = lower workArea') (type : FieldType)
    (row : Content) :
    RunsAlike (Loop.bindRow workArea type row) (Loop.bindRow workArea' type row) := by
  intro state state' states
  exact states.store same type _

theorem RunsAlike.overRows (alike : RunsAlike run run') (same : lower workArea = lower workArea')
    (type : FieldType) (rows : List Content) :
    RunsAlike (Loop.overRows limit workArea type run rows)
      (Loop.overRows limit workArea' type run' rows) := by
  induction rows with
  | nil => exact fun state state' states => .done states
  | cons row rest ih =>
      have bound : RunsAlike
          (fun counted => (Loop.bindRow workArea type row counted).andThen run)
          (fun counted => (Loop.bindRow workArea' type row counted).andThen run') :=
        fun state state' states => (bindRow_alike same type row _ _ states).andThen alike
      exact fun state state' states => (bound.pass _ _ states).andThen ih

theorem Loop.count_alike (env : Environment) {source source' : Text}
    (recased : Text.Recased none source source') :
    FoundAlike (count env source) (count env source') := by
  simp only [count]
  refine (env.operand_alike recased).bind ?_
  rintro value _ rfl
  split
  · exact .ok rfl
  · exact .error (.badCount recased.lower_eq _)

theorem Loop.entry_alike (env : Environment) {table table' : Text}
    (tables : lower table = lower table') (workAreas : lower workArea = lower workArea') :
    FoundAlike (entry env table workArea) (entry env table' workArea') := by
  simp only [entry]
  refine (env.table_alike tables).bind ?_
  rintro found _ rfl
  refine (env.fieldType_alike workAreas).bind ?_
  rintro type _ rfl
  split
  · exact .ok rfl
  · exact .error (.workAreaMismatch workAreas tables _)

end Loops

mutual

theorem Node.runsAlike (limit : Nat) :
    (node : Node) → {node' : Node} → node.Recased node' →
      RunsAlike (node.run limit) (node'.run limit)
  | .leaf text statement, _, .leaf texts statements => fun state state' states => by
      simp only [Node.run]
      exact states.runStatement texts statements
  | .conditional clauses none, _, .conditional alike => fun state state' states => by
      simp only [Node.run]
      exact Clause.runsFirstAlike limit clauses alike (fun _ _ last => .done last) _ _ states
  | .conditional clauses (some body), _, .alternative alike bodies =>
      fun state state' states => by
      simp only [Node.run]
      exact Clause.runsFirstAlike limit clauses alike (Block.runsAlike limit body bodies) _ _
        states
  | .counted word count body, _, .counted _ counts bodies => fun state state' states => by
      simp only [Node.run, states.env]
      rcases (Loop.count_alike state'.env counts).result_cases with
        ⟨fault, fault', passes, passes', faults⟩ | ⟨number, _, passes, passes', rfl⟩
      · simp only [passes, passes']
        exact .failed faults states
      · simp only [passes, passes']
        exact (Block.runsAlike limit body bodies).times number _ _ states
  | .overRows table workArea body, _, .overRows tables workAreas bodies =>
      fun state state' states => by
      simp only [Node.run, states.env]
      rcases (Loop.entry_alike state'.env tables workAreas).result_cases with
        ⟨fault, fault', entry, entry', faults⟩ | ⟨taken, _, entry, entry', rfl⟩
      · simp only [entry, entry']
        exact .failed faults states
      · simp only [entry, entry']
        exact (Block.runsAlike limit body bodies).overRows workAreas taken.2 taken.1 _ _ states

theorem Clause.runsFirstAlike (limit : Nat) :
    (clauses : List Clause) → {clauses' : List Clause} →
      List.Forall₂ Clause.Recased clauses clauses' → {last last' : State → Outcome} →
        RunsAlike last last' →
          RunsAlike (Clause.runFirst limit clauses last) (Clause.runFirst limit clauses' last')
  | [], _, .nil, _, _, last => fun state state' states => by
      simp only [Clause.runFirst]
      exact last _ _ states
  | .mk condition body :: rest, _, .cons (.mk conditions bodies) later, _, _, last =>
      fun state state' states => by
      simp only [Clause.runFirst, states.env]
      rcases (state'.env.operand_alike conditions).result_cases with
        ⟨fault, fault', value, value', faults⟩ | ⟨found, _, value, value', rfl⟩
      · simp only [value, value']
        exact .failed faults states
      · simp only [value, value']
        split
        · exact Block.runsAlike limit body bodies _ _ states
        · exact Clause.runsFirstAlike limit rest later last _ _ states

theorem Block.runsAlike (limit : Nat) :
    (nodes : List Node) → {nodes' : List Node} → List.Forall₂ Node.Recased nodes nodes' →
      RunsAlike (Block.run limit nodes) (Block.run limit nodes')
  | [], _, .nil => fun state state' states => by
      simp only [Block.run]
      exact .done states
  | node :: rest, _, .cons here later => fun state state' states => by
      have first := Node.runsAlike limit node here _ _ states
      simp only [Block.run]
      generalize node.run limit state = outcome at first
      generalize Node.run limit _ state' = outcome' at first
      cases first with
      | done reached => exact Block.runsAlike limit rest later _ _ reached
      | failed faults reached =>
          exact Block.runsAlike limit rest later _ _ (reached.record faults)
      | exhausted reached => exact .exhausted reached
      | crashed reached => exact .crashed reached

end

end MiniAbap
