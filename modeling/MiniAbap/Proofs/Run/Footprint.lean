import MiniAbap.Proofs.Expr.Grammar
import MiniAbap.Proofs.LetterCase.Expr
import MiniAbap.Proofs.Run.Trace
import MiniAbap.Proofs.Token.Occurrence

/-!
The footprint of a plain statement: the names it writes and the names among the tokens
of its operands. What a statement does depends on the variables of these names only, and
it changes none but those it writes.
-/

namespace MiniAbap

section Names

def Text.operandNames (source : Text) : List Text :=
  match Token.scan source with
  | .error _ => []
  | .ok tokens => tokens.filterMap fun
      | .name word => some (lower word)
      | _ => none

namespace Statement

def targets : Statement → List Text
  | .data declarations => declarations.map fun declaration => Text.lower declaration.name
  | .write _ => []
  | .add _ target | .subtract _ target | .clear target => [Text.lower target]
  | .append _ table => [Text.lower table]
  | .assign target _ => [Text.lower target]
  | .malformed _ | .unsupported => []

def operands : Statement → List Text
  | .data declarations => declarations.filterMap Declaration.value
  | .write items => items.filterMap WriteItem.value
  | .add amount _ | .subtract amount _ => [amount]
  | .append value _ => [value]
  | .assign _ value => [value]
  | .clear _ | .malformed _ | .unsupported => []

def names (statement : Statement) : List Text :=
  statement.targets ++ statement.operands.flatMap Text.operandNames

end Statement

end Names

section Calls

inductive Output.Call where
  | newLine
  | write (text : Text)
  deriving DecidableEq

def Output.perform (output : Output) : Output.Call → Output
  | .newLine => output.newLine
  | .write text => output.write text

def Output.itemCalls (item : Bool × Option Text) : List Output.Call :=
  (if item.1 then [.newLine] else []) ++ item.2.toList.map .write

/-- The calls of a statement in order; one that fails has none. -/
def Environment.calls (env : Environment) : Statement → List Output.Call
  | .write items =>
      match env.itemTexts items with
      | .error _ => []
      | .ok texts => texts.flatMap Output.itemCalls
  | .data _ | .add _ _ | .subtract _ _ | .clear _ | .append _ _ | .assign _ _
  | .malformed _ | .unsupported => []

theorem Output.foldl_itemCalls (output : Output) (item : Bool × Option Text) :
    (itemCalls item).foldl perform output = output.emit item := by
  obtain ⟨newLine, text⟩ := item
  cases newLine <;> cases text <;> rfl

theorem Output.foldl_flatMap_itemCalls (items : List (Bool × Option Text)) (output : Output) :
    (items.flatMap itemCalls).foldl perform output = items.foldl emit output := by
  induction items generalizing output with
  | nil => rfl
  | cons item rest ih =>
      rw [List.flatMap_cons, List.foldl_append, foldl_itemCalls, ih, List.foldl_cons]

end Calls

section Reading

def Environment.AgreeOn (among : Text → Prop) (left right : Environment) : Prop :=
  ∀ name, among name → left.get? name = right.get? name

def Expr.names : Expr → List Text
  | .number _ | .literal _ => []
  | .name word => [word]
  | .signed _ operand => operand.names
  | .binary _ left right => left.names ++ right.names

theorem Text.lower_lower (text : Text) : lower (lower text) = lower text := by
  simp [lower]

theorem Phrase.name_mem_tokens {rank : Rank} (phrase : Phrase rank) {word : Text}
    (member : word ∈ phrase.expr.names) : .name word ∈ phrase.tokens := by
  induction phrase with
  | number | literal => cases member
  | name other => simpa [expr, Expr.names, tokens] using member
  | factor _ ih | term _ ih | side _ ih => exact ih member
  | signed _ _ ih => exact List.mem_cons_of_mem _ (ih member)
  | group _ ih => exact List.mem_cons_of_mem _ (List.mem_append_left _ (ih member))
  | product _ _ _ _ first second | sum _ _ _ _ first second
  | comparison _ _ _ _ first second =>
      simp only [tokens, List.mem_append, List.mem_cons]
      rcases List.mem_append.mp member with here | here
      · exact .inl (first here)
      · exact .inr (.inr (second here))

theorem Expr.lower_mem_operandNames {source : Text} {expr : Expr}
    (read : Expr.read source = .ok expr) {word : Text} (member : word ∈ expr.names) :
    Text.lower word ∈ source.operandNames := by
  rw [Expr.read] at read
  split at read
  · cases read
  · next tokens scanned =>
      split at read
      · cases read
      · next found =>
          cases read
          obtain ⟨_, _, phrase, rfl, rfl⟩ := (Expr.ofTokens_eq_ok_iff _ _).mp found
          rw [Text.operandNames, scanned]
          exact List.mem_filterMap.mpr ⟨.name word, phrase.name_mem_tokens member, rfl⟩

theorem Text.lower_mem_operandNames {word : Text} (name : isName word = true) :
    lower word ∈ operandNames word := by
  rw [operandNames, Token.scan_name name]
  exact List.mem_cons_self

namespace Environment

variable {among : Text → Prop} {left right : Environment} {source : Text}

theorem AgreeOn.lookup (agree : AgreeOn among left right) {name : Text}
    (member : among (Text.lower name)) : left.get? name = right.get? name := by
  have same := agree _ member
  rwa [get?_eq (Text.lower_lower name), get?_eq (Text.lower_lower name)] at same

theorem AgreeOn.declare (agree : AgreeOn among left right) (name : Text) (new : Variable) :
    AgreeOn among (left.declare name new) (right.declare name new) := by
  intro other member
  rw [get?_declare, get?_declare, agree other member]

theorem eval_eq {expr : Expr} (agree : ∀ word ∈ expr.names, left.get? word = right.get? word) :
    expr.eval left = expr.eval right := by
  induction expr with
  | number | literal => rfl
  | name word => rw [Expr.eval, valueOf, agree word (by simp [Expr.names]), Expr.eval, valueOf]
  | signed sign operand ih => rw [Expr.eval, ih agree, Expr.eval]
  | binary op first second ih ih' =>
      have here := ih fun word member => agree word (List.mem_append_left _ member)
      have there := ih' fun word member => agree word (List.mem_append_right _ member)
      rw [Expr.eval, here, there, Expr.eval]

theorem AgreeOn.operand (agree : AgreeOn among left right)
    (mentioned : ∀ name ∈ source.operandNames, among name) :
    left.operand source = right.operand source := by
  have same : left.evaluate source = right.evaluate source := by
    simp only [evaluate]
    cases read : Expr.read source with
    | error fault => rfl
    | ok expr =>
        apply eval_eq
        intro word member
        exact agree.lookup (mentioned _ (Expr.lower_mem_operandNames read member))
  rw [Environment.operand, same, Environment.operand]

theorem AgreeOn.fieldType (agree : AgreeOn among left right) {name : Text}
    (member : among (Text.lower name)) : left.fieldType name = right.fieldType name := by
  rw [Environment.fieldType, agree.lookup member, Environment.fieldType]

theorem AgreeOn.table (agree : AgreeOn among left right) {name : Text}
    (member : among (Text.lower name)) : left.table name = right.table name := by
  rw [Environment.table, agree.lookup member, Environment.table]

theorem AgreeOn.initialVariable (agree : AgreeOn among left right) (name : Text)
    (type : DataType) {value : Option Text}
    (mentioned : ∀ source ∈ value, ∀ name ∈ source.operandNames, among name) :
    left.initialVariable name type value = right.initialVariable name type value := by
  cases value with
  | none => rfl
  | some source =>
      have mentioned := mentioned source rfl
      cases type with
      | field type => rw [Environment.initialVariable, agree.operand mentioned,
          Environment.initialVariable]
      | table type =>
          have rows : left.initialRows name type source = right.initialRows name type source := by
            simp only [initialRows]
            split
            · next named => rw [agree.lookup (mentioned _ (Text.lower_mem_operandNames named))]
            · rfl
          rw [Environment.initialVariable, rows, Environment.initialVariable]

theorem AgreeOn.itemTexts (agree : AgreeOn among left right) {items : List WriteItem}
    (mentioned : ∀ source ∈ items.filterMap WriteItem.value,
      ∀ name ∈ source.operandNames, among name) :
    left.itemTexts items = right.itemTexts items := by
  induction items with
  | nil => rfl
  | cons item rest ih =>
      have later := ih fun source member =>
        mentioned source ((List.sublist_cons_self item rest).filterMap _ |>.subset member)
      cases given : item.value with
      | none => simp only [Environment.itemTexts, given, later]
      | some source =>
          have reads := agree.operand (mentioned source
            (List.mem_filterMap.mpr ⟨item, List.mem_cons_self, given⟩))
          simp only [Environment.itemTexts, given, reads, later]

end Environment

end Reading

section Writing

open Environment (AgreeOn)

/-- Both pieces are done, have the same fault or crash, and leave variables that agree. -/
inductive Outcome.SameEnd (among : Text → Prop) : Outcome → Outcome → Prop where
  | done {one other : State} (agree : AgreeOn among one.env other.env) :
      SameEnd among (.done one) (.done other)
  | failed {fault : RunError} {one other : State} (agree : AgreeOn among one.env other.env) :
      SameEnd among (.failed fault one) (.failed fault other)
  | crashed {one other : State} (agree : AgreeOn among one.env other.env) :
      SameEnd among (.crashed one) (.crashed other)

namespace Outcome.SameEnd

variable {among : Text → Prop} {one other : Outcome}

theorem same_result (ends : SameEnd among one other) :
    (∃ last last', one = .done last ∧ other = .done last') ∨
      (∃ fault last last', one = .failed fault last ∧ other = .failed fault last') ∨
      ∃ last last', one = .crashed last ∧ other = .crashed last' := by
  cases ends with
  | done _ => exact .inl ⟨_, _, rfl, rfl⟩
  | failed _ => exact .inr (.inl ⟨_, _, _, rfl, rfl⟩)
  | crashed _ => exact .inr (.inr ⟨_, _, rfl, rfl⟩)

theorem agreeOn (ends : SameEnd among one other) :
    AgreeOn among one.state.env other.state.env := by
  cases ends with
  | done agree | failed agree | crashed agree => exact agree

theorem andThen {next follow : State → Outcome} (ends : SameEnd among one other)
    (later : ∀ {left right : State}, AgreeOn among left.env right.env →
      SameEnd among (next left) (follow right)) :
    SameEnd among (one.andThen next) (other.andThen follow) := by
  cases ends with
  | done agree => exact later agree
  | failed agree => exact .failed agree
  | crashed agree => exact .crashed agree

end Outcome.SameEnd

namespace State

open Outcome (SameEnd)

variable {α : Type} {among : Text → Prop} {left right : State}
  (agree : AgreeOn among left.env right.env)

include agree

theorem sameEnd_require (found : Except RunError α) {next follow : α → Outcome}
    (later : ∀ value, SameEnd among (next value) (follow value)) :
    SameEnd among (left.require found next) (right.require found follow) := by
  cases found with
  | error fault => exact .failed agree
  | ok value => exact later value

theorem sameEnd_produce (made : Except (Stop RunError) α) {next follow : α → Outcome}
    (later : ∀ value, SameEnd among (next value) (follow value)) :
    SameEnd among (left.produce made next) (right.produce made follow) := by
  cases made with
  | error stop =>
      cases stop with
      | fault fault => exact .failed agree
      | crash => exact .crashed agree
  | ok value => exact later value

theorem sameEnd_declare (name : Text) (new : Variable) :
    SameEnd among (.done (left.declare name new)) (.done (right.declare name new)) :=
  .done (agree.declare name new)

theorem sameEnd_store (target : Text) (type : FieldType) (value : Value) :
    SameEnd among (left.store target type value) (right.store target type value) :=
  sameEnd_produce agree _ fun _ => sameEnd_declare agree _ _

theorem sameEnd_runAssign {target value : Text} (written : among (Text.lower target))
    (mentioned : ∀ name ∈ value.operandNames, among name) :
    SameEnd among (left.runAssign target value) (right.runAssign target value) := by
  rw [runAssign, runAssign, agree.fieldType written, agree.operand mentioned]
  refine sameEnd_require agree _ fun type => sameEnd_require agree _ fun value => ?_
  exact sameEnd_store agree target type value

theorem sameEnd_runAppend {value table : Text} (written : among (Text.lower table))
    (mentioned : ∀ name ∈ value.operandNames, among name) :
    SameEnd among (left.runAppend value table) (right.runAppend value table) := by
  rw [runAppend, runAppend, agree.table written, agree.operand mentioned]
  refine sameEnd_require agree _ fun found => sameEnd_require agree _ fun value => ?_
  exact sameEnd_produce agree _ fun row => sameEnd_declare agree _ _

theorem sameEnd_runClear {target : Text} (written : among (Text.lower target)) :
    SameEnd among (left.runClear target) (right.runClear target) := by
  rw [runClear, runClear, agree.lookup written]
  cases right.env.get? target with
  | none => exact .failed agree
  | some found => exact sameEnd_declare agree _ _

theorem sameEnd_runTally {amount target : Text} (written : among (Text.lower target))
    (mentioned : ∀ name ∈ amount.operandNames, among name) (form : Form)
    (combine : Float → Float → Float) :
    SameEnd among (left.runTally form combine amount target)
      (right.runTally form combine amount target) := by
  rw [runTally, runTally, agree.fieldType written, agree.operand mentioned,
    agree.lookup written]
  refine sameEnd_require agree _ fun type => ?_
  split
  · refine sameEnd_require agree _ fun value => sameEnd_produce agree _ fun change => ?_
    split
    · exact sameEnd_store agree target type _
    · exact .failed agree
  · exact .failed agree

theorem sameEnd_runDeclaration {declaration : Declaration}
    (written : among (Text.lower declaration.name))
    (mentioned : ∀ source ∈ declaration.value, ∀ name ∈ source.operandNames, among name) :
    SameEnd among (left.runDeclaration declaration) (right.runDeclaration declaration) := by
  simp only [runDeclaration, agree.lookup written]
  split
  · exact .failed agree
  · next type _ =>
      split
      · exact .failed agree
      · rw [agree.initialVariable _ type mentioned]
        exact sameEnd_produce agree _ fun new => sameEnd_declare agree _ _

-- By induction on the chain: after each declaration the two still agree, so the next one
-- reads the same.
theorem sameEnd_runData {declarations : List Declaration}
    (written : ∀ declaration ∈ declarations, among (Text.lower declaration.name))
    (mentioned : ∀ source ∈ declarations.filterMap Declaration.value,
      ∀ name ∈ source.operandNames, among name) :
    SameEnd among (left.runData declarations) (right.runData declarations) := by
  induction declarations generalizing left right with
  | nil => exact .done agree
  | cons declaration rest ih =>
      obtain ⟨first, others⟩ := List.forall_mem_cons.mp written
      have reads : ∀ source ∈ declaration.value, ∀ name ∈ source.operandNames, among name := by
        intro source given
        exact mentioned source (List.mem_filterMap.mpr ⟨declaration, List.mem_cons_self, given⟩)
      have later : ∀ source ∈ rest.filterMap Declaration.value,
          ∀ name ∈ source.operandNames, among name := by
        intro source member
        obtain ⟨other, there, given⟩ := List.mem_filterMap.mp member
        exact mentioned source (List.mem_filterMap.mpr
          ⟨other, List.mem_cons_of_mem _ there, given⟩)
      rw [runData, runData]
      exact (sameEnd_runDeclaration agree first reads).andThen fun agree => ih agree others later

end State

end Writing

section Statements

open Environment (AgreeOn)

namespace State

variable {left right : State}

theorem sameEnd_runStatement (text : Text) (statement : Statement)
    (agree : AgreeOn (· ∈ statement.names) left.env right.env) :
    Outcome.SameEnd (· ∈ statement.names) (left.runStatement text statement)
      (right.runStatement text statement) := by
  have target : ∀ name ∈ statement.targets, name ∈ statement.names :=
    fun _ member => List.mem_append_left _ member
  have operand : ∀ source ∈ statement.operands, ∀ name ∈ source.operandNames,
      name ∈ statement.names :=
    fun source given _ member =>
      List.mem_append_right _ (List.mem_flatMap.mpr ⟨source, given, member⟩)
  cases statement with
  | data declarations =>
      exact sameEnd_runData agree
        (fun declaration member => target _ (List.mem_map_of_mem member)) operand
  | write items =>
      rw [runStatement, runStatement, runWrite, runWrite, agree.itemTexts operand]
      exact sameEnd_require agree _ fun texts => .done agree
  | add amount name | subtract amount name =>
      exact sameEnd_runTally agree (target _ List.mem_cons_self)
        (operand _ List.mem_cons_self) _ _
  | clear name => exact sameEnd_runClear agree (target _ List.mem_cons_self)
  | append value table =>
      exact sameEnd_runAppend agree (target _ List.mem_cons_self)
        (operand _ List.mem_cons_self)
  | assign name value =>
      exact sameEnd_runAssign agree (target _ List.mem_cons_self)
        (operand _ List.mem_cons_self)
  | malformed | unsupported => exact .failed agree

theorem calls_eq {statement : Statement}
    (agree : AgreeOn (· ∈ statement.names) left.env right.env) :
    left.env.calls statement = right.env.calls statement := by
  cases statement with
  | write items =>
      have texts : left.env.itemTexts items = right.env.itemTexts items :=
        agree.itemTexts fun source given _ member =>
          List.mem_append_right _ (List.mem_flatMap.mpr ⟨source, given, member⟩)
      simp only [Environment.calls, texts]
  | data | add | subtract | clear | append | assign | malformed | unsupported => rfl

def KeptBut (targets : List Text) (before after : State) : Prop :=
  after.output = before.output ∧
    ∀ name, Text.lower name ∉ targets → after.env.get? name = before.env.get? name

theorem KeptBut.refl (targets : List Text) (state : State) : KeptBut targets state state :=
  ⟨rfl, fun _ _ => rfl⟩

theorem KeptBut.trans {targets more : List Text} {first second third : State}
    (before : KeptBut targets first second) (after : KeptBut more second third) :
    KeptBut (targets ++ more) first third := by
  refine ⟨after.1.trans before.1, ?_⟩
  intro name untouched
  rw [List.mem_append, not_or] at untouched
  exact (after.2 name untouched.2).trans (before.2 name untouched.1)

theorem Attempts.keptBut {state : State} {target : Text} {outcome : Outcome}
    (attempts : state.Attempts target outcome) :
    KeptBut [Text.lower target] state outcome.state := by
  cases attempts with
  | written =>
      refine ⟨rfl, ?_⟩
      intro name untouched
      rw [List.mem_singleton] at untouched
      exact (Environment.get?_declare _ _ _ _).trans (if_neg (Ne.symm untouched))
  | failed | crashed => exact .refl _ state

theorem keptBut_runData (state : State) (declarations : List Declaration) :
    KeptBut (declarations.map fun declaration => Text.lower declaration.name) state
      (state.runData declarations).state := by
  induction declarations generalizing state with
  | nil => exact .refl _ state
  | cons declaration rest ih =>
      have first := (state.attempts_runDeclaration declaration).keptBut
      rw [runData]
      cases ended : state.runDeclaration declaration with
      | done next =>
          rw [ended] at first
          exact first.trans (ih next)
      | failed _ last | exhausted last | crashed last =>
          rw [ended] at first
          exact first.trans (.refl _ last)

theorem footprint_runWrite (state : State) (items : List WriteItem) :
    (state.runWrite items).state.output =
      (state.env.calls (.write items)).foldl Output.perform state.output ∧
    (state.runWrite items).state.env = state.env := by
  simp only [runWrite, Environment.calls]
  cases state.env.itemTexts items with
  | error fault => exact ⟨rfl, rfl⟩
  | ok texts => exact ⟨(Output.foldl_flatMap_itemCalls texts state.output).symm, rfl⟩

-- Only `WRITE` has calls to perform.
theorem footprint_runStatement (state : State) (text : Text) (statement : Statement) :
    (state.runStatement text statement).state.output =
      (state.env.calls statement).foldl Output.perform state.output ∧
    ∀ name, Text.lower name ∉ statement.targets →
      (state.runStatement text statement).state.env.get? name = state.env.get? name := by
  cases statement with
  | write items =>
      obtain ⟨shown, same⟩ := footprint_runWrite state items
      exact ⟨shown, fun name _ => congrArg (·.get? name) same⟩
  | data declarations => exact keptBut_runData state declarations
  | add | subtract => exact (state.attempts_runTally _ _ _ _).keptBut
  | clear target => exact (state.attempts_runClear target).keptBut
  | append value table => exact (state.attempts_runAppend value table).keptBut
  | assign target value => exact (state.attempts_runAssign target value).keptBut
  | malformed | unsupported => exact KeptBut.refl _ state

/-- What a statement does depends on the variables it mentions only: two states that agree
    on them see the same end, the same calls for output and variables that agree again. In
    every run the calls make up what it writes, and no variable but its targets changes. -/
theorem statement_footprint (text : Text) (statement : Statement) (left right : State)
    (agree : ∀ name ∈ statement.names, left.env.get? name = right.env.get? name) :
    let one := left.runStatement text statement
    let other := right.runStatement text statement
    ((∃ last last', one = .done last ∧ other = .done last') ∨
      (∃ fault last last', one = .failed fault last ∧ other = .failed fault last') ∨
      ∃ last last', one = .crashed last ∧ other = .crashed last') ∧
    left.env.calls statement = right.env.calls statement ∧
    (∀ name ∈ statement.names, one.state.env.get? name = other.state.env.get? name) ∧
    ∀ state : State,
      (state.runStatement text statement).state.output =
        (state.env.calls statement).foldl Output.perform state.output ∧
      ∀ name, Text.lower name ∉ statement.targets →
        (state.runStatement text statement).state.env.get? name = state.env.get? name := by
  intro one other
  have ends := sameEnd_runStatement text statement agree
  exact ⟨ends.same_result, calls_eq agree, ends.agreeOn,
    fun state => footprint_runStatement state text statement⟩

-- The second declaration reads the first one, and the two states differ in a variable that
-- neither mentions.
def pairStatement : Statement :=
  .data [⟨"X".toList, .field "i".toList none none, some "y".toList⟩,
    ⟨"w".toList, .field "i".toList none none, some "x + Y".toList⟩]

def leftSample : State :=
  { env := ({} : Environment).declare "y".toList (.field .integer (.number 2)) }

def rightSample : State :=
  { env := (({} : Environment).declare "z".toList (.table .integer {})).declare "Y".toList
      (.field .integer (.number 2))
    passes := 1 }

theorem statement_footprint_pair :
    (∀ name ∈ pairStatement.names, leftSample.env.get? name = rightSample.env.get? name) ∧
      leftSample.env.size ≠ rightSample.env.size ∧
      (∀ name ∈ pairStatement.names,
        (leftSample.runStatement [] pairStatement).state.env.get? name =
          (rightSample.runStatement [] pairStatement).state.env.get? name) ∧
      (rightSample.runStatement [] pairStatement).state.env.get? "Z".toList =
        rightSample.env.get? "Z".toList := by
  have names : pairStatement.names =
      ["x".toList, "w".toList, "y".toList, "x".toList, "y".toList] := by
    decide +kernel
  have agree : ∀ name ∈ pairStatement.names,
      leftSample.env.get? name = rightSample.env.get? name := by
    rw [names]
    simp only [List.forall_mem_cons]
    exact ⟨rfl, rfl, rfl, rfl, rfl, nofun⟩
  obtain ⟨_, _, after, frame⟩ := statement_footprint [] pairStatement leftSample rightSample agree
  exact ⟨agree, by decide, after, (frame rightSample).2 "Z".toList (by decide)⟩

end State

end Statements

end MiniAbap
