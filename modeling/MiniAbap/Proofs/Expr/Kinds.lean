import MiniAbap.Proofs.Run.Typing

/-!
The kind of an expression is settled by the types of its variables. A checker
that looks at types only gives the kind of the value, or the very fault, that
evaluation gives, so neither depends on what the variables hold. The rules say
which expressions have a kind; the checker accepts exactly those.
-/

namespace MiniAbap

def FieldType.kind : FieldType → Kind
  | .integer | .float | .packed _ _ => .number
  | .string | .chars _ | .digits _ | .date => .text

namespace Environment

def typeOf (env : Environment) (name : Text) : Option DataType :=
  (env.get? name).map Variable.type

def FieldsHold (env : Environment) : Prop :=
  ∀ name type content, env.get? name = some (.field type content) → type.Holds content

theorem WellTyped.fieldsHold {env : Environment} (typed : env.WellTyped) : env.FieldsHold := by
  intro name type content found
  exact (typed.get? found).2

end Environment

section Rules

namespace BinaryOp

def resultKind : BinaryOp → Kind
  | .times | .over | .plus | .minus => .number
  | .equal | .notEqual | .greater | .less => .truth

/-- The operand kinds that an operator takes: equality any two that are the same,
    the others two numbers. -/
def Takes (op : BinaryOp) (left right : Kind) : Prop :=
  match op with
  | .equal | .notEqual => left = right
  | .times | .over | .plus | .minus | .greater | .less => left = .number ∧ right = .number

end BinaryOp

inductive Expr.HasKind (types : Text → Option DataType) : Expr → Kind → Prop where
  | number (value : Float) : HasKind types (.number value) .number
  | literal (content : Text) : HasKind types (.literal content) .text
  | name {word : Text} {type : FieldType} (declared : types word = some (.field type)) :
      HasKind types (.name word) type.kind
  | signed {operand : Expr} (sign : Sign) (numeric : HasKind types operand .number) :
      HasKind types (.signed sign operand) .number
  | binary {op : BinaryOp} {left right : Expr} {leftKind rightKind : Kind}
      (first : HasKind types left leftKind) (second : HasKind types right rightKind)
      (takes : op.Takes leftKind rightKind) :
      HasKind types (.binary op left right) op.resultKind

end Rules

section Checker

def Sign.check (sign : Sign) (operand : Kind) : Except ExprError Kind :=
  if operand = .number then .ok .number else .error (.notNumeric sign.symbol operand)

namespace BinaryOp

def checkNumbers (op : BinaryOp) (left right : Kind) : Except ExprError Kind :=
  if left ≠ .number then .error (.notNumeric op.symbol left)
  else if right ≠ .number then .error (.notNumeric op.symbol right)
  else .ok op.resultKind

def check (op : BinaryOp) (left right : Kind) : Except ExprError Kind :=
  match op with
  | .equal | .notEqual =>
      if left = right then .ok op.resultKind
      else .error (.incomparable op.symbol left right)
  | .times | .over | .plus | .minus | .greater | .less => op.checkNumbers left right

end BinaryOp

namespace Expr

def check (types : Text → Option DataType) : Expr → Except ExprError Kind
  | .number _ => .ok .number
  | .literal _ => .ok .text
  | .name word =>
      match types word with
      | none => .error (.undeclared word)
      | some (.table _) => .error (.tableOperand word)
      | some (.field type) => .ok type.kind
  | .signed sign operand =>
      match check types operand with
      | .error error => .error error
      | .ok kind => sign.check kind
  | .binary op left right =>
      match check types left with
      | .error error => .error error
      | .ok leftKind =>
          match check types right with
          | .error error => .error error
          | .ok rightKind => op.check leftKind rightKind

end Expr

theorem Sign.check_eq_ok_iff {sign : Sign} {operand kind : Kind} :
    sign.check operand = .ok kind ↔ operand = .number ∧ kind = .number := by
  cases operand <;> simp [Sign.check, eq_comm]

theorem BinaryOp.checkNumbers_eq_ok_iff {op : BinaryOp} {left right kind : Kind} :
    op.checkNumbers left right = .ok kind ↔
      (left = .number ∧ right = .number) ∧ kind = op.resultKind := by
  cases left <;> cases right <;> simp [BinaryOp.checkNumbers, eq_comm]

theorem BinaryOp.check_eq_ok_iff {op : BinaryOp} {left right kind : Kind} :
    op.check left right = .ok kind ↔ op.Takes left right ∧ kind = op.resultKind := by
  cases op with
  | equal | notEqual =>
      by_cases same : left = right <;> simp [check, Takes, same, eq_comm]
  | _ => exact checkNumbers_eq_ok_iff

theorem Expr.check_eq_ok_iff {types : Text → Option DataType} {expr : Expr} {kind : Kind} :
    expr.check types = .ok kind ↔ expr.HasKind types kind := by
  constructor
  · intro accepted
    induction expr generalizing kind with
    | number value =>
        cases accepted
        exact .number value
    | literal content =>
        cases accepted
        exact .literal content
    | name word =>
        simp only [check] at accepted
        split at accepted
        · cases accepted
        · cases accepted
        · next declared =>
            cases accepted
            exact .name declared
    | signed sign operand ih =>
        simp only [check] at accepted
        split at accepted
        · cases accepted
        · next found =>
            obtain ⟨rfl, rfl⟩ := Sign.check_eq_ok_iff.mp accepted
            exact .signed sign (ih found)
    | binary op left right leftIH rightIH =>
        simp only [check] at accepted
        split at accepted
        · cases accepted
        · next first =>
            split at accepted
            · cases accepted
            · next second =>
                obtain ⟨takes, rfl⟩ := BinaryOp.check_eq_ok_iff.mp accepted
                exact .binary (leftIH first) (rightIH second) takes
  · intro derived
    induction derived with
    | number | literal => rfl
    | name declared => simp only [check, declared]
    | signed sign _ ih =>
        simp only [check, ih]
        exact Sign.check_eq_ok_iff.mpr ⟨rfl, rfl⟩
    | binary _ _ takes leftIH rightIH =>
        simp only [check, leftIH, rightIH]
        exact BinaryOp.check_eq_ok_iff.mpr ⟨takes, rfl⟩

end Checker

section Evaluation

theorem FieldType.Holds.kind_eq {type : FieldType} {content : Content}
    (holds : type.Holds content) : (Value.ofContent content).kind = type.kind := by
  cases type with
  | digits length => cases length <;> cases content <;> first | rfl | cases holds
  | integer | float | packed | string | chars | date =>
      cases content <;> first | rfl | cases holds

theorem Sign.kind_eval (sign : Sign) (operand : Value) :
    (sign.eval operand).map Value.kind = sign.check operand.kind := by
  cases operand with
  | number x => cases sign <;> rfl
  | text content => rfl
  | truth holds => rfl

theorem BinaryOp.kind_onNumbers (op : BinaryOp) {apply : Float → Float → Value}
    (result : ∀ x y, (apply x y).kind = op.resultKind) (left right : Value) :
    (op.onNumbers apply left right).map Value.kind = op.checkNumbers left.kind right.kind := by
  cases left with
  | number x =>
      cases right with
      | number y => exact congrArg Except.ok (result x y)
      | text content => rfl
      | truth holds => rfl
  | text content => rfl
  | truth holds => rfl

theorem BinaryOp.kind_eval (op : BinaryOp) (left right : Value) :
    (op.eval left right).map Value.kind = op.check left.kind right.kind := by
  cases op with
  | equal | notEqual => cases left <;> cases right <;> rfl
  | _ =>
      apply kind_onNumbers
      intro x y
      rfl

variable {env other : Environment}

theorem Environment.kind_valueOf (holds : env.FieldsHold) (name : Text) :
    (env.valueOf name).map Value.kind = (Expr.name name).check env.typeOf := by
  simp only [valueOf, Expr.check, typeOf]
  cases found : env.get? name with
  | none => rfl
  | some declared =>
      cases declared with
      | field type content => exact congrArg Except.ok (holds name type content found).kind_eq
      | table rows stored => rfl

-- By induction on the expression: operands that are accepted have values of their
-- kinds, so the operator meets the kinds that the checker looked at.
theorem Expr.kind_eval (holds : env.FieldsHold) (expr : Expr) :
    (expr.eval env).map Value.kind = expr.check env.typeOf := by
  induction expr with
  | number value => rfl
  | literal content => rfl
  | name word => exact env.kind_valueOf holds word
  | signed sign operand ih =>
      simp only [eval, check, ← ih]
      cases eval env operand with
      | error error => rfl
      | ok value => exact sign.kind_eval value
  | binary op left right leftIH rightIH =>
      simp only [eval, check, ← leftIH, ← rightIH]
      cases eval env left with
      | error error => rfl
      | ok leftValue =>
          cases eval env right with
          | error error => rfl
          | ok rightValue => exact op.kind_eval leftValue rightValue

namespace Environment

theorem kind_evaluate (holds : env.FieldsHold) (source : Text) :
    (env.evaluate source).map Value.kind =
      (Expr.read source).bind fun expr => expr.check env.typeOf := by
  simp only [evaluate]
  cases Expr.read source with
  | error error => rfl
  | ok expr => exact expr.kind_eval holds

theorem evaluate_has_kind_iff (holds : env.FieldsHold) (source : Text) (kind : Kind) :
    (∃ value, env.evaluate source = .ok value ∧ value.kind = kind) ↔
      ∃ expr, Expr.read source = .ok expr ∧ expr.HasKind env.typeOf kind := by
  rw [← map_eq_ok, kind_evaluate holds]
  cases Expr.read source with
  | error error => simp [Except.bind]
  | ok expr => simpa [Except.bind] using Expr.check_eq_ok_iff

theorem same_fault_or_kind {left right : Except ExprError Value}
    (same : left.map Value.kind = right.map Value.kind) :
    (∃ error, left = .error error ∧ right = .error error) ∨
      ∃ value value', left = .ok value ∧ right = .ok value' ∧ value.kind = value'.kind := by
  cases left with
  | error error =>
      cases right with
      | error error' =>
          cases same
          exact .inl ⟨error, rfl, rfl⟩
      | ok value => cases same
  | ok value =>
      cases right with
      | error error => cases same
      | ok value' => exact .inr ⟨value, value', rfl, rfl, Except.ok.inj same⟩

/-- Environments that declare the same names with the same types give one and the same
    fault, or values of one kind: the kind that the rules derive, and a value exactly
    when they derive one. -/
theorem evaluate_depends_on_types (source : Text) (env other : Environment)
    (same : ∀ name, env.typeOf name = other.typeOf name) (holds : env.FieldsHold)
    (otherHolds : other.FieldsHold) :
    ((∃ error, env.evaluate source = .error error ∧ other.evaluate source = .error error) ∨
      ∃ value value', env.evaluate source = .ok value ∧ other.evaluate source = .ok value' ∧
        value.kind = value'.kind) ∧
    ∀ kind, (∃ value, env.evaluate source = .ok value ∧ value.kind = kind) ↔
      ∃ expr, Expr.read source = .ok expr ∧ expr.HasKind env.typeOf kind := by
  constructor
  · apply same_fault_or_kind
    rw [kind_evaluate holds, kind_evaluate otherHolds, funext same]
  · exact evaluate_has_kind_iff holds source

-- A whole number and a text, with a given number in the first.
def pairSample (x : Float) : Environment :=
  (declare {} "n".toList (.field .integer (.number (Number.truncate x)))).declare "s".toList
    (.field .string (.text "a".toList))

theorem pairSample_wellTyped (x : Float) (finite : x.isFinite = true) :
    (pairSample x).WellTyped := by
  have empty : ({} : Environment).WellTyped := by
    intro entry member
    cases member
  have whole : FieldType.Valid .integer := ⟨nofun, nofun⟩
  have text : FieldType.Valid .string := ⟨nofun, nofun⟩
  refine (empty.declare ?_).declare ?_
  · exact ⟨whole, Number.isFinite_truncate x finite, x, finite, rfl⟩
  · exact ⟨text, trivial⟩

theorem pairSample_typeOf (x y : Float) (name : Text) :
    (pairSample x).typeOf name = (pairSample y).typeOf name := by
  simp only [typeOf, pairSample, get?_declare]
  split
  · rfl
  · split <;> rfl

theorem evaluate_depends_on_types_pair :
    (∃ value value', (pairSample 4).evaluate "1 / n > 2".toList = .ok value ∧
      (pairSample 0).evaluate "1 / n > 2".toList = .ok value' ∧ value.kind = value'.kind) ∧
    (∃ error, (pairSample 4).evaluate "s + n".toList = .error error ∧
      (pairSample 0).evaluate "s + n".toList = .error error) := by
  have same := pairSample_typeOf 4 0
  have holds := (pairSample_wellTyped 4 (by decide)).fieldsHold
  have otherHolds := (pairSample_wellTyped 0 (by decide)).fieldsHold
  have accepted : ((pairSample 4).evaluate "1 / n > 2".toList).isOk = true := by decide +kernel
  have refused : ((pairSample 4).evaluate "s + n".toList).isOk = false := by decide +kernel
  constructor
  · rcases (evaluate_depends_on_types "1 / n > 2".toList _ _ same holds otherHolds).1 with
      ⟨error, failed, _⟩ | agreed
    · rw [failed] at accepted
      cases accepted
    · exact agreed
  · rcases (evaluate_depends_on_types "s + n".toList _ _ same holds otherHolds).1 with
      agreed | ⟨value, _, found, _⟩
    · exact agreed
    · rw [found] at refused
      cases refused

end Environment

end Evaluation

end MiniAbap
