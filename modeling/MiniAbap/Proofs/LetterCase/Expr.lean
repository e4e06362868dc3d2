import MiniAbap.Expr.Eval
import MiniAbap.Proofs.LetterCase.Token

/-!
Token lists that differ in the case of names read to trees that do, and these
evaluate to the same value. Faults differ in the case of what they quote.
-/

namespace MiniAbap

open Text (lower)

inductive Expr.Recased : Expr → Expr → Prop where
  | number (value : Float) : Recased (.number value) (.number value)
  | literal (content : Text) : Recased (.literal content) (.literal content)
  | name {word other : Text} (same : lower word = lower other) :
      Recased (.name word) (.name other)
  | signed (sign : Sign) {operand other : Expr} (inner : Recased operand other) :
      Recased (.signed sign operand) (.signed sign other)
  | binary (op : BinaryOp) {left left' right right' : Expr} (first : Recased left left')
      (second : Recased right right') : Recased (.binary op left right) (.binary op left' right')

def SyntaxFault.Recased (one other : SyntaxFault) : Prop :=
  ∀ text text' : Text, lower text = lower text' →
    folded (one.message text) = folded (other.message text')

section Reading

variable {tokens others : List Token}

theorem SyntaxFault.Recased.refl (fault : SyntaxFault) : fault.Recased fault := by
  intro text text' same
  cases fault <;> dsimp only [SyntaxFault.message, toString] <;>
    simp only [folded_append, folded_ofList, same]

theorem Token.Recased.unexpectedToken {one other : Token} (recased : one.Recased other) :
    (SyntaxFault.unexpectedToken one).Recased (.unexpectedToken other) := by
  intro text text' same
  dsimp only [SyntaxFault.message, toString]
  simp only [folded_append, folded_ofList, same, recased.spelling_eq]

theorem Token.Recased.trailingToken {one other : Token} (recased : one.Recased other) :
    (SyntaxFault.trailingToken one).Recased (.trailingToken other) := by
  intro text text' same
  dsimp only [SyntaxFault.message, toString]
  simp only [folded_append, folded_ofList, same, recased.spelling_eq]

theorem Token.Recased.binary?_eq {one other : Token} (recased : one.Recased other) :
    one.binary? = other.binary? := by
  cases recased <;> rfl

theorem Token.Recased.step_eq {one other : Token} (recased : one.Recased other)
    (state : Nesting) : state.step one = state.step other := by
  cases recased <;> rfl

theorem nestingDepth_eq (alike : List.Forall₂ Token.Recased tokens others) :
    nestingDepth tokens = nestingDepth others := by
  have states : ∀ state : Nesting,
      tokens.foldl Nesting.step state = others.foldl Nesting.step state := by
    induction alike with
    | nil => exact fun _ => rfl
    | cons here _ ih =>
        intro state
        rw [List.foldl_cons, List.foldl_cons, here.step_eq, ih]
  rw [nestingDepth, states, nestingDepth]

def ReadAlike (one other : Expr × List Token) : Prop :=
  one.1.Recased other.1 ∧ List.Forall₂ Token.Recased one.2 other.2

def Reader.Insensitive (reader : Reader) : Prop :=
  ∀ tokens others : List Token, List.Forall₂ Token.Recased tokens others →
    Alike SyntaxFault.Recased ReadAlike (reader tokens) (reader others)

namespace Reader

variable {reader : Reader}

theorem nextOperator?_alike (level : Level) (alike : List.Forall₂ Token.Recased tokens others) :
    Option.Rel (fun one other => one.1 = other.1 ∧ List.Forall₂ Token.Recased one.2 other.2)
      (nextOperator? level tokens) (nextOperator? level others) := by
  cases alike with
  | nil => exact .none
  | @cons token other rest rest' here later =>
      simp only [nextOperator?, here.binary?_eq]
      cases other.binary? with
      | none => exact .none
      | some op =>
          dsimp only
          split
          · exact .some ⟨rfl, later⟩
          · exact .none

theorem chain_alike (insensitive : reader.Insensitive) (level : Level) (steps : Nat)
    {left left' : Expr} (first : left.Recased left')
    (alike : List.Forall₂ Token.Recased tokens others) :
    Alike SyntaxFault.Recased ReadAlike (chain level reader steps left tokens)
      (chain level reader steps left' others) := by
  induction steps generalizing left left' tokens others with
  | zero => exact .ok ⟨first, alike⟩
  | succ steps ih =>
      have next := nextOperator?_alike level alike
      simp only [chain]
      generalize nextOperator? level tokens = one at next
      generalize nextOperator? level others = other at next
      cases next with
      | none => exact .ok ⟨first, alike⟩
      | @some one other joined =>
          obtain ⟨op, after⟩ := one
          obtain ⟨op', after'⟩ := other
          obtain ⟨rfl, rest⟩ := joined
          rcases (insensitive _ _ rest).result_cases with
            ⟨fault, fault', read, read', same⟩ | ⟨right, right', read, read', same⟩
          · simp only [read, read']
            exact .error same
          · simp only [read, read']
            exact ih (.binary op first same.1) same.2

theorem Insensitive.leftGrouped (insensitive : reader.Insensitive) (level : Level) :
    (leftGrouped level reader).Insensitive := by
  intro tokens others alike
  simp only [Reader.leftGrouped]
  rcases (insensitive _ _ alike).result_cases with
    ⟨fault, fault', read, read', same⟩ | ⟨first, first', read, read', same⟩
  · simp only [read, read']
    exact .error same
  · simp only [read, read', same.2.length_eq]
    exact chain_alike insensitive level _ same.1 same.2

theorem Insensitive.sum (insensitive : reader.Insensitive) : (sum reader).Insensitive :=
  (insensitive.leftGrouped .product).leftGrouped .sum

theorem Insensitive.comparison (insensitive : reader.Insensitive) :
    (comparison reader).Insensitive := by
  intro tokens others alike
  simp only [Reader.comparison]
  rcases (insensitive.sum _ _ alike).result_cases with
    ⟨fault, fault', read, read', same⟩ | ⟨left, left', read, read', first⟩
  · simp only [read, read']
    exact .error same
  · have next := nextOperator?_alike .comparison first.2
    simp only [read, read']
    generalize nextOperator? .comparison left.2 = one at next
    generalize nextOperator? .comparison left'.2 = other at next
    cases next with
    | none => exact .ok first
    | @some one other joined =>
        obtain ⟨op, after⟩ := one
        obtain ⟨op', after'⟩ := other
        obtain ⟨rfl, rest⟩ := joined
        rcases (insensitive.sum _ _ rest).result_cases with
          ⟨fault, fault', read, read', same⟩ | ⟨right, right', read, read', second⟩
        · simp only [read, read']
          exact .error same
        · simp only [read, read']
          exact .ok ⟨.binary op first.1 second.1, second.2⟩

theorem closeGroup_alike {one other : Expr × List Token} (alike : ReadAlike one other) :
    Alike SyntaxFault.Recased ReadAlike (closeGroup one) (closeGroup other) := by
  obtain ⟨inner, rest⟩ := one
  obtain ⟨inner', rest'⟩ := other
  obtain ⟨trees, left⟩ := alike
  cases left with
  | nil => exact .error (.refl _)
  | @cons token other rest rest' here later =>
      cases here with
      | name same => exact .error (Token.Recased.unexpectedToken (.name same))
      | same =>
          cases token with
          | rightParen => exact .ok ⟨trees, later⟩
          | _ => exact .error (.refl _)

theorem operand_group_alike {allowance : Nat} (insensitive : (operand allowance).Insensitive)
    (alike : List.Forall₂ Token.Recased tokens others) :
    Alike SyntaxFault.Recased ReadAlike (operand (allowance + 1) (.leftParen :: tokens))
      (operand (allowance + 1) (.leftParen :: others)) := by
  rw [operand, operand]
  rcases (insensitive.comparison _ _ alike).result_cases with
    ⟨fault, fault', read, read', same⟩ | ⟨inner, inner', read, read', same⟩
  · rw [read, read']
    exact .error same
  · rw [read, read']
    exact closeGroup_alike same

theorem operand_signed_alike {allowance : Nat} (insensitive : (operand allowance).Insensitive)
    (op : BinaryOp) (alike : List.Forall₂ Token.Recased tokens others) :
    Alike SyntaxFault.Recased ReadAlike (operand (allowance + 1) (.operator op :: tokens))
      (operand (allowance + 1) (.operator op :: others)) := by
  rw [operand, operand]
  cases (Token.operator op).sign? with
  | none => exact .error (.refl _)
  | some sign =>
      rcases (insensitive _ _ alike).result_cases with
        ⟨fault, fault', read, read', same⟩ | ⟨inner, inner', read, read', same⟩
      · simp only [read, read']
        exact .error same
      · simp only [read, read']
        exact .ok ⟨.signed sign same.1, same.2⟩

theorem insensitive_operand (allowance : Nat) : (operand allowance).Insensitive := by
  induction allowance using Nat.strong_induction_on with
  | _ allowance ih =>
      intro tokens others alike
      cases alike with
      | nil =>
          simp only [operand]
          exact .error (.refl _)
      | @cons token other rest rest' here later =>
          cases here with
          | name same =>
              simp only [operand]
              exact .ok ⟨.name same, later⟩
          | same =>
              -- Only groups and signs depend on the allowance.
              cases token with
              | leftParen =>
                  cases allowance with
                  | zero => exact .error (.refl _)
                  | succ allowance =>
                      exact operand_group_alike (ih allowance (Nat.lt_succ_self _)) later
              | operator op =>
                  cases allowance with
                  | zero => cases op <;> exact .error (.refl _)
                  | succ allowance =>
                      exact operand_signed_alike (ih allowance (Nat.lt_succ_self _)) op later
              | number value =>
                  simp only [operand]
                  exact .ok ⟨.number value, later⟩
              | literal content =>
                  simp only [operand]
                  exact .ok ⟨.literal content, later⟩
              | name word =>
                  simp only [operand]
                  exact .ok ⟨.name rfl, later⟩
              | rightParen =>
                  simp only [operand]
                  exact .error (.refl _)

end Reader

theorem Expr.complete_alike {one other : Expr × List Token} (alike : ReadAlike one other) :
    Alike SyntaxFault.Recased Expr.Recased (complete one) (complete other) := by
  obtain ⟨expr, rest⟩ := one
  obtain ⟨expr', rest'⟩ := other
  obtain ⟨trees, left⟩ := alike
  cases left with
  | nil => exact .ok trees
  | @cons token other rest rest' here later =>
      cases here with
      | name same => exact .error (Token.Recased.trailingToken (.name same))
      | same => cases token <;> exact .error (.refl _)

theorem Expr.ofTokens_alike (alike : List.Forall₂ Token.Recased tokens others) :
    Alike SyntaxFault.Recased Expr.Recased (ofTokens tokens) (ofTokens others) := by
  have empty : tokens.isEmpty = others.isEmpty := by cases alike <;> rfl
  simp only [ofTokens, empty, nestingDepth_eq alike, alike.length_eq]
  split
  · exact .error (.refl _)
  · split
    · exact .error (.refl _)
    · have comparison := (Reader.insensitive_operand others.length).comparison _ _ alike
      rcases comparison.result_cases with
        ⟨fault, fault', read, read', same⟩ | ⟨expr, expr', read, read', same⟩
      · simp only [read, read']
        exact .error same
      · simp only [read, read']
        exact complete_alike same

theorem Text.Recased.expr {first second : Text} (recased : Text.Recased none first second) :
    Alike (SameMessage ExprError.message) Expr.Recased (Expr.read first) (Expr.read second) := by
  simp only [Expr.read, Token.scan]
  rcases (recased.scanFrom 1).result_cases with
    ⟨error, _, scan, scan', rfl⟩ | ⟨tokens, others, scan, scan', alike⟩
  · simp only [scan, scan']
    exact .error rfl
  · rcases (Expr.ofTokens_alike alike).result_cases with
      ⟨fault, fault', read, read', same⟩ | ⟨expr, expr', read, read', same⟩
    · simp only [scan, scan', read, read']
      exact .error (same _ _ recased.lower_eq)
    · simp only [scan, scan', read, read']
      exact .ok same

end Reading

section Evaluation

theorem Environment.get?_eq {name other : Text} (same : lower name = lower other)
    (env : Environment) : env.get? name = env.get? other := by
  rw [get?, same, get?]

theorem Environment.declare_eq {name other : Text} (same : lower name = lower other)
    (env : Environment) (new : Variable) : env.declare name new = env.declare other new := by
  rw [declare, same, declare]

theorem Environment.valueOf_alike {name other : Text} (same : lower name = lower other)
    (env : Environment) :
    Alike (SameMessage ExprError.message) Eq (env.valueOf name) (env.valueOf other) := by
  simp only [valueOf, env.get?_eq same]
  split
  · apply Alike.error
    dsimp only [SameMessage, ExprError.message, toString]
    simp only [folded_append, folded_ofList, same]
  · exact .ok rfl
  · apply Alike.error
    dsimp only [SameMessage, ExprError.message, toString]
    simp only [folded_append, folded_ofList, same]

theorem Expr.Recased.eval {expr other : Expr} (recased : expr.Recased other)
    (env : Environment) :
    Alike (SameMessage ExprError.message) Eq (expr.eval env) (other.eval env) := by
  induction recased with
  | number => exact .ok rfl
  | literal => exact .ok rfl
  | name same => exact env.valueOf_alike same
  | signed sign _ ih =>
      simp only [Expr.eval]
      rcases ih.result_cases with
        ⟨error, error', value, value', same⟩ | ⟨result, _, value, value', rfl⟩
      · simp only [value, value']
        exact .error same
      · simp only [value, value']
        exact .refl _
  | binary op _ _ left right =>
      simp only [Expr.eval]
      rcases left.result_cases with
        ⟨error, error', value, value', same⟩ | ⟨first, _, value, value', rfl⟩
      · simp only [value, value']
        exact .error same
      · rcases right.result_cases with
          ⟨error, error', next, next', same⟩ | ⟨second, _, next, next', rfl⟩
        · simp only [value, value', next, next']
          exact .error same
        · simp only [value, value', next, next']
          exact .refl _

theorem Text.Recased.evaluate {first second : Text} (recased : Text.Recased none first second)
    (env : Environment) :
    Alike (SameMessage ExprError.message) Eq (env.evaluate first) (env.evaluate second) := by
  simp only [Environment.evaluate]
  rcases recased.expr.result_cases with
    ⟨error, error', read, read', same⟩ | ⟨expr, expr', read, read', trees⟩
  · simp only [read, read']
    exact .error same
  · simp only [read, read']
    exact trees.eval env

end Evaluation

end MiniAbap
