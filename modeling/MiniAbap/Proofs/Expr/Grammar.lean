import MiniAbap.Expr.Read

/-!
Derivations of expressions, and that exactly the token lists which have one are
read. A derivation keeps its groups, so it has a token list and a tree; the tree
has lost the groups.
-/

namespace MiniAbap

inductive Rank where
  | operand
  | product
  | sum
  | comparison
  deriving DecidableEq

/-- Derivations in the expression grammar, one constructor for each alternative of
    its rules. Products and sums are left recursive. -/
inductive Phrase : Rank → Type where
  | number (value : Float) : Phrase .operand
  | literal (content : Text) : Phrase .operand
  | name (word : Text) : Phrase .operand
  | signed (sign : Sign) (inner : Phrase .operand) : Phrase .operand
  | group (inner : Phrase .comparison) : Phrase .operand
  | factor (only : Phrase .operand) : Phrase .product
  | product (left : Phrase .product) (op : BinaryOp) (level : op.level = .product)
      (right : Phrase .operand) : Phrase .product
  | term (only : Phrase .product) : Phrase .sum
  | sum (left : Phrase .sum) (op : BinaryOp) (level : op.level = .sum)
      (right : Phrase .product) : Phrase .sum
  | side (only : Phrase .sum) : Phrase .comparison
  | comparison (left : Phrase .sum) (op : BinaryOp) (level : op.level = .comparison)
      (right : Phrase .sum) : Phrase .comparison

def Sign.operator : Sign → BinaryOp
  | .plus => .plus
  | .minus => .minus

namespace Phrase

def tokens {rank : Rank} : Phrase rank → List Token
  | .number value => [.number value]
  | .literal content => [.literal content]
  | .name word => [.name word]
  | .signed sign inner => .operator sign.operator :: inner.tokens
  | .group inner => .leftParen :: (inner.tokens ++ [.rightParen])
  | .factor only => only.tokens
  | .product left op _ right => left.tokens ++ .operator op :: right.tokens
  | .term only => only.tokens
  | .sum left op _ right => left.tokens ++ .operator op :: right.tokens
  | .side only => only.tokens
  | .comparison left op _ right => left.tokens ++ .operator op :: right.tokens

def expr {rank : Rank} : Phrase rank → Expr
  | .number value => .number value
  | .literal content => .literal content
  | .name word => .name word
  | .signed sign inner => .signed sign inner.expr
  | .group inner => inner.expr
  | .factor only => only.expr
  | .product left op _ right => .binary op left.expr right.expr
  | .term only => only.expr
  | .sum left op _ right => .binary op left.expr right.expr
  | .side only => only.expr
  | .comparison left op _ right => .binary op left.expr right.expr

end Phrase

def Expr.Spelled (tokens : List Token) (expr : Expr) : Prop :=
  ∃ phrase : Phrase .comparison, phrase.tokens = tokens ∧ phrase.expr = expr

namespace Reader

section Operators

theorem nextOperator?_operator (level : Level) (op : BinaryOp) (rest : List Token) :
    nextOperator? level (.operator op :: rest) =
      if op.level = level then some (op, rest) else none :=
  rfl

theorem nextOperator?_eq_some {level : Level} {tokens rest : List Token} {op : BinaryOp}
    (found : nextOperator? level tokens = some (op, rest)) :
    tokens = .operator op :: rest ∧ op.level = level := by
  cases tokens with
  | nil => cases found
  | cons token tail =>
      cases token with
      | operator head =>
          rw [nextOperator?_operator] at found
          split at found
          · next same =>
              cases found
              exact ⟨rfl, same⟩
          · cases found
      | number | literal | name | leftParen | rightParen => cases found

theorem sign?_eq_some {op : BinaryOp} {sign : Sign}
    (found : (Token.operator op).sign? = some sign) : op = sign.operator := by
  cases op <;> cases found <;> rfl

@[simp] theorem sign?_operator (sign : Sign) :
    (Token.operator sign.operator).sign? = some sign := by
  cases sign <;> rfl

theorem chain_stop {level : Level} {operand : Reader} {rest : List Token}
    (stop : nextOperator? level rest = none) (steps : Nat) (left : Expr) :
    chain level operand steps left rest = .ok (left, rest) := by
  cases steps with
  | zero => rfl
  | succ steps => simp only [chain, stop]

theorem chain_link {level : Level} {operand : Reader} {op : BinaryOp} {after rest : List Token}
    {right : Expr} (same : op.level = level) (read : operand after = .ok (right, rest))
    (steps : Nat) (left : Expr) :
    chain level operand (steps + 1) left (.operator op :: after) =
      chain level operand steps (.binary op left right) rest := by
  simp only [chain, nextOperator?_operator, same, if_true, read]

end Operators

section Soundness

/-! Whatever a reader takes off the front of a token list has a derivation. -/

def Sound (rank : Rank) (reader : Reader) : Prop :=
  ∀ tokens expr rest, reader tokens = .ok (expr, rest) →
    ∃ phrase : Phrase rank, phrase.expr = expr ∧ tokens = phrase.tokens ++ rest

-- The two left recursive rules differ in their ranks only, so they are given by
-- what they make of a left phrase, an operator and a right phrase.
theorem chain_sound {level : Level} {rank below : Rank} {operand : Reader}
    (sound : Sound below operand)
    (join : Phrase rank → (op : BinaryOp) → op.level = level → Phrase below → Phrase rank)
    (tokens_join : ∀ left op same right,
      (join left op same right).tokens = left.tokens ++ .operator op :: right.tokens)
    (expr_join : ∀ left op same right,
      (join left op same right).expr = .binary op left.expr right.expr)
    (steps : Nat) (left : Phrase rank) (tokens rest : List Token) (expr : Expr)
    (read : chain level operand steps left.expr tokens = .ok (expr, rest)) :
    ∃ phrase : Phrase rank, phrase.expr = expr ∧
      left.tokens ++ tokens = phrase.tokens ++ rest := by
  induction steps generalizing left tokens with
  | zero =>
      cases read
      exact ⟨left, rfl, rfl⟩
  | succ steps ih =>
      unfold chain at read
      split at read
      · cases read
        exact ⟨left, rfl, rfl⟩
      · next op after found =>
          obtain ⟨rfl, same⟩ := nextOperator?_eq_some found
          split at read
          · cases read
          · next right more taken =>
              obtain ⟨phrase, rfl, rfl⟩ := sound _ _ _ taken
              rw [← expr_join left op same phrase] at read
              obtain ⟨whole, same_expr, same_tokens⟩ := ih _ _ read
              rw [tokens_join] at same_tokens
              exact ⟨whole, same_expr, by simpa using same_tokens⟩

theorem product_sound {operand : Reader} (sound : Sound .operand operand) :
    Sound .product (product operand) := by
  intro tokens expr rest read
  unfold product leftGrouped at read
  split at read
  · cases read
  · next first more taken =>
      obtain ⟨phrase, rfl, rfl⟩ := sound _ _ _ taken
      exact chain_sound sound .product (fun _ _ _ _ => rfl) (fun _ _ _ _ => rfl) _
        (.factor phrase) _ _ _ read

theorem sum_sound {operand : Reader} (sound : Sound .operand operand) :
    Sound .sum (sum operand) := by
  intro tokens expr rest read
  unfold sum leftGrouped at read
  split at read
  · cases read
  · next first more taken =>
      obtain ⟨phrase, rfl, rfl⟩ := product_sound sound _ _ _ taken
      exact chain_sound (product_sound sound) .sum (fun _ _ _ _ => rfl) (fun _ _ _ _ => rfl) _
        (.term phrase) _ _ _ read

theorem comparison_sound {operand : Reader} (sound : Sound .operand operand) :
    Sound .comparison (comparison operand) := by
  intro tokens expr rest read
  unfold comparison at read
  split at read
  · cases read
  · next first more taken =>
      obtain ⟨left, rfl, rfl⟩ := sum_sound sound _ _ _ taken
      split at read
      · cases read
        exact ⟨.side left, rfl, rfl⟩
      · next op after found =>
          obtain ⟨rfl, same⟩ := nextOperator?_eq_some found
          split at read
          · cases read
          · next second last takenRight =>
              obtain ⟨right, rfl, rfl⟩ := sum_sound sound _ _ _ takenRight
              cases read
              exact ⟨.comparison left op same right, rfl, by simp [Phrase.tokens]⟩

theorem closeGroup_eq_ok {read : Expr × List Token} {expr : Expr} {rest : List Token}
    (closed : closeGroup read = .ok (expr, rest)) : read = (expr, .rightParen :: rest) := by
  unfold closeGroup at closed
  split at closed <;> cases closed
  rfl

theorem operand_group (allowance : Nat) (rest : List Token) :
    operand (allowance + 1) (.leftParen :: rest) =
      match comparison (operand allowance) rest with
      | .error fault => .error fault
      | .ok read => closeGroup read :=
  rfl

theorem operand_operator (allowance : Nat) (op : BinaryOp) (rest : List Token) :
    operand (allowance + 1) (.operator op :: rest) =
      match (Token.operator op).sign? with
      | none => .error (.unexpectedToken (.operator op))
      | some sign =>
          match operand allowance rest with
          | .error fault => .error fault
          | .ok (inner, rest) => .ok (.signed sign inner, rest) := by
  cases op <;> rfl

theorem group_sound {allowance : Nat} (sound : Sound .operand (operand allowance))
    {tail rest : List Token} {expr : Expr}
    (read : operand (allowance + 1) (.leftParen :: tail) = .ok (expr, rest)) :
    ∃ phrase : Phrase .operand, phrase.expr = expr ∧
      .leftParen :: tail = phrase.tokens ++ rest := by
  rw [operand_group] at read
  split at read
  · cases read
  · next taken =>
      rw [closeGroup_eq_ok read] at taken
      obtain ⟨inner, rfl, rfl⟩ := comparison_sound sound _ _ _ taken
      exact ⟨.group inner, rfl, by simp [Phrase.tokens]⟩

theorem signed_sound {allowance : Nat} (sound : Sound .operand (operand allowance))
    {op : BinaryOp} {tail rest : List Token} {expr : Expr}
    (read : operand (allowance + 1) (.operator op :: tail) = .ok (expr, rest)) :
    ∃ phrase : Phrase .operand, phrase.expr = expr ∧
      .operator op :: tail = phrase.tokens ++ rest := by
  rw [operand_operator] at read
  split at read
  · cases read
  · next sign found =>
      split at read
      · cases read
      · next taken =>
          obtain ⟨inner, rfl, rfl⟩ := sound _ _ _ taken
          cases read
          exact ⟨.signed sign inner, rfl, by simp [Phrase.tokens, sign?_eq_some found]⟩

theorem operand_sound (allowance : Nat) : Sound .operand (operand allowance) := by
  intro tokens expr rest read
  cases tokens with
  | nil => cases allowance <;> cases read
  | cons token tail =>
      cases token with
      | number value => cases allowance <;> cases read <;> exact ⟨.number value, rfl, rfl⟩
      | literal content => cases allowance <;> cases read <;> exact ⟨.literal content, rfl, rfl⟩
      | name word => cases allowance <;> cases read <;> exact ⟨.name word, rfl, rfl⟩
      | rightParen => cases allowance <;> cases read
      | leftParen =>
          cases allowance with
          | zero => cases read
          | succ smaller => exact group_sound (operand_sound smaller) read
      | operator op =>
          cases allowance with
          | zero =>
              rw [operand] at read
              split at read <;> cases read
          | succ smaller => exact signed_sound (operand_sound smaller) read

end Soundness

section Completeness

/-! The tokens of a derivation are read back from the front of any list that does
not go on with an operator the reader would take too. -/

/-- What the reader of a rank makes of the derivation. The chains of products and
    sums are stated before they stop, which is where a left recursive derivation
    can grow. -/
def Reads (allowance : Nat) : {rank : Rank} → Phrase rank → Prop
  | .operand, phrase => ∀ rest, operand allowance (phrase.tokens ++ rest) = .ok (phrase.expr, rest)
  | .product, phrase => ∀ rest, ∃ steps, rest.length ≤ steps ∧
      product (operand allowance) (phrase.tokens ++ rest) =
        chain .product (operand allowance) steps phrase.expr rest
  | .sum, phrase => ∀ rest, nextOperator? .product rest = none →
      ∃ steps, rest.length ≤ steps ∧
        sum (operand allowance) (phrase.tokens ++ rest) =
          chain .sum (product (operand allowance)) steps phrase.expr rest
  | .comparison, phrase => ∀ rest, (∀ level, nextOperator? level rest = none) →
      comparison (operand allowance) (phrase.tokens ++ rest) = .ok (phrase.expr, rest)

theorem Reads.product {allowance : Nat} {phrase : Phrase .product}
    (reads : Reads allowance phrase) (rest : List Token)
    (stop : nextOperator? .product rest = none) :
    Reader.product (operand allowance) (phrase.tokens ++ rest) = .ok (phrase.expr, rest) := by
  obtain ⟨steps, _, read⟩ := reads rest
  rw [read, chain_stop stop]

theorem Reads.sum {allowance : Nat} {phrase : Phrase .sum}
    (reads : Reads allowance phrase) (rest : List Token)
    (stopProduct : nextOperator? .product rest = none)
    (stopSum : nextOperator? .sum rest = none) :
    Reader.sum (operand allowance) (phrase.tokens ++ rest) = .ok (phrase.expr, rest) := by
  obtain ⟨steps, _, read⟩ := reads rest stopProduct
  rw [read, chain_stop stopSum]

/-- A comparison takes one operator; what stands after its right side is left. -/
theorem Reads.comparison {allowance : Nat} {left right : Phrase .sum} {op : BinaryOp}
    (readsLeft : Reads allowance left) (readsRight : Reads allowance right)
    (level : op.level = .comparison) (rest : List Token)
    (stopProduct : nextOperator? .product rest = none)
    (stopSum : nextOperator? .sum rest = none) :
    Reader.comparison (operand allowance)
        (left.tokens ++ .operator op :: (right.tokens ++ rest)) =
      .ok (.binary op left.expr right.expr, rest) := by
  have first := readsLeft.sum (.operator op :: (right.tokens ++ rest))
    (by simp [nextOperator?_operator, level]) (by simp [nextOperator?_operator, level])
  have second := readsRight.sum rest stopProduct stopSum
  simp only [Reader.comparison, first, nextOperator?_operator, level, if_true, second]

theorem reads_phrase {rank : Rank} (phrase : Phrase rank) (allowance : Nat)
    (enough : phrase.tokens.length ≤ allowance) : Reads allowance phrase := by
  induction phrase generalizing allowance with
  | number value | literal content | name word => exact fun rest => by cases allowance <;> rfl
  | signed sign inner ih =>
      intro rest
      obtain ⟨smaller, rfl⟩ : ∃ smaller, allowance = smaller + 1 :=
        ⟨allowance - 1, by simp only [Phrase.tokens, List.length_cons] at enough; omega⟩
      have read := ih smaller (by simpa [Phrase.tokens] using enough) rest
      simp only [Phrase.tokens, List.cons_append, operand_operator, sign?_operator, read,
        Phrase.expr]
  | group inner ih =>
      intro rest
      obtain ⟨smaller, rfl⟩ : ∃ smaller, allowance = smaller + 1 :=
        ⟨allowance - 1, by simp only [Phrase.tokens, List.length_cons] at enough; omega⟩
      have room : inner.tokens.length ≤ smaller := by
        simp only [Phrase.tokens, List.length_cons, List.length_append] at enough
        omega
      have read := ih smaller room (.rightParen :: rest) (fun _ => rfl)
      simp only [Phrase.tokens, List.cons_append, List.append_assoc, List.nil_append,
        operand_group, read, closeGroup, Phrase.expr]
  | factor only ih =>
      intro rest
      refine ⟨rest.length, Nat.le_refl _, ?_⟩
      simp only [product, leftGrouped, Phrase.tokens, ih allowance enough rest, Phrase.expr]
  | product left op level right ihLeft ihRight =>
      intro rest
      have room := enough
      simp only [Phrase.tokens, List.length_append, List.length_cons] at room
      obtain ⟨steps, long, read⟩ :=
        ihLeft allowance (by omega) (.operator op :: (right.tokens ++ rest))
      obtain ⟨fewer, rfl⟩ : ∃ fewer, steps = fewer + 1 :=
        ⟨steps - 1, by simp only [List.length_cons] at long; omega⟩
      rw [chain_link level (ihRight allowance (by omega) rest)] at read
      refine ⟨fewer, ?_, by simpa [Phrase.tokens, Phrase.expr] using read⟩
      simp only [List.length_cons, List.length_append] at long
      omega
  | term only ih =>
      intro rest stop
      refine ⟨rest.length, Nat.le_refl _, ?_⟩
      simp only [sum, leftGrouped, Phrase.tokens, (ih allowance enough).product rest stop,
        Phrase.expr]
  | sum left op level right ihLeft ihRight =>
      intro rest stop
      have room := enough
      simp only [Phrase.tokens, List.length_append, List.length_cons] at room
      obtain ⟨steps, long, read⟩ :=
        ihLeft allowance (by omega) (.operator op :: (right.tokens ++ rest))
          (by simp [nextOperator?_operator, level])
      obtain ⟨fewer, rfl⟩ : ∃ fewer, steps = fewer + 1 :=
        ⟨steps - 1, by simp only [List.length_cons] at long; omega⟩
      rw [chain_link level ((ihRight allowance (by omega)).product rest stop)] at read
      refine ⟨fewer, ?_, by simpa [Phrase.tokens, Phrase.expr] using read⟩
      simp only [List.length_cons, List.length_append] at long
      omega
  | side only ih =>
      intro rest stop
      simp only [comparison, Phrase.tokens,
        (ih allowance enough).sum rest (stop .product) (stop .sum), stop .comparison, Phrase.expr]
  | comparison left op level right ihLeft ihRight =>
      intro rest stop
      have room := enough
      simp only [Phrase.tokens, List.length_append, List.length_cons] at room
      have read := (ihLeft allowance (by omega)).comparison (ihRight allowance (by omega)) level
        rest (stop .product) (stop .sum)
      simpa [Phrase.tokens, Phrase.expr] using read

end Completeness

end Reader

namespace Expr

theorem complete_eq_ok_iff (read : Expr × List Token) (expr : Expr) :
    complete read = .ok expr ↔ read = (expr, []) := by
  constructor
  · intro completed
    unfold complete at completed
    split at completed <;> cases completed
    rfl
  · rintro rfl
    rfl

/-- Reading a whole token list without its limit on nesting. -/
theorem spelled_iff_reads (tokens : List Token) (expr : Expr) :
    Spelled tokens expr ↔
      Reader.comparison (Reader.operand tokens.length) tokens = .ok (expr, []) := by
  constructor
  · rintro ⟨phrase, rfl, rfl⟩
    have read := Reader.reads_phrase phrase _ (Nat.le_refl _) [] (fun _ => rfl)
    rwa [List.append_nil] at read
  · intro read
    obtain ⟨phrase, rfl, rfl⟩ :=
      Reader.comparison_sound (Reader.operand_sound _) _ _ _ read
    exact ⟨phrase, by simp, rfl⟩

theorem Spelled.unique {tokens : List Token} {expr other : Expr}
    (first : Spelled tokens expr) (second : Spelled tokens other) : expr = other := by
  have read := (spelled_iff_reads _ _).mp first
  rw [(spelled_iff_reads _ _).mp second] at read
  cases read
  rfl

/-- A second comparison operator has no place in a derivation. -/
theorem not_spelled_of_chained {first second third : Phrase .sum} {op next : BinaryOp}
    {tokens : List Token} (level : op.level = .comparison)
    (nextLevel : next.level = .comparison)
    (chained : tokens = first.tokens ++ .operator op ::
      (second.tokens ++ .operator next :: third.tokens)) (expr : Expr) :
    ¬ Spelled tokens expr := by
  intro spelled
  have whole := (spelled_iff_reads _ _).mp spelled
  have readsFirst := Reader.reads_phrase first tokens.length (by simp [chained])
  have readsSecond := Reader.reads_phrase second tokens.length (by simp [chained]; omega)
  have part := readsFirst.comparison readsSecond level (.operator next :: third.tokens)
    (by simp [Reader.nextOperator?_operator, nextLevel])
    (by simp [Reader.nextOperator?_operator, nextLevel])
  rw [← chained, whole] at part
  cases part

theorem ofTokens_eq_ok_iff (tokens : List Token) (expr : Expr) :
    ofTokens tokens = .ok expr ↔
      tokens ≠ [] ∧ nestingDepth tokens ≤ deepestNesting ∧ Spelled tokens expr := by
  rw [spelled_iff_reads]
  unfold ofTokens
  split
  · next empty => simp [List.isEmpty_iff.mp empty]
  · next filled =>
      split
      · next deep => simp [Nat.not_le.mpr deep]
      · next shallow =>
          have some : tokens ≠ [] := by simpa using filled
          have fits := Nat.not_lt.mp shallow
          split
          · next fault => simp [fault]
          · next read => simp [read, some, fits, complete_eq_ok_iff]

/-- Reading a text succeeds exactly when its tokens have a derivation within the
    limit on nesting, and gives the tree of that derivation. A token list has one
    tree at most, and none if it chains comparisons. -/
theorem read_eq_ok_iff_spelled :
    (∀ (source : Text) (expr : Expr), read source = .ok expr ↔
      ∃ tokens, Token.scan source = .ok tokens ∧ tokens ≠ [] ∧
        nestingDepth tokens ≤ deepestNesting ∧ Spelled tokens expr) ∧
    (∀ (tokens : List Token) (expr other : Expr),
      Spelled tokens expr → Spelled tokens other → expr = other) ∧
    (∀ (first second third : Phrase .sum) (op next : BinaryOp),
      op.level = .comparison → next.level = .comparison → ∀ source expr,
        Token.scan source = .ok (first.tokens ++ .operator op ::
          (second.tokens ++ .operator next :: third.tokens)) → read source ≠ .ok expr) := by
  have reads : ∀ (source : Text) (expr : Expr), read source = .ok expr ↔
      ∃ tokens, Token.scan source = .ok tokens ∧ tokens ≠ [] ∧
        nestingDepth tokens ≤ deepestNesting ∧ Spelled tokens expr := by
    intro source expr
    unfold read
    split
    · next fault => simp [fault]
    · next tokens scanned =>
        simp only [scanned, Except.ok.injEq, exists_eq_left']
        rw [← ofTokens_eq_ok_iff]
        split
        · next fault => simp [fault]
        · next found => simp [found]
  refine ⟨reads, fun _ _ _ => Spelled.unique, ?_⟩
  intro first second third op next level nextLevel source expr scanned accepted
  obtain ⟨tokens, same, _, _, spelled⟩ := (reads source expr).mp accepted
  rw [scanned] at same
  exact not_spelled_of_chained level nextLevel (Except.ok.inj same).symm expr spelled

end Expr

end MiniAbap
