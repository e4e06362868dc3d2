import MiniAbap.Proofs.Expr.Grammar

/-!
How high the tree of an expression can be, against the estimate that is checked
before it is read. The estimate counts what is open in front of a token. That
covers a path through right operands and groups, but a path into a left operand
also passes operators that come later, and the levels of a group are forgotten
where it closes. So the estimate bounds the height exactly where no group in a left
operand is in the way; in general the height can grow with its square.
-/

namespace MiniAbap

/-- The most signs and infix operators on a path down the tree, which is also how
    deep its evaluation recurs. -/
def Expr.height : Expr → Nat
  | .number _ | .literal _ | .name _ => 0
  | .signed _ operand => operand.height + 1
  | .binary _ left right => max left.height right.height + 1

structure Group where
  above : Nat
  inner : Expr

namespace Group

def lift (group : Group) : Group :=
  { group with above := group.above + 1 }

def reach (group : Group) : Nat :=
  group.above + group.inner.height

@[simp] theorem reach_lift (group : Group) : group.lift.reach = group.reach + 1 := by
  simp only [reach, lift]
  omega

theorem reach_le_of_lift {groups : List Group} {above bound : Nat}
    (inside : ∀ group ∈ groups.map lift, above + group.reach ≤ bound) :
    ∀ group ∈ groups, above + 1 + group.reach ≤ bound := by
  intro group member
  have bounded := inside group.lift (List.mem_map_of_mem member)
  rw [reach_lift] at bounded
  omega

end Group

namespace Phrase

section Measures

def levels {rank : Rank} : Phrase rank → Nat
  | .number _ | .literal _ | .name _ | .group _ => 0
  | .signed _ inner => inner.levels + 1
  | .factor only => only.levels
  | .term only => only.levels
  | .side only => only.levels
  | .product left _ _ right => left.levels + 1 + right.levels
  | .sum left _ _ right => left.levels + 1 + right.levels
  | .comparison left _ _ right => left.levels + 1 + right.levels

def peak {rank : Rank} : Phrase rank → Nat
  | .number _ | .literal _ | .name _ => 0
  | .signed _ inner => inner.peak + 1
  | .group inner => inner.peak + 1
  | .factor only => only.peak
  | .term only => only.peak
  | .side only => only.peak
  | .product left _ _ right => max left.peak (left.levels + 1 + right.peak)
  | .sum left _ _ right => max left.peak (left.levels + 1 + right.peak)
  | .comparison left _ _ right => max left.peak (left.levels + 1 + right.peak)

def groups {rank : Rank} : Phrase rank → List Group
  | .number _ | .literal _ | .name _ => []
  | .signed _ inner => inner.groups.map Group.lift
  | .group inner => ⟨0, inner.expr⟩ :: inner.groups
  | .factor only => only.groups
  | .term only => only.groups
  | .side only => only.groups
  | .product left _ _ right => (left.groups ++ right.groups).map Group.lift
  | .sum left _ _ right => (left.groups ++ right.groups).map Group.lift
  | .comparison left _ _ right => (left.groups ++ right.groups).map Group.lift

def leftGroups {rank : Rank} : Phrase rank → List Group
  | .number _ | .literal _ | .name _ => []
  | .signed _ inner => inner.leftGroups.map Group.lift
  | .group inner => inner.leftGroups
  | .factor only => only.leftGroups
  | .term only => only.leftGroups
  | .side only => only.leftGroups
  | .product left _ _ right => (left.groups ++ right.leftGroups).map Group.lift
  | .sum left _ _ right => (left.groups ++ right.leftGroups).map Group.lift
  | .comparison left _ _ right => (left.groups ++ right.leftGroups).map Group.lift

theorem levels_le_peak {rank : Rank} (phrase : Phrase rank) : phrase.levels ≤ phrase.peak := by
  induction phrase with
  | number | literal | name | group => exact Nat.zero_le _
  | signed sign inner ih => exact Nat.succ_le_succ ih
  | factor only ih | term only ih | side only ih => exact ih
  | product left op level right ihLeft ihRight | sum left op level right ihLeft ihRight
  | comparison left op level right ihLeft ihRight =>
      simp only [levels, peak]
      omega

/-- What the estimate does along the tokens of a derivation: the levels outside its
    groups stay, those inside leave their mark in the maximum only. -/
theorem foldl_step_tokens {rank : Rank} (phrase : Phrase rank) (state : Nesting) :
    phrase.tokens.foldl Nesting.step state =
      { levels := state.levels + phrase.levels
        outer := state.outer
        depth := state.depth + phrase.levels
        deepest := max state.deepest (state.depth + phrase.peak) } := by
  induction phrase generalizing state with
  | number | literal | name => rfl
  | signed sign inner ih =>
      simp only [tokens, List.foldl_cons, ih, Nesting.step, Nesting.move, Nesting.addLevel,
        levels, peak, Nesting.mk.injEq, true_and]
      omega
  | group inner ih =>
      simp only [tokens, List.foldl_cons, List.foldl_append, List.foldl_nil, ih, Nesting.step,
        Nesting.move, Nesting.enterGroup, Nesting.leaveGroup, levels, peak, Nesting.mk.injEq,
        true_and]
      omega
  | factor only ih | term only ih | side only ih => exact ih state
  | product left op level right ihLeft ihRight | sum left op level right ihLeft ihRight
  | comparison left op level right ihLeft ihRight =>
      simp only [tokens, List.foldl_cons, List.foldl_append, ihLeft, ihRight, Nesting.step,
        Nesting.move, Nesting.addLevel, levels, peak, Nesting.mk.injEq, true_and]
      omega

theorem nestingDepth_tokens {rank : Rank} (phrase : Phrase rank) :
    nestingDepth phrase.tokens = phrase.peak := by
  rw [nestingDepth, foldl_step_tokens]
  simp

end Measures

section Bounds

theorem reach_le_height {rank : Rank} (phrase : Phrase rank) :
    ∀ group ∈ phrase.groups, group.reach ≤ phrase.expr.height := by
  induction phrase with
  | number | literal | name => exact fun _ member => absurd member List.not_mem_nil
  | signed sign inner ih =>
      intro group member
      obtain ⟨below, present, rfl⟩ := List.mem_map.mp member
      have bound := ih below present
      simp only [Group.reach_lift, expr, Expr.height]
      omega
  | group inner ih =>
      intro group member
      rcases List.mem_cons.mp member with rfl | nested
      · simp [Group.reach, expr]
      · exact ih group nested
  | factor only ih | term only ih | side only ih => exact ih
  | product left op level right ihLeft ihRight | sum left op level right ihLeft ihRight
  | comparison left op level right ihLeft ihRight =>
      intro group member
      obtain ⟨below, present, rfl⟩ := List.mem_map.mp member
      simp only [Group.reach_lift, expr, Expr.height]
      rcases List.mem_append.mp present with inLeft | inRight
      · have bound := ihLeft below inLeft
        omega
      · have bound := ihRight below inRight
        omega

theorem leftGroups_subset_groups {rank : Rank} (phrase : Phrase rank) :
    phrase.leftGroups ⊆ phrase.groups := by
  induction phrase with
  | number | literal | name => exact fun _ member => member
  | signed sign inner ih => exact List.map_subset _ ih
  | group inner ih => exact fun _ member => List.mem_cons_of_mem _ (ih member)
  | factor only ih | term only ih | side only ih => exact ih
  | product left op level right ihLeft ihRight | sum left op level right ihLeft ihRight
  | comparison left op level right ihLeft ihRight =>
      exact List.map_subset _ (List.append_subset.mpr
        ⟨List.subset_append_left _ _, fun _ member => List.mem_append_right _ (ihRight member)⟩)

-- A path either ends outside all groups, where every operator on it is one of the
-- levels, or it enters a group.
theorem height_le_of_groups {rank : Rank} (phrase : Phrase rank) (above bound : Nat)
    (outside : above + phrase.levels ≤ bound)
    (inside : ∀ group ∈ phrase.groups, above + group.reach ≤ bound) :
    above + phrase.expr.height ≤ bound := by
  induction phrase generalizing above with
  | number | literal | name => exact outside
  | signed sign inner ih =>
      have below := ih (above + 1) (by simp only [levels] at outside; omega)
        (Group.reach_le_of_lift inside)
      simp only [expr, Expr.height]
      omega
  | group inner ih =>
      have bounded := inside ⟨0, inner.expr⟩ List.mem_cons_self
      simpa [Group.reach, expr] using bounded
  | factor only ih | term only ih | side only ih => exact ih above outside inside
  | product left op level right ihLeft ihRight | sum left op level right ihLeft ihRight
  | comparison left op level right ihLeft ihRight =>
      simp only [levels] at outside
      have lifted := Group.reach_le_of_lift inside
      have first := ihLeft (above + 1) (by omega)
        (fun group member => lifted group (List.mem_append_left _ member))
      have second := ihRight (above + 1) (by omega)
        (fun group member => lifted group (List.mem_append_right _ member))
      simp only [expr, Expr.height]
      omega

-- On a path through right operands every operator comes before the next token, so
-- the peak covers it; only at a left operand does the bound rest on its groups.
theorem height_le_of_leftGroups {rank : Rank} (phrase : Phrase rank) (above bound : Nat)
    (covered : above + phrase.peak ≤ bound)
    (inside : ∀ group ∈ phrase.leftGroups, above + group.reach ≤ bound) :
    above + phrase.expr.height ≤ bound := by
  induction phrase generalizing above with
  | number | literal | name => exact covered
  | signed sign inner ih =>
      have below := ih (above + 1) (by simp only [peak] at covered; omega)
        (Group.reach_le_of_lift inside)
      simp only [expr, Expr.height]
      omega
  | group inner ih => exact ih above (by simp only [peak] at covered; omega) inside
  | factor only ih | term only ih | side only ih => exact ih above covered inside
  | product left op level right _ ihRight | sum left op level right _ ihRight
  | comparison left op level right _ ihRight =>
      simp only [peak] at covered
      have lifted := Group.reach_le_of_lift inside
      have first := height_le_of_groups left (above + 1) bound (by omega)
        (fun group member => lifted group (List.mem_append_left _ member))
      have second := ihRight (above + 1) (by omega)
        (fun group member => lifted group (List.mem_append_right _ member))
      simp only [expr, Expr.height]
      omega

theorem height_le_iff {rank : Rank} (phrase : Phrase rank) (bound : Nat)
    (peak_le : phrase.peak ≤ bound) :
    phrase.expr.height ≤ bound ↔ ∀ group ∈ phrase.leftGroups, group.reach ≤ bound := by
  constructor
  · intro low group member
    exact Nat.le_trans
      (reach_le_height phrase group (leftGroups_subset_groups phrase member)) low
  · intro inside
    have low := height_le_of_leftGroups phrase 0 bound (by omega) (by simpa using inside)
    omega

-- Every group costs one of the levels that its inside may use, so the heights that
-- can pile up are those of ever smaller peaks.
theorem height_le_levels_add {rank : Rank} (phrase : Phrase rank) :
    2 * phrase.expr.height ≤ 2 * phrase.levels + phrase.peak * (phrase.peak - 1) := by
  induction phrase with
  | number | literal | name => exact Nat.zero_le _
  | signed sign inner ih =>
      have wider : inner.peak * (inner.peak - 1) ≤ (inner.peak + 1) * (inner.peak + 1 - 1) :=
        Nat.mul_le_mul (Nat.le_succ _) (Nat.sub_le_sub_right (Nat.le_succ _) 1)
      simp only [expr, Expr.height, levels, peak]
      omega
  | group inner ih =>
      have low := levels_le_peak inner
      simp only [expr, levels, peak, Nat.add_sub_cancel]
      cases top : inner.peak with
      | zero => simp_all
      | succ smaller =>
          rw [top] at ih low
          have wider : (smaller + 1 + 1) * (smaller + 1) =
              (smaller + 1) * smaller + 2 * (smaller + 1) := by
            rw [Nat.add_mul (smaller + 1) 1, Nat.mul_succ (smaller + 1) smaller]
            omega
          rw [Nat.add_sub_cancel] at ih
          omega
  | factor only ih | term only ih | side only ih => exact ih
  | product left op level right ihLeft ihRight | sum left op level right ihLeft ihRight
  | comparison left op level right ihLeft ihRight =>
      simp only [expr, Expr.height, levels, peak]
      generalize whole : max left.peak (left.levels + 1 + right.peak) = top
      have first : left.peak * (left.peak - 1) ≤ top * (top - 1) :=
        Nat.mul_le_mul (by omega) (by omega)
      have second : right.peak * (right.peak - 1) ≤ top * (top - 1) :=
        Nat.mul_le_mul (by omega) (by omega)
      omega

theorem height_le_square {rank : Rank} (phrase : Phrase rank) :
    2 * phrase.expr.height ≤ phrase.peak * (phrase.peak + 1) := by
  have low := levels_le_peak phrase
  have bound := height_le_levels_add phrase
  cases top : phrase.peak with
  | zero => simp_all
  | succ smaller =>
      rw [top] at bound low
      have wider : (smaller + 1) * (smaller + 1 + 1) =
          (smaller + 1) * smaller + 2 * (smaller + 1) := by
        rw [Nat.mul_succ, Nat.mul_succ]
        omega
      rw [Nat.add_sub_cancel] at bound
      omega

end Bounds

section Attained

/-! Operators after a group pile up on top of it without adding to the estimate. -/

def followed (first : Phrase .operand) : Nat → Phrase .sum
  | 0 => .term (.factor first)
  | count + 1 => .sum (followed first count) .plus rfl (.factor (.name ['a']))

theorem levels_followed (first : Phrase .operand) (count : Nat) :
    (followed first count).levels = first.levels + count := by
  induction count with
  | zero => rfl
  | succ count ih => simp only [followed, levels, ih]; omega

theorem peak_followed (first : Phrase .operand) (count : Nat) :
    (followed first count).peak = max first.peak (first.levels + count) := by
  induction count with
  | zero =>
      have low := levels_le_peak first
      simp only [followed, peak]
      omega
  | succ count ih =>
      simp only [followed, peak, ih, levels_followed]
      omega

theorem height_followed (first : Phrase .operand) (count : Nat) :
    (followed first count).expr.height = first.expr.height + count := by
  induction count with
  | zero => rfl
  | succ count ih => simp only [followed, expr, Expr.height, ih]; omega

theorem tokens_followed (first : Phrase .operand) (count : Nat) :
    (followed first count).tokens =
      first.tokens ++ (List.replicate count [Token.operator .plus, .name ['a']]).flatten := by
  induction count with
  | zero => simp [followed, tokens]
  | succ count ih => simp [followed, tokens, ih, List.replicate_succ']

def tower : Nat → Phrase .comparison
  | 0 => .side (followed (.name ['a']) 0)
  | depth + 1 => .side (followed (.group (tower depth)) (depth + 1))

theorem peak_tower (depth : Nat) : (tower depth).peak = depth := by
  induction depth with
  | zero => rfl
  | succ depth ih =>
      simp only [tower, peak, peak_followed, levels, ih]
      omega

/-- The bound on the height is attained at every depth. -/
theorem height_tower (depth : Nat) : 2 * (tower depth).expr.height = depth * (depth + 1) := by
  induction depth with
  | zero => rfl
  | succ depth ih =>
      have wider : (depth + 1) * (depth + 1 + 1) = depth * (depth + 1) + 2 * (depth + 1) := by
        rw [← Nat.add_mul, Nat.mul_comm]
      simp only [tower, expr, height_followed]
      omega

end Attained

end Phrase

def Group.StandsLeft (tokens : List Token) (group : Group) : Prop :=
  ∃ phrase : Phrase .comparison, phrase.tokens = tokens ∧ group ∈ phrase.leftGroups

namespace Expr

theorem height_le_iff_standsLeft {tokens : List Token} {expr : Expr}
    (spelled : Spelled tokens expr) (bound : Nat) (enough : nestingDepth tokens ≤ bound) :
    expr.height ≤ bound ↔ ∀ group : Group, group.StandsLeft tokens → group.reach ≤ bound := by
  constructor
  · rintro low group ⟨phrase, rfl, member⟩
    rw [spelled.unique ⟨phrase, rfl, rfl⟩] at low
    rw [Phrase.nestingDepth_tokens] at enough
    exact (Phrase.height_le_iff phrase bound enough).mp low group member
  · intro inside
    obtain ⟨phrase, rfl, rfl⟩ := spelled
    rw [Phrase.nestingDepth_tokens] at enough
    exact (Phrase.height_le_iff phrase bound enough).mpr
      fun group member => inside group ⟨phrase, rfl, member⟩

/-- For tokens that are read to their end: the estimate bounds the height of the tree
    exactly when no group in a left operand leads deeper than it, and the limit on
    nesting bounds the height of what is accepted under the same condition. Without
    it the height is at most half the square of the estimate, as far as rounding
    goes. -/
theorem height_le_nestingDepth_iff (tokens : List Token) (expr : Expr)
    (consumed : Reader.comparison (Reader.operand tokens.length) tokens = .ok (expr, [])) :
    (expr.height ≤ nestingDepth tokens ↔
      ∀ group : Group, group.StandsLeft tokens → group.reach ≤ nestingDepth tokens) ∧
    (∀ source, Token.scan source = .ok tokens → nestingDepth tokens ≤ deepestNesting →
      read source = .ok expr ∧
        (expr.height ≤ deepestNesting ↔
          ∀ group : Group, group.StandsLeft tokens → group.reach ≤ deepestNesting)) ∧
    2 * expr.height ≤ nestingDepth tokens * (nestingDepth tokens + 1) := by
  have spelled := (spelled_iff_reads tokens expr).mpr consumed
  refine ⟨height_le_iff_standsLeft spelled _ (Nat.le_refl _), ?_, ?_⟩
  · intro source scanned shallow
    have filled : tokens ≠ [] := by
      rintro rfl
      cases consumed
    have found := (ofTokens_eq_ok_iff tokens expr).mpr ⟨filled, shallow, spelled⟩
    exact ⟨by simp only [read, scanned, found], height_le_iff_standsLeft spelled _ shallow⟩
  · obtain ⟨phrase, rfl, rfl⟩ := spelled
    rw [Phrase.nestingDepth_tokens]
    exact Phrase.height_le_square phrase

-- Three groups, each in the left operand of what stands around it: the tree is twice
-- as high as the estimate.
theorem height_le_nestingDepth_tower :
    ∃ tokens expr, Reader.comparison (Reader.operand tokens.length) tokens = .ok (expr, []) ∧
      nestingDepth tokens = 3 ∧ expr.height = 6 ∧
      (expr.height ≤ nestingDepth tokens ↔
        ∀ group : Group, group.StandsLeft tokens → group.reach ≤ nestingDepth tokens) := by
  have consumed := (spelled_iff_reads _ _).mp ⟨Phrase.tower 3, rfl, rfl⟩
  have depth : nestingDepth (Phrase.tower 3).tokens = 3 := by
    rw [Phrase.nestingDepth_tokens, Phrase.peak_tower]
  have height : 2 * (Phrase.tower 3).expr.height = 3 * (3 + 1) := Phrase.height_tower 3
  exact ⟨_, _, consumed, depth, by omega, (height_le_nestingDepth_iff _ _ consumed).1⟩

section Overrun

def additions (count : Nat) : Text :=
  "(a+a)".toList ++ (List.replicate count "+a".toList).flatten

def additionsPhrase (count : Nat) : Phrase .comparison :=
  .side (.followed (.group (.side (.followed (.name ['a']) 1))) count)

theorem scanFrom_lexeme {c : Char} {rest spelling after : Text} {token : Token}
    {tokens : List Token} (solid : Lexeme.isSpace c = false)
    (taken : ∀ column, Lexeme.read column c rest = .ok ⟨token, spelling, after⟩)
    (scanned : ∀ column, Token.scanFrom column after = .ok tokens) (column : Nat) :
    Token.scanFrom column (c :: rest) = .ok (token :: tokens) := by
  rw [Token.scanFrom]
  simp only [solid, Bool.false_eq_true, if_false]
  split
  · next fault =>
      rw [taken] at fault
      cases fault
  · next found =>
      rw [taken] at found
      cases found
      rw [scanned]

-- A name ends at the plus sign after it or at the end of the text.
theorem read_name_additions (count column : Nat) :
    Lexeme.read column 'a' (List.replicate count "+a".toList).flatten =
      .ok ⟨.name ['a'], ['a'], (List.replicate count "+a".toList).flatten⟩ := by
  cases count <;> rfl

theorem scanFrom_additions (count column : Nat) :
    Token.scanFrom column (List.replicate count "+a".toList).flatten =
      .ok (List.replicate count [Token.operator .plus, .name ['a']]).flatten := by
  induction count generalizing column with
  | zero =>
      rw [List.replicate_zero, List.flatten_nil, Token.scanFrom]
      rfl
  | succ count ih =>
      have name := scanFrom_lexeme rfl (read_name_additions count) ih
      exact scanFrom_lexeme rfl (fun _ => rfl) name column

theorem scan_additions (count : Nat) :
    Token.scan (additions count) = .ok (additionsPhrase count).tokens := by
  rw [additionsPhrase, Phrase.tokens, Phrase.tokens_followed]
  refine scanFrom_lexeme rfl (fun _ => rfl) ?_ 1
  refine scanFrom_lexeme rfl (fun _ => rfl) ?_
  refine scanFrom_lexeme rfl (fun _ => rfl) ?_
  refine scanFrom_lexeme rfl (fun _ => rfl) ?_
  exact scanFrom_lexeme rfl (fun _ => rfl) (scanFrom_additions count)

theorem read_additions (count : Nat) (some : 2 ≤ count) (fits : count ≤ deepestNesting) :
    ∃ tokens expr, Token.scan (additions count) = .ok tokens ∧
      Reader.comparison (Reader.operand tokens.length) tokens = .ok (expr, []) ∧
      read (additions count) = .ok expr ∧ nestingDepth tokens = count ∧
      expr.height = count + 1 := by
  have spelled : Spelled (additionsPhrase count).tokens (additionsPhrase count).expr :=
    ⟨_, rfl, rfl⟩
  have height : (additionsPhrase count).expr.height = count + 1 := by
    simp only [additionsPhrase, Phrase.expr, Phrase.height_followed, height]
    omega
  have depth : nestingDepth (additionsPhrase count).tokens = count := by
    simp only [Phrase.nestingDepth_tokens, additionsPhrase, Phrase.peak, Phrase.peak_followed,
      Phrase.levels]
    omega
  have filled : (additionsPhrase count).tokens ≠ [] := by
    intro empty
    have flat : nestingDepth [] = 0 := rfl
    rw [empty, flat] at depth
    omega
  have scanned := scan_additions count
  have found := (ofTokens_eq_ok_iff _ _).mpr ⟨filled, by rwa [depth], spelled⟩
  exact ⟨_, _, scanned, (spelled_iff_reads _ _).mp spelled, by simp only [read, scanned, found],
    depth, height⟩

/-- A sum that is accepted although its tree is higher than the estimate and than the
    limit on nesting. -/
theorem height_exceeds_nestingDepth :
    ∃ tokens expr, Token.scan (additions 256) = .ok tokens ∧
      Reader.comparison (Reader.operand tokens.length) tokens = .ok (expr, []) ∧
      read (additions 256) = .ok expr ∧
      ¬ expr.height ≤ nestingDepth tokens ∧ ¬ expr.height ≤ deepestNesting := by
  obtain ⟨tokens, expr, scanned, consumed, accepted, depth, height⟩ :=
    read_additions 256 (by decide) (by decide)
  refine ⟨tokens, expr, scanned, consumed, accepted, ?_, ?_⟩
  · rw [height, depth]
    decide
  · rw [height]
    decide

end Overrun

end Expr

end MiniAbap
