import Mathlib
import MiniAbap.Proofs.Text.Blank
import MiniAbap.Text.Occurrence

/-!
Texts that differ in the case of letters only. Words, names and keywords are the
same in both; where literals matter, the two texts have to agree in them, and then
every way of taking a text apart takes both apart in the same places.
-/

namespace MiniAbap

namespace Text

section Characters

def Insensitive (test : Char → Bool) : Prop :=
  ∀ c d : Char, c.toLower = d.toLower → test c = test d

theorem isAlpha_eq {c d : Char} (same : c.toLower = d.toLower) : c.isAlpha = d.isAlpha := by
  rw [← Char.isAlpha_toLower_eq_isAlpha c, same, Char.isAlpha_toLower_eq_isAlpha]

theorem eq_or_isAlpha {c d : Char} (same : c.toLower = d.toLower) :
    c = d ∨ c.isAlpha = true ∧ d.isAlpha = true := by
  by_cases letter : c.isAlpha = true
  · exact .inr ⟨letter, isAlpha_eq same ▸ letter⟩
  · have other : ¬ d.isAlpha = true := isAlpha_eq same ▸ letter
    simp only [Char.isAlpha, Bool.or_eq_true, not_or] at letter other
    rw [Char.toLower_eq_of_not_isUpper letter.1, Char.toLower_eq_of_not_isUpper other.1] at same
    exact .inl same

-- All tests here tell letters from other characters at most.
theorem insensitive_of_letters {test : Char → Bool} (answer : Bool)
    (letters : ∀ c : Char, c.isAlpha = true → test c = answer) : Insensitive test := by
  intro c d same
  rcases eq_or_isAlpha same with rfl | ⟨first, second⟩
  · rfl
  · rw [letters c first, letters d second]

theorem insensitive_beq {other : Char} (sign : other.isAlpha = false) :
    Insensitive (· == other) := by
  apply insensitive_of_letters false
  intro c letter
  apply beq_eq_false_iff_ne.mpr
  rintro rfl
  rw [letter] at sign
  cases sign

theorem eq_sign_iff {c d sign : Char} (same : c.toLower = d.toLower)
    (letterless : sign.isAlpha = false) : c = sign ↔ d = sign := by
  have both : (c == sign) = (d == sign) := insensitive_beq letterless c d same
  rw [← beq_iff_eq, both, beq_iff_eq]

theorem range_of_isAlpha {c : Char} (letter : c.isAlpha = true) :
    (65 ≤ c.toNat ∧ c.toNat ≤ 90) ∨ (97 ≤ c.toNat ∧ c.toNat ≤ 122) := by
  simp only [Char.isAlpha, Char.isUpper, Char.isLower, Bool.or_eq_true, Bool.and_eq_true,
    decide_eq_true_eq] at letter
  exact letter

theorem insensitive_isBlank : Insensitive isBlank := by
  apply insensitive_of_letters false
  intro c letter
  have range := range_of_isAlpha letter
  simp [isBlank, blankRanges]
  omega

theorem isAlpha_of_isDigit {c : Char} (digit : c.isDigit = true) : c.isAlpha = false := by
  cases letter : c.isAlpha with
  | false => rfl
  | true =>
      have range := range_of_isAlpha letter
      simp only [Char.isDigit, Bool.and_eq_true, decide_eq_true_eq] at digit
      have high : c.toNat ≤ 57 := digit.2
      omega

theorem insensitive_isDigit : Insensitive Char.isDigit := by
  apply insensitive_of_letters false
  intro c letter
  cases digit : c.isDigit with
  | false => rfl
  | true =>
      rw [isAlpha_of_isDigit digit] at letter
      cases letter

theorem insensitive_isQuote : Insensitive isQuote := by
  intro c d same
  have apostrophe := insensitive_beq (by decide : ('\x27').isAlpha = false) c d same
  have grave := insensitive_beq (by decide : ('\x60').isAlpha = false) c d same
  exact congrArg₂ Bool.or apostrophe grave

theorem insensitive_isNameChar : Insensitive isNameChar := by
  apply insensitive_of_letters true
  intro c letter
  simp [isNameChar, Char.isAlphanum, letter]

theorem insensitive_isNameStart : Insensitive isNameStart := by
  apply insensitive_of_letters true
  intro c letter
  simp [isNameStart, letter]

end Characters

section Words

/-! What does not depend on literals is the same for a text and its lower-case form. -/

variable {test : Char → Bool} {first second : Text}

theorem Insensitive.toLower (insensitive : Insensitive test) (c : Char) :
    test c.toLower = test c :=
  insensitive _ _ (Char.toLower_toLower_eq_toLower c)

theorem Insensitive.takeWhile_lower (insensitive : Insensitive test) (text : Text) :
    (lower text).takeWhile test = lower (text.takeWhile test) := by
  induction text with
  | nil => rfl
  | cons c text ih =>
      simp only [lower, List.map_cons, List.takeWhile_cons, insensitive.toLower] at ih ⊢
      split
      · rw [ih, List.map_cons]
      · rfl

theorem Insensitive.dropWhile_lower (insensitive : Insensitive test) (text : Text) :
    (lower text).dropWhile test = lower (text.dropWhile test) := by
  induction text with
  | nil => rfl
  | cons c text ih =>
      simp only [lower, List.map_cons, List.dropWhile_cons, insensitive.toLower] at ih ⊢
      split
      · exact ih
      · rw [List.map_cons]

theorem Insensitive.all_lower (insensitive : Insensitive test) (text : Text) :
    (lower text).all test = text.all test := by
  simp only [lower, List.all_map]
  congr 1
  funext c
  exact insensitive.toLower c

theorem Insensitive.head_lower (insensitive : Insensitive test) (text : Text) :
    (lower text).head?.any test = text.head?.any test := by
  cases text with
  | nil => rfl
  | cons c text => exact insensitive.toLower c

theorem head?_lower_iff {sign : Char} (letterless : sign.isAlpha = false) (text : Text) :
    (lower text).head? = some sign ↔ text.head? = some sign := by
  cases text with
  | nil => rfl
  | cons c rest =>
      simp only [lower, List.map_cons, List.head?_cons, Option.some.injEq]
      exact eq_sign_iff (Char.toLower_toLower_eq_toLower c) letterless

theorem lower_trimStart (text : Text) : lower (trimStart text) = trimStart (lower text) :=
  (insensitive_isBlank.dropWhile_lower text).symm

theorem lower_reverse (text : Text) : lower text.reverse = (lower text).reverse :=
  List.map_reverse

theorem lower_append (first second : Text) :
    lower (first ++ second) = lower first ++ lower second :=
  List.map_append

theorem lower_trimEnd (text : Text) : lower (trimEnd text) = trimEnd (lower text) := by
  rw [trimEnd, lower_reverse, ← insensitive_isBlank.dropWhile_lower, lower_reverse, trimEnd]

theorem isName_lower (text : Text) : isName (lower text) = isName text := by
  cases text with
  | nil => rfl
  | cons c rest =>
      have others := insensitive_isNameChar.all_lower rest
      exact congrArg₂ Bool.and (insensitive_isNameStart.toLower c) others

theorem upper_lower (text : Text) : upper (lower text) = upper text := by
  simp [upper, lower]

theorem cut_lower (insensitive : Insensitive test) (text : Text) :
    cut test (lower text) = (cut test text).map lower := by
  induction text with
  | nil => rfl
  | cons c rest ih =>
      rw [lower, List.map_cons, ← lower, cut, cut, insensitive.toLower, ih]
      split
      · rfl
      · cases cut test rest <;> rfl

theorem words_lower (text : Text) : words (lower text) = (words text).map lower := by
  rw [words, cut_lower insensitive_isBlank, List.filter_map, words]
  congr 2
  funext word
  cases word <;> rfl

theorem words_eq (same : lower first = lower second) :
    (words first).map lower = (words second).map lower := by
  rw [← words_lower, same, words_lower]

theorem isName_eq (same : lower first = lower second) : isName first = isName second := by
  rw [← isName_lower first, same, isName_lower]

theorem sameWord_left (same : lower first = lower second) (word : Text) :
    sameWord first word = sameWord second word := by
  rw [sameWord, same, sameWord]

theorem sameWord_right (same : lower first = lower second) (word : Text) :
    sameWord word first = sameWord word second := by
  rw [sameWord, same, sameWord]

theorem length_eq (same : lower first = lower second) : first.length = second.length := by
  simpa [lower] using congrArg List.length same

theorem isEmpty_eq (same : lower first = lower second) : first.isEmpty = second.isEmpty := by
  have lengths := length_eq same
  cases first <;> cases second <;> simp_all

theorem eq_of_no_letter (same : lower first = lower second)
    (signs : ∀ c ∈ first, c.isAlpha = false) : first = second := by
  induction first generalizing second with
  | nil =>
      cases second with
      | nil => rfl
      | cons d rest => cases same
  | cons c rest ih =>
      cases second with
      | nil => cases same
      | cons d other =>
          obtain ⟨here, others⟩ := List.cons.inj same
          rw [ih others fun e member => signs e (List.mem_cons_of_mem c member)]
          rcases eq_or_isAlpha here with rfl | ⟨letter, _⟩
          · rfl
          · rw [signs c List.mem_cons_self] at letter
            cases letter

theorem eq_of_isDigits (same : lower first = lower second) (digits : isDigits first = true) :
    first = second :=
  eq_of_no_letter same fun c member => isAlpha_of_isDigit (List.all_eq_true.mp digits c member)

end Words

/-- The texts differ in the case of letters outside literals only, given the quote that
    is open where they start. -/
inductive Recased : Option Char → Text → Text → Prop where
  | nil (quote : Option Char) : Recased quote [] []
  | cons {quote : Option Char} {c d : Char} {rest other : Text}
      (same : c.toLower = d.toLower) (literal : quote ≠ none → c = d)
      (others : Recased (advance quote c) rest other) :
      Recased quote (c :: rest) (d :: other)

namespace Recased

variable {quote : Option Char} {first second : Text} {test : Char → Bool}

theorem cons_iff {c d : Char} {rest other : Text} :
    (c.toLower = d.toLower ∧ (quote ≠ none → c = d) ∧ Recased (advance quote c) rest other) ↔
      Recased quote (c :: rest) (d :: other) :=
  ⟨fun ⟨same, literal, others⟩ => .cons same literal others,
    fun | .cons same literal others => ⟨same, literal, others⟩⟩

instance decidable : (quote : Option Char) → (first second : Text) →
    Decidable (Recased quote first second)
  | quote, [], [] => .isTrue (.nil quote)
  | _, [], _ :: _ => .isFalse nofun
  | _, _ :: _, [] => .isFalse nofun
  | quote, c :: rest, d :: other =>
      have := decidable (advance quote c) rest other
      decidable_of_iff (c.toLower = d.toLower ∧ (quote ≠ none → c = d) ∧
        Recased (advance quote c) rest other) cons_iff

theorem lower_eq (recased : Recased quote first second) : lower first = lower second := by
  induction recased with
  | nil => rfl
  | cons same _ _ ih => exact congrArg₂ List.cons same ih

theorem isEmpty_eq (recased : Recased quote first second) : first.isEmpty = second.isEmpty :=
  Text.isEmpty_eq recased.lower_eq

-- A letter never opens a literal, and inside one nothing has changed.
theorem advance_eq {c d : Char} (same : c.toLower = d.toLower)
    (literal : quote ≠ none → c = d) : advance quote c = advance quote d := by
  cases quote with
  | some opened => rw [literal (Option.some_ne_none _)]
  | none =>
      have both := insensitive_isQuote c d same
      by_cases opens : isQuote c = true
      · rcases eq_or_isAlpha same with rfl | ⟨letter, _⟩
        · rfl
        · have range := range_of_isAlpha letter
          simp only [isQuote, Bool.or_eq_true, beq_iff_eq] at opens
          rcases opens with rfl | rfl <;> simp at range
      · have other : ¬ isQuote d = true := both ▸ opens
        simp [advance, opens, other]

theorem append {more others : Text} (before : Recased quote first second)
    (after : Recased (advanceAll quote first) more others) :
    Recased quote (first ++ more) (second ++ others) := by
  induction before with
  | nil => exact after
  | cons same literal _ ih => exact .cons same literal (ih after)

theorem take (recased : Recased quote first second) (count : Nat) :
    Recased quote (first.take count) (second.take count) := by
  induction recased generalizing count with
  | nil quote =>
      rw [List.take_nil]
      exact .nil quote
  | cons same literal _ ih =>
      cases count with
      | zero => exact .nil _
      | succ count => exact .cons same literal (ih count)

theorem drop (recased : Recased quote first second) (count : Nat) :
    Recased (advanceAll quote (first.take count)) (first.drop count) (second.drop count) := by
  induction recased generalizing count with
  | nil quote =>
      rw [List.take_nil, List.drop_nil]
      exact .nil quote
  | cons same literal others ih =>
      cases count with
      | zero => exact .cons same literal others
      | succ count => exact ih count

/-- What follows a part without quotes stands outside literals again. -/
theorem drop_plain (recased : Recased none first second) {count : Nat}
    (plain : ∀ c ∈ first.take count, isQuote c = false) :
    Recased none (first.drop count) (second.drop count) := by
  have dropped := recased.drop count
  rw [advanceAll_of_no_quote plain] at dropped
  exact dropped

theorem takeWhile (recased : Recased quote first second) (insensitive : Insensitive test) :
    Recased quote (first.takeWhile test) (second.takeWhile test) := by
  induction recased with
  | nil quote => exact .nil quote
  | @cons quote c d rest other same literal _ ih =>
      simp only [List.takeWhile_cons, ← insensitive c d same]
      split
      · exact .cons same literal ih
      · exact .nil quote

theorem dropWhile (recased : Recased quote first second) (insensitive : Insensitive test) :
    Recased (advanceAll quote (first.takeWhile test)) (first.dropWhile test)
      (second.dropWhile test) := by
  induction recased with
  | nil quote => exact .nil quote
  | @cons quote c d rest other same literal others ih =>
      simp only [List.takeWhile_cons, List.dropWhile_cons, ← insensitive c d same]
      split
      · exact ih
      · exact .cons same literal others

theorem trimStart (recased : Recased none first second) :
    Recased none (trimStart first) (trimStart second) := by
  have blank : Blank (first.takeWhile isBlank) :=
    fun c member => List.all_eq_true.mp List.all_takeWhile c member
  have dropped := recased.dropWhile insensitive_isBlank
  rw [advanceAll_none_blank blank] at dropped
  exact dropped

theorem trimEnd (recased : Recased quote first second) :
    Recased quote (trimEnd first) (trimEnd second) := by
  have beginning (text : Text) : Text.trimEnd text = text.take (Text.trimEnd text).length := by
    obtain ⟨blanks, _, whole⟩ := exists_trimEnd_append text
    exact List.prefix_iff_eq_take.mp ⟨blanks, whole.symm⟩
  have lengths : (Text.trimEnd first).length = (Text.trimEnd second).length := by
    apply length_eq
    rw [lower_trimEnd, recased.lower_eq, lower_trimEnd]
  rw [beginning first, beginning second, lengths]
  exact recased.take _

theorem trim (recased : Recased none first second) :
    Recased none (trim first) (trim second) :=
  recased.trimStart.trimEnd

end Recased

section Parts

variable {quote : Option Char} {first second : Text}

def PairRecased (one other : Text × Text) : Prop :=
  Recased none one.1 other.1 ∧ Recased none one.2 other.2

theorem isQuote_of_lower_eq (same : lower first = lower second)
    (plain : ∀ c ∈ second, isQuote c = false) : ∀ c ∈ first, isQuote c = false := by
  have insensitive : Insensitive fun c => !isQuote c :=
    fun c d alike => congrArg not (insensitive_isQuote c d alike)
  have all : first.all (fun c => !isQuote c) = true := by
    rw [← insensitive.all_lower, same, insensitive.all_lower]
    simpa using plain
  simpa using all

theorem Recased.splitOutsideFrom (separator : Char) (sign : separator.isAlpha = false)
    (recased : Recased quote first second) :
    ∃ one others one' others', splitOutsideFrom separator quote first = one :: others ∧
      splitOutsideFrom separator quote second = one' :: others' ∧
      Recased quote one one' ∧ List.Forall₂ (Recased none) others others' := by
  induction recased with
  | nil quote => exact ⟨[], [], [], [], rfl, rfl, .nil quote, .nil⟩
  | @cons quote c d rest other same literal _ ih =>
      obtain ⟨one, others, one', others', left, right, head, tail⟩ := ih
      have separates : (c == separator) = (d == separator) := insensitive_beq sign c d same
      have divides : (quote.isNone && !isQuote c && c == separator) =
          (quote.isNone && !isQuote d && d == separator) := by
        rw [insensitive_isQuote c d same, separates]
      by_cases here : (quote.isNone && !isQuote c && c == separator) = true
      · have outside := here
        simp only [Bool.and_eq_true, Bool.not_eq_true', Option.isNone_iff_eq_none] at outside
        obtain ⟨⟨rfl, plain⟩, _⟩ := outside
        have passed : advance none c = none := by simp [advance, plain]
        rw [passed] at left right head
        refine ⟨[], one :: others, [], one' :: others', ?_, ?_, .nil none, .cons head tail⟩
        · rw [Text.splitOutsideFrom, if_pos here, left]
        · rw [Text.splitOutsideFrom, if_pos (divides ▸ here), right]
      · refine ⟨c :: one, others, d :: one', others', ?_, ?_, .cons same literal head, tail⟩
        · rw [Text.splitOutsideFrom, if_neg here, left]
          rfl
        · rw [Text.splitOutsideFrom, if_neg (divides ▸ here), ← Recased.advance_eq same literal,
            right]
          rfl

theorem Recased.splitOutside {separator : Char} (sign : separator.isAlpha = false)
    (recased : Recased none first second) :
    List.Forall₂ (Recased none) (splitOutside separator first) (splitOutside separator second) := by
  obtain ⟨one, others, one', others', left, right, head, tail⟩ :=
    recased.splitOutsideFrom separator sign
  rw [Text.splitOutside, Text.splitOutside, left, right]
  exact .cons head tail

structure Occurrence.Recased (one other : Occurrence) : Prop where
  before : Text.Recased none one.before other.before
  after : Text.Recased none one.after other.after

theorem endsWord_eq (same : lower first = lower second) : endsWord first = endsWord second := by
  rw [endsWord, ← insensitive_isNameChar.head_lower, same, insensitive_isNameChar.head_lower,
    endsWord]

variable {keyword : Text}

-- A keyword holds no quote, so what follows it stands outside literals again.
theorem Recased.matchWord (plain : ∀ c ∈ keyword, isQuote c = false)
    (recased : Recased none first second) :
    Option.Rel (fun one other => Recased none one.2 other.2)
      (matchWord keyword first) (matchWord keyword second) := by
  have found := (recased.take keyword.length).lower_eq
  have after := (recased.drop keyword.length).lower_eq
  simp only [Text.matchWord, sameWord_left found, endsWord_eq after]
  split
  · next matched =>
      rw [Bool.and_eq_true, sameWord, beq_iff_eq] at matched
      exact .some (recased.drop_plain (isQuote_of_lower_eq (found.trans matched.1) plain))
  · exact .none

theorem Recased.occurrencesFrom (plain : ∀ c ∈ keyword, isQuote c = false)
    (recased : Recased quote first second) (passed passed' : Text)
    (before : Recased none passed.reverse passed'.reverse)
    (reached : advanceAll none passed.reverse = quote) :
    List.Forall₂ Occurrence.Recased (occurrencesFrom keyword passed quote first)
      (occurrencesFrom keyword passed' quote second) := by
  induction recased generalizing passed passed' with
  | nil => exact .nil
  | @cons quote c d rest other same literal others ih =>
      have whole : Recased quote (c :: rest) (d :: other) := .cons same literal others
      have longer : Recased none (c :: passed).reverse (d :: passed').reverse := by
        rw [List.reverse_cons, List.reverse_cons]
        refine before.append ?_
        rw [reached]
        exact .cons same literal (.nil _)
      have further : advanceAll none (c :: passed).reverse = advance quote c := by
        rw [List.reverse_cons, advanceAll_append, reached]
        rfl
      have later := ih _ _ longer further
      have starts : endsWord passed = endsWord passed' := by
        apply endsWord_eq
        have reversed := congrArg List.reverse before.lower_eq
        simpa [lower] using reversed
      rw [Recased.advance_eq same literal] at later
      simp only [Text.occurrencesFrom, Recased.advance_eq same literal,
        insensitive_isQuote c d same, starts]
      split
      · next here =>
          simp only [Bool.and_eq_true, Option.isNone_iff_eq_none] at here
          obtain ⟨⟨rfl, _⟩, _⟩ := here
          have matched := whole.matchWord plain
          generalize Text.matchWord keyword (c :: rest) = one at matched
          generalize Text.matchWord keyword (d :: other) = other at matched
          cases matched with
          | none => exact later
          | some after => exact .cons ⟨before, after⟩ later
      · exact later

theorem Recased.occurrences (plain : ∀ c ∈ keyword, isQuote c = false)
    (recased : Recased none first second) :
    List.Forall₂ Occurrence.Recased (occurrences keyword first) (occurrences keyword second) :=
  recased.occurrencesFrom plain [] [] (.nil none) rfl

theorem Occurrence.Recased.halves {one other : Occurrence} (recased : one.Recased other) :
    PairRecased one.halves other.halves :=
  ⟨recased.before.trim, recased.after.trim⟩

theorem forall₂_head? {α : Type} {related : α → α → Prop} {left right : List α}
    (alike : List.Forall₂ related left right) : Option.Rel related left.head? right.head? := by
  cases alike with
  | nil => exact .none
  | cons here _ => exact .some here

theorem forall₂_getLast? {α : Type} {related : α → α → Prop} {left right : List α}
    (alike : List.Forall₂ related left right) :
    Option.Rel related left.getLast? right.getLast? := by
  rw [← List.head?_reverse, ← List.head?_reverse]
  exact forall₂_head? (List.rel_reverse alike)

theorem optionRel_map {α β : Type} {related : α → α → Prop} {image : β → β → Prop}
    {left right : Option α} {shape : α → β} (alike : Option.Rel related left right)
    (kept : ∀ {a b : α}, related a b → image (shape a) (shape b)) :
    Option.Rel image (left.map shape) (right.map shape) := by
  cases alike with
  | none => exact .none
  | some here => exact .some (kept here)

theorem Recased.splitAtFirst (plain : ∀ c ∈ keyword, isQuote c = false)
    (recased : Recased none first second) :
    Option.Rel PairRecased (splitAtFirst keyword first) (splitAtFirst keyword second) :=
  optionRel_map (forall₂_head? (recased.occurrences plain)) Occurrence.Recased.halves

theorem Recased.splitAtLast (plain : ∀ c ∈ keyword, isQuote c = false)
    (recased : Recased none first second) :
    Option.Rel PairRecased (splitAtLast keyword first) (splitAtLast keyword second) :=
  optionRel_map (forall₂_getLast? (recased.occurrences plain)) Occurrence.Recased.halves

theorem Recased.stripTrailing (plain : ∀ c ∈ keyword, isQuote c = false)
    (recased : Recased none first second) :
    Option.Rel (Recased none) (stripTrailing keyword first) (stripTrailing keyword second) := by
  have last := forall₂_getLast? (recased.trimEnd.occurrences plain)
  simp only [Text.stripTrailing]
  generalize (Text.occurrences keyword (Text.trimEnd first)).getLast? = one at last
  generalize (Text.occurrences keyword (Text.trimEnd second)).getLast? = other at last
  cases last with
  | none => exact .none
  | some here =>
      simp only [here.after.isEmpty_eq]
      split
      · exact .some here.before.trimEnd
      · exact .none

theorem isQuote_of_isNameChar {c : Char} (part : isNameChar c = true) : isQuote c = false := by
  cases quote : isQuote c with
  | false => rfl
  | true =>
      simp only [isQuote, Bool.or_eq_true, beq_iff_eq] at quote
      rcases quote with rfl | rfl <;> cases part

theorem isQuote_of_isName (name : isName first = true) : ∀ c ∈ first, isQuote c = false := by
  cases first with
  | nil => cases name
  | cons c rest =>
      rw [isName, Bool.and_eq_true, List.all_eq_true] at name
      have start : isNameChar c = true := by
        simp only [isNameStart, isNameChar, Char.isAlphanum, Bool.or_eq_true] at name ⊢
        tauto
      exact List.forall_mem_cons.mpr ⟨isQuote_of_isNameChar start,
        fun d member => isQuote_of_isNameChar (name.2 d member)⟩

theorem Recased.leadingWord (recased : Recased none first second) :
    (leadingWord first).1 = (leadingWord second).1 ∧
      Recased none (leadingWord first).2 (leadingWord second).2 := by
  have word := (recased.takeWhile insensitive_isNameChar).lower_eq
  have rest := recased.dropWhile insensitive_isNameChar
  have plain : ∀ c ∈ first.takeWhile isNameChar, isQuote c = false :=
    fun c member => isQuote_of_isNameChar (List.mem_takeWhile_imp member)
  rw [advanceAll_of_no_quote plain] at rest
  refine ⟨?_, rest⟩
  simp only [Text.leadingWord]
  rw [← upper_lower, word, upper_lower]

def DividedAlike (one other : Text × Text) : Prop :=
  Recased none one.1 other.1 ∧
    ((∀ c ∈ one.1, isQuote c = false) → Recased none one.2 other.2)

theorem Recased.splitFirst {test : Char → Bool} (insensitive : Insensitive test)
    (outside : ∀ c, test c = true → isQuote c = false) (recased : Recased none first second) :
    Option.Rel DividedAlike (splitFirst test first) (splitFirst test second) := by
  have negated : Insensitive fun c => !test c :=
    fun c d same => congrArg not (insensitive c d same)
  have kept := recased.takeWhile negated
  have dropped := recased.dropWhile negated
  have head := List.head?_dropWhile_not (fun c => !test c) first
  simp only [Text.splitFirst]
  generalize first.dropWhile (fun c => !test c) = left at dropped head
  generalize second.dropWhile (fun c => !test c) = right at dropped
  cases dropped with
  | nil => exact .none
  | @cons _ c d rest other same literal others =>
      refine .some ⟨kept, ?_⟩
      intro plain
      have separates : test c = true := by simpa using head
      have passed : advance none c = none := by simp [advance, outside c separates]
      rw [advanceAll_of_no_quote plain, passed] at others
      exact others

theorem Recased.firstWord (recased : Recased none first second) :
    DividedAlike (firstWord first) (firstWord second) := by
  have divided := recased.trimStart.splitFirst insensitive_isBlank
    fun c white => isQuote_of_isBlank white
  simp only [Text.firstWord]
  generalize Text.splitFirst isBlank (Text.trimStart first) = left at divided
  generalize Text.splitFirst isBlank (Text.trimStart second) = right at divided
  cases divided with
  | none => exact ⟨recased.trimStart, fun _ => .nil none⟩
  | some here => exact here

theorem recased_filter {texts others : List Text}
    (alike : List.Forall₂ (Recased none) texts others) :
    List.Forall₂ (Recased none) (texts.filter fun text => !text.isEmpty)
      (others.filter fun text => !text.isEmpty) := by
  induction alike with
  | nil => exact .nil
  | cons here _ ih =>
      simp only [List.filter_cons, here.isEmpty_eq]
      split
      · exact .cons here ih
      · exact ih

end Parts

end Text

end MiniAbap
