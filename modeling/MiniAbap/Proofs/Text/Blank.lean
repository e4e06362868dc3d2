import MiniAbap.Text.Literal

/-!
White space: what trimming makes of it, and that it neither opens nor closes a
literal.
-/

namespace MiniAbap

namespace Text

def Blank (text : Text) : Prop :=
  ∀ c ∈ text, isBlank c = true

instance (text : Text) : Decidable (Blank text) :=
  decidable_of_iff (text.all isBlank = true) List.all_eq_true

theorem Blank.append {first second : Text} (before : Blank first) (after : Blank second) :
    Blank (first ++ second) :=
  List.forall_mem_append.mpr ⟨before, after⟩

section Trimming

theorem trimStart_blank_append {blanks : Text} (blank : Blank blanks) (text : Text) :
    trimStart (blanks ++ text) = trimStart text :=
  List.dropWhile_append_of_pos blank

theorem trimEnd_append_blank {blanks : Text} (blank : Blank blanks) (text : Text) :
    trimEnd (text ++ blanks) = trimEnd text := by
  have reversed : ∀ c ∈ blanks.reverse, isBlank c = true := by
    intro c member
    exact blank c (List.mem_reverse.mp member)
  rw [trimEnd, List.reverse_append, List.dropWhile_append_of_pos reversed, trimEnd]

theorem trim_blank_append {blanks : Text} (blank : Blank blanks) (text : Text) :
    trim (blanks ++ text) = trim text := by
  rw [trim, trimStart_blank_append blank, trim]

-- Text that is blank as a whole is gone before the end is trimmed.
theorem trim_append_blank {blanks : Text} (blank : Blank blanks) (text : Text) :
    trim (text ++ blanks) = trim text := by
  induction text with
  | nil =>
      have nothing := trimStart_blank_append blank []
      rw [List.append_nil] at nothing
      rw [List.nil_append, trim, nothing, trim]
  | cons c rest ih =>
      by_cases skipped : isBlank c = true
      · have one : Blank [c] := by simpa [Blank] using skipped
        have first := trim_blank_append one (rest ++ blanks)
        have second := trim_blank_append one rest
        exact first.trans (ih.trans second.symm)
      · have first : trimStart (c :: rest ++ blanks) = c :: rest ++ blanks := by
          simp [trimStart, skipped]
        have second : trimStart (c :: rest) = c :: rest := by simp [trimStart, skipped]
        rw [trim, first, trimEnd_append_blank blank, trim, second]

theorem exists_trimEnd_append (text : Text) :
    ∃ blanks, Blank blanks ∧ text = trimEnd text ++ blanks := by
  refine ⟨(text.reverse.takeWhile isBlank).reverse, ?_, ?_⟩
  · intro c member
    exact List.all_eq_true.mp List.all_takeWhile c (List.mem_reverse.mp member)
  · rw [trimEnd, ← List.reverse_append, List.takeWhile_append_dropWhile,
      List.reverse_reverse]

theorem exists_trim (text : Text) :
    ∃ before after, Blank before ∧ Blank after ∧ text = before ++ (trim text ++ after) := by
  obtain ⟨after, blankAfter, rest⟩ := exists_trimEnd_append (trimStart text)
  have blankBefore : Blank (text.takeWhile isBlank) :=
    fun c member => List.all_eq_true.mp List.all_takeWhile c member
  have whole := List.takeWhile_append_dropWhile (p := isBlank) (l := text)
  rw [← trimStart, rest, ← trim] at whole
  exact ⟨_, after, blankBefore, blankAfter, whole.symm⟩

theorem mem_trim {c : Char} {text : Text} (member : c ∈ text) (visible : ¬ isBlank c = true) :
    c ∈ trim text := by
  obtain ⟨before, after, blankBefore, blankAfter, whole⟩ := exists_trim text
  rw [whole, List.mem_append, List.mem_append] at member
  rcases member with white | kept | white
  · exact absurd (blankBefore c white) visible
  · exact kept
  · exact absurd (blankAfter c white) visible

structure HasSolidEnds (text : Text) : Prop where
  first : ∀ c ∈ text.head?, isBlank c = false
  last : ∀ c ∈ text.getLast?, isBlank c = false

theorem hasSolidEnds_trim (text : Text) : HasSolidEnds (trim text) := by
  constructor
  · intro c first
    obtain ⟨blanks, _, whole⟩ := exists_trimEnd_append (trimStart text)
    obtain ⟨more, starts⟩ := List.head?_eq_some_iff.mp first
    have here := List.head?_dropWhile_not isBlank text
    rw [← trimStart, whole, ← trim, starts] at here
    simpa using here
  · intro c last
    have here := List.head?_dropWhile_not isBlank (trimStart text).reverse
    rw [← List.getLast?_reverse, ← trimEnd, ← trim, last] at here
    simpa using here

theorem HasSolidEnds.trimEnd_eq {text : Text} (ends : HasSolidEnds text) : trimEnd text = text := by
  rw [trimEnd]
  rcases List.eq_nil_or_concat text with rfl | ⟨init, c, rfl⟩
  · rfl
  · have visible := ends.last c (by simp)
    simp [visible]

theorem HasSolidEnds.trim_eq {text : Text} (ends : HasSolidEnds text) : trim text = text := by
  have start : trimStart text = text := by
    cases text with
    | nil => rfl
    | cons c rest => simp [trimStart, ends.first c rfl]
  rw [trim, start, ends.trimEnd_eq]

end Trimming

section Characters

theorem ne_of_isBlank {c other : Char} (white : isBlank c = true)
    (solid : isBlank other = false) : c ≠ other := by
  rintro rfl
  rw [white] at solid
  cases solid

theorem isDigit_of_isBlank {c : Char} (white : isBlank c = true) : c.isDigit = false := by
  cases digit : c.isDigit with
  | false => rfl
  | true =>
      simp only [Char.isDigit, Bool.and_eq_true, decide_eq_true_eq] at digit
      have low : 48 ≤ c.toNat := digit.1
      have high : c.toNat ≤ 57 := digit.2
      simp [isBlank, blankRanges] at white
      omega

theorem isQuote_of_isBlank {c : Char} (white : isBlank c = true) : isQuote c = false := by
  have apostrophe : c ≠ '\x27' := ne_of_isBlank white (by decide)
  have grave : c ≠ '\x60' := ne_of_isBlank white (by decide)
  simp [isQuote, apostrophe, grave]

theorem advance_of_isBlank {c : Char} (white : isBlank c = true) : advance none c = none := by
  simp [advance, isQuote_of_isBlank white]

end Characters

section Literals

theorem isQuote_of_advanceAll {quote : Option Char} {text : Text} {opened : Char}
    (before : ∀ earlier, quote = some earlier → isQuote earlier = true)
    (after : advanceAll quote text = some opened) : isQuote opened = true := by
  induction text generalizing quote with
  | nil => exact before opened after
  | cons c text ih =>
      refine ih ?_ after
      intro earlier here
      cases quote with
      | none =>
          simp only [advance] at here
          split at here
          · next opens =>
              cases here
              exact opens
          · cases here
      | some outer =>
          simp only [advance] at here
          split at here
          · cases here
          · exact before earlier here

theorem advanceAll_append (quote : Option Char) (first second : Text) :
    advanceAll quote (first ++ second) = advanceAll (advanceAll quote first) second :=
  List.foldl_append

theorem advanceAll_blank {opened : Char} (quote : isQuote opened = true) {blanks : Text}
    (blank : Blank blanks) : advanceAll (some opened) blanks = some opened := by
  induction blanks with
  | nil => rfl
  | cons c blanks ih =>
      obtain ⟨white, others⟩ := List.forall_mem_cons.mp blank
      have other : c ≠ opened := by
        rintro rfl
        rw [isQuote_of_isBlank white] at quote
        cases quote
      have passed : advance (some opened) c = some opened := by
        simp [advance, other]
      rw [advanceAll, List.foldl_cons, passed]
      exact ih others

theorem advanceAll_of_no_quote {text : Text} (plain : ∀ c ∈ text, isQuote c = false) :
    advanceAll none text = none := by
  induction text with
  | nil => rfl
  | cons c text ih =>
      obtain ⟨here, others⟩ := List.forall_mem_cons.mp plain
      have passed : advance none c = none := by simp [advance, here]
      rw [advanceAll, List.foldl_cons, passed]
      exact ih others

theorem advanceAll_none_blank {blanks : Text} (blank : Blank blanks) :
    advanceAll none blanks = none :=
  advanceAll_of_no_quote fun c member => isQuote_of_isBlank (blank c member)

theorem closed_of_append_blank {text blanks : Text} (blank : Blank blanks)
    (closed : advanceAll none (text ++ blanks) = none) :
    advanceAll none text = none := by
  rw [advanceAll_append] at closed
  cases found : advanceAll none text with
  | none => rfl
  | some opened =>
      have quote : isQuote opened = true :=
        isQuote_of_advanceAll (by simp) found
      rw [found, advanceAll_blank quote blank] at closed
      cases closed

end Literals

end Text

end MiniAbap
