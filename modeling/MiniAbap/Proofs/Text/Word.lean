import MiniAbap.Proofs.LetterCase.Text

/-!
Words and the white space between them. Names, keywords and amounts are words of name
characters, which are neither white space nor quotes; a text that sets such words apart
is read back as these words.
-/

namespace MiniAbap.Text

section Words

structure IsWord (word : Text) : Prop where
  nonempty : word ≠ []
  letters : ∀ c ∈ word, isNameChar c = true

instance (word : Text) : Decidable (IsWord word) :=
  decidable_of_iff (word ≠ [] ∧ word.all isNameChar = true)
    ⟨fun parts => ⟨parts.1, List.all_eq_true.mp parts.2⟩,
      fun word => ⟨word.nonempty, List.all_eq_true.mpr word.letters⟩⟩

theorem isNameChar_of_isNameStart {c : Char} (start : isNameStart c = true) :
    isNameChar c = true := by
  simp only [isNameStart, isNameChar, Char.isAlphanum, Bool.or_eq_true] at start ⊢
  tauto

theorem isWord_of_isName {word : Text} (name : isName word = true) : IsWord word := by
  cases word with
  | nil => cases name
  | cons c rest =>
      rw [isName, Bool.and_eq_true, List.all_eq_true] at name
      exact ⟨List.cons_ne_nil _ _,
        List.forall_mem_cons.mpr ⟨isNameChar_of_isNameStart name.1, name.2⟩⟩

theorem sameWord_comm (left right : Text) : sameWord left right = sameWord right left :=
  Bool.beq_comm

theorem IsWord.of_sameWord {word keyword : Text} (known : IsWord keyword)
    (same : sameWord word keyword = true) : IsWord word := by
  have folded : lower word = lower keyword := beq_iff_eq.mp same
  have all := insensitive_isNameChar.all_lower word
  rw [folded, insensitive_isNameChar.all_lower, List.all_eq_true.mpr known.letters] at all
  refine ⟨?_, List.all_eq_true.mp all.symm⟩
  rintro rfl
  exact known.nonempty (List.map_eq_nil_iff.mp folded.symm)

theorem isNameChar_of_isBlank {c : Char} (white : isBlank c = true) : isNameChar c = false := by
  have letter : c.isAlpha = false := by
    cases letter : c.isAlpha with
    | false => rfl
    | true =>
        have range := range_of_isAlpha letter
        simp [isBlank, blankRanges] at white
        omega
  have low : c ≠ '_' := ne_of_isBlank white (by decide)
  have dash : c ≠ '-' := ne_of_isBlank white (by decide)
  simp [isNameChar, Char.isAlphanum, letter, isDigit_of_isBlank white, low, dash]

theorem isName_eq_false {c : Char} {text : Text} (member : c ∈ text)
    (outside : isNameChar c = false) : isName text = false := by
  cases name : isName text with
  | false => rfl
  | true =>
      rw [(isWord_of_isName name).letters c member] at outside
      cases outside

theorem IsWord.solid {word : Text} (word' : IsWord word) : ∀ c ∈ word, isBlank c = false := by
  intro c member
  cases white : isBlank c with
  | false => rfl
  | true =>
      have outside := isNameChar_of_isBlank white
      rw [word'.letters c member] at outside
      cases outside

theorem IsWord.hasSolidEnds {word : Text} (word' : IsWord word) : HasSolidEnds word where
  first c here := word'.solid c (List.mem_of_mem_head? here)
  last c here := word'.solid c (List.mem_of_mem_getLast? here)

theorem IsWord.plain {word : Text} (word' : IsWord word) : ∀ c ∈ word, isQuote c = false :=
  fun c member => isQuote_of_isNameChar (word'.letters c member)

theorem utf8Size_of_isNameChar {c : Char} (part : isNameChar c = true) : c.utf8Size = 1 := by
  apply Char.utf8Size_eq_one_iff.mpr
  change c.toNat ≤ 127
  simp only [isNameChar, Char.isAlphanum, Bool.or_eq_true, beq_iff_eq] at part
  rcases part with ((letter | digit) | rfl) | rfl
  · have range := range_of_isAlpha letter
    omega
  · simp only [Char.isDigit, Bool.and_eq_true, decide_eq_true_eq] at digit
    have high : c.toNat ≤ 57 := digit.2
    omega
  · decide
  · decide

/-- Name characters take one byte each. -/
theorem byteLength_of_isNameChar {text : Text} (letters : ∀ c ∈ text, isNameChar c = true) :
    byteLength text = text.length := by
  induction text with
  | nil => rfl
  | cons c rest ih =>
      obtain ⟨part, others⟩ := List.forall_mem_cons.mp letters
      rw [byteLength, utf8Size_of_isNameChar part, ih others, List.length_cons, Nat.add_comm]

end Words

section Splitting

variable {separates : Char → Bool} {c : Char}

theorem splitFirst_append {first : Text} (inside : ∀ d ∈ first, separates d = false)
    (here : separates c = true) (rest : Text) :
    splitFirst separates (first ++ c :: rest) = some (first, rest) := by
  have passed : ∀ d ∈ first, (!separates d) = true := by simpa using inside
  simp [splitFirst, List.dropWhile_append_of_pos passed, List.takeWhile_append_of_pos passed,
    here]

theorem cut_ne_nil (separates : Char → Bool) (text : Text) : cut separates text ≠ [] := by
  induction text with
  | nil => exact List.cons_ne_nil _ _
  | cons d rest ih =>
      rw [cut]
      split
      · exact List.cons_ne_nil _ _
      · exact fun empty => ih (List.modifyHead_eq_nil_iff.mp empty)

theorem cut_append (here : separates c = true) (first second : Text) :
    cut separates (first ++ c :: second) = cut separates first ++ cut separates second := by
  induction first with
  | nil => simp [cut, here]
  | cons d rest ih =>
      rw [List.cons_append, cut, cut, ih]
      split
      · rfl
      · obtain ⟨piece, more, pieces⟩ := List.exists_cons_of_ne_nil (cut_ne_nil separates rest)
        rw [pieces]
        rfl

theorem cut_of_none {word : Text} (inside : ∀ d ∈ word, separates d = false) :
    cut separates word = [word] := by
  induction word with
  | nil => rfl
  | cons d rest ih =>
      obtain ⟨here, others⟩ := List.forall_mem_cons.mp inside
      simp [cut, here, ih others]

end Splitting

section Gaps

variable {gap word rest text : Text} {c : Char}

theorem words_append (white : isBlank c = true) (first second : Text) :
    words (first ++ c :: second) = words first ++ words second := by
  rw [words, cut_append white, List.filter_append, words, words]

theorem words_cons_ne_nil (visible : isBlank c = false) (rest : Text) : words (c :: rest) ≠ [] := by
  obtain ⟨piece, more, pieces⟩ := List.exists_cons_of_ne_nil (cut_ne_nil isBlank rest)
  simp [words, cut, visible, pieces]

theorem words_blank_append (blank : Blank gap) (text : Text) :
    words (gap ++ text) = words text := by
  induction gap with
  | nil => rfl
  | cons c gap ih =>
      obtain ⟨white, others⟩ := List.forall_mem_cons.mp blank
      have first := words_append white [] (gap ++ text)
      rw [List.cons_append]
      exact first.trans (ih others)

theorem words_append_gap (blank : Blank gap) (text : Text) :
    words (text ++ gap) = words text := by
  cases gap with
  | nil => rw [List.append_nil]
  | cons c gap =>
      obtain ⟨white, others⟩ := List.forall_mem_cons.mp blank
      have nothing := words_blank_append others []
      rw [List.append_nil] at nothing
      rw [words_append white, nothing]
      exact List.append_nil _

theorem words_trim (text : Text) : words (trim text) = words text := by
  obtain ⟨before, after, blankBefore, blankAfter, whole⟩ := exists_trim text
  conv_rhs => rw [whole, words_blank_append blankBefore, words_append_gap blankAfter]

theorem IsWord.words_eq (solid : IsWord word) : words word = [word] := by
  rw [words, cut_of_none solid.solid]
  simp [solid.nonempty]

theorem IsWord.firstWord_append (solid : IsWord word) (blank : Blank gap)
    (white : isBlank c = true) (rest : Text) :
    firstWord (gap ++ (word ++ c :: rest)) = (word, rest) := by
  have start : trimStart (word ++ c :: rest) = word ++ c :: rest := by
    obtain ⟨d, more, rfl⟩ := List.exists_cons_of_ne_nil solid.nonempty
    simp [trimStart, solid.solid d List.mem_cons_self]
  rw [firstWord, trimStart_blank_append blank, start, splitFirst_append solid.solid white]
  rfl

inductive Apart : List Text → Text → Prop where
  | nil : Apart [] []
  | cons {c : Char} {gap word rest : Text} {words : List Text} (white : isBlank c = true)
      (blank : Blank gap) (solid : IsWord word) (others : Apart words rest) :
      Apart (word :: words) (c :: gap ++ (word ++ rest))

theorem apart_flatMap {listed : List Text} (solid : ∀ word ∈ listed, IsWord word) :
    Apart listed (listed.flatMap (' ' :: ·)) := by
  induction listed with
  | nil => exact .nil
  | cons word listed ih =>
      obtain ⟨here, others⟩ := List.forall_mem_cons.mp solid
      have white : isBlank ' ' = true := by decide
      have nothing : Blank [] := nofun
      exact Apart.cons white nothing here (ih others)

theorem Apart.words_append {listed : List Text} (apart : Apart listed text) (solid : IsWord word) :
    words (word ++ text) = word :: listed := by
  induction apart generalizing word with
  | nil => rw [List.append_nil, solid.words_eq]
  | @cons c gap next rest listed white blank nextSolid _ ih =>
      have split := Text.words_append white word (gap ++ (next ++ rest))
      rw [words_blank_append blank, ih nextSolid, solid.words_eq] at split
      exact split

end Gaps

end MiniAbap.Text
