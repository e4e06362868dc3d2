import MiniAbap.Proofs.Text.Word

/-!
Where a keyword occurs in a text that is put together from words, white space and
operands. Words and white space are passed one by one; of an operand it is enough that
it closes its quotes, since what follows it is then scanned as if it stood alone.
-/

namespace MiniAbap.Text

variable {keyword passed word rest gap text : Text}

section Words

theorem endsWord_cons {c : Char} : endsWord (c :: rest) = !isNameChar c := rfl

theorem endsWord_of_blank {c : Char} (white : isBlank c = true) : endsWord (c :: rest) = true := by
  rw [endsWord_cons, isNameChar_of_isBlank white]
  rfl

theorem endsWord_blank_append (blank : Blank gap) (ends : endsWord rest = true) :
    endsWord (gap ++ rest) = true := by
  cases gap with
  | nil => exact ends
  | cons c more => exact endsWord_of_blank (blank c List.mem_cons_self)

theorem endsWord_append (blank : Blank gap) (nonempty : gap ≠ []) :
    endsWord (gap ++ rest) = true := by
  obtain ⟨c, more, rfl⟩ := List.exists_cons_of_ne_nil nonempty
  exact endsWord_of_blank (blank c List.mem_cons_self)

theorem endsWord_reverse_append (blank : Blank gap) (nonempty : gap ≠ []) :
    endsWord (gap.reverse ++ passed) = true :=
  endsWord_append (fun c member => blank c (List.mem_reverse.mp member))
    (List.reverse_ne_nil_iff.mpr nonempty)

-- What is before a word counts by its last character only.
theorem endsWord_reverse_right {first : Text} (starts : endsWord (first ++ rest).reverse = true) :
    endsWord rest.reverse = true := by
  rw [List.reverse_append] at starts
  cases reversed : rest.reverse with
  | nil => rfl
  | cons c more =>
      rw [reversed] at starts
      exact starts

theorem IsWord.takeWhile_append (solid : IsWord word) (ends : endsWord rest = true) :
    (word ++ rest).takeWhile isNameChar = word := by
  rw [List.takeWhile_append_of_pos solid.letters]
  cases rest with
  | nil => exact List.append_nil word
  | cons c more =>
      rw [endsWord_cons, Bool.not_eq_true'] at ends
      simp [ends]

theorem IsWord.dropWhile_append (solid : IsWord word) (ends : endsWord rest = true) :
    (word ++ rest).dropWhile isNameChar = rest := by
  rw [List.dropWhile_append_of_pos solid.letters]
  cases rest with
  | nil => rfl
  | cons c more =>
      rw [endsWord_cons, Bool.not_eq_true'] at ends
      simp [ends]

theorem endsWord_dropWhile (text : Text) : endsWord (text.dropWhile isNameChar) = true := by
  have stop := List.head?_dropWhile_not isNameChar text
  rw [endsWord]
  cases first : (text.dropWhile isNameChar).head? with
  | none => rfl
  | some c =>
      rw [first] at stop
      simpa using stop

/-- A keyword heads a text exactly where it is the word that the text starts with. -/
theorem matchWord_eq (known : IsWord keyword) (text : Text) :
    matchWord keyword text =
      if sameWord (text.takeWhile isNameChar) keyword then
        some (text.takeWhile isNameChar, text.dropWhile isNameChar)
      else none := by
  simp only [matchWord]
  by_cases matched : sameWord (text.takeWhile isNameChar) keyword = true
  · have length : (text.takeWhile isNameChar).length = keyword.length :=
      length_eq (beq_iff_eq.mp matched)
    have whole := List.takeWhile_append_dropWhile (p := isNameChar) (l := text)
    have found : (text.takeWhile isNameChar ++ text.dropWhile isNameChar).take keyword.length =
        text.takeWhile isNameChar := List.take_left' length
    have after : (text.takeWhile isNameChar ++ text.dropWhile isNameChar).drop keyword.length =
        text.dropWhile isNameChar := List.drop_left' length
    rw [whole] at found after
    simp [found, after, matched, endsWord_dropWhile]
  · rw [if_neg matched, if_neg]
    rw [Bool.and_eq_true]
    rintro ⟨same, ends⟩
    have taken := (known.of_sameWord same).takeWhile_append ends
    rw [List.take_append_drop] at taken
    rw [taken] at matched
    exact matched same

end Words

section Passing

theorem occurrencesFrom_blank (known : IsWord keyword) (blank : Blank gap) (passed rest : Text) :
    occurrencesFrom keyword passed none (gap ++ rest) =
      occurrencesFrom keyword (gap.reverse ++ passed) none rest := by
  induction gap generalizing passed with
  | nil => rfl
  | cons c gap ih =>
      obtain ⟨white, others⟩ := List.forall_mem_cons.mp blank
      have stop := isNameChar_of_isBlank white
      have mismatch : matchWord keyword (c :: (gap ++ rest)) = none := by
        rw [matchWord_eq known, if_neg]
        simp only [List.takeWhile_cons, stop]
        exact fun same => (known.of_sameWord same).nonempty rfl
      rw [List.cons_append, occurrencesFrom, advance_of_isBlank white, ih others]
      simp [mismatch]

theorem occurrencesFrom_inside (letters : ∀ c ∈ word, isNameChar c = true)
    (inside : endsWord passed = false) (rest : Text) :
    occurrencesFrom keyword passed none (word ++ rest) =
      occurrencesFrom keyword (word.reverse ++ passed) none rest := by
  induction word generalizing passed with
  | nil => rfl
  | cons c word ih =>
      obtain ⟨part, others⟩ := List.forall_mem_cons.mp letters
      have outside : advance none c = none := by simp [advance, isQuote_of_isNameChar part]
      have further : endsWord (c :: passed) = false := by rw [endsWord_cons, part]; rfl
      rw [List.cons_append, occurrencesFrom, outside, ih others further]
      simp [inside]

/-- A word that stands alone is an occurrence if it is the keyword, and has none in it. -/
theorem occurrencesFrom_word (known : IsWord keyword) (solid : IsWord word)
    (starts : endsWord passed = true) (ends : endsWord rest = true) :
    occurrencesFrom keyword passed none (word ++ rest) =
      (if sameWord word keyword then [⟨passed.reverse, word, rest⟩] else []) ++
        occurrencesFrom keyword (word.reverse ++ passed) none rest := by
  have matched := matchWord_eq known (word ++ rest)
  rw [solid.takeWhile_append ends, solid.dropWhile_append ends] at matched
  obtain ⟨c, more, rfl⟩ := List.exists_cons_of_ne_nil solid.nonempty
  obtain ⟨part, others⟩ := List.forall_mem_cons.mp solid.letters
  have outside : advance none c = none := by simp [advance, isQuote_of_isNameChar part]
  have further : endsWord (c :: passed) = false := by rw [endsWord_cons, part]; rfl
  rw [List.cons_append] at matched ⊢
  have here : ((none : Option Char).isNone && !isQuote c && endsWord passed) = true := by
    simp [isQuote_of_isNameChar part, starts]
  rw [occurrencesFrom, outside, occurrencesFrom_inside others further, matched, if_pos here]
  by_cases same : sameWord (c :: more) keyword = true <;> simp [same]

-- Occurrences that start in the first part come first, wherever they end.
theorem exists_occurrencesFrom_append (keyword passed : Text) (quote : Option Char)
    (first rest : Text) :
    ∃ earlier, occurrencesFrom keyword passed quote (first ++ rest) =
      earlier ++
        occurrencesFrom keyword (first.reverse ++ passed) (advanceAll quote first) rest := by
  induction first generalizing passed quote with
  | nil => exact ⟨[], rfl⟩
  | cons c first ih =>
      obtain ⟨earlier, others⟩ := ih (c :: passed) (advance quote c)
      have later : occurrencesFrom keyword (c :: passed) (advance quote c) (first ++ rest) =
          earlier ++ occurrencesFrom keyword ((c :: first).reverse ++ passed)
            (advanceAll quote (c :: first)) rest := by
        rw [others]
        simp [advanceAll]
      rw [List.cons_append, occurrencesFrom]
      split
      · split
        · next found after _ =>
            exact ⟨⟨passed.reverse, found, after⟩ :: earlier, by rw [later]; rfl⟩
        · exact ⟨earlier, later⟩
      · exact ⟨earlier, later⟩

theorem Apart.endsWord_append {listed : List Text} (apart : Apart listed text)
    (ends : endsWord rest = true) : endsWord (text ++ rest) = true := by
  cases apart with
  | nil => exact ends
  | cons white => exact endsWord_of_blank white

theorem Apart.occurrencesFrom {listed : List Text} (apart : Apart listed text)
    (known : IsWord keyword) (others : ∀ word ∈ listed, sameWord word keyword = false)
    (ends : endsWord rest = true) (passed : Text) :
    occurrencesFrom keyword passed none (text ++ rest) =
      Text.occurrencesFrom keyword (text.reverse ++ passed) none rest := by
  induction apart generalizing passed with
  | nil => rfl
  | @cons c gap word tail listed white blank solid apart ih =>
      obtain ⟨different, others⟩ := List.forall_mem_cons.mp others
      have spaces : Blank (c :: gap) := List.forall_mem_cons.mpr ⟨white, blank⟩
      have starts : endsWord ((c :: gap).reverse ++ passed) = true :=
        endsWord_reverse_append spaces (List.cons_ne_nil _ _)
      rw [List.append_assoc, List.append_assoc, occurrencesFrom_blank known spaces,
        occurrencesFrom_word known solid starts (apart.endsWord_append ends), different,
        ih others]
      simp

end Passing

section Dividing

structure Occurrence.Divides (keyword text : Text) (occurrence : Occurrence) : Prop where
  whole : text = occurrence.before ++ (occurrence.found ++ occurrence.after)
  closed : advanceAll none occurrence.before = none
  starts : endsWord occurrence.before.reverse = true
  spelled : sameWord occurrence.found keyword = true
  ends : endsWord occurrence.after = true

theorem matchWord_eq_some {found after : Text}
    (matched : matchWord keyword text = some (found, after)) :
    text = found ++ after ∧ sameWord found keyword = true ∧ endsWord after = true := by
  simp only [matchWord, Option.ite_none_right_eq_some, Bool.and_eq_true, Option.some.injEq,
    Prod.mk.injEq] at matched
  obtain ⟨⟨same, ends⟩, rfl, rfl⟩ := matched
  exact ⟨(List.take_append_drop _ _).symm, same, ends⟩

/-- The occurrence as it is seen from a point of the text: `passed` lies behind that point and
    `middle` between it and the keyword. -/
structure Occurrence.Ahead (keyword passed : Text) (quote : Option Char) (text middle : Text)
    (occurrence : Occurrence) : Prop where
  whole : text = middle ++ (occurrence.found ++ occurrence.after)
  before : occurrence.before = passed.reverse ++ middle
  closed : advanceAll quote middle = none
  starts : endsWord (middle.reverse ++ passed) = true
  spelled : sameWord occurrence.found keyword = true
  ends : endsWord occurrence.after = true

theorem Occurrence.Ahead.cons {c : Char} {quote : Option Char} {middle : Text}
    {occurrence : Occurrence}
    (ahead : occurrence.Ahead keyword (c :: passed) (advance quote c) text middle) :
    occurrence.Ahead keyword passed quote (c :: text) (c :: middle) where
  whole := congrArg (c :: ·) ahead.whole
  before := by simpa using ahead.before
  closed := ahead.closed
  starts := by simpa using ahead.starts
  spelled := ahead.spelled
  ends := ahead.ends

theorem exists_ahead_of_mem {quote : Option Char} {occurrence : Occurrence}
    (member : occurrence ∈ occurrencesFrom keyword passed quote text) :
    ∃ middle, occurrence.Ahead keyword passed quote text middle := by
  induction text generalizing passed quote with
  | nil => cases member
  | cons c rest ih =>
      have further (later : occurrence ∈
          occurrencesFrom keyword (c :: passed) (advance quote c) rest) :
          ∃ middle, occurrence.Ahead keyword passed quote (c :: rest) middle := by
        obtain ⟨middle, ahead⟩ := ih later
        exact ⟨c :: middle, ahead.cons⟩
      rw [occurrencesFrom] at member
      split at member
      · next here =>
          simp only [Bool.and_eq_true, Option.isNone_iff_eq_none] at here
          split at member
          · next found after matched =>
              rcases List.mem_cons.mp member with rfl | later
              · obtain ⟨whole, spelled, ends⟩ := matchWord_eq_some matched
                exact ⟨[], whole, (List.append_nil _).symm, here.1.1, here.2, spelled, ends⟩
              · exact further later
          · exact further member
      · exact further member

theorem divides_of_mem_occurrences {occurrence : Occurrence}
    (member : occurrence ∈ occurrences keyword text) : occurrence.Divides keyword text := by
  obtain ⟨middle, ahead⟩ := exists_ahead_of_mem member
  have before : occurrence.before = middle := ahead.before
  have starts := ahead.starts
  rw [List.append_nil] at starts
  subst before
  exact ⟨ahead.whole, ahead.closed, starts, ahead.spelled, ahead.ends⟩

theorem IsWord.trimEnd_append (solid : IsWord word) (text : Text) :
    trimEnd (text ++ word) = text ++ word := by
  have filled : word.reverse ≠ [] := List.reverse_ne_nil_iff.mpr solid.nonempty
  obtain ⟨c, more, reversed⟩ := List.exists_cons_of_ne_nil filled
  have visible := solid.solid c (List.mem_reverse.mp (reversed ▸ List.mem_cons_self))
  have kept : (text ++ word).reverse.dropWhile isBlank = (text ++ word).reverse := by
    rw [List.reverse_append, reversed, List.cons_append, List.dropWhile_cons, visible]
    rfl
  rw [trimEnd, kept, List.reverse_reverse]

/-- The keyword is taken off the end of a text that closes its quotes before it. -/
theorem stripTrailing_append (known : IsWord keyword) (spelled : sameWord word keyword = true)
    (closed : advanceAll none text = none) (trimmed : trimEnd text = text) (blank : Blank gap)
    (filled : gap ≠ []) : stripTrailing keyword (text ++ (gap ++ word)) = some text := by
  have solid := known.of_sameWord spelled
  have kept := solid.trimEnd_append (text ++ gap)
  rw [List.append_assoc] at kept
  have starts : endsWord (gap.reverse ++ text.reverse) = true :=
    endsWord_reverse_append blank filled
  have last := occurrencesFrom_word known solid starts (rfl : endsWord [] = true)
  obtain ⟨earlier, found⟩ := exists_occurrencesFrom_append keyword [] none text (gap ++ word)
  rw [List.append_nil] at last found
  rw [stripTrailing, kept, occurrences, found, closed, occurrencesFrom_blank known blank, last,
    if_pos spelled]
  simp [occurrencesFrom, trimEnd_append_blank blank, trimmed]

end Dividing

end MiniAbap.Text
