import MiniAbap.Proofs.Text.Literal
import MiniAbap.Proofs.Text.Occurrence
import MiniAbap.Proofs.Token.Scan

/-!
Words in a text that scans. A name that stands as a word of its own outside the literals of
such a text is a token, and what stands on both sides of it scans on its own: no spelling but
that of a name has a letter in it outside a literal, so the word cannot start inside one. The
two ways to tell literals apart, by scanning tokens and by following quotes, agree.
-/

namespace MiniAbap

namespace Pattern

variable {pattern : Pattern} {spelling : Text}

section Characters

theorem mem_of_number {c : Char} (matched : Pattern.number.Matches spelling)
    (member : c ∈ spelling) : c.isDigit = true ∨ c = '.' := by
  cases matched with
  | digits filled decimal => exact .inl (List.all_eq_true.mp decimal c member)
  | pointed filled decimal more =>
      rcases List.mem_append.mp member with whole | part
      · exact .inl (List.all_eq_true.mp decimal c whole)
      · rcases List.mem_cons.mp part with point | fraction
        · exact .inr point
        · exact .inl (List.all_eq_true.mp more c fraction)
  | fraction filled decimal =>
      rcases List.mem_cons.mp member with point | digit
      · exact .inr point
      · exact .inl (List.all_eq_true.mp decimal c digit)

end Characters

section Literals

/-- A spelling that has a token closes the quote it opens. -/
theorem Matches.closed {token : Token} (matched : pattern.Matches spelling)
    (meaning : pattern.token? spelling = some token) : Text.advanceAll none spelling = none := by
  cases pattern with
  | number =>
      apply Text.advanceAll_of_no_quote
      intro c member
      rcases mem_of_number matched member with digit | rfl
      · exact Text.isQuote_of_isNameChar (by simp [Text.isNameChar, Char.isAlphanum, digit])
      · decide
  | literal =>
      cases matched with
      | @literal quote content opens inside =>
          rw [Text.advanceAll_quote opens, Text.advanceAll_append,
            Text.advanceAll_of_not_mem inside]
          simp [Text.advanceAll, Text.advance]
  | openLiteral => cases meaning
  | name =>
      cases matched with
      | name name => exact Text.advanceAll_of_no_quote (Text.isWord_of_isName name).plain
  | symbol =>
      apply Text.advanceAll_of_no_quote
      intro c member
      have family := (of?_of_symbol matched).2 c member
      cases quote : Text.isQuote c with
      | false => rfl
      | true =>
          rw [of?_of_isQuote quote] at family
          cases family

end Literals

section Inside

variable {part more : Text} {c : Char}

-- The part reaches into the literal, whose quote is then still open.
theorem advanceAll_part {quote : Char} {content : Text} (opens : Text.isQuote quote = true)
    (inside : quote ∉ content) (filled : part ≠ []) (starts : part <+: quote :: content) :
    Text.advanceAll none part = some quote := by
  obtain ⟨first, part, rfl⟩ := List.exists_cons_of_ne_nil filled
  obtain ⟨rfl, others⟩ := List.cons_prefix_cons.mp starts
  rw [Text.advanceAll_quote opens, Text.advanceAll_of_not_mem]
  exact fun member => inside (others.subset member)

/-- A name that starts inside a spelling starts inside a literal or another name. -/
theorem Matches.inside (matched : pattern.Matches (part ++ c :: more)) (filled : part ≠ [])
    (start : Text.isNameStart c = true) (closed : Text.advanceAll none part = none) :
    Text.endsWord part.reverse = false := by
  have here : c ∈ part ++ c :: more := List.mem_append_right part List.mem_cons_self
  have family := of?_of_isNameStart start
  cases pattern with
  | number =>
      rcases mem_of_number matched here with digit | rfl
      · simp [Family.of?, digit] at family
      · cases family
  | literal =>
      generalize whole : part ++ c :: more = spelling at matched
      cases matched with
      | @literal quote content opens inside =>
          have short : part.length ≤ (quote :: content).length := by
            have lengths := congrArg List.length whole
            simp only [List.length_append, List.length_cons, List.length_nil] at lengths ⊢
            omega
          have reaches : part <+: quote :: content ++ [quote] := by
            rw [List.cons_append, ← whole]
            exact List.prefix_append part _
          have starts : part <+: quote :: content :=
            List.prefix_of_prefix_length_le reaches (List.prefix_append _ [quote]) short
          rw [advanceAll_part opens inside filled starts] at closed
          cases closed
  | openLiteral =>
      generalize whole : part ++ c :: more = spelling at matched
      cases matched with
      | openLiteral opens inside =>
          rw [advanceAll_part opens inside filled (whole ▸ List.prefix_append part _)] at closed
          cases closed
  | name =>
      cases matched with
      | name name =>
          have last : part.reverse ≠ [] := List.reverse_ne_nil_iff.mpr filled
          obtain ⟨d, others, reversed⟩ := List.exists_cons_of_ne_nil last
          have member : d ∈ part := List.mem_reverse.mp (reversed ▸ List.mem_cons_self)
          rw [reversed, Text.endsWord_cons,
            (Text.isWord_of_isName name).letters d (List.mem_append_left _ member)]
          rfl
  | symbol =>
      rw [(of?_of_symbol matched).2 c here] at family
      cases family

end Inside

end Pattern

namespace Token

open Lexeme (isSpace)

variable {tokens : List Token} {text rest before word after : Text}

theorem isNameChar_of_isSpace {c : Char} (space : isSpace c = true) :
    Text.isNameChar c = false := by
  simp only [isSpace, Bool.or_eq_true, beq_iff_eq] at space
  rcases space with (((rfl | rfl) | rfl) | rfl) | rfl <;> decide

theorem advanceAll_spaces {gap : Text} (spaces : ∀ c ∈ gap, isSpace c = true) :
    Text.advanceAll none gap = none :=
  Text.advanceAll_of_no_quote fun c member => Lexeme.isQuote_of_isSpace (spaces c member)

/-- A text that scans closes its quotes. -/
theorem Scanned.closed (scanned : Scanned tokens text []) : Text.advanceAll none text = none := by
  generalize ended : ([] : Text) = rest at scanned
  induction scanned with
  | nil spaces =>
      rw [← ended, List.append_nil]
      exact advanceAll_spaces spaces
  | cons spaces takes meaning _ ih =>
      rw [Text.advanceAll_append, advanceAll_spaces spaces, Text.advanceAll_append,
        takes.matched.closed meaning]
      exact ih ended

theorem takes_word (name : Text.isName word = true) (ends : Text.endsWord after = true) :
    Pattern.name.Takes word after := by
  have solid := Text.isWord_of_isName name
  obtain ⟨c, more, rfl⟩ := List.exists_cons_of_ne_nil solid.nonempty
  rw [Text.isName, Bool.and_eq_true] at name
  have takes := Lexeme.takes_name name.1 (more ++ after)
  rw [← List.cons_append, solid.takeWhile_append ends, solid.dropWhile_append ends] at takes
  exact takes

-- A name is all of its text, so it is scanned as one token.
theorem scan_name (name : Text.isName word = true) : scan word = .ok [.name word] := by
  have takes := takes_word name (rfl : Text.endsWord [] = true)
  have scanned : Scanned [.name word] ([] ++ (word ++ [])) [] := .cons nofun takes rfl (.refl [])
  rw [List.nil_append, List.append_nil] at scanned
  exact scan_eq_ok_of_scanned scanned

section Dividing

theorem exists_part {gap tail : Text} (spaces : ∀ c ∈ gap, isSpace c = true)
    (solid : Text.IsWord word) (divided : gap ++ tail = before ++ (word ++ after)) :
    ∃ part, before = gap ++ part ∧ tail = part ++ (word ++ after) := by
  rcases List.append_eq_append_iff.mp divided with ⟨part, start, others⟩ | ⟨more, start, others⟩
  · exact ⟨part, start, others⟩
  · cases more with
    | nil => exact ⟨[], by simpa using start.symm, by simpa using others.symm⟩
    | cons c more =>
        obtain ⟨d, letters, rfl⟩ := List.exists_cons_of_ne_nil solid.nonempty
        obtain ⟨rfl, _⟩ := List.cons.inj others
        have space := spaces d (start ▸ List.mem_append_right before List.mem_cons_self)
        have letter := solid.letters d List.mem_cons_self
        rw [isNameChar_of_isSpace space] at letter
        cases letter

-- The word stands after the spelling, or starts in it.
theorem after_or_inside {spelling tail part : Text} (solid : Text.IsWord word)
    (divided : spelling ++ tail = part ++ (word ++ after)) :
    (∃ later, part = spelling ++ later ∧ tail = later ++ (word ++ after)) ∨
      ∃ c letters more, word = c :: letters ∧ spelling = part ++ c :: more := by
  rcases List.append_eq_append_iff.mp divided with ⟨later, start, others⟩ | ⟨more, start, others⟩
  · exact .inl ⟨later, start, others⟩
  · cases more with
    | nil => exact .inl ⟨[], by simpa using start.symm, by simpa using others.symm⟩
    | cons c more =>
        obtain ⟨d, letters, rfl⟩ := List.exists_cons_of_ne_nil solid.nonempty
        obtain ⟨rfl, _⟩ := List.cons.inj others
        exact .inr ⟨d, letters, more, rfl, start⟩

theorem Scanned.divide (scanned : Scanned tokens text rest) (ended : rest = [])
    (divided : text = before ++ (word ++ after)) (name : Text.isName word = true)
    (closed : Text.advanceAll none before = none)
    (starts : Text.endsWord before.reverse = true) (ends : Text.endsWord after = true) :
    ∃ first second, tokens = first ++ .name word :: second ∧ Scanned first before [] ∧
      Scanned second after [] := by
  have solid := Text.isWord_of_isName name
  induction scanned generalizing before with
  | nil spaces =>
      obtain ⟨part, rfl, others⟩ := exists_part spaces solid divided
      rw [ended] at others
      simp [solid.nonempty] at others
  | @cons pattern token tokens gap spelling tail rest spaces takes meaning scanned ih =>
      obtain ⟨part, rfl, others⟩ := exists_part spaces solid divided
      have partStarts := Text.endsWord_reverse_right starts
      rw [Text.advanceAll_append, advanceAll_spaces spaces] at closed
      rcases after_or_inside solid others with ⟨later, rfl, rfl⟩ | ⟨c, letters, more, rfl, rfl⟩
      · rw [Text.advanceAll_append, takes.matched.closed meaning] at closed
        obtain ⟨first, second, rfl, left, right⟩ :=
          ih ended rfl closed (Text.endsWord_reverse_right partStarts)
        refine ⟨token :: first, second, rfl, ?_, right⟩
        exact .cons spaces takes.of_append meaning left
      · cases part with
        | nil =>
            obtain ⟨rfl, same, rfl⟩ := takes.unique (takes_word name ends) others
            cases meaning
            refine ⟨[], tokens, ?_, ?_, ended ▸ scanned⟩
            · rw [same, List.nil_append]
            · exact .nil spaces
        | cons d part =>
            rw [Text.isName, Bool.and_eq_true] at name
            rw [takes.matched.inside (List.cons_ne_nil _ _) name.1 closed] at partStarts
            cases partStarts

theorem Scanned.eq_nil (scanned : Scanned tokens [] rest) : tokens = [] := by
  generalize whole : ([] : Text) = text at scanned
  cases scanned with
  | nil => rfl
  | cons _ takes =>
      obtain ⟨c, more, rfl, _⟩ := takes.matched.of?_eq
      simp at whole

/-- A keyword ends a text that scans only where it is the last token. -/
theorem stripTrailing_eq_none {keyword : Text} (known : Text.isName keyword = true)
    (scanned : scan text = .ok tokens) (trimmed : Text.trimEnd text = text)
    (other : ∀ word, tokens.getLast? = some (.name word) → Text.sameWord word keyword = false) :
    Text.stripTrailing keyword text = none := by
  rw [Text.stripTrailing, trimmed]
  cases last : (Text.occurrences keyword text).getLast? with
  | none => rfl
  | some occurrence =>
      have divides := Text.divides_of_mem_occurrences (List.mem_of_getLast? last)
      have name : Text.isName occurrence.found = true :=
        (Text.isName_eq (beq_iff_eq.mp divides.spelled)).trans known
      by_cases ends : occurrence.after.isEmpty = true
      · obtain ⟨first, second, rfl, _, right⟩ := ((scan_eq_ok_iff _ _).mp scanned).divide rfl
          divides.whole name divides.closed divides.starts divides.ends
        rw [List.isEmpty_iff.mp ends] at right
        have different := other occurrence.found (by simp [right.eq_nil])
        rw [divides.spelled] at different
        cases different
      · simp [ends]

end Dividing

end Token

end MiniAbap
