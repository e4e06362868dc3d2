import MiniAbap.Proofs.LetterCase.Text
import MiniAbap.Token.Scan

/-!
Expression texts that differ in the case of letters outside literals scan to the
same tokens but for the case of names. A scan that fails has the same fault.
-/

namespace MiniAbap

section Results

inductive Alike {ε α : Type} (faults : ε → ε → Prop) (values : α → α → Prop) :
    Except ε α → Except ε α → Prop where
  | error {one other : ε} (same : faults one other) :
      Alike faults values (.error one) (.error other)
  | ok {one other : α} (same : values one other) : Alike faults values (.ok one) (.ok other)

namespace Alike

variable {ε α β : Type} {faults : ε → ε → Prop} {values : α → α → Prop}
  {images : β → β → Prop} {first second : Except ε α}

theorem result_cases (alike : Alike faults values first second) :
    (∃ one other, first = .error one ∧ second = .error other ∧ faults one other) ∨
      ∃ one other, first = .ok one ∧ second = .ok other ∧ values one other := by
  cases alike with
  | error same => exact .inl ⟨_, _, rfl, rfl, same⟩
  | ok same => exact .inr ⟨_, _, rfl, rfl, same⟩

theorem bind {next next' : α → Except ε β} (alike : Alike faults values first second)
    (later : ∀ one other, values one other → Alike faults images (next one) (next' other)) :
    Alike faults images (first >>= next) (second >>= next') := by
  cases alike with
  | error same => exact .error same
  | ok same => exact later _ _ same

theorem map {shape shape' : α → β} (alike : Alike faults values first second)
    (kept : ∀ one other, values one other → images (shape one) (shape' other)) :
    Alike faults images (first.map shape) (second.map shape') := by
  cases alike with
  | error same => exact .error same
  | ok same => exact .ok (kept _ _ same)

end Alike

def folded (message : String) : Text :=
  Text.lower message.toList

@[simp] theorem folded_append (first second : String) :
    folded (first ++ second) = folded first ++ folded second := by
  simp [folded, Text.lower]

@[simp] theorem folded_ofList (text : Text) : folded (String.ofList text) = Text.lower text := by
  simp [folded]

def SameMessage {ε : Type} (message : ε → String) (one other : ε) : Prop :=
  folded (message one) = folded (message other)

theorem Alike.refl {ε α : Type} {message : ε → String} (result : Except ε α) :
    Alike (SameMessage message) Eq result result := by
  cases result with
  | error fault => exact .error rfl
  | ok value => exact .ok rfl

end Results

namespace Text.Recased

variable {first second : Text}

-- Up to the quote that closes it, a literal is the same in both.
theorem closeLiteral {quote : Char} (recased : Recased (some quote) first second) :
    first.takeWhile (· != quote) = second.takeWhile (· != quote) ∧
      ((first.dropWhile (· != quote) = [] ∧ second.dropWhile (· != quote) = []) ∨
        ∃ after after', first.dropWhile (· != quote) = quote :: after ∧
          second.dropWhile (· != quote) = quote :: after' ∧ Recased none after after') := by
  induction first generalizing second with
  | nil =>
      cases recased
      exact ⟨rfl, .inl ⟨rfl, rfl⟩⟩
  | cons c rest ih =>
      cases recased with
      | @cons _ _ d _ other same literal others =>
          obtain rfl := literal (Option.some_ne_none quote)
          by_cases closes : c = quote
          · subst closes
            simp only [advance, if_true] at others
            simp [others]
          · rw [advance, if_neg closes] at others
            have later := ih others
            simpa [closes] using later

end Text.Recased

section Scanning

open Text (Recased lower)

variable {first second : Text}

namespace Lexeme

theorem insensitive_isSpace : Text.Insensitive isSpace := by
  apply Text.insensitive_of_letters false
  intro c letter
  have range := Text.range_of_isAlpha letter
  simp only [isSpace, Bool.or_eq_false_iff, beq_eq_false_iff_ne]
  refine ⟨⟨⟨⟨?_, ?_⟩, ?_⟩, ?_⟩, ?_⟩ <;>
    · rintro rfl
      simp at range

theorem startsNumber_lower (text : Text) : startsNumber (lower text) = startsNumber text := by
  cases text with
  | nil => rfl
  | cons c rest =>
      have point := Text.insensitive_beq (by decide : ('.').isAlpha = false)
      have next := Text.insensitive_isDigit.head_lower rest
      simp only [lower] at next
      simp only [startsNumber, lower, List.map_cons, Text.insensitive_isDigit.toLower,
        point.toLower, next]

theorem numberSpelling_lower (text : Text) :
    numberSpelling (lower text) = lower (numberSpelling text) := by
  have point := Text.insensitive_beq (by decide : ('.').isAlpha = false)
  simp only [numberSpelling, Text.insensitive_isDigit.takeWhile_lower,
    Text.insensitive_isDigit.dropWhile_lower]
  cases text.dropWhile Char.isDigit with
  | nil => rfl
  | cons c more =>
      by_cases dot : c = '.'
      · subst dot
        have digits := Text.insensitive_isDigit.takeWhile_lower more
        simp only [lower] at digits
        simp [lower, digits]
      · have kept := point.toLower c
        rw [beq_eq_false_iff_ne.mpr dot, beq_eq_false_iff_ne] at kept
        simp [lower, dot, kept]

theorem numberSpelling_isPrefix (text : Text) : numberSpelling text <+: text := by
  rw [numberSpelling]
  split
  · next more rest =>
      refine ⟨more.dropWhile Char.isDigit, ?_⟩
      rw [List.append_assoc, List.cons_append, List.takeWhile_append_dropWhile, ← rest,
        List.takeWhile_append_dropWhile]
  · exact List.takeWhile_prefix _

theorem mem_numberSpelling {text : Text} {c : Char} (member : c ∈ numberSpelling text) :
    c.isDigit = true ∨ c = '.' := by
  rw [numberSpelling] at member
  split at member
  · rw [List.mem_append, List.mem_cons] at member
    rcases member with digit | dot | digit
    · exact .inl (List.mem_takeWhile_imp digit)
    · exact .inr dot
    · exact .inl (List.mem_takeWhile_imp digit)
  · exact .inl (List.mem_takeWhile_imp member)

end Lexeme

inductive Token.Recased : Token → Token → Prop where
  | same (token : Token) : Recased token token
  | name {word other : Text} (same : lower word = lower other) :
      Recased (.name word) (.name other)

theorem Token.Recased.spelling_eq {one other : Token} (recased : one.Recased other) :
    lower one.spelling = lower other.spelling := by
  cases recased with
  | same => rfl
  | name same => exact same

structure Lexeme.Recased (one other : Lexeme) : Prop where
  token : one.token.Recased other.token
  length : one.spelling.length = other.spelling.length
  rest : Text.Recased none one.rest other.rest

theorem Text.Recased.number (recased : Recased none first second) :
    Lexeme.Recased (Lexeme.number first) (Lexeme.number second) := by
  have spellings : Lexeme.numberSpelling first = Lexeme.numberSpelling second := by
    apply Text.eq_of_no_letter
    · rw [← Lexeme.numberSpelling_lower, recased.lower_eq, Lexeme.numberSpelling_lower]
    · intro c member
      rcases Lexeme.mem_numberSpelling member with digit | rfl
      · exact Text.isAlpha_of_isDigit digit
      · decide
  have plain : ∀ c ∈ first.take (Lexeme.numberSpelling first).length,
      Text.isQuote c = false := by
    rw [← List.prefix_iff_eq_take.mp (Lexeme.numberSpelling_isPrefix first)]
    intro c member
    rcases Lexeme.mem_numberSpelling member with digit | rfl
    · exact Text.isQuote_of_isNameChar (by simp [Text.isNameChar, Char.isAlphanum, digit])
    · decide
  have rest := recased.drop_plain plain
  simp only [Lexeme.number, ← spellings]
  exact ⟨.same _, rfl, rest⟩

theorem Text.Recased.name (recased : Recased none first second) :
    Lexeme.Recased (Lexeme.name first) (Lexeme.name second) := by
  have word := (recased.takeWhile Text.insensitive_isNameChar).lower_eq
  exact ⟨.name word, Text.length_eq word, recased.leadingWord.2⟩

theorem Text.Recased.literal? {quote : Char} (recased : Recased (some quote) first second) :
    Option.Rel Lexeme.Recased (Lexeme.literal? quote first) (Lexeme.literal? quote second) := by
  obtain ⟨content, ⟨left, right⟩ | ⟨after, after', left, right, rest⟩⟩ := recased.closeLiteral
  · simp only [Lexeme.literal?, left, right]
    exact .none
  · simp only [Lexeme.literal?, content, left, right]
    exact .some ⟨.same _, rfl, rest⟩

theorem isPrefixOf_lower {word : Text} (signs : ∀ c ∈ word, c.isAlpha = false) (text : Text) :
    word.isPrefixOf (lower text) = word.isPrefixOf text := by
  induction word generalizing text with
  | nil => rfl
  | cons sign word ih =>
      cases text with
      | nil => rfl
      | cons c rest =>
          have here := Text.insensitive_beq (signs sign List.mem_cons_self)
          have others := ih (fun d member => signs d (List.mem_cons_of_mem sign member)) rest
          have kept := here.toLower c
          rw [lower] at others
          rw [Bool.beq_comm, Bool.beq_comm (a := c)] at kept
          simp only [lower, List.map_cons, List.isPrefixOf_cons_cons, others, kept]

-- Symbols are neither letters nor quotes.
theorem Lexeme.signs_of_mem_symbols :
    ∀ symbol ∈ symbols, ∀ c ∈ symbol.1, c.isAlpha = false ∧ Text.isQuote c = false := by
  have all : (symbols.all fun symbol =>
      symbol.1.all fun c => !c.isAlpha && !Text.isQuote c) = true := by decide
  simpa using all

theorem Lexeme.symbol?_eq (same : lower first = lower second) : symbol? first = symbol? second := by
  rw [symbol?, symbol?]
  apply List.find?_congr
  intro symbol member
  have signs := fun c inside => (signs_of_mem_symbols symbol member c inside).1
  rw [← isPrefixOf_lower signs first, same, isPrefixOf_lower signs]

theorem Text.Recased.lexeme {c d : Char} {rest other : Text}
    (recased : Recased none (c :: rest) (d :: other)) (column : Nat) :
    Alike Eq Lexeme.Recased (Lexeme.read column c rest) (Lexeme.read column d other) := by
  have folds := recased.lower_eq
  have starts : Lexeme.startsNumber (c :: rest) = Lexeme.startsNumber (d :: other) := by
    rw [← Lexeme.startsNumber_lower, folds, Lexeme.startsNumber_lower]
  have here : c.toLower = d.toLower := (List.cons.inj folds).1
  simp only [Lexeme.read, starts, Text.insensitive_isNameStart c d here,
    Text.insensitive_isQuote c d here, Lexeme.symbol?_eq folds]
  split
  · exact .ok recased.number
  · split
    · exact .ok recased.name
    · next outside =>
        -- The character is no letter from here on, so it is the same in both.
        obtain rfl : c = d := by
          rcases Text.eq_or_isAlpha here with same | ⟨_, letter⟩
          · exact same
          · simp [Text.isNameStart, letter] at outside
        split
        · next opens =>
            cases recased with
            | cons _ _ others =>
                simp only [Text.advance, opens, if_true] at others
                have literal := others.literal?
                generalize Lexeme.literal? c rest = one at literal
                generalize Lexeme.literal? c other = two at literal
                cases literal with
                | none => exact .error rfl
                | some lexeme => exact .ok lexeme
        · split
          · next spelling token found =>
              have plain : ∀ e ∈ (c :: rest).take spelling.length, Text.isQuote e = false := by
                rw [← Lexeme.symbol?_eq folds] at found
                have begins := List.find?_some found
                rw [← List.prefix_iff_eq_take.mp (List.isPrefixOf_iff_prefix.mp begins)]
                exact fun e member => (Lexeme.signs_of_mem_symbols _
                  (List.mem_of_find?_eq_some found) e member).2
              exact .ok ⟨.same _, rfl, recased.drop_plain plain⟩
          · exact .error rfl
          · exact .error rfl

theorem Lexeme.isQuote_of_isSpace {c : Char} (space : isSpace c = true) :
    Text.isQuote c = false := by
  simp only [isSpace, Bool.or_eq_true, beq_iff_eq] at space
  rcases space with (((rfl | rfl) | rfl) | rfl) | rfl <;> rfl

theorem Token.scanFrom_visible {c : Char} (visible : ¬ Lexeme.isSpace c = true) (column : Nat)
    (rest : Text) :
    scanFrom column (c :: rest) = (Lexeme.read column c rest >>= fun lexeme =>
      (scanFrom (column + lexeme.spelling.length) lexeme.rest).map (lexeme.token :: ·)) := by
  rw [scanFrom, if_neg visible]
  split
  · next error found =>
      rw [found]
      rfl
  · next lexeme found =>
      rw [found]
      change _ = (scanFrom (column + lexeme.spelling.length) lexeme.rest).map (lexeme.token :: ·)
      split
      · next error failed =>
          rw [failed]
          rfl
      · next tokens scanned =>
          rw [scanned]
          rfl

theorem Text.Recased.scanFrom (recased : Recased none first second) (column : Nat) :
    Alike Eq (List.Forall₂ Token.Recased) (Token.scanFrom column first)
      (Token.scanFrom column second) := by
  induction length : first.length using Nat.strong_induction_on generalizing first second column
    with
  | _ length ih =>
      have whole := recased
      cases recased with
      | nil =>
          simp only [Token.scanFrom]
          exact .ok .nil
      | @cons _ c d rest other same literal others =>
          subst length
          have spaces := Lexeme.insensitive_isSpace c d same
          by_cases space : Lexeme.isSpace c = true
          · have plain : Text.advance none c = none := by
              simp [Text.advance, Lexeme.isQuote_of_isSpace space]
            rw [plain] at others
            simp only [Token.scanFrom, space, ← spaces, if_true]
            exact ih rest.length (by simp) others _ rfl
          · rw [Token.scanFrom_visible space, Token.scanFrom_visible (spaces ▸ space)]
            rcases (whole.lexeme column).result_cases with
              ⟨error, _, left, right, rfl⟩ | ⟨one, two, left, right, lexemes⟩
            · rw [left, right]
              exact .error rfl
            · have shorter := Lexeme.read_rest_lt column c rest one left
              have later := ih _ shorter lexemes.rest (column + one.spelling.length) rfl
              rw [left, right]
              change Alike _ _ ((Token.scanFrom (column + one.spelling.length) one.rest).map _)
                ((Token.scanFrom (column + two.spelling.length) two.rest).map _)
              rw [← lexemes.length]
              exact later.map fun tokens others alike => .cons lexemes.token alike

end Scanning

end MiniAbap
