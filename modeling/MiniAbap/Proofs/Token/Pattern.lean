import MiniAbap.Proofs.LetterCase.Token
import MiniAbap.Proofs.Text.Word

/-!
The patterns of the tokens, said without a scanner, and that the reader for lexemes takes
the longest spelling that any of them matches:

  number       [0-9]+ ( . [0-9]* )?  and  . [0-9]+
  literal      a quote, anything but that quote, the quote
  open literal a quote, anything but that quote
  name         [A-Za-z_] [A-Za-z0-9_-]*
  symbol       operators and parentheses, and the operators of other languages

Open literals and foreign operators are patterns only to be refused by name. The first
character of a spelling decides which of these it can be, so the longest spelling is sought
among few patterns at any place.
-/

namespace MiniAbap

inductive Pattern where
  | number
  | literal
  | openLiteral
  | name
  /-- A fixed spelling. Those of other languages have no token. -/
  | symbol (token : Option Token)

namespace Pattern

def foreign : List Text :=
  ["==".toList, "<=".toList, ">=".toList, "!=".toList, "!".toList]

inductive Matches : Pattern → Text → Prop where
  | digits {digits : Text} (filled : digits ≠ []) (decimal : Text.isDigits digits = true) :
      Matches .number digits
  | pointed {whole fraction : Text} (filled : whole ≠ [])
      (decimal : Text.isDigits whole = true) (more : Text.isDigits fraction = true) :
      Matches .number (whole ++ '.' :: fraction)
  | fraction {digits : Text} (filled : digits ≠ []) (decimal : Text.isDigits digits = true) :
      Matches .number ('.' :: digits)
  | literal {quote : Char} {content : Text} (opens : Text.isQuote quote = true)
      (inside : quote ∉ content) : Matches .literal (quote :: (content ++ [quote]))
  | openLiteral {quote : Char} {content : Text} (opens : Text.isQuote quote = true)
      (inside : quote ∉ content) : Matches .openLiteral (quote :: content)
  | name {word : Text} (name : Text.isName word = true) : Matches .name word
  | operator (op : BinaryOp) : Matches (.symbol (some (.operator op))) op.symbol.toList
  | leftParen : Matches (.symbol (some .leftParen)) ['(']
  | rightParen : Matches (.symbol (some .rightParen)) [')']
  | foreign {spelling : Text} (listed : spelling ∈ Pattern.foreign) :
      Matches (.symbol none) spelling

def token? : Pattern → Text → Option Token
  | .number, spelling => (Number.read? spelling).map .number
  | .literal, spelling => some (.literal spelling.tail.dropLast)
  | .openLiteral, _ => none
  | .name, spelling => some (.name spelling)
  | .symbol token, _ => token

/-- The spelling is taken off a text that goes on with `rest`: it matches the pattern, and no
    longer start of the text matches any pattern. -/
structure Takes (pattern : Pattern) (spelling rest : Text) : Prop where
  matched : pattern.Matches spelling
  longest : ∀ (other : Pattern) longer, other.Matches longer → longer <+: spelling ++ rest →
    longer.length ≤ spelling.length

theorem Takes.of_append {pattern : Pattern} {spelling rest more : Text}
    (takes : pattern.Takes spelling (rest ++ more)) : pattern.Takes spelling rest := by
  constructor
  · exact takes.matched
  · intro other longer matched starts
    apply takes.longest other longer matched
    rw [← List.append_assoc]
    exact starts.trans (List.prefix_append _ _)

section Symbols

/-- The symbols are listed with the spellings that match them. -/
theorem matches_symbol_iff (token : Option Token) (spelling : Text) :
    (Pattern.symbol token).Matches spelling ↔ (spelling, token) ∈ Lexeme.symbols := by
  constructor
  · intro matched
    cases matched with
    | operator op => cases op <;> simp [Lexeme.symbols, BinaryOp.symbol]
    | leftParen => simp [Lexeme.symbols]
    | rightParen => simp [Lexeme.symbols]
    | foreign listed =>
        simp only [Pattern.foreign, List.mem_cons, List.not_mem_nil, or_false] at listed
        rcases listed with rfl | rfl | rfl | rfl | rfl <;> simp [Lexeme.symbols]
  · intro listed
    simp only [Lexeme.symbols, List.mem_cons, Prod.mk.injEq, List.not_mem_nil, or_false] at listed
    rcases listed with h | h | h | h | h | h | h | h | h | h | h | h | h | h | h <;>
      obtain ⟨rfl, rfl⟩ := h
    iterate 4 · exact .foreign (by simp [Pattern.foreign])
    · exact .operator .notEqual
    · exact .foreign (by simp [Pattern.foreign])
    · exact .operator .plus
    · exact .operator .minus
    · exact .operator .times
    · exact .operator .over
    · exact .operator .equal
    · exact .operator .less
    · exact .operator .greater
    · exact .leftParen
    · exact .rightParen

end Symbols

section Families

inductive Family where
  | number
  | quoted
  | name
  | symbol
  deriving DecidableEq

def family : Pattern → Family
  | .number => .number
  | .literal | .openLiteral => .quoted
  | .name => .name
  | .symbol _ => .symbol

def isSign (c : Char) : Bool :=
  "=<>!+-*/()".toList.contains c

def Family.of? (c : Char) : Option Family :=
  if c.isDigit || c == '.' then some .number
  else if Text.isNameStart c then some .name
  else if Text.isQuote c then some .quoted
  else if isSign c then some .symbol
  else none

theorem of?_of_isNameStart {c : Char} (start : Text.isNameStart c = true) :
    Family.of? c = some .name := by
  have number : (c.isDigit || c == '.') = false := by
    cases digit : c.isDigit with
    | false =>
        have other : c ≠ '.' := by
          rintro rfl
          cases start
        simpa using other
    | true =>
        have other : c ≠ '_' := by
          rintro rfl
          cases digit
        simp [Text.isNameStart, Text.isAlpha_of_isDigit digit, other] at start
  simp [Family.of?, number, start]

theorem of?_of_isQuote {c : Char} (quote : Text.isQuote c = true) :
    Family.of? c = some .quoted := by
  simp only [Text.isQuote, Bool.or_eq_true, beq_iff_eq] at quote
  rcases quote with rfl | rfl <;> decide

theorem isNameStart_of_family {c : Char} (family : Family.of? c = some .name) :
    Text.isNameStart c = true := by
  grind [Family.of?]

theorem isQuote_of_family {c : Char} (family : Family.of? c = some .quoted) :
    Text.isQuote c = true := by
  grind [Family.of?]

theorem of?_of_isDigits {digits : Text} {c : Char} (decimal : Text.isDigits digits = true)
    (first : c ∈ digits.head?) : Family.of? c = some .number := by
  have digit := List.all_eq_true.mp decimal c (List.mem_of_mem_head? first)
  simp [Family.of?, digit]

theorem of?_of_symbol {token : Option Token} {spelling : Text}
    (matched : (Pattern.symbol token).Matches spelling) :
    spelling ≠ [] ∧ ∀ c ∈ spelling, Family.of? c = some .symbol := by
  have all : (Lexeme.symbols.all fun symbol =>
      symbol.1 ≠ [] && symbol.1.all fun c => Family.of? c = some .symbol) = true := by decide
  have here := List.all_eq_true.mp all _ ((matches_symbol_iff _ _).mp matched)
  simpa using here

theorem Matches.of?_eq {pattern : Pattern} {spelling : Text} (matched : pattern.Matches spelling) :
    ∃ c more, spelling = c :: more ∧ Family.of? c = some pattern.family := by
  cases pattern with
  | number =>
      cases matched with
      | digits filled decimal =>
          obtain ⟨c, more, rfl⟩ := List.exists_cons_of_ne_nil filled
          exact ⟨c, more, rfl, of?_of_isDigits decimal rfl⟩
      | pointed filled decimal _ =>
          obtain ⟨c, more, rfl⟩ := List.exists_cons_of_ne_nil filled
          exact ⟨c, _, rfl, of?_of_isDigits decimal rfl⟩
      | fraction => exact ⟨_, _, rfl, rfl⟩
  | literal =>
      cases matched with
      | literal opens => exact ⟨_, _, rfl, of?_of_isQuote opens⟩
  | openLiteral =>
      cases matched with
      | openLiteral opens => exact ⟨_, _, rfl, of?_of_isQuote opens⟩
  | name =>
      cases matched with
      | name name =>
          cases spelling with
          | nil => cases name
          | cons c more =>
              rw [Text.isName, Bool.and_eq_true] at name
              exact ⟨c, more, rfl, of?_of_isNameStart name.1⟩
  | symbol token =>
      obtain ⟨filled, signs⟩ := of?_of_symbol matched
      obtain ⟨c, more, rfl⟩ := List.exists_cons_of_ne_nil filled
      exact ⟨c, more, rfl, signs c List.mem_cons_self⟩

/-- A pattern that matches at the head of a text is of the family of its first character. -/
theorem Matches.family_eq {pattern : Pattern} {spelling rest : Text} {c : Char}
    (matched : pattern.Matches spelling) (starts : spelling <+: c :: rest) :
    Family.of? c = some pattern.family := by
  obtain ⟨first, more, rfl, family⟩ := matched.of?_eq
  rw [← (List.cons_prefix_cons.mp starts).1]
  exact family

end Families

section Unique

variable {one other : Pattern} {spelling : Text}

theorem symbol_unique {token token' : Option Token}
    (first : (Pattern.symbol token).Matches spelling)
    (second : (Pattern.symbol token').Matches spelling) : token = token' := by
  have different : (Lexeme.symbols.map Prod.fst).Nodup := by decide
  have same := List.inj_on_of_nodup_map different ((matches_symbol_iff _ _).mp first)
    ((matches_symbol_iff _ _).mp second) rfl
  exact (Prod.mk.inj same).2

-- A closed literal has its quote inside, where an open one does not.
theorem not_literal_of_openLiteral (first : Pattern.literal.Matches spelling) :
    ¬ Pattern.openLiteral.Matches spelling := by
  intro second
  cases first with
  | literal opens inside =>
      cases second with
      | openLiteral _ absent => exact absent (by simp)

theorem Matches.unique (first : one.Matches spelling) (second : other.Matches spelling) :
    one = other := by
  obtain ⟨c, more, rfl, family⟩ := first.of?_eq
  have same := second.family_eq (List.prefix_refl _)
  rw [family] at same
  cases one with
  | number =>
      cases other with
      | number => rfl
      | literal | openLiteral | name | symbol => cases same
  | name =>
      cases other with
      | name => rfl
      | number | literal | openLiteral | symbol => cases same
  | literal =>
      cases other with
      | literal => rfl
      | openLiteral => exact absurd second (not_literal_of_openLiteral first)
      | number | name | symbol => cases same
  | openLiteral =>
      cases other with
      | openLiteral => rfl
      | literal => exact absurd first (not_literal_of_openLiteral second)
      | number | name | symbol => cases same
  | symbol token =>
      cases other with
      | symbol token' => rw [symbol_unique first second]
      | number | name | literal | openLiteral => cases same

/-- A text has at most one longest spelling at its head, and that has one pattern. -/
theorem Takes.unique {spelling' rest rest' : Text} (first : one.Takes spelling rest)
    (second : other.Takes spelling' rest') (same : spelling ++ rest = spelling' ++ rest') :
    one = other ∧ spelling = spelling' ∧ rest = rest' := by
  have long : spelling'.length ≤ spelling.length := by
    apply first.longest other _ second.matched
    rw [same]
    exact List.prefix_append _ _
  have short : spelling.length ≤ spelling'.length := by
    apply second.longest one _ first.matched
    rw [← same]
    exact List.prefix_append _ _
  obtain ⟨rfl, rfl⟩ := List.append_inj same (Nat.le_antisymm short long)
  exact ⟨first.matched.unique second.matched, rfl, rfl⟩

end Unique

section Longest

variable {spelling longer text rest : Text} {quote : Char}

theorem length_le_of_symbol? {token other : Option Token}
    (found : Lexeme.symbol? text = some (spelling, token))
    (matched : (Pattern.symbol other).Matches longer) (starts : longer <+: text) :
    longer.length ≤ spelling.length := by
  -- The table lists longer spellings first.
  have ordered : Lexeme.symbols.Pairwise fun one next => next.1.length ≤ one.1.length := by
    decide
  have listed := (matches_symbol_iff other longer).mp matched
  obtain ⟨_, before, after, table, passed⟩ := List.find?_eq_some_iff_append.mp found
  rw [table] at listed ordered
  rcases List.mem_append.mp listed with earlier | here
  · have skipped := passed _ earlier
    simp [List.isPrefixOf_iff_prefix.mpr starts] at skipped
  · rcases List.mem_cons.mp here with same | later
    · cases same
      exact Nat.le_refl _
    · have tail := (List.pairwise_append.mp ordered).2.1
      exact (List.pairwise_cons.mp tail).1 _ later

theorem length_le_takeWhile {p : Char → Bool} (inside : ∀ c ∈ longer, p c = true)
    (starts : longer <+: text) : longer.length ≤ (text.takeWhile p).length := by
  obtain ⟨rest, rfl⟩ := starts
  rw [List.takeWhile_append_of_pos inside, List.length_append]
  omega

theorem length_le_of_name (matched : Pattern.name.Matches longer) (starts : longer <+: text) :
    longer.length ≤ (text.takeWhile Text.isNameChar).length := by
  cases matched with
  | name name => exact length_le_takeWhile (Text.isWord_of_isName name).letters starts

theorem numberSpelling_append {whole : Text} (decimal : Text.isDigits whole = true)
    (more : Text) :
    Lexeme.numberSpelling (whole ++ '.' :: more) =
      whole ++ '.' :: more.takeWhile Char.isDigit := by
  have digits := List.all_eq_true.mp decimal
  have point : ('.').isDigit = false := by decide
  simp [Lexeme.numberSpelling, List.takeWhile_append_of_pos digits,
    List.dropWhile_append_of_pos digits, point]

theorem length_takeWhile_le_numberSpelling (text : Text) :
    (text.takeWhile Char.isDigit).length ≤ (Lexeme.numberSpelling text).length := by
  rw [Lexeme.numberSpelling]
  split
  · rw [List.length_append]
    omega
  · exact Nat.le_refl _

theorem length_le_of_number (matched : Pattern.number.Matches longer) (starts : longer <+: text) :
    longer.length ≤ (Lexeme.numberSpelling text).length := by
  cases matched with
  | digits filled decimal =>
      have inside := length_le_takeWhile (List.all_eq_true.mp decimal) starts
      exact inside.trans (length_takeWhile_le_numberSpelling text)
  | @pointed whole fraction filled decimal more =>
      obtain ⟨rest, rfl⟩ := starts
      have inside := length_le_takeWhile (List.all_eq_true.mp more) (List.prefix_append _ rest)
      rw [List.append_assoc, List.cons_append, numberSpelling_append decimal]
      simp only [List.length_append, List.length_cons] at inside ⊢
      omega
  | @fraction digits filled decimal =>
      obtain ⟨rest, rfl⟩ := starts
      have inside := length_le_takeWhile (List.all_eq_true.mp decimal) (List.prefix_append _ rest)
      have spelled := @numberSpelling_append [] rfl (digits ++ rest)
      rw [List.cons_append]
      rw [List.nil_append, List.nil_append] at spelled
      rw [spelled]
      simpa using inside

theorem length_le_of_not_mem {content : Text} (inside : quote ∉ content)
    (starts : content <+: rest) : content.length ≤ (rest.takeWhile (· != quote)).length := by
  apply length_le_takeWhile _ starts
  intro c member
  simpa using fun same : c = quote => inside (same ▸ member)

theorem length_le_of_quoted {pattern : Pattern} (quoted : pattern.family = .quoted)
    (matched : pattern.Matches longer) (starts : longer <+: quote :: rest) :
    longer.length ≤ (rest.takeWhile (· != quote)).length + 2 := by
  cases matched with
  | literal opens inside =>
      obtain ⟨rfl, others⟩ := List.cons_prefix_cons.mp starts
      have within := length_le_of_not_mem inside ((List.prefix_append _ _).trans others)
      simp only [List.length_cons, List.length_append, List.length_nil]
      omega
  | openLiteral opens inside =>
      obtain ⟨rfl, others⟩ := List.cons_prefix_cons.mp starts
      have within := length_le_of_not_mem inside others
      simp only [List.length_cons]
      omega
  | digits | pointed | fraction | name | operator | leftParen | rightParen | foreign =>
      cases quoted

end Longest

end Pattern

namespace Lexeme

open Pattern (Family)

variable {c : Char} {rest : Text}

inductive Found (column : Nat) : Text → Except LexError Lexeme → Prop where
  | lexeme {pattern : Pattern} {spelling rest : Text} {token : Token}
      (takes : pattern.Takes spelling rest) (meaning : pattern.token? spelling = some token) :
      Found column (spelling ++ rest) (.ok ⟨token, spelling, rest⟩)
  | openLiteral {quote : Char} {rest : Text}
      (takes : Pattern.openLiteral.Takes (quote :: rest) []) :
      Found column (quote :: rest) (.error (.unterminatedLiteral column))
  | foreign {spelling rest : Text} (takes : (Pattern.symbol none).Takes spelling rest) :
      Found column (spelling ++ rest) (.error (.unsupportedOperator spelling))
  | nothing {c : Char} {rest : Text}
      (unmatched : ∀ (pattern : Pattern) spelling, spelling <+: c :: rest →
        ¬ pattern.Matches spelling) :
      Found column (c :: rest) (.error (.unexpectedCharacter c column))

section Numbers

theorem matches_numberSpelling {text : Text} (starts : startsNumber text = true) :
    Pattern.number.Matches (numberSpelling text) := by
  have decimal (part : Text) : Text.isDigits (part.takeWhile Char.isDigit) = true :=
    List.all_takeWhile
  cases text with
  | nil => cases starts
  | cons c rest =>
      by_cases digit : c.isDigit = true
      · have filled : (c :: rest).takeWhile Char.isDigit ≠ [] := by simp [digit]
        rw [numberSpelling]
        split
        · exact .pointed filled (decimal _) (decimal _)
        · exact .digits filled (decimal _)
      · simp only [startsNumber, digit, Bool.false_or, Bool.and_eq_true, beq_iff_eq] at starts
        obtain ⟨rfl, next⟩ := starts
        have spelled : numberSpelling ('.' :: rest) = '.' :: rest.takeWhile Char.isDigit :=
          @Pattern.numberSpelling_append [] rfl rest
        rw [spelled]
        apply Pattern.Matches.fraction _ (decimal rest)
        cases rest with
        | nil => cases next
        | cons d more =>
            have first : d.isDigit = true := by simpa using next
            simp [first]

theorem startsNumber_of_matches {spelling text : Text} (matched : Pattern.number.Matches spelling)
    (starts : spelling <+: text) : startsNumber text = true := by
  obtain ⟨rest, rfl⟩ := starts
  cases matched with
  | digits filled decimal =>
      obtain ⟨c, more, rfl⟩ := List.exists_cons_of_ne_nil filled
      have digit := List.all_eq_true.mp decimal c List.mem_cons_self
      simp [startsNumber, digit]
  | pointed filled decimal _ =>
      obtain ⟨c, more, rfl⟩ := List.exists_cons_of_ne_nil filled
      have digit := List.all_eq_true.mp decimal c List.mem_cons_self
      simp [startsNumber, digit]
  | fraction filled decimal =>
      obtain ⟨c, more, rfl⟩ := List.exists_cons_of_ne_nil filled
      have digit := List.all_eq_true.mp decimal c List.mem_cons_self
      simp [startsNumber, digit]

theorem splitDigits_pointed {whole fraction : Text} (decimal : Text.isDigits whole = true)
    (more : Text.isDigits fraction = true) :
    Number.splitDigits (whole ++ '.' :: fraction) = (whole, fraction, []) := by
  have digits := List.all_eq_true.mp decimal
  have inside := List.all_eq_true.mp more
  have point : ('.').isDigit = false := by decide
  have left := List.takeWhile_eq_self_iff.mpr inside
  have right := List.dropWhile_eq_nil_iff.mpr inside
  simp [Number.splitDigits, List.takeWhile_append_of_pos digits,
    List.dropWhile_append_of_pos digits, point, left, right]

theorem splitDigits_digits {digits : Text} (decimal : Text.isDigits digits = true) :
    Number.splitDigits digits = (digits, [], []) := by
  have inside := List.all_eq_true.mp decimal
  have left := List.takeWhile_eq_self_iff.mpr inside
  have right := List.dropWhile_eq_nil_iff.mpr inside
  simp [Number.splitDigits, left, right]

theorem exists_splitDigits {spelling : Text} (matched : Pattern.number.Matches spelling) :
    ∃ whole fraction, Number.splitDigits spelling = (whole, fraction, []) ∧
      (whole.isEmpty && fraction.isEmpty) = false := by
  cases matched with
  | digits filled decimal => exact ⟨_, _, splitDigits_digits decimal, by simp [filled]⟩
  | pointed filled decimal more => exact ⟨_, _, splitDigits_pointed decimal more, by simp [filled]⟩
  | fraction filled decimal =>
      exact ⟨[], _, @splitDigits_pointed [] _ rfl decimal, by simp [filled]⟩

/-- Every spelling of a number has a value. -/
theorem exists_read?_eq_some {spelling : Text} (matched : Pattern.number.Matches spelling) :
    ∃ value, Number.read? spelling = some value := by
  have unsigned : Number.splitSign spelling = (false, spelling) := by
    obtain ⟨c, more, rfl, family⟩ := matched.of?_eq
    have minus : c ≠ '-' := by
      rintro rfl
      cases family
    have plus : c ≠ '+' := by
      rintro rfl
      cases family
    simp [Number.splitSign, minus, plus]
  obtain ⟨whole, fraction, split, filled⟩ := exists_splitDigits matched
  simp [Number.read?, unsigned, split, filled, Number.readPower?]

end Numbers

section Reading

variable {column : Nat}

theorem found_number (starts : startsNumber (c :: rest) = true) :
    Found column (c :: rest) (.ok (number (c :: rest))) := by
  have matched := matches_numberSpelling starts
  have divided := List.prefix_iff_eq_append.mp (numberSpelling_isPrefix (c :: rest))
  have family := matched.family_eq (numberSpelling_isPrefix (c :: rest))
  obtain ⟨value, read⟩ := exists_read?_eq_some matched
  have takes : Pattern.number.Takes (numberSpelling (c :: rest))
      ((c :: rest).drop (numberSpelling (c :: rest)).length) := by
    constructor
    · exact matched
    · intro other longer found here
      rw [divided] at here
      have same := found.family_eq here
      rw [family] at same
      cases other with
      | number => exact Pattern.length_le_of_number found here
      | literal | openLiteral | name | symbol => cases same
  have meaning : Pattern.number.token? (numberSpelling (c :: rest)) = some (.number value) := by
    simp [Pattern.token?, read]
  have lexeme : Found column _ _ := .lexeme takes meaning
  rw [divided] at lexeme
  simpa [number, read] using lexeme

theorem isName_takeWhile (start : Text.isNameStart c = true) :
    Text.isName ((c :: rest).takeWhile Text.isNameChar) = true := by
  have part := Text.isNameChar_of_isNameStart start
  simp [part, Text.isName, start, List.all_takeWhile]

theorem takes_name (start : Text.isNameStart c = true) (rest : Text) :
    Pattern.name.Takes ((c :: rest).takeWhile Text.isNameChar)
      ((c :: rest).dropWhile Text.isNameChar) := by
  constructor
  · exact .name (isName_takeWhile start)
  · intro other longer found here
    rw [List.takeWhile_append_dropWhile] at here
    have same := found.family_eq here
    rw [Pattern.of?_of_isNameStart start] at same
    cases other with
    | name => exact Pattern.length_le_of_name found here
    | number | literal | openLiteral | symbol => cases same

theorem found_name (start : Text.isNameStart c = true) :
    Found column (c :: rest) (.ok (name (c :: rest))) := by
  have lexeme : Found column _ _ := .lexeme (takes_name start rest) rfl
  rwa [List.takeWhile_append_dropWhile] at lexeme

theorem literal?_eq_none (absent : c ∉ rest) : literal? c rest = none := by
  have all : rest.dropWhile (· != c) = [] := by
    rw [List.dropWhile_eq_nil_iff]
    intro d member
    simpa using fun same : d = c => absent (same ▸ member)
  simp only [literal?, all]

theorem takeWhile_closed {content : Text} (inside : c ∉ content) (after : Text) :
    (content ++ c :: after).takeWhile (· != c) = content ∧
      (content ++ c :: after).dropWhile (· != c) = c :: after := by
  have passed : ∀ d ∈ content, (d != c) = true := by
    intro d member
    simpa using fun same : d = c => inside (same ▸ member)
  simp [List.takeWhile_append_of_pos passed, List.dropWhile_append_of_pos passed]

theorem found_literal {content after : Text} (opens : Text.isQuote c = true)
    (inside : c ∉ content) :
    Found column (c :: (content ++ c :: after))
      (.ok ⟨.literal content, c :: (content ++ [c]), after⟩) := by
  have divided : c :: (content ++ [c]) ++ after = c :: (content ++ c :: after) := by simp
  have takes : Pattern.literal.Takes (c :: (content ++ [c])) after := by
    constructor
    · exact .literal opens inside
    · intro other longer found here
      rw [divided] at here
      have quoted := found.family_eq here
      rw [Pattern.of?_of_isQuote opens] at quoted
      have most := Pattern.length_le_of_quoted (Option.some.inj quoted).symm found here
      rw [(takeWhile_closed inside after).1] at most
      simpa using most
  have meaning : Pattern.literal.token? (c :: (content ++ [c])) = some (.literal content) := by
    simp [Pattern.token?]
  have lexeme : Found column _ _ := .lexeme takes meaning
  rwa [divided] at lexeme

theorem found_openLiteral (opens : Text.isQuote c = true) (absent : c ∉ rest) :
    Found column (c :: rest) (.error (.unterminatedLiteral column)) := by
  apply Found.openLiteral
  constructor
  · exact .openLiteral opens absent
  · intro other longer _ here
    rw [List.append_nil] at here
    exact here.length_le

theorem takes_symbol {spelling : Text} {token : Option Token}
    (found : symbol? (c :: rest) = some (spelling, token)) :
    (Pattern.symbol token).Takes spelling ((c :: rest).drop spelling.length) ∧
      spelling ++ (c :: rest).drop spelling.length = c :: rest := by
  have matched := (Pattern.matches_symbol_iff token spelling).mpr (List.mem_of_find?_eq_some found)
  have begins := List.find?_some found
  have starts : spelling <+: c :: rest := List.isPrefixOf_iff_prefix.mp begins
  have divided := List.prefix_iff_eq_append.mp starts
  have family := matched.family_eq starts
  constructor
  · constructor
    · exact matched
    · intro other longer matches' here
      rw [divided] at here
      have same := matches'.family_eq here
      rw [family] at same
      cases other with
      | symbol => exact Pattern.length_le_of_symbol? found matches' here
      | number | literal | openLiteral | name => cases same
  · exact divided

theorem found_nothing (noNumber : startsNumber (c :: rest) = false)
    (noName : Text.isNameStart c = false) (noQuote : Text.isQuote c = false)
    (noSymbol : symbol? (c :: rest) = none) :
    Found column (c :: rest) (.error (.unexpectedCharacter c column)) := by
  apply Found.nothing
  intro pattern spelling starts matched
  have family := matched.family_eq starts
  cases pattern with
  | number =>
      rw [startsNumber_of_matches matched starts] at noNumber
      cases noNumber
  | symbol token =>
      have listed := (Pattern.matches_symbol_iff token spelling).mp matched
      have missing := List.find?_eq_none.mp noSymbol _ listed
      exact missing (List.isPrefixOf_iff_prefix.mpr starts)
  | literal | openLiteral =>
      rw [Pattern.isQuote_of_family family] at noQuote
      cases noQuote
  | name =>
      rw [Pattern.isNameStart_of_family family] at noName
      cases noName

/-- Reading a lexeme gives what there is at the head of the text. -/
theorem found_read (column : Nat) (c : Char) (rest : Text) :
    Found column (c :: rest) (read column c rest) := by
  rw [read]
  split
  · next starts => exact found_number starts
  · next noNumber =>
      split
      · next start => exact found_name start
      · next noName =>
          split
          · next opens =>
              by_cases closes : c ∈ rest
              · obtain ⟨content, after, rfl, inside⟩ := List.eq_append_cons_of_mem closes
                obtain ⟨left, right⟩ := takeWhile_closed inside after
                simp only [literal?, left, right]
                exact found_literal opens inside
              · rw [literal?_eq_none closes]
                exact found_openLiteral opens closes
          · next noQuote =>
              split
              · next spelling token found =>
                  obtain ⟨takes, divided⟩ := takes_symbol found
                  have lexeme : Found column _ _ := .lexeme takes rfl
                  rwa [divided] at lexeme
              · next spelling found =>
                  obtain ⟨takes, divided⟩ := takes_symbol found
                  have refused : Found column _ _ := .foreign takes
                  rwa [divided] at refused
              · next noSymbol =>
                  apply found_nothing _ _ _ noSymbol
                  · simpa using noNumber
                  · simpa using noName
                  · simpa using noQuote

theorem Found.of_takes {column : Nat} {pattern : Pattern} {text spelling rest : Text}
    {result : Except LexError Lexeme} (found : Found column text result)
    (takes : pattern.Takes spelling rest) (same : spelling ++ rest = text) :
    (∃ token, pattern.token? spelling = some token ∧ result = .ok ⟨token, spelling, rest⟩) ∨
      (pattern = .openLiteral ∧ result = .error (.unterminatedLiteral column)) ∨
      (pattern = .symbol none ∧ result = .error (.unsupportedOperator spelling)) := by
  cases found with
  | lexeme other meaning =>
      obtain ⟨rfl, rfl, rfl⟩ := takes.unique other same
      exact .inl ⟨_, meaning, rfl⟩
  | @openLiteral quote more other =>
      have whole : spelling ++ rest = quote :: more ++ [] := by simpa using same
      exact .inr (.inl ⟨(takes.unique other whole).1, rfl⟩)
  | foreign other =>
      obtain ⟨rfl, rfl, rfl⟩ := takes.unique other same
      exact .inr (.inr ⟨rfl, rfl⟩)
  | nothing unmatched =>
      have starts : spelling <+: _ := ⟨rest, same⟩
      exact absurd takes.matched (unmatched pattern spelling starts)

end Reading

end Lexeme

end MiniAbap
