import MiniAbap.Text.Literal
import MiniAbap.Token

/-!
Expression text to tokens. At every place the longest lexeme is taken, and the
scan stops at the first place that starts none, at a literal that is never
closed, or at an operator that the language does not have. Columns count
characters from one.
-/

namespace MiniAbap

inductive LexError where
  | unterminatedLiteral (column : Nat)
  | unsupportedOperator (spelling : Text)
  | unexpectedCharacter (character : Char) (column : Nat)
  deriving DecidableEq

def LexError.message : LexError → String
  | .unterminatedLiteral column =>
      s!"Unterminated string literal starting at column {column}."
  | .unsupportedOperator spelling =>
      s!"Unsupported operator '{String.ofList spelling}'."
  | .unexpectedCharacter character column =>
      s!"Unexpected character '{character}' at column {column}."

structure Lexeme where
  token : Token
  spelling : Text
  rest : Text

namespace Lexeme

def isSpace (c : Char) : Bool :=
  c == ' ' || c == '\t' || c == '\r' || c == '\n' || c == '\x0c'

def startsNumber (text : Text) : Bool :=
  match text with
  | [] => false
  | c :: rest => c.isDigit || (c == '.' && rest.head?.any Char.isDigit)

def numberSpelling (text : Text) : Text :=
  let whole := text.takeWhile Char.isDigit
  match text.dropWhile Char.isDigit with
  | '.' :: more => whole ++ '.' :: more.takeWhile Char.isDigit
  | _ => whole

def number (text : Text) : Lexeme :=
  let spelling := numberSpelling text
  ⟨.number ((Number.read? spelling).getD 0), spelling, text.drop spelling.length⟩

def name (text : Text) : Lexeme :=
  ⟨.name (text.takeWhile Text.isNameChar), text.takeWhile Text.isNameChar,
    text.dropWhile Text.isNameChar⟩

def literal? (quote : Char) (rest : Text) : Option Lexeme :=
  let content := rest.takeWhile (· != quote)
  match rest.dropWhile (· != quote) with
  | [] => none
  | _ :: after => some ⟨.literal content, quote :: (content ++ [quote]), after⟩

/-- Operators and parentheses, the longer spellings first. Those without a token
    are known from elsewhere and refused by name. -/
def symbols : List (Text × Option Token) :=
  [(['=', '='], none), (['<', '='], none), (['>', '='], none), (['!', '='], none),
    (['<', '>'], some (.operator .notEqual)),
    (['!'], none),
    (['+'], some (.operator .plus)), (['-'], some (.operator .minus)),
    (['*'], some (.operator .times)), (['/'], some (.operator .over)),
    (['='], some (.operator .equal)), (['<'], some (.operator .less)),
    (['>'], some (.operator .greater)),
    (['('], some .leftParen), ([')'], some .rightParen)]

def symbol? (text : Text) : Option (Text × Option Token) :=
  symbols.find? fun symbol => symbol.1.isPrefixOf text

def read (column : Nat) (c : Char) (rest : Text) : Except LexError Lexeme :=
  if startsNumber (c :: rest) then .ok (number (c :: rest))
  else if Text.isNameStart c then .ok (name (c :: rest))
  else if Text.isQuote c then
    match literal? c rest with
    | some lexeme => .ok lexeme
    | none => .error (.unterminatedLiteral column)
  else
    match symbol? (c :: rest) with
    | some (spelling, some token) =>
        .ok ⟨token, spelling, (c :: rest).drop spelling.length⟩
    | some (spelling, none) => .error (.unsupportedOperator spelling)
    | none => .error (.unexpectedCharacter c column)

section Progress

/-! Every lexeme takes at least one character. -/

theorem length_dropWhile_le (p : Char → Bool) (text : Text) :
    (text.dropWhile p).length ≤ text.length := by
  induction text with
  | nil => simp
  | cons c rest ih =>
      rw [List.dropWhile_cons]
      split
      · simp only [List.length_cons]; omega
      · exact Nat.le_refl _

theorem numberSpelling_pos (text : Text) (starts : startsNumber text = true) :
    0 < (numberSpelling text).length := by
  cases text with
  | nil => simp [startsNumber] at starts
  | cons c rest =>
      by_cases digit : c.isDigit = true
      · unfold numberSpelling
        simp only [List.takeWhile_cons, List.dropWhile_cons, digit, if_true]
        split <;> simp
      · simp only [startsNumber, digit, Bool.false_or, Bool.and_eq_true, beq_iff_eq]
          at starts
        obtain ⟨rfl, _⟩ := starts
        simp [numberSpelling]

theorem symbol_pos (text spelling : Text) (token : Option Token)
    (found : symbol? text = some (spelling, token)) : 0 < spelling.length := by
  have member := List.mem_of_find?_eq_some found
  simp only [symbols, List.mem_cons, Prod.mk.injEq, List.not_mem_nil, or_false] at member
  rcases member with h | h | h | h | h | h | h | h | h | h | h | h | h | h | h <;>
    simp [h.1]

theorem read_rest_lt (column : Nat) (c : Char) (rest : Text) (lexeme : Lexeme)
    (found : read column c rest = .ok lexeme) :
    lexeme.rest.length < (c :: rest).length := by
  unfold read at found
  split at found
  · next starts =>
      cases found
      have := numberSpelling_pos _ starts
      simp only [number, List.length_drop, List.length_cons] at *
      omega
  · split at found
    · next start =>
        cases found
        have part : Text.isNameChar c = true := by
          simp only [Text.isNameStart, Text.isNameChar, Char.isAlphanum] at *
          grind
        have := length_dropWhile_le Text.isNameChar rest
        simp only [name, List.dropWhile_cons, part, if_true, List.length_cons]
        omega
    · split at found
      · split at found
        · next lexeme' literal =>
            cases found
            unfold literal? at literal
            simp only at literal
            split at literal
            · cases literal
            · next after tail =>
                cases literal
                have := length_dropWhile_le (· != c) rest
                simp only [tail, List.length_cons] at *
                omega
        · cases found
      · split at found
        · next spelling token symbol =>
            cases found
            have := symbol_pos _ _ _ symbol
            simp only [List.length_drop, List.length_cons]
            omega
        · cases found
        · cases found

end Progress

end Lexeme

namespace Token

def scanFrom (column : Nat) (text : Text) : Except LexError (List Token) :=
  match text with
  | [] => .ok []
  | c :: rest =>
      if Lexeme.isSpace c then scanFrom (column + 1) rest
      else
        match _ : Lexeme.read column c rest with
        | .error error => .error error
        | .ok lexeme =>
            match scanFrom (column + lexeme.spelling.length) lexeme.rest with
            | .error error => .error error
            | .ok tokens => .ok (lexeme.token :: tokens)
termination_by text.length
decreasing_by
  · simp
  · exact Lexeme.read_rest_lt _ _ _ _ (by assumption)

def scan (text : Text) : Except LexError (List Token) :=
  scanFrom 1 text

end Token

end MiniAbap
