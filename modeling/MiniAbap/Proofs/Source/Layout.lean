import MiniAbap.Proofs.Source.Append

/-!
Layouts of a program. Between its words a statement may have any white space and
line breaks, with remarks before the breaks and comment lines after them; the
statements of such a text are those it was laid out from.

  source    := comment-line* gap (statement gap . gap)*
  gap       := (blank | remark? line-feed comment-line*)*
  remark    := " text

A gap stands in the place of each space outside the literals of a statement. No
character of a statement that is the first one on its line may be an asterisk, so
the rules carry whether the line has shown nothing but white space so far.
-/

namespace MiniAbap

namespace Source

open Text (Blank)

section Rules

def isPlainFrom (quote previous : Option Char) : Text → Bool
  | [] => true
  | c :: rest =>
      (quote.isSome || (c != '"' && (c != '.' || isDecimalPoint previous rest))) &&
        isPlainFrom (Text.advance quote c) (some c) rest

/-- A statement in the form in which programs are split into them, with no literal
    left open. -/
structure Clean (statement : Text) : Prop where
  nonempty : statement ≠ []
  collapsed : collapse statement = statement
  oneLine : '\n' ∉ statement
  closed : Text.closesQuotes statement = true
  plain : isPlainFrom none none statement = true

inductive CommentLines : Text → Prop where
  | nil : CommentLines []
  | cons {indent text rest : Text} (blank : Blank indent) (oneLine : '\n' ∉ indent ++ text)
      (others : CommentLines rest) : CommentLines (indent ++ '*' :: text ++ '\n' :: rest)

inductive Remark : Text → Prop where
  | nil : Remark []
  | cons {text : Text} (oneLine : '\n' ∉ text) : Remark ('"' :: text)

/-- White space and line breaks. The first flag says that nothing but white space
    stands before the gap on its line, and the second one so of the place after it. -/
inductive Gap : Bool → Text → Bool → Prop where
  | nil (fresh : Bool) : Gap fresh [] fresh
  | blank {fresh after : Bool} {c : Char} {rest : Text} (white : Text.isBlank c = true)
      (inside : c ≠ '\n') (others : Gap fresh rest after) : Gap fresh (c :: rest) after
  | lineBreak {fresh after : Bool} {remark lines rest : Text} (remarked : Remark remark)
      (commented : CommentLines lines) (others : Gap true rest after) :
      Gap fresh (remark ++ '\n' :: (lines ++ rest)) after

/-- A statement, from a point inside it on, and its text in the program: the spaces
    outside its literals become gaps and all else stays. -/
inductive Spread : Bool → Option Char → Text → Text → Bool → Prop where
  | nil (fresh : Bool) (quote : Option Char) : Spread fresh quote [] [] fresh
  | kept {fresh after : Bool} {quote : Option Char} {c : Char} {statement text : Text}
      (solid : quote.isSome = true ∨ Text.isBlank c = false) (first : fresh = true → c ≠ '*')
      (others : Spread false (Text.advance quote c) statement text after) :
      Spread fresh quote (c :: statement) (c :: text) after
  | gap {fresh middle after : Bool} {white statement text : Text}
      (spaced : Gap fresh white middle) (nonempty : white ≠ [])
      (others : Spread middle none statement text after) :
      Spread fresh none (' ' :: statement) (white ++ text) after

inductive Laid : Bool → List Text → Text → Prop where
  | nil {fresh after : Bool} {white : Text} (spaced : Gap fresh white after) :
      Laid fresh [] white
  | cons {fresh middle stopped after : Bool} {statement text before white rest : Text}
      {statements : List Text} (spread : Spread fresh none statement text middle)
      (spaced : Gap middle before stopped) (apart : Gap false white after)
      (nonempty : white ≠ []) (others : Laid after statements rest) :
      Laid fresh (statement :: statements) (text ++ (before ++ '.' :: (white ++ rest)))

def IsLayout (statements : List Text) (source : Text) : Prop :=
  ∃ header white body fresh, CommentLines header ∧ Gap true white fresh ∧
    Laid fresh statements body ∧
    (header ++ (white ++ body) = source ∨ header ++ (white ++ body) = source ++ ['\n'])

end Rules

section Lines

def firstLine (text : Text) : Text :=
  (Text.lines text).headD []

def restPieces (quote previous : Option Char) (text : Text) : List Piece :=
  piecesFrom quote previous (firstLine text) ++
    .char ' ' :: (Text.lines text).tail.flatMap linePieces

theorem firstLine_cons {c : Char} {rest : Text} (inside : c ≠ '\n')
    (alone : c = '\r' → rest.head? ≠ some '\n') : firstLine (c :: rest) = c :: firstLine rest := by
  rw [firstLine, Text.lines_cons inside alone]
  rfl

theorem restPieces_cons {c : Char} {rest : Text} (quote previous : Option Char)
    (inside : c ≠ '\n') (alone : c = '\r' → rest.head? ≠ some '\n') :
    restPieces quote previous (c :: rest) =
      piecesFrom quote previous (c :: firstLine rest) ++
        .char ' ' :: (Text.lines rest).tail.flatMap linePieces := by
  rw [restPieces, firstLine_cons inside alone, Text.lines_cons inside alone]
  rfl

theorem restPieces_lineFeed (quote previous : Option Char) (rest : Text) :
    restPieces quote previous ('\n' :: rest) = .char ' ' :: pieces rest := by
  simp [restPieces, firstLine, Text.lines, piecesFrom, pieces]

theorem restPieces_returnLineFeed (quote previous : Option Char) (rest : Text) :
    restPieces quote previous ('\r' :: '\n' :: rest) = .char ' ' :: pieces rest := by
  simp [restPieces, firstLine, Text.lines, piecesFrom, pieces]

-- A line shorter by its end still starts with a digit where it did.
theorem isDecimalPoint_firstLine (previous : Option Char) (rest : Text) :
    isDecimalPoint previous (firstLine rest) = isDecimalPoint previous rest := by
  have same : (firstLine rest).head?.any Char.isDigit = rest.head?.any Char.isDigit := by
    cases rest with
    | nil => rfl
    | cons c more =>
        rcases Text.line_cases c more with rfl | ⟨rfl, others, rfl⟩ | ⟨inside, alone⟩
        · rfl
        · rfl
        · rw [firstLine_cons inside alone]
          rfl
  rw [isDecimalPoint, same, isDecimalPoint]

theorem restPieces_kept {c : Char} {rest : Text} {quote previous : Option Char}
    (inside : c ≠ '\n') (alone : c = '\r' → rest.head? ≠ some '\n')
    (plain : (quote.isSome || (c != '"' && (c != '.' || isDecimalPoint previous rest))) = true) :
    restPieces quote previous (c :: rest) =
      .char c :: restPieces (Text.advance quote c) (some c) rest := by
  rw [← isDecimalPoint_firstLine] at plain
  rw [restPieces_cons _ _ inside alone, piecesFrom]
  cases quote with
  | some opened => rfl
  | none =>
      simp only [Option.isSome_none, Bool.false_or, Bool.and_eq_true, bne_iff_ne, ne_eq,
        Bool.or_eq_true] at plain
      obtain ⟨word, stop⟩ := plain
      have decimal : (c == '.' && !isDecimalPoint previous (firstLine rest)) = false := by
        rcases stop with other | point
        · simp [other]
        · simp [point]
      simp only [Option.isNone_none, Bool.true_and, beq_eq_false_iff_ne.mpr word, decimal]
      rfl

theorem restPieces_stop {rest : Text} (previous : Option Char)
    (apart : rest.head?.any Char.isDigit = false) :
    restPieces none previous ('.' :: rest) = .stop :: restPieces none (some '.') rest := by
  have decimal : isDecimalPoint previous (firstLine rest) = false := by
    rw [isDecimalPoint_firstLine, isDecimalPoint, apart, Bool.and_false]
  rw [restPieces_cons _ _ (by decide) (absurd · (by decide)), piecesFrom, decimal]
  rfl

theorem restPieces_blank {c : Char} {rest : Text} (previous : Option Char)
    (white : Text.isBlank c = true) (inside : c ≠ '\n')
    (alone : c = '\r' → rest.head? ≠ some '\n') :
    restPieces none previous (c :: rest) = .char c :: restPieces none (some c) rest := by
  have remark : c ≠ '"' := Text.ne_of_isBlank white (by decide)
  have stop : c ≠ '.' := Text.ne_of_isBlank white (by decide)
  rw [restPieces_kept inside alone (by simp [remark, stop]), Text.advance_of_isBlank white]

theorem restPieces_remark {remark : Text} (remarked : Remark remark) (previous : Option Char)
    (rest : Text) :
    restPieces none previous (remark ++ '\n' :: rest) = .char ' ' :: pieces rest := by
  cases remarked with
  | nil => exact restPieces_lineFeed none previous rest
  | @cons text oneLine =>
      have inside : '\n' ∉ '"' :: text := by simp [oneLine]
      rw [restPieces, firstLine, Text.lines_line inside]
      have starts : ∃ more, Text.dropReturn ('"' :: text) = '"' :: more := by
        cases text with
        | nil => exact ⟨[], rfl⟩
        | cons d more =>
            simp only [Text.dropReturn]
            split
            · exact ⟨_, rfl⟩
            · exact ⟨_, rfl⟩
      obtain ⟨more, starts⟩ := starts
      simp only [List.headD_cons, starts, piecesFrom, List.tail_cons]
      rfl

end Lines

section Comments

def startsComment (text : Text) : Bool :=
  isCommentLine (firstLine text)

theorem isCommentLine_blank {c : Char} (white : Text.isBlank c = true) (line : Text) :
    isCommentLine (c :: line) = isCommentLine line := by
  simp [isCommentLine, Text.trimStart, white]

theorem isCommentLine_solid {c : Char} (solid : Text.isBlank c = false) (line : Text) :
    isCommentLine (c :: line) = (c == '*') := by
  simp [isCommentLine, Text.trimStart, solid]

theorem startsComment_lineFeed (rest : Text) : startsComment ('\n' :: rest) = false := by
  simp only [startsComment, firstLine, Text.lines]
  rfl

theorem startsComment_blank {c : Char} {rest : Text} (white : Text.isBlank c = true)
    (inside : c ≠ '\n') : startsComment (c :: rest) = startsComment rest := by
  rcases Text.line_cases c rest with ends | ⟨rfl, others, rfl⟩ | ⟨_, alone⟩
  · exact absurd ends inside
  · rw [startsComment_lineFeed]
    simp only [startsComment, firstLine, Text.lines]
    rfl
  · rw [startsComment, firstLine_cons inside alone, isCommentLine_blank white, startsComment]

theorem startsComment_solid {c : Char} (solid : Text.isBlank c = false) (other : c ≠ '*')
    (rest : Text) : startsComment (c :: rest) = false := by
  have inside : c ≠ '\n' := (Text.ne_of_isBlank (by decide) solid).symm
  have alone : c ≠ '\r' := (Text.ne_of_isBlank (by decide) solid).symm
  rw [startsComment, firstLine_cons inside (absurd · alone), isCommentLine_solid solid]
  simpa using other

theorem pieces_eq_restPieces {text : Text} (nonempty : text ≠ [])
    (statement : startsComment text = false) : pieces text = restPieces none none text := by
  have present : Text.lines text ≠ [] := by
    cases text with
    | nil => exact absurd rfl nonempty
    | cons c rest =>
        rcases Text.line_cases c rest with rfl | ⟨rfl, others, rfl⟩ | ⟨inside, alone⟩
        · simp [Text.lines]
        · simp [Text.lines]
        · simp [Text.lines_cons inside alone]
  simp only [startsComment, firstLine] at statement
  simp only [pieces, restPieces, firstLine]
  cases lines : Text.lines text with
  | nil => exact absurd lines present
  | cons first more =>
      rw [lines, List.headD_cons] at statement
      rw [List.flatMap_cons, linePieces, statement, List.headD_cons, List.tail_cons]
      simp

theorem isCommentLine_dropReturn (line : Text) :
    isCommentLine (Text.dropReturn line) = isCommentLine line := by
  simp only [Text.dropReturn]
  split
  · next returns =>
      obtain ⟨init, rfl⟩ := List.getLast?_eq_some_iff.mp returns
      rw [List.dropLast_concat, isCommentLine_append_return]
  · rfl

theorem isCommentLine_indented {indent : Text} (blank : Blank indent) (text : Text) :
    isCommentLine (indent ++ '*' :: text) = true := by
  rw [isCommentLine, Text.trimStart_blank_append blank, ← isCommentLine,
    isCommentLine_solid (by decide)]
  rfl

theorem CommentLines.pieces_append {lines : Text} (commented : CommentLines lines)
    (rest : Text) : pieces (lines ++ rest) = pieces rest := by
  induction commented with
  | nil => rfl
  | @cons indent text others blank oneLine _ ih =>
      have inside : '\n' ∉ indent ++ '*' :: text := by
        simpa using oneLine
      have comment : linePieces (Text.dropReturn (indent ++ '*' :: text)) = [] := by
        rw [linePieces, isCommentLine_dropReturn, isCommentLine_indented blank, if_pos rfl]
      rw [List.append_assoc, List.cons_append, pieces_line inside, comment, ih]
      rfl

end Comments

section Reading

def Reads (fresh : Bool) (quote previous : Option Char) (text : Text) (found : List Piece) :
    Prop :=
  (fresh = true → startsComment text = false) ∧ restPieces quote previous text = found

theorem Gap.head_ne_digit {fresh after : Bool} {white : Text} (spaced : Gap fresh white after)
    (nonempty : white ≠ []) (text : Text) :
    (white ++ text).head?.any Char.isDigit = false := by
  cases spaced with
  | nil => exact absurd rfl nonempty
  | blank white _ _ => exact Text.isDigit_of_isBlank white
  | lineBreak remarked _ _ => cases remarked <;> rfl

-- The white space that a gap leaves can be less than what it has: a carriage return
-- goes with the line feed after it.
theorem Gap.reads {fresh after : Bool} {white : Text} (spaced : Gap fresh white after)
    {text : Text} {found : List Piece} (nonempty : text ≠ [])
    (follows : ∀ previous, Reads after none previous text found) :
    ∃ blanks, Blank blanks ∧ (white ≠ [] → text.head? ≠ some '\n' → blanks ≠ []) ∧
      ∀ previous, Reads fresh none previous (white ++ text) (chars blanks ++ found) := by
  induction spaced with
  | nil fresh => exact ⟨[], nofun, fun absent => absurd rfl absent, follows⟩
  | @blank fresh after c rest white inside _ ih =>
      obtain ⟨blanks, blank, present, reads⟩ := ih follows
      have starts (previous : Option Char) :
          fresh = true → startsComment (c :: (rest ++ text)) = false := by
        intro fresh
        rw [startsComment_blank white inside]
        exact (reads previous).1 fresh
      rcases Text.line_cases c (rest ++ text) with ends | ⟨rfl, more, next⟩ | ⟨_, alone⟩
      · exact absurd ends inside
      · refine ⟨blanks, blank, ?_, ?_⟩
        · intro _ other
          apply present _ other
          rintro rfl
          exact other (by simpa using congrArg List.head? next)
        · intro previous
          refine ⟨starts previous, ?_⟩
          rw [List.cons_append, next, restPieces_returnLineFeed]
          have here := (reads previous).2
          rw [next, restPieces_lineFeed] at here
          exact here
      · refine ⟨c :: blanks, ?_, fun _ _ => List.cons_ne_nil _ _, ?_⟩
        · exact List.forall_mem_cons.mpr ⟨white, blank⟩
        · intro previous
          refine ⟨starts previous, ?_⟩
          rw [List.cons_append, restPieces_blank previous white inside alone, (reads _).2]
          rfl
  | @lineBreak fresh after remark lines rest remarked commented _ ih =>
      obtain ⟨blanks, blank, _, reads⟩ := ih follows
      have space : Text.isBlank ' ' = true := by decide
      refine ⟨' ' :: blanks, List.forall_mem_cons.mpr ⟨space, blank⟩,
        fun _ _ => List.cons_ne_nil _ _, ?_⟩
      have continued : pieces (rest ++ text) = chars blanks ++ found := by
        rw [pieces_eq_restPieces (by simp [nonempty]) ((reads none).1 rfl), (reads none).2]
      intro previous
      rw [List.append_assoc, List.cons_append, List.append_assoc]
      constructor
      · intro _
        cases remarked with
        | nil => exact startsComment_lineFeed _
        | cons => exact startsComment_solid (by decide) (by decide) _
      · rw [restPieces_remark remarked, commented.pieces_append, continued]
        rfl

end Reading

section Squeezing

theorem squeeze_blank {c : Char} (white : Text.isBlank c = true) (pending : Bool) (rest : Text) :
    squeeze none pending (c :: rest) = squeeze none true rest := by
  simp [squeeze, white]

theorem squeeze_blank_append {blanks : Text} (blank : Blank blanks) (nonempty : blanks ≠ [])
    (pending : Bool) (rest : Text) :
    squeeze none pending (blanks ++ rest) = squeeze none true rest := by
  induction blanks generalizing pending with
  | nil => exact absurd rfl nonempty
  | cons c blanks ih =>
      obtain ⟨white, others⟩ := List.forall_mem_cons.mp blank
      rw [List.cons_append, squeeze_blank white]
      by_cases last : blanks = []
      · rw [last, List.nil_append]
      · exact ih others last true

theorem squeeze_congr_kept {quote : Option Char} {c : Char} {first second : Text}
    (same : ∀ pending, squeeze (Text.advance quote c) pending first =
      squeeze (Text.advance quote c) pending second) (pending : Bool) :
    squeeze quote pending (c :: first) = squeeze quote pending (c :: second) := by
  simp only [squeeze]
  split
  · next white =>
      rw [Bool.and_eq_true, Option.isNone_iff_eq_none] at white
      rw [white.1, Text.advance_of_isBlank white.2] at same
      exact same true
  · rw [same false]

-- Trailing white space is never shown once all literals are closed.
theorem squeeze_append_blank {blanks : Text} (blank : Blank blanks) {quote : Option Char}
    {text : Text} (closed : Text.advanceAll quote text = none) (pending : Bool) :
    squeeze quote pending (text ++ blanks) = squeeze quote pending text := by
  induction text generalizing quote pending with
  | nil =>
      have outside : quote = none := closed
      subst outside
      by_cases empty : blanks = []
      · rw [empty, List.append_nil]
      · have shown := squeeze_blank_append blank empty pending []
        rw [List.append_nil] at shown
        exact shown
  | cons c text ih => exact squeeze_congr_kept (ih closed) pending

theorem collapse_of_closed {c : Char} {rest : Text} (solid : Text.isBlank c = false)
    (closed : Text.closesQuotes (c :: rest) = true) :
    collapse (c :: rest) = squeeze none false (c :: rest) := by
  have start : Text.trimStart (c :: rest) = c :: rest := by simp [Text.trimStart, solid]
  obtain ⟨blanks, blank, whole⟩ := Text.exists_trimEnd_append (c :: rest)
  have ends : Text.advanceAll none (Text.trimEnd (c :: rest)) = none := by
    apply Text.closed_of_append_blank blank
    rw [← whole]
    exact Option.isNone_iff_eq_none.mp closed
  have shown := squeeze_append_blank blank ends false
  rw [← whole] at shown
  rw [collapse, Text.trim, start, shown]

theorem collapse_eq_cons {text rest : Text} {c : Char} (shown : collapse text = c :: rest) :
    Text.isBlank c = false := by
  obtain ⟨blanks, _, whole⟩ := Text.exists_trimEnd_append (Text.trimStart text)
  have first := List.head?_dropWhile_not Text.isBlank text
  rw [collapse, Text.trim] at shown
  cases trimmed : Text.trimEnd (Text.trimStart text) with
  | nil =>
      rw [trimmed] at shown
      cases shown
  | cons d more =>
      rw [trimmed] at shown whole
      rw [Text.trimStart] at whole
      rw [whole] at first
      simp only [List.cons_append, List.head?_cons] at first
      simp only [squeeze, first] at shown
      cases shown
      exact first

end Squeezing

section Statements

structure Widens (quote : Option Char) (statement text : Text) : Prop where
  squeezed : ∀ pending, squeeze quote pending text = squeeze quote pending statement
  ending : Text.advanceAll quote text = Text.advanceAll quote statement
  head : ∀ c, statement.head? = some c → Text.isBlank c = false → text.head? = some c

theorem Widens.kept {quote : Option Char} {c : Char} {statement text : Text}
    (others : Widens (Text.advance quote c) statement text) :
    Widens quote (c :: statement) (c :: text) :=
  ⟨squeeze_congr_kept others.squeezed, others.ending, fun _ first _ => first⟩

-- Without white space of its own, a gap has to be followed by another one or by the
-- end of the statement.
theorem Widens.gap {blanks statement text : Text} (blank : Blank blanks)
    (present : blanks = [] → statement = [] ∨ statement.head? = some ' ')
    (others : Widens none statement text) : Widens none (' ' :: statement) (blanks ++ text) := by
  have space : Text.isBlank ' ' = true := by decide
  refine ⟨?_, ?_, ?_⟩
  · intro pending
    rw [squeeze_blank space]
    by_cases empty : blanks = []
    · rw [empty, List.nil_append, others.squeezed]
      rcases present empty with rfl | next
      · rfl
      · obtain ⟨more, rfl⟩ := List.head?_eq_some_iff.mp next
        rw [squeeze_blank space, squeeze_blank space]
    · rw [squeeze_blank_append blank empty, others.squeezed]
  · rw [Text.advanceAll_append, Text.advanceAll_none_blank blank, others.ending]
    rfl
  · intro c first solid
    cases first
    rw [space] at solid
    cases solid

theorem Widens.collapse_eq {statement text blanks : Text} (clean : Clean statement)
    (widens : Widens none statement text) (blank : Blank blanks) :
    collapse (text ++ blanks) = statement := by
  obtain ⟨c, more, rfl⟩ := List.exists_cons_of_ne_nil clean.nonempty
  have solid := collapse_eq_cons clean.collapsed
  obtain ⟨rest, rfl⟩ := List.head?_eq_some_iff.mp (widens.head c rfl solid)
  have closed : Text.closesQuotes (c :: rest) = true := by
    rw [Text.closesQuotes, widens.ending]
    exact clean.closed
  rw [collapse_append_blank blank, collapse_of_closed solid closed, widens.squeezed,
    ← collapse_of_closed solid clean.closed, clean.collapsed]

theorem Spread.head_eq {fresh after : Bool} {quote : Option Char} {c : Char}
    {statement laid : Text} (spread : Spread fresh quote (c :: statement) laid after)
    (kept : quote = none → c ≠ ' ') (text : Text) : (laid ++ text).head? = some c := by
  cases spread with
  | kept => rfl
  | gap => exact absurd rfl (kept rfl)

theorem Spread.decimal_kept {fresh after : Bool} {quote previous : Option Char}
    {statement laid : Text} (spread : Spread fresh quote statement laid after)
    (decimal : isDecimalPoint previous statement = true) (text : Text) :
    isDecimalPoint previous (laid ++ text) = true := by
  simp only [isDecimalPoint, Bool.and_eq_true] at decimal ⊢
  refine ⟨decimal.1, ?_⟩
  cases statement with
  | nil => cases decimal.2
  | cons d more =>
      have digit : d.isDigit = true := decimal.2
      have solid : d ≠ ' ' := by
        rintro rfl
        cases digit
      rw [spread.head_eq (fun _ => solid) text]
      exact digit

-- A carriage return stands inside a literal only, and there at least the closing
-- quote follows it.
theorem Spread.return_alone {fresh after : Bool} {quote : Option Char} {c : Char}
    {statement laid : Text} (solid : quote.isSome = true ∨ Text.isBlank c = false)
    (others : Spread fresh (Text.advance quote c) statement laid after)
    (oneLine : '\n' ∉ statement) (closed : Text.advanceAll quote (c :: statement) = none)
    (literal : ∀ opened, quote = some opened → Text.isQuote opened = true) (text : Text) :
    c = '\r' → (laid ++ text).head? ≠ some '\n' := by
  rintro rfl
  rcases solid with inside | solid
  · obtain ⟨opened, rfl⟩ := Option.isSome_iff_exists.mp inside
    have other : '\r' ≠ opened := by
      rintro rfl
      cases literal _ rfl
    have still : Text.advance (some opened) '\r' = some opened := by
      simp [Text.advance, other]
    cases statement with
    | nil =>
        rw [Text.advanceAll, List.foldl_cons, still] at closed
        cases closed
    | cons d more =>
        rw [still] at others
        rw [others.head_eq (by simp) text]
        intro same
        exact oneLine (Option.some.inj same ▸ List.mem_cons_self)
  · cases solid

-- A full stop that follows no digit is no decimal point, so none stands in this place.
theorem isPlainFrom_of_apart {statement : Text} {previous : Option Char}
    (apart : previous.any Char.isDigit = false)
    (plain : isPlainFrom none previous statement = true) (other : Option Char) :
    isPlainFrom none other statement = true := by
  cases statement with
  | nil => rfl
  | cons c rest =>
      have decimal : isDecimalPoint previous rest = false := by simp [isDecimalPoint, apart]
      simp only [isPlainFrom, Option.isSome_none, Bool.false_or, decimal, Bool.or_false,
        Bool.and_eq_true] at plain ⊢
      obtain ⟨⟨word, stop⟩, others⟩ := plain
      exact ⟨⟨word, by simp [stop]⟩, others⟩

-- By induction on the rules. A literal is on one line, so the quote that the scan of
-- the line carries is the one that the statement has open at that place.
theorem Spread.reads {fresh after : Bool} {quote : Option Char} {statement laid : Text}
    (spread : Spread fresh quote statement laid after) {previous : Option Char}
    (plain : isPlainFrom quote previous statement = true) (oneLine : '\n' ∉ statement)
    (closed : Text.advanceAll quote statement = none)
    (literal : ∀ opened, quote = some opened → fresh = false ∧ Text.isQuote opened = true)
    {text : Text} {found : List Piece} (nonempty : text ≠ [])
    (follows : ∀ previous, Reads after none previous text found) :
    ∃ raw, Widens quote statement raw ∧
      ∀ other, isPlainFrom quote other statement = true →
        Reads fresh quote other (laid ++ text) (chars raw ++ found) := by
  induction spread generalizing previous with
  | nil fresh quote =>
      have outside : quote = none := closed
      subst outside
      exact ⟨[], ⟨fun _ => rfl, rfl, fun _ first _ => first⟩, fun other _ => follows other⟩
  | @kept fresh after quote c statement laid solid first others ih =>
      simp only [isPlainFrom, Bool.and_eq_true] at plain
      rw [List.mem_cons, not_or] at oneLine
      have quoted : ∀ opened, Text.advance quote c = some opened →
          false = false ∧ Text.isQuote opened = true := by
        intro opened here
        exact ⟨rfl, Text.isQuote_of_advanceAll (fun earlier before => (literal earlier before).2)
          (show Text.advanceAll quote [c] = some opened from here)⟩
      obtain ⟨raw, widens, reads⟩ := ih plain.2 oneLine.2 closed quoted follows
      refine ⟨c :: raw, widens.kept, ?_⟩
      intro other plainHere
      simp only [isPlainFrom, Bool.and_eq_true] at plainHere
      constructor
      · intro start
        rcases solid with inside | solid
        · obtain ⟨opened, here⟩ := Option.isSome_iff_exists.mp inside
          rw [(literal opened here).1] at start
          cases start
        · exact startsComment_solid solid (first start) _
      · have alone := others.return_alone solid oneLine.2 closed
          (fun opened here => (literal opened here).2) text
        have test : (quote.isSome ||
            (c != '"' && (c != '.' || isDecimalPoint other (laid ++ text)))) = true := by
          simp only [Bool.or_eq_true, Bool.and_eq_true] at plainHere ⊢
          exact plainHere.1.imp_right <| And.imp_right <| Or.imp_right fun decimal =>
            others.decimal_kept decimal text
        rw [List.cons_append, restPieces_kept (Ne.symm oneLine.1) alone test,
          (reads (some c) plainHere.2).2]
        rfl
  | @gap fresh middle after white statement laid spaced present others ih =>
      simp only [isPlainFrom, Bool.and_eq_true] at plain
      rw [List.mem_cons, not_or] at oneLine
      have plainAfter := isPlainFrom_of_apart rfl plain.2
      obtain ⟨raw, widens, reads⟩ := ih (plainAfter none) oneLine.2 closed nofun follows
      obtain ⟨blanks, blank, shown, gapReads⟩ := spaced.reads (by simp [nonempty])
        fun previous => reads previous (plainAfter previous)
      refine ⟨blanks ++ raw, ?_, ?_⟩
      · refine widens.gap blank ?_
        intro empty
        cases statement with
        | nil => exact .inl rfl
        | cons d more =>
            by_cases space : d = ' '
            · exact .inr (congrArg some space)
            · refine absurd empty (shown present ?_)
              rw [others.head_eq (fun _ => space) text]
              intro same
              exact oneLine.2 (Option.some.inj same ▸ List.mem_cons_self)
      · intro other _
        simpa using gapReads other

end Statements

section Programs

theorem tidy_chunks_blank {blanks : Text} (blank : Blank blanks) (found : List Piece) :
    tidy (chunks (chars blanks ++ found)) = tidy (chunks found) := by
  rw [chunks_chars_append, tidy_modifyHead_blank blank]

theorem tidy_chunks_stop {statement text : Text} (shown : collapse text = statement)
    (nonempty : statement ≠ []) (found : List Piece) :
    tidy (chunks (chars text ++ .stop :: found)) = statement :: tidy (chunks found) := by
  rw [chunks_chars_append, chunks]
  simp [tidy, shown, nonempty]

-- By induction on the statements, each with its full stop and the gap after it. The
-- line feed at the end stands for the end of the source.
theorem Laid.reads {fresh : Bool} {statements : List Text} {text : Text}
    (laid : Laid fresh statements text) (clean : ∀ statement ∈ statements, Clean statement) :
    ∃ found, tidy (chunks found) = statements ∧
      ∀ previous, Reads fresh none previous (text ++ ['\n']) found := by
  induction laid with
  | @nil fresh after white spaced =>
      have ends (previous : Option Char) : Reads after none previous ['\n'] (chars [' ']) :=
        ⟨fun _ => startsComment_lineFeed [], restPieces_lineFeed none previous []⟩
      obtain ⟨blanks, blank, _, reads⟩ := spaced.reads (List.cons_ne_nil _ _) ends
      refine ⟨_, ?_, reads⟩
      rw [tidy_chunks_blank blank]
      decide
  | @cons fresh middle stopped after statement text before white rest statements spread spaced
      apart nonempty _ ih =>
      obtain ⟨here, others⟩ := List.forall_mem_cons.mp clean
      obtain ⟨found, split, reads⟩ := ih others
      obtain ⟨blanks, blank, _, apartReads⟩ := apart.reads (by simp) reads
      have stopReads (previous : Option Char) : Reads stopped none previous
          ('.' :: (white ++ (rest ++ ['\n']))) (.stop :: (chars blanks ++ found)) := by
        refine ⟨fun _ => startsComment_solid (by decide) (by decide) _, ?_⟩
        rw [restPieces_stop previous (apart.head_ne_digit nonempty _), (apartReads _).2]
      obtain ⟨trailing, trail, _, spacedReads⟩ := spaced.reads (List.cons_ne_nil _ _) stopReads
      obtain ⟨raw, widens, spreadReads⟩ := spread.reads here.plain here.oneLine
        (Option.isNone_iff_eq_none.mp here.closed) nofun (by simp) spacedReads
      have shown : collapse (raw ++ trailing) = statement := widens.collapse_eq here trail
      refine ⟨chars (raw ++ trailing) ++ .stop :: (chars blanks ++ found), ?_, ?_⟩
      · rw [tidy_chunks_stop shown here.nonempty, tidy_chunks_blank blank, split]
      · intro previous
        simpa using spreadReads previous (isPlainFrom_of_apart rfl here.plain previous)

/-- A source that lays out clean statements is split into exactly these. -/
theorem statements_of_layout {statements : List Text} {source : Text}
    (clean : ∀ statement ∈ statements, Clean statement)
    (laid : IsLayout statements source) : Source.statements source = statements := by
  obtain ⟨header, white, body, fresh, commented, spaced, laid, whole⟩ := laid
  obtain ⟨found, split, reads⟩ := laid.reads clean
  obtain ⟨blanks, blank, _, spacedReads⟩ := spaced.reads (by simp) reads
  have ended : Source.statements (header ++ (white ++ body) ++ ['\n']) = statements := by
    rw [statements_eq_tidy, List.append_assoc, commented.pieces_append, List.append_assoc,
      pieces_eq_restPieces (by simp) ((spacedReads none).1 rfl), (spacedReads none).2,
      tidy_chunks_blank blank, split]
  rw [statements_append_lineFeed] at ended
  rcases whole with rfl | broken
  · exact ended
  · rw [broken, statements_append_lineFeed] at ended
    exact ended

-- A remark and a comment line stand between the words of the first statement, and the
-- last line has no end.
def laidSample : Text :=
  "* head\nWRITE\"note.\n * line\n'a. b' . x\t=\r\n2.5.".toList

theorem statements_of_layout_remarks :
    (∀ statement ∈ ["WRITE 'a. b'".toList, "x = 2.5".toList], Clean statement) ∧
      IsLayout ["WRITE 'a. b'".toList, "x = 2.5".toList] laidSample ∧
      statements laidSample = ["WRITE 'a. b'".toList, "x = 2.5".toList] := by
  have clean : ∀ statement ∈ ["WRITE 'a. b'".toList, "x = 2.5".toList], Clean statement := by
    intro statement member
    simp only [List.mem_cons, List.not_mem_nil, or_false] at member
    rcases member with rfl | rfl
    · exact ⟨by decide, by decide +kernel, by decide, by decide, by decide⟩
    · exact ⟨by decide, by decide +kernel, by decide, by decide, by decide⟩
  have note : Gap false ("\"note.".toList ++ '\n' :: (" * line\n".toList ++ [])) true :=
    .lineBreak (.cons (by decide))
      (show CommentLines ([' '] ++ '*' :: " line".toList ++ '\n' :: []) from
        .cons (by simp [Blank]; decide) (by decide) .nil) (.nil true)
  have space (fresh : Bool) : Gap fresh [' '] fresh := .blank (by decide) (by decide) (.nil fresh)
  have tab (fresh : Bool) : Gap fresh ['\t'] fresh := .blank (by decide) (by decide) (.nil fresh)
  have newLine (fresh : Bool) : Gap fresh ['\n'] true := .lineBreak .nil .nil (.nil true)
  have turn : Gap false ['\r', '\n'] true := .blank (by decide) (by decide) (newLine false)
  have write : Spread true none "WRITE 'a. b'".toList
      ("WRITE".toList ++ ("\"note.\n * line\n".toList ++ "'a. b'".toList)) false := by
    have rest : Spread false none (' ' :: "'a. b'".toList)
        (("\"note.\n * line\n".toList ++ []) ++ "'a. b'".toList) false := by
      refine .gap note (by simp) ?_
      simp only [String.reduceToList]
      repeat refine .kept (by decide) (by decide) ?_
      exact .nil _ _
    simp only [String.reduceToList] at rest ⊢
    repeat refine .kept (by decide) (by decide) ?_
    exact rest
  have assign : Spread false none "x = 2.5".toList ("x\t=\r\n2.5".toList) false := by
    simp only [String.reduceToList]
    refine .kept (by decide) (by decide) (.gap (tab false) (by simp) ?_)
    refine .kept (by decide) (by decide) (.gap turn (by simp) ?_)
    repeat refine .kept (by decide) (by decide) ?_
    exact .nil _ _
  have body := Laid.cons write (space false) (space false) (by simp)
    (.cons assign (.nil false) (newLine false) (by simp) (.nil (.nil true)))
  have header : CommentLines ([] ++ '*' :: " head".toList ++ '\n' :: []) :=
    .cons (by simp [Blank]) (by decide) .nil
  have laid : IsLayout ["WRITE 'a. b'".toList, "x = 2.5".toList] laidSample :=
    ⟨_, [], _, true, header, .nil true, body, .inr (by decide +kernel)⟩
  exact ⟨clean, laid, statements_of_layout clean laid⟩

end Programs

end Source

end MiniAbap
