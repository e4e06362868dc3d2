import MiniAbap.Proofs.Source.Append

/-!
Nothing is lost, added or moved when a program is split. White space apart, the
statements hold the characters of the program in order, without comment lines,
remarks and the full stops that end statements. What a line keeps is said here by
positions in it, so that nothing depends on how the line is scanned.

Every statement comes out in reduced form: it starts and ends with a character
that is not white space, and reducing it again leaves it as it is.
-/

namespace MiniAbap

namespace Text

def solid (text : Text) : Text :=
  text.filter fun c => !isBlank c

@[simp] theorem solid_nil : solid [] = [] := rfl

@[simp] theorem solid_append (first second : Text) :
    solid (first ++ second) = solid first ++ solid second :=
  List.filter_append first second

theorem solid_blank {blanks : Text} (blank : Blank blanks) : solid blanks = [] := by
  apply List.filter_eq_nil_iff.mpr
  intro c member
  simp [blank c member]

theorem solid_trim (text : Text) : solid (trim text) = solid text := by
  have start : solid text = solid (trimStart text) := by
    have white : Blank (text.takeWhile isBlank) :=
      fun c member => List.all_eq_true.mp List.all_takeWhile c member
    calc solid text = solid (text.takeWhile isBlank ++ trimStart text) := by
          rw [trimStart, List.takeWhile_append_dropWhile]
      _ = solid (trimStart text) := by rw [solid_append, solid_blank white, List.nil_append]
  obtain ⟨blanks, blank, whole⟩ := exists_trimEnd_append (trimStart text)
  rw [start, trim, whole, solid_append, solid_blank blank, List.append_nil, ← whole]

end Text

namespace Source

section Rules

def isOutside (text : Text) (position : Nat) : Bool :=
  Text.closesQuotes (text.take position)

def startsRemark (text : Text) (position : Nat) : Bool :=
  isOutside text position && text[position]? == some '"'

def hasDigit (text : Text) (position : Nat) : Bool :=
  text[position]?.any Char.isDigit

def isBetweenDigits (text : Text) (position : Nat) : Bool :=
  0 < position && hasDigit text (position - 1) && hasDigit text (position + 1)

def endsStatement (text : Text) (position : Nat) : Bool :=
  isOutside text position && text[position]? == some '.' && !isBetweenDigits text position

def isKept (text : Text) (position : Nat) : Bool :=
  !(List.range (position + 1)).any (startsRemark text) && !endsStatement text position

def lineText (line : Text) : Text :=
  (line.zipIdx.filter fun entry => isKept line entry.2).map Prod.fst

def keptText (source : Text) : Text :=
  ((Text.lines source).filter fun line => !isCommentLine line).flatMap lineText

end Rules

section Pieces

def pieceText : List Piece → Text
  | [] => []
  | .stop :: rest => pieceText rest
  | .char c :: rest => c :: pieceText rest

theorem pieceText_append (first second : List Piece) :
    pieceText (first ++ second) = pieceText first ++ pieceText second := by
  induction first with
  | nil => rfl
  | cons piece rest ih =>
      cases piece with
      | stop => exact ih
      | char c => simp only [List.cons_append, pieceText, ih]

theorem chunks_ne_nil (found : List Piece) : chunks found ≠ [] := by
  induction found with
  | nil => simp [chunks]
  | cons piece rest ih =>
      cases piece with
      | stop => simp [chunks]
      | char c =>
          obtain ⟨first, more, split⟩ := List.exists_cons_of_ne_nil ih
          simp [chunks, split]

theorem flatten_chunks (found : List Piece) : (chunks found).flatten = pieceText found := by
  induction found with
  | nil => rfl
  | cons piece rest ih =>
      cases piece with
      | stop => exact ih
      | char c =>
          obtain ⟨first, more, split⟩ := List.exists_cons_of_ne_nil (chunks_ne_nil rest)
          rw [split, List.flatten_cons] at ih
          rw [chunks, split, List.modifyHead_cons, List.flatten_cons, List.cons_append, ih,
            pieceText]

section Position

/-! A position of a line, with the text before it and the text from it on. -/

variable (before : Text) (c : Char) (rest : Text)

theorem isOutside_here :
    isOutside (before ++ c :: rest) before.length = (Text.advanceAll none before).isNone := by
  rw [isOutside, List.take_left, Text.closesQuotes]

theorem startsRemark_here :
    startsRemark (before ++ c :: rest) before.length =
      ((Text.advanceAll none before).isNone && c == '"') := by
  simp [startsRemark, isOutside_here]

theorem isBetweenDigits_here :
    isBetweenDigits (before ++ c :: rest) before.length =
      isDecimalPoint before.getLast? rest := by
  have after : (before ++ c :: rest)[before.length + 1]? = rest.head? := by
    rw [List.getElem?_append_right (by omega), Nat.add_sub_cancel_left,
      List.getElem?_cons_succ, List.head?_eq_getElem?]
  rw [isBetweenDigits, hasDigit, hasDigit, after, isDecimalPoint]
  rcases List.eq_nil_or_concat before with rfl | ⟨init, last, rfl⟩
  · rfl
  · simp

theorem endsStatement_here :
    endsStatement (before ++ c :: rest) before.length =
      ((Text.advanceAll none before).isNone && c == '.' &&
        !isDecimalPoint before.getLast? rest) := by
  simp [endsStatement, isOutside_here, isBetweenDigits_here]

end Position

theorem isKept_of_remark {line : Text} {position later : Nat}
    (remark : startsRemark line position = true) (after : position ≤ later) :
    isKept line later = false := by
  have found : (List.range (later + 1)).any (startsRemark line) = true :=
    List.any_eq_true.mpr ⟨position, List.mem_range.mpr (by omega), remark⟩
  simp [isKept, found]

theorem filter_isKept_of_remark {line : Text} {position : Nat}
    (remark : startsRemark line position = true) (rest : Text) :
    (rest.zipIdx position).filter (fun entry => isKept line entry.2) = [] := by
  apply List.filter_eq_nil_iff.mpr
  intro entry member
  rw [isKept_of_remark remark (List.le_snd_of_mem_zipIdx member)]
  exact Bool.false_ne_true

theorem isKept_of_clear {line : Text} {position : Nat}
    (clear : ∀ earlier ≤ position, startsRemark line earlier = false) :
    isKept line position = !endsStatement line position := by
  have absent : (List.range (position + 1)).any (startsRemark line) = false := by
    apply List.any_eq_false.mpr
    intro earlier member
    rw [clear earlier (Nat.le_of_lt_succ (List.mem_range.mp member))]
    exact Bool.false_ne_true
  simp [isKept, absent]

-- By induction on what is left of the line. No remark has started before the
-- position, and the scan has the quote that is open there.
theorem pieceText_piecesFrom (before rest : Text)
    (clear : ∀ earlier < before.length, startsRemark (before ++ rest) earlier = false) :
    pieceText (piecesFrom (Text.advanceAll none before) before.getLast? rest) =
      ((rest.zipIdx before.length).filter fun entry =>
        isKept (before ++ rest) entry.2).map Prod.fst := by
  induction rest generalizing before with
  | nil => rfl
  | cons c rest ih =>
      have remark := startsRemark_here before c rest
      have stop := endsStatement_here before c rest
      simp only [piecesFrom]
      by_cases cut : ((Text.advanceAll none before).isNone && c == '"') = true
      · rw [if_pos cut]
        rw [cut] at remark
        rw [filter_isKept_of_remark remark]
        rfl
      · rw [if_neg cut]
        rw [Bool.eq_false_iff.mpr cut] at remark
        have clearHere : ∀ earlier ≤ before.length,
            startsRemark (before ++ c :: rest) earlier = false := by
          intro earlier bound
          rcases Nat.lt_or_eq_of_le bound with less | rfl
          · exact clear earlier less
          · exact remark
        have kept := isKept_of_clear clearHere
        have whole : before ++ c :: rest = (before ++ [c]) ++ rest := by simp
        have further := ih (before ++ [c]) (by
          intro earlier bound
          rw [← whole]
          exact clearHere earlier (by simp at bound; omega))
        rw [← whole, List.length_append, List.length_singleton, List.getLast?_concat,
          Text.advanceAll_append] at further
        rw [List.zipIdx_cons, List.filter_cons, kept, stop]
        by_cases ends : ((Text.advanceAll none before).isNone && c == '.' &&
            !isDecimalPoint before.getLast? rest) = true
        · rw [if_pos ends, if_neg (by rw [ends]; decide), ← further, pieceText]
          simp only [Bool.and_eq_true, Option.isNone_iff_eq_none, beq_iff_eq] at ends
          obtain ⟨⟨outside, rfl⟩, _⟩ := ends
          rw [outside]
          rfl
        · rw [if_neg ends, if_pos (by rw [Bool.eq_false_iff.mpr ends]; rfl), List.map_cons,
            ← further, pieceText]
          rfl

theorem pieceText_line (line : Text) :
    pieceText (piecesFrom none none line) = lineText line :=
  pieceText_piecesFrom [] line (fun _ bound => absurd bound (Nat.not_lt_zero _))

theorem solid_pieceText_pieces (source : Text) :
    Text.solid (pieceText (pieces source)) = Text.solid (keptText source) := by
  rw [pieces, keptText]
  induction Text.lines source with
  | nil => rfl
  | cons line more ih =>
      have space : Text.solid [' '] = [] := by decide
      rw [List.flatMap_cons, pieceText_append, Text.solid_append, ih, linePieces]
      by_cases comment : isCommentLine line = true
      · simp [comment, pieceText]
      · simp [comment, pieceText_append, pieceText_line, pieceText, space]

end Pieces

section Reducing

theorem solid_squeeze (quote : Option Char) (pending : Bool) (text : Text) :
    Text.solid (squeeze quote pending text) = Text.solid text := by
  induction text generalizing quote pending with
  | nil => rfl
  | cons c rest ih =>
      have space : Text.isBlank ' ' = true := by decide
      simp only [squeeze]
      split
      · next white =>
          rw [Bool.and_eq_true] at white
          rw [ih]
          simp [Text.solid, white.2]
      · have kept (pending : Bool) : Text.solid (c :: squeeze (Text.advance quote c) pending rest) =
            Text.solid (c :: rest) := by
          rw [← List.singleton_append, Text.solid_append, ih, ← Text.solid_append]
          rfl
        cases pending with
        | false => exact kept false
        | true => simpa [Text.solid, space] using kept false

theorem solid_collapse (text : Text) : Text.solid (collapse text) = Text.solid text := by
  rw [collapse, solid_squeeze, Text.solid_trim]

theorem solid_flatten_tidy (texts : List Text) :
    Text.solid (tidy texts).flatten = Text.solid texts.flatten := by
  induction texts with
  | nil => rfl
  | cons text more ih =>
      rw [List.flatten_cons, Text.solid_append, ← ih, ← solid_collapse text,
        ← Text.solid_append]
      by_cases empty : collapse text = []
      · simp [tidy, empty]
      · simp [tidy, empty]

-- A space that stands for white space already is reduced to itself. Inside a literal
-- none is pending.
theorem squeeze_squeeze {quote : Option Char} {pending earlier : Bool}
    (settled : quote.isSome = true → pending = false ∧ earlier = false) (text : Text) :
    squeeze quote pending (squeeze quote earlier text) =
      squeeze quote (pending || earlier) text := by
  induction text generalizing quote pending earlier with
  | nil => rfl
  | cons c rest ih =>
      have kept : squeeze (Text.advance quote c) false
          (squeeze (Text.advance quote c) false rest) =
            squeeze (Text.advance quote c) false rest := by
        rw [ih (fun _ => ⟨rfl, rfl⟩)]
        rfl
      by_cases white : (quote.isNone && Text.isBlank c) = true
      · have outside : quote = none := by
          rw [Bool.and_eq_true, Option.isNone_iff_eq_none] at white
          exact white.1
        subst outside
        simp only [squeeze, white, if_true]
        rw [ih (by simp), Bool.or_true]
      · cases earlier with
        | false => simp [squeeze, white, kept]
        | true =>
            have outside : quote = none := by
              cases quote with
              | none => rfl
              | some opened => exact absurd (settled rfl).2 Bool.true_eq_false.mp
            subst outside
            have visible : Text.isBlank c = false := by simpa using white
            have space : Text.isBlank ' ' = true := by decide
            simp [squeeze, visible, kept, space]

theorem getLast?_squeeze {c : Char} (visible : Text.isBlank c = false) (quote : Option Char)
    (pending : Bool) (init : Text) :
    (squeeze quote pending (init ++ [c])).getLast? = some c := by
  induction init generalizing quote pending with
  | nil => cases pending <;> simp [squeeze, visible]
  | cons d rest ih =>
      simp only [List.cons_append, squeeze]
      split
      · exact ih none true
      · have tail := ih (Text.advance quote d) false
        cases pending <;> simp [List.getLast?_cons, tail]

theorem hasSolidEnds_collapse (text : Text) : Text.HasSolidEnds (collapse text) := by
  have trimmed := Text.hasSolidEnds_trim text
  rw [collapse]
  constructor
  · intro c first
    cases here : Text.trim text with
    | nil =>
        rw [here] at first
        cases first
    | cons d rest =>
        rw [here] at first trimmed
        have visible := trimmed.first d rfl
        simp only [squeeze, visible] at first
        cases first
        exact visible
  · intro c last
    rcases List.eq_nil_or_concat (Text.trim text) with here | ⟨init, d, here⟩
    · rw [here] at last
      cases last
    · rw [List.concat_eq_append] at here
      rw [here] at last trimmed
      have visible := trimmed.last d List.getLast?_concat
      rw [getLast?_squeeze visible] at last
      cases last
      exact visible

theorem collapse_collapse (text : Text) : collapse (collapse text) = collapse text := by
  calc collapse (collapse text) = squeeze none false (collapse text) := by
        rw [collapse, (hasSolidEnds_collapse text).trim_eq]
    _ = squeeze none (false || false) (Text.trim text) := squeeze_squeeze (by simp) _
    _ = collapse text := rfl

end Reducing

/-- White space apart, the statements of a program are what its lines keep, in order.
    Each of them is in reduced form. -/
theorem statements_conserve (source : Text) :
    Text.solid (statements source).flatten = Text.solid (keptText source) ∧
      ∀ statement ∈ statements source, statement ≠ [] ∧ Text.HasSolidEnds statement ∧
        collapse statement = statement := by
  constructor
  · rw [statements_eq_tidy, solid_flatten_tidy, flatten_chunks, solid_pieceText_pieces]
  · intro statement member
    obtain ⟨taken, nonempty⟩ := List.mem_filter.mp member
    obtain ⟨text, _, rfl⟩ := List.mem_map.mp taken
    refine ⟨?_, hasSolidEnds_collapse text, collapse_collapse text⟩
    simpa using nonempty

end Source

end MiniAbap
