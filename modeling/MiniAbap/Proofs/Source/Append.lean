import MiniAbap.Proofs.Source.Line
import MiniAbap.Proofs.Text.Blank

/-!
One source after another. Lines do not see each other, so the pieces of two
sources with a line end between them are those of the first and then those of
the second. The statements are so too, unless text after the last full stop of
the first runs into the second.
-/

namespace MiniAbap

namespace Source

open Text (Blank)

section Pieces

def chars (text : Text) : List Piece :=
  text.map .char

@[simp] theorem chars_nil : chars [] = [] := rfl

@[simp] theorem chars_cons (c : Char) (text : Text) :
    chars (c :: text) = .char c :: chars text := rfl

@[simp] theorem chars_append (first second : Text) :
    chars (first ++ second) = chars first ++ chars second :=
  List.map_append

def SameButEnd (first second : List Piece) : Prop :=
  ∃ common before after, Blank before ∧ Blank after ∧
    first = common ++ chars before ∧ second = common ++ chars after

theorem SameButEnd.refl (pieces : List Piece) : SameButEnd pieces pieces :=
  ⟨pieces, [], [], nofun, nofun, by simp, by simp⟩

theorem SameButEnd.prepend {first second : List Piece} (earlier : List Piece)
    (same : SameButEnd first second) : SameButEnd (earlier ++ first) (earlier ++ second) := by
  obtain ⟨common, before, after, blank, blank', rfl, rfl⟩ := same
  exact ⟨earlier ++ common, before, after, blank, blank', by simp, by simp⟩

theorem SameButEnd.append_blank {first second : List Piece} {blanks : Text}
    (blank : Blank blanks) (same : SameButEnd first second) :
    SameButEnd (first ++ chars blanks) (second ++ chars blanks) := by
  obtain ⟨common, before, after, blankBefore, blankAfter, rfl, rfl⟩ := same
  exact ⟨common, before ++ blanks, after ++ blanks, blankBefore.append blank,
    blankAfter.append blank, by simp, by simp⟩

theorem isDecimalPoint_append_return (previous : Option Char) (rest : Text) :
    isDecimalPoint previous (rest ++ ['\r']) = isDecimalPoint previous rest := by
  cases rest with
  | nil => cases previous <;> simp [isDecimalPoint]
  | cons c rest => rfl

theorem piecesFrom_append_return (quote previous : Option Char) (line : Text) :
    SameButEnd (piecesFrom quote previous (line ++ ['\r'])) (piecesFrom quote previous line) := by
  induction line generalizing quote previous with
  | nil =>
      refine ⟨[], ['\r'], [], by simp [Blank]; decide, nofun, ?_, rfl⟩
      simp [piecesFrom]
  | cons c line ih =>
      simp only [List.cons_append, piecesFrom, isDecimalPoint_append_return]
      split
      · exact .refl _
      · split
        · exact (ih none (some c)).prepend [.stop]
        · exact (ih (Text.advance quote c) (some c)).prepend [.char c]

theorem isCommentLine_append_return (line : Text) :
    isCommentLine (line ++ ['\r']) = isCommentLine line := by
  induction line with
  | nil => decide
  | cons c line ih =>
      by_cases skipped : Text.isBlank c = true
      · simpa [isCommentLine, Text.trimStart, skipped] using ih
      · simp [isCommentLine, Text.trimStart, skipped]

theorem linePieces_dropReturn (line : Text) :
    SameButEnd (linePieces line) (linePieces (Text.dropReturn line)) := by
  simp only [Text.dropReturn]
  split
  · next returns =>
      obtain ⟨init, rfl⟩ := List.getLast?_eq_some_iff.mp returns
      rw [List.dropLast_concat]
      simp only [linePieces, isCommentLine_append_return]
      split
      · exact .refl _
      · have space : Blank [' '] := by simp [Blank]; decide
        exact (piecesFrom_append_return none none init).append_blank space
  · exact .refl _

theorem pieces_line {line : Text} (inside : '\n' ∉ line) (rest : Text) :
    pieces (line ++ '\n' :: rest) = linePieces (Text.dropReturn line) ++ pieces rest := by
  rw [pieces, Text.lines_line inside, List.flatMap_cons, pieces]

-- The text after a line end is read as if it stood alone. The line end itself can
-- take a carriage return along, or leave an empty line behind.
theorem pieces_append_line (first : Text) :
    ∃ ended, SameButEnd (pieces first) ended ∧
      ∀ second, pieces (first ++ '\n' :: second) = ended ++ pieces second := by
  by_cases ends : '\n' ∈ first
  · obtain ⟨line, rest, split, inside⟩ := List.eq_append_cons_of_mem ends
    have shorter : rest.length < first.length := by simp [split]; omega
    obtain ⟨ended, same, joined⟩ := pieces_append_line rest
    refine ⟨linePieces (Text.dropReturn line) ++ ended, ?_, ?_⟩
    · rw [split, pieces_line inside]
      exact same.prepend _
    · intro second
      rw [split, List.append_assoc, List.cons_append, pieces_line inside, joined,
        List.append_assoc]
  · refine ⟨linePieces (Text.dropReturn first), ?_, pieces_line ends⟩
    by_cases empty : first = []
    · subst empty
      exact ⟨[], [], [' '], nofun, by simp [Blank]; decide, rfl, rfl⟩
    · have single : pieces first = linePieces first := by
        rw [pieces, Text.lines_last ends empty, List.flatMap_singleton]
      rw [single]
      exact linePieces_dropReturn first
termination_by first.length

end Pieces

section Statements

theorem chunks_chars_append (text : Text) (rest : List Piece) :
    chunks (chars text ++ rest) = (chunks rest).modifyHead (text ++ ·) := by
  induction text with
  | nil => cases found : chunks rest <;> simp [found]
  | cons c text ih =>
      rw [chars_cons, List.cons_append, chunks, ih, List.modifyHead_modifyHead]
      rfl

-- What stands after the last stop goes on with the pieces that follow.
theorem chunks_append (first : List Piece) :
    ∃ ended last, ∀ second,
      chunks (first ++ second) = ended ++ (chunks second).modifyHead (last ++ ·) := by
  induction first with
  | nil =>
      refine ⟨[], [], ?_⟩
      intro second
      exact chunks_chars_append [] second
  | cons piece rest ih =>
      obtain ⟨ended, last, joined⟩ := ih
      cases piece with
      | stop =>
          refine ⟨[] :: ended, last, ?_⟩
          intro second
          rw [List.cons_append, chunks, joined, List.cons_append]
      | char c =>
          cases ended with
          | nil =>
              refine ⟨[], c :: last, ?_⟩
              intro second
              rw [List.cons_append, chunks, joined, List.nil_append, List.nil_append,
                List.modifyHead_modifyHead]
              rfl
          | cons text ended =>
              refine ⟨(c :: text) :: ended, last, ?_⟩
              intro second
              rw [List.cons_append, chunks, joined, List.cons_append, List.modifyHead_cons,
                List.cons_append]

def tidy (texts : List Text) : List Text :=
  (texts.map collapse).filter fun text => !text.isEmpty

theorem statements_eq_tidy (source : Text) : statements source = tidy (chunks (pieces source)) :=
  rfl

@[simp] theorem tidy_append (first second : List Text) :
    tidy (first ++ second) = tidy first ++ tidy second := by
  simp [tidy]

theorem collapse_blank_append {blanks : Text} (blank : Blank blanks) (text : Text) :
    collapse (blanks ++ text) = collapse text := by
  rw [collapse, Text.trim_blank_append blank, collapse]

theorem collapse_append_blank {blanks : Text} (blank : Blank blanks) (text : Text) :
    collapse (text ++ blanks) = collapse text := by
  rw [collapse, Text.trim_append_blank blank, collapse]

theorem tidy_modifyHead_blank {blanks : Text} (blank : Blank blanks) (texts : List Text) :
    tidy (texts.modifyHead (blanks ++ ·)) = tidy texts := by
  cases texts with
  | nil => rfl
  | cons first rest => simp only [List.modifyHead_cons, tidy, List.map_cons,
      collapse_blank_append blank]

theorem tidy_blank {blanks : Text} (blank : Blank blanks) : tidy [blanks] = [] := by
  have empty := collapse_blank_append blank []
  rw [List.append_nil] at empty
  simp only [tidy, List.map_cons, empty]
  rfl

theorem statements_append_lineFeed (source : Text) :
    statements (source ++ ['\n']) = statements source := by
  obtain ⟨ended, ⟨common, before, after, blank, blank', same, rfl⟩, joined⟩ :=
    pieces_append_line source
  obtain ⟨done, last, follows⟩ := chunks_append common
  have nothing : pieces [] = chars [] := rfl
  rw [statements_eq_tidy, statements_eq_tidy, joined, same, nothing,
    ← List.append_nil (chars before), List.append_assoc, follows, follows,
    chunks_chars_append, chunks_chars_append]
  simp [chunks, tidy, collapse_append_blank blank, collapse_append_blank blank']

/-- Nothing but white space and comments follows the last full stop. -/
def isTerminated (source : Text) : Bool :=
  (chunks (pieces source)).getLast?.all fun last => last.all Text.isBlank

theorem statements_append_line {first : Text} (terminated : isTerminated first = true)
    (second : Text) :
    statements (first ++ '\n' :: second) = statements first ++ statements second := by
  obtain ⟨ended, ⟨common, before, after, blank, blank', same, rfl⟩, joined⟩ :=
    pieces_append_line first
  obtain ⟨done, last, follows⟩ := chunks_append common
  have texts : chunks (pieces first) = done ++ [last ++ before] := by
    rw [same, ← List.append_nil (chars before), follows, chunks_chars_append]
    simp [chunks]
  obtain ⟨openBlank, _⟩ : Blank last ∧ Blank before := by
    simpa [isTerminated, texts, Blank] using terminated
  rw [statements_eq_tidy, statements_eq_tidy, statements_eq_tidy, joined, texts, List.append_assoc,
    follows, chunks_chars_append, tidy_append, tidy_append, tidy_blank (openBlank.append blank),
    tidy_modifyHead_blank openBlank, tidy_modifyHead_blank blank', List.append_nil]

end Statements

end Source

end MiniAbap
