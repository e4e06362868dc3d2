import MiniAbap.Proofs.Source.Conservation
import MiniAbap.Proofs.Source.Layout

/-!
Literals and lines. For full stops and remarks a literal ends with its line, while
the reduction of white space lets it run on to the end of the statement. Here is the
splitter that ends literals with their lines throughout, and when the two agree: they
do if every line closes its literals, and otherwise exactly if no run of white space
comes out differently.
-/

namespace MiniAbap

namespace Source

open Text (Blank)

section LineSplitter

/-- A character of a statement, and whether a literal of its own line is open there. -/
structure Marked where
  char : Char
  inLiteral : Bool

def markedFrom (quote previous : Option Char) : Text → List (Option Marked)
  | [] => []
  | c :: rest =>
      if quote.isNone && c == '"' then []
      else if quote.isNone && c == '.' && !isDecimalPoint previous rest then
        none :: markedFrom none (some c) rest
      else some ⟨c, quote.isSome⟩ :: markedFrom (Text.advance quote c) (some c) rest

def markedLine (line : Text) : List (Option Marked) :=
  if isCommentLine line then [] else markedFrom none none line ++ [some ⟨' ', false⟩]

def markedPieces (source : Text) : List (Option Marked) :=
  (Text.lines source).flatMap markedLine

def markedChunks : List (Option Marked) → List (List Marked)
  | [] => [[]]
  | none :: rest => [] :: markedChunks rest
  | some marked :: rest => (markedChunks rest).modifyHead (marked :: ·)

namespace Marked

def isBlank (marked : Marked) : Bool :=
  Text.isBlank marked.char

def text (marked : List Marked) : Text :=
  marked.map Marked.char

def trim (marked : List Marked) : List Marked :=
  ((marked.dropWhile isBlank).reverse.dropWhile isBlank).reverse

def reduce (pending : Bool) : List Marked → Text
  | [] => []
  | marked :: rest =>
      if !marked.inLiteral && marked.isBlank then reduce true rest
      else
        let kept := marked.char :: reduce false rest
        if pending then ' ' :: kept else kept

end Marked

def lineStatements (source : Text) : List Text :=
  ((markedChunks (markedPieces source)).map fun marked =>
    Marked.reduce false (Marked.trim marked)).filter fun text => !text.isEmpty

end LineSplitter

section Runs

namespace Marked

def Quoted (marked : List Marked) : Prop :=
  ∀ m ∈ marked, m.isBlank = true ∧ m.inLiteral = true

def Unquoted (marked : List Marked) : Prop :=
  ∀ m ∈ marked, m.isBlank = true ∧ m.inLiteral = false

end Marked

/-- All the white space between two other characters of a text, its part in a literal of
    a line before the part in none. -/
structure IsRun (marked before quoted unquoted after : List Marked) : Prop where
  whole : marked = before ++ (quoted ++ (unquoted ++ after))
  left : ∃ m ∈ before.getLast?, m.isBlank = false
  right : ∃ m ∈ after.head?, m.isBlank = false
  inside : Marked.Quoted quoted
  outside : Marked.Unquoted unquoted

def ShownAlike (quote : Option Char) (quoted unquoted : List Marked) : Prop :=
  if quote.isSome then unquoted = [] ∨ Marked.text unquoted = [' ']
  else quoted = [] ∨ Marked.text (quoted ++ unquoted) = [' ']

end Runs

section Erasure

def erase : Option Marked → Piece
  | none => .stop
  | some marked => .char marked.char

theorem map_erase_markedFrom (quote previous : Option Char) (line : Text) :
    (markedFrom quote previous line).map erase = piecesFrom quote previous line := by
  induction line generalizing quote previous with
  | nil => rfl
  | cons c rest ih =>
      simp only [markedFrom, piecesFrom]
      split
      · rfl
      · split
        · rw [List.map_cons, ih, erase]
        · rw [List.map_cons, ih, erase]

theorem map_erase_markedPieces (source : Text) :
    (markedPieces source).map erase = pieces source := by
  rw [markedPieces, List.map_flatMap, pieces]
  congr 1
  funext line
  simp only [markedLine, linePieces]
  split
  · rfl
  · rw [List.map_append, map_erase_markedFrom]
    rfl

theorem chunks_map_erase (found : List (Option Marked)) :
    chunks (found.map erase) = (markedChunks found).map Marked.text := by
  induction found with
  | nil => rfl
  | cons piece rest ih =>
      cases piece with
      | none => simp only [List.map_cons, erase, chunks, markedChunks, ih]; rfl
      | some marked =>
          simp only [List.map_cons, erase, chunks, markedChunks, ih]
          cases markedChunks rest <;> rfl

theorem chunks_pieces (source : Text) :
    chunks (pieces source) = (markedChunks (markedPieces source)).map Marked.text := by
  rw [← map_erase_markedPieces, chunks_map_erase]

theorem Marked.text_dropWhile (marked : List Marked) :
    text (marked.dropWhile isBlank) = (text marked).dropWhile Text.isBlank :=
  List.dropWhile_map.symm

theorem Marked.text_reverse (marked : List Marked) :
    text marked.reverse = (text marked).reverse :=
  List.map_reverse

theorem Marked.text_trim (marked : List Marked) :
    text (trim marked) = Text.trim (text marked) := by
  rw [trim, text_reverse, text_dropWhile, text_reverse, text_dropWhile, Text.trim,
    Text.trimEnd, Text.trimStart]

end Erasure

section Scanning

/-- The marks say what is open in a scan that starts with the quote and starts anew at
    the ends of lines; `ends` holds of the quotes that are open there. -/
inductive Follows (ends : Option Char → Prop) : Option Char → List Marked → Prop where
  | nil {quote : Option Char} : Follows ends quote []
  | char {quote : Option Char} {m : Marked} {rest : List Marked}
      (mark : m.inLiteral = quote.isSome)
      (others : Follows ends (Text.advance quote m.char) rest) : Follows ends quote (m :: rest)
  | newLine {quote : Option Char} {marked : List Marked} (ended : ends quote)
      (others : Follows ends none marked) : Follows ends quote marked

def Tracks (ends : Option Char → Prop) (quote : Option Char)
    (found : List (Option Marked)) : Prop :=
  (∀ first ∈ (markedChunks found).head?, Follows ends quote first) ∧
    ∀ marked ∈ (markedChunks found).tail, Follows ends none marked

variable {ends : Option Char → Prop}

namespace Tracks

theorem nil {quote : Option Char} : Tracks ends quote [] := by
  constructor
  · rintro first ⟨⟩
    exact .nil
  · intro marked member
    cases member

theorem mem {found : List (Option Marked)} (tracks : Tracks ends none found) :
    ∀ marked ∈ markedChunks found, Follows ends none marked := by
  intro marked member
  cases split : markedChunks found with
  | nil =>
      rw [split] at member
      cases member
  | cons first others =>
      rw [split] at member
      rcases List.mem_cons.mp member with rfl | later
      · exact tracks.1 marked (by rw [split]; rfl)
      · exact tracks.2 marked (by rw [split]; exact later)

theorem stop {quote : Option Char} {found : List (Option Marked)}
    (others : Tracks ends none found) : Tracks ends quote (none :: found) := by
  constructor
  · rintro first ⟨⟩
    exact .nil
  · exact others.mem

theorem char {quote : Option Char} {m : Marked} {found : List (Option Marked)}
    (mark : m.inLiteral = quote.isSome)
    (others : Tracks ends (Text.advance quote m.char) found) :
    Tracks ends quote (some m :: found) := by
  simp only [Tracks, markedChunks] at others ⊢
  cases split : markedChunks found with
  | nil => simp
  | cons first more =>
      rw [split] at others
      constructor
      · rintro _ ⟨⟩
        exact .char mark (others.1 first rfl)
      · exact others.2

theorem newLine {quote : Option Char} {found : List (Option Marked)} (ended : ends quote)
    (others : Tracks ends none found) : Tracks ends quote found :=
  ⟨fun first here => .newLine ended (others.1 first here), others.2⟩

end Tracks

-- By induction on the line; `more` is what the lines after it give.
theorem tracks_line {quote : Option Char} {line : Text}
    (ended : ends (Text.advanceAll quote (beforeRemark quote line)))
    {more : List (Option Marked)} (others : Tracks ends none more) (previous : Option Char) :
    Tracks ends quote (markedFrom quote previous line ++ some ⟨' ', false⟩ :: more) := by
  have joined : Tracks ends none (some ⟨' ', false⟩ :: more) := .char rfl others
  induction line generalizing quote previous with
  | nil => exact .newLine ended joined
  | cons c rest ih =>
      simp only [markedFrom]
      split
      · next remark =>
          rw [beforeRemark, if_pos remark] at ended
          exact .newLine ended joined
      · next text =>
          rw [beforeRemark, if_neg text] at ended
          split
          · next stop =>
              simp only [Bool.and_eq_true, Option.isNone_iff_eq_none, beq_iff_eq] at stop
              obtain ⟨⟨rfl, rfl⟩, _⟩ := stop
              exact .stop (ih ended (some '.'))
          · exact .char rfl (ih ended (some c))

theorem follows_of_lines {source : Text}
    (ended : ∀ line ∈ Text.lines source, isCommentLine line = false →
      ends (Text.advanceAll none (beforeRemark none line))) :
    ∀ marked ∈ markedChunks (markedPieces source), Follows ends none marked := by
  suffices tracks : Tracks ends none (markedPieces source) from tracks.mem
  rw [markedPieces]
  generalize Text.lines source = lines at ended
  induction lines with
  | nil => exact .nil
  | cons line lines ih =>
      obtain ⟨here, further⟩ := List.forall_mem_cons.mp ended
      rw [List.flatMap_cons, markedLine]
      cases comment : isCommentLine line with
      | true => exact ih further
      | false => simpa using tracks_line (here comment) (ih further) none

-- White space outside all literals opens none.
theorem Follows.tail {quote : Option Char} {m : Marked} {rest : List Marked}
    (follows : Follows ends quote (m :: rest)) (outside : quote = none)
    (white : m.isBlank = true) : Follows ends none rest := by
  generalize whole : m :: rest = marked at follows
  induction follows with
  | nil => cases whole
  | char _ others =>
      cases whole
      rwa [outside, Text.advance_of_isBlank white] at others
  | newLine _ _ ih => exact ih rfl whole

theorem Follows.right_of_append {blanks marked : List Marked}
    (blank : ∀ m ∈ blanks, m.isBlank = true) (follows : Follows ends none (blanks ++ marked)) :
    Follows ends none marked := by
  induction blanks with
  | nil => exact follows
  | cons m blanks ih =>
      obtain ⟨white, others⟩ := List.forall_mem_cons.mp blank
      exact ih others (follows.tail rfl white)

theorem Follows.left_of_append {quote : Option Char} {marked more : List Marked}
    (follows : Follows ends quote (marked ++ more)) : Follows ends quote marked := by
  generalize whole : marked ++ more = all at follows
  induction follows generalizing marked with
  | nil =>
      rw [(List.append_eq_nil_iff.mp whole).1]
      exact .nil
  | char mark _ ih =>
      cases marked with
      | nil => exact .nil
      | cons m rest =>
          cases whole
          exact .char mark (ih rfl)
  | newLine ended _ ih => exact .newLine ended (ih whole)

theorem Follows.trim {marked : List Marked} (follows : Follows ends none marked) :
    Follows ends none (Marked.trim marked) := by
  rw [← List.takeWhile_append_dropWhile (p := Marked.isBlank) (l := marked)] at follows
  have started := follows.right_of_append fun m member =>
    List.all_eq_true.mp List.all_takeWhile m member
  rw [← List.reverse_reverse (List.dropWhile _ _),
    ← List.takeWhile_append_dropWhile (p := Marked.isBlank)
      (l := (List.dropWhile _ _).reverse), List.reverse_append] at started
  exact started.left_of_append

/-- Where every literal ends before its line does, the two reductions are the same. -/
theorem Follows.reduce_eq {quote : Option Char} {marked : List Marked}
    (follows : Follows (· = none) quote marked) (pending : Bool) :
    Marked.reduce pending marked = squeeze quote pending (Marked.text marked) := by
  induction follows generalizing pending with
  | nil => rfl
  | @char quote m rest mark _ ih =>
      have same : (!m.inLiteral && m.isBlank) = (quote.isNone && Text.isBlank m.char) := by
        rw [mark, Option.not_isSome, Marked.isBlank]
      simp only [Marked.text, List.map_cons, squeeze, Marked.reduce, same]
      split
      · next white =>
          rw [Bool.and_eq_true, Option.isNone_iff_eq_none] at white
          rw [ih, white.1, Text.advance_of_isBlank white.2, Marked.text]
      · rw [ih, Marked.text]
  | newLine ended _ ih => rw [ih, ended]

end Scanning

section Comparing

-- Both lists are cut where the test fails for the first time.
theorem append_inj_of_heads {α : Type} {p : α → Bool} {first second more others : List α}
    (here : ∀ x ∈ first, p x = true) (there : ∀ x ∈ second, p x = true)
    (stops : ∀ x ∈ more.head?, p x = false) (ends : ∀ x ∈ others.head?, p x = false)
    (same : first ++ more = second ++ others) : first = second ∧ more = others := by
  have taken {run rest : List α} (within : ∀ x ∈ run, p x = true)
      (beyond : ∀ x ∈ rest.head?, p x = false) : (run ++ rest).takeWhile p = run := by
    rw [List.takeWhile_append_of_pos within]
    cases rest with
    | nil => exact List.append_nil _
    | cons x rest =>
        rw [List.takeWhile_cons_of_neg (by simp [beyond x rfl]), List.append_nil]
  have runs : first = second := by
    rw [← taken here stops, same, taken there ends]
  subst runs
  exact ⟨rfl, List.append_cancel_left same⟩

inductive Spaced : List Marked → Prop where
  | last {m : Marked} (visible : m.isBlank = false) : Spaced [m]
  | next {m : Marked} {quoted unquoted rest : List Marked} (visible : m.isBlank = false)
      (inside : Marked.Quoted quoted) (outside : Marked.Unquoted unquoted)
      (others : Spaced rest) : Spaced (m :: (quoted ++ (unquoted ++ rest)))

theorem Spaced.head {marked : List Marked} (spaced : Spaced marked) :
    ∃ m rest, marked = m :: rest ∧ m.isBlank = false := by
  cases spaced with
  | last visible => exact ⟨_, _, rfl, visible⟩
  | next visible => exact ⟨_, _, rfl, visible⟩

-- White space in a literal of its line is never found after white space of the same run
-- in none: only a quote opens a literal.
theorem Follows.spaced {quote : Option Char} {marked : List Marked}
    (follows : Follows ends quote marked) (nonempty : marked ≠ [])
    (last : ∀ m ∈ marked.getLast?, m.isBlank = false) :
    ∃ quoted unquoted rest, marked = quoted ++ (unquoted ++ rest) ∧ Marked.Quoted quoted ∧
      Marked.Unquoted unquoted ∧ Spaced rest ∧ (quote = none → quoted = []) := by
  induction follows with
  | nil => exact absurd rfl nonempty
  | @char quote m rest mark _ ih =>
      by_cases alone : rest = []
      · subst alone
        exact ⟨[], [], [m], rfl, nofun, nofun, .last (last m rfl), fun _ => rfl⟩
      · have ending : ∀ m ∈ rest.getLast?, m.isBlank = false := by
          intro n here
          apply last
          rwa [List.getLast?_cons_of_ne_nil alone]
        obtain ⟨quoted, unquoted, tail, whole, inside, outside, spaced, none⟩ := ih alone ending
        cases white : m.isBlank with
        | false =>
            refine ⟨[], [], m :: rest, rfl, nofun, nofun, ?_, fun _ => rfl⟩
            rw [whole]
            exact .next white inside outside spaced
        | true =>
            cases quote with
            | none =>
                have empty := none (Text.advance_of_isBlank white)
                rw [empty, List.nil_append] at whole
                refine ⟨[], m :: unquoted, tail, by rw [whole]; rfl, nofun, ?_, spaced,
                  fun _ => rfl⟩
                exact List.forall_mem_cons.mpr ⟨⟨white, mark⟩, outside⟩
            | some opened =>
                refine ⟨m :: quoted, unquoted, tail, by rw [whole]; rfl, ?_, outside, spaced,
                  nofun⟩
                exact List.forall_mem_cons.mpr ⟨⟨white, mark⟩, inside⟩
  | newLine _ _ ih =>
      obtain ⟨quoted, unquoted, rest, whole, inside, outside, spaced, none⟩ := ih nonempty last
      exact ⟨quoted, unquoted, rest, whole, inside, outside, spaced, fun _ => none rfl⟩

section Next

/-! The first character of a text, and the run after it. -/

variable {m : Marked} {quoted unquoted rest : List Marked}

theorem not_isRun_single {before after quoted unquoted : List Marked} :
    ¬ IsRun [m] before quoted unquoted after := by
  rintro ⟨whole, ⟨_, left, _⟩, ⟨_, right, _⟩, _, _⟩
  have first : before ≠ [] := by
    rintro rfl
    cases left
  have second : after ≠ [] := by
    rintro rfl
    cases right
  have lengths := congrArg List.length whole
  have positive := List.length_pos_iff.mpr first
  have present := List.length_pos_iff.mpr second
  simp at lengths
  omega

theorem isRun_first (visible : m.isBlank = false) (inside : Marked.Quoted quoted)
    (outside : Marked.Unquoted unquoted) (spaced : Spaced rest) :
    IsRun (m :: (quoted ++ (unquoted ++ rest))) [m] quoted unquoted rest := by
  obtain ⟨n, more, rfl, shown⟩ := spaced.head
  exact ⟨rfl, ⟨m, rfl, visible⟩, ⟨n, rfl, shown⟩, inside, outside⟩

theorem IsRun.later {before inner outer after : List Marked}
    (run : IsRun rest before inner outer after) :
    IsRun (m :: (quoted ++ (unquoted ++ rest))) (m :: (quoted ++ (unquoted ++ before)))
      inner outer after := by
  obtain ⟨whole, ⟨n, left, shown⟩, right, inside, outside⟩ := run
  refine ⟨by rw [whole]; simp, ⟨n, ?_, shown⟩, right, inside, outside⟩
  obtain ⟨init, rfl⟩ := List.getLast?_eq_some_iff.mp left
  exact List.getLast?_eq_some_iff.mpr ⟨m :: (quoted ++ (unquoted ++ init)), by simp⟩

theorem run_unique {inner outer after : List Marked} (inside : Marked.Quoted quoted)
    (outside : Marked.Unquoted unquoted) (starts : ∀ x ∈ rest.head?, x.isBlank = false)
    (innerBlank : Marked.Quoted inner) (outerBlank : Marked.Unquoted outer)
    (ends : ∀ x ∈ after.head?, x.isBlank = false)
    (same : quoted ++ (unquoted ++ rest) = inner ++ (outer ++ after)) :
    quoted = inner ∧ unquoted = outer := by
  have cut {run more : List Marked} (plain : Marked.Unquoted run)
      (beyond : ∀ x ∈ more.head?, x.isBlank = false) :
      ∀ x ∈ (run ++ more).head?, (x.isBlank && x.inLiteral) = false := by
    intro x here
    cases run with
    | nil => simp [beyond x here]
    | cons y run =>
        cases here
        simp [(plain x List.mem_cons_self).2]
  obtain ⟨first, others⟩ := append_inj_of_heads
    (fun x member => by simp [inside x member]) (fun x member => by simp [innerBlank x member])
    (cut outside starts) (cut outerBlank ends) same
  exact ⟨first, (append_inj_of_heads (fun x member => (outside x member).1)
    (fun x member => (outerBlank x member).1) starts ends others).1⟩

-- A later run starts after a character that is not white space, so after this run too.
theorem IsRun.first_or_later {before inner outer after : List Marked}
    (inside : Marked.Quoted quoted) (outside : Marked.Unquoted unquoted) (spaced : Spaced rest)
    (run : IsRun (m :: (quoted ++ (unquoted ++ rest))) before inner outer after) :
    (before = [m] ∧ inner = quoted ∧ outer = unquoted) ∨
      ∃ further, before = m :: (quoted ++ (unquoted ++ further)) ∧
        IsRun rest further inner outer after := by
  obtain ⟨whole, ⟨n, left, shown⟩, ⟨k, right, visible⟩, innerBlank, outerBlank⟩ := run
  have starts : ∀ x ∈ rest.head?, x.isBlank = false := by
    obtain ⟨first, more, rfl, solid⟩ := spaced.head
    rintro _ ⟨⟩
    exact solid
  cases before with
  | nil => cases left
  | cons d tail =>
      simp only [List.cons_append, List.cons.injEq] at whole
      obtain ⟨rfl, whole⟩ := whole
      by_cases alone : tail = []
      · subst alone
        have ends : ∀ x ∈ after.head?, x.isBlank = false := by
          intro x here
          rw [right] at here
          cases here
          exact visible
        obtain ⟨rfl, rfl⟩ := run_unique inside outside starts innerBlank outerBlank ends whole
        exact .inl ⟨rfl, rfl, rfl⟩
      · rw [List.getLast?_cons_of_ne_nil alone] at left
        have absent : n ∉ quoted ++ unquoted := by
          intro member
          rcases List.mem_append.mp member with here | here
          · rw [(inside n here).1] at shown
            cases shown
          · rw [(outside n here).1] at shown
            cases shown
        rw [← List.append_assoc] at whole
        rcases List.append_eq_append_iff.mp whole with ⟨further, split, others⟩ | ⟨_, split, _⟩
        · refine .inr ⟨further, by rw [split, List.append_assoc], others, ⟨n, ?_, shown⟩,
            ⟨k, right, visible⟩, innerBlank, outerBlank⟩
          have present : further ≠ [] := by
            rintro rfl
            rw [split, List.append_nil] at left
            exact absent (List.mem_of_getLast? left)
          rw [List.getLast?_eq_some_getLast present]
          simpa [split, List.getLast?_append, List.getLast?_eq_some_getLast present] using left
        · refine absurd ?_ absent
          rw [split]
          exact List.mem_append_left _ (List.mem_of_getLast? left)

end Next

section Shown

def lineRun (quoted unquoted : List Marked) : Text :=
  Marked.text quoted ++ if unquoted.isEmpty then [] else [' ']

def statementRun (quote : Option Char) (quoted unquoted : List Marked) : Text :=
  if quote.isSome then Marked.text (quoted ++ unquoted)
  else if (quoted ++ unquoted).isEmpty then [] else [' ']

theorem statementRun_eq_iff (quote : Option Char) (quoted unquoted : List Marked) :
    statementRun quote quoted unquoted = lineRun quoted unquoted ↔
      ShownAlike quote quoted unquoted := by
  cases quote with
  | some opened =>
      cases unquoted with
      | nil => simp [statementRun, lineRun, ShownAlike]
      | cons n unquoted => simp [statementRun, lineRun, ShownAlike, Marked.text]
  | none =>
      cases quoted with
      | nil => cases unquoted <;> simp [statementRun, lineRun, ShownAlike, Marked.text]
      | cons n quoted =>
          have turned : statementRun none (n :: quoted) unquoted = [' '] := by
            simp [statementRun]
          rw [turned, eq_comm]
          cases unquoted <;> simp [lineRun, ShownAlike, Marked.text]

variable {m : Marked} {quoted unquoted rest : List Marked}

theorem reduce_spaced (spaced : Spaced rest) (pending : Bool) :
    Marked.reduce pending rest = (if pending then [' '] else []) ++ Marked.reduce false rest := by
  obtain ⟨n, more, rfl, visible⟩ := spaced.head
  cases pending <;> simp [Marked.reduce, visible]

theorem reduce_unquoted (outside : Marked.Unquoted unquoted) (spaced : Spaced rest) :
    Marked.reduce false (unquoted ++ rest) =
      (if unquoted.isEmpty then [] else [' ']) ++ Marked.reduce false rest := by
  have passed (pending : Bool) : Marked.reduce pending (unquoted ++ rest) =
      Marked.reduce (pending || !unquoted.isEmpty) rest := by
    induction unquoted generalizing pending with
    | nil => simp
    | cons n unquoted ih =>
        obtain ⟨⟨white, plain⟩, others⟩ := List.forall_mem_cons.mp outside
        rw [List.cons_append, Marked.reduce]
        simp [white, plain, ih others]
  rw [passed, reduce_spaced spaced]
  cases unquoted <;> rfl

theorem reduce_quoted (inside : Marked.Quoted quoted) (more : List Marked) :
    Marked.reduce false (quoted ++ more) = Marked.text quoted ++ Marked.reduce false more := by
  induction quoted with
  | nil => rfl
  | cons n quoted ih =>
      obtain ⟨⟨_, literal⟩, others⟩ := List.forall_mem_cons.mp inside
      simp [Marked.reduce, literal, ih others, Marked.text]

theorem reduce_next (visible : m.isBlank = false) (inside : Marked.Quoted quoted)
    (outside : Marked.Unquoted unquoted) (spaced : Spaced rest) :
    Marked.reduce false (m :: (quoted ++ (unquoted ++ rest))) =
      m.char :: (lineRun quoted unquoted ++ Marked.reduce false rest) := by
  simp only [Marked.reduce, visible, Bool.and_false, Bool.false_eq_true, if_false]
  rw [reduce_quoted inside, reduce_unquoted outside spaced, lineRun, List.append_assoc]

theorem squeeze_literal_blank {opened : Char} (literal : Text.isQuote opened = true)
    {blanks : Text} (blank : Blank blanks) (more : Text) :
    squeeze (some opened) false (blanks ++ more) =
      blanks ++ squeeze (some opened) false more := by
  induction blanks with
  | nil => rfl
  | cons c blanks ih =>
      obtain ⟨white, others⟩ := List.forall_mem_cons.mp blank
      have one : Blank [c] := by simpa [Blank] using white
      have stays : Text.advance (some opened) c = some opened := Text.advanceAll_blank literal one
      simp [squeeze, stays, ih others]

theorem blank_run (inside : Marked.Quoted quoted) (outside : Marked.Unquoted unquoted) :
    Blank (Marked.text (quoted ++ unquoted)) := by
  intro c member
  obtain ⟨n, here, rfl⟩ := List.mem_map.mp member
  rcases List.mem_append.mp here with early | late
  · exact (inside n early).1
  · exact (outside n late).1

theorem squeeze_run {quote : Option Char}
    (literal : ∀ opened, quote = some opened → Text.isQuote opened = true)
    (inside : Marked.Quoted quoted) (outside : Marked.Unquoted unquoted)
    (spaced : Spaced rest) :
    squeeze quote false (Marked.text (quoted ++ unquoted) ++ Marked.text rest) =
      statementRun quote quoted unquoted ++ squeeze quote false (Marked.text rest) := by
  have blank := blank_run inside outside
  cases quote with
  | some opened => exact squeeze_literal_blank (literal opened rfl) blank _
  | none =>
      by_cases empty : quoted ++ unquoted = []
      · rw [empty, statementRun, empty]
        rfl
      · have present : Marked.text (quoted ++ unquoted) ≠ [] := by
          simpa [Marked.text] using empty
        obtain ⟨n, more, rfl, visible⟩ := spaced.head
        have shown : Text.isBlank n.char = false := visible
        rw [squeeze_blank_append blank present, statementRun,
          if_neg (by simp), if_neg (by simpa using empty)]
        simp [Marked.text, squeeze, shown]

theorem squeeze_next {quote : Option Char} (visible : m.isBlank = false)
    (literal : ∀ opened, Text.advance quote m.char = some opened → Text.isQuote opened = true)
    (inside : Marked.Quoted quoted) (outside : Marked.Unquoted unquoted)
    (spaced : Spaced rest) :
    squeeze quote false (Marked.text (m :: (quoted ++ (unquoted ++ rest)))) =
      m.char :: (statementRun (Text.advance quote m.char) quoted unquoted ++
        squeeze (Text.advance quote m.char) false (Marked.text rest)) := by
  have shown : Text.isBlank m.char = false := visible
  rw [← squeeze_run literal inside outside spaced]
  simp [Marked.text, squeeze, shown]

theorem blank_lineRun (inside : Marked.Quoted quoted) (unquoted : List Marked) :
    Blank (lineRun quoted unquoted) := by
  have space : Text.isBlank ' ' = true := by decide
  have none : Marked.Unquoted [] := nofun
  have first := blank_run inside none
  rw [List.append_nil] at first
  refine first.append ?_
  cases unquoted <;> simp [Blank, space]

theorem blank_statementRun (inside : Marked.Quoted quoted) (outside : Marked.Unquoted unquoted)
    (quote : Option Char) : Blank (statementRun quote quoted unquoted) := by
  have space : Text.isBlank ' ' = true := by decide
  simp only [statementRun]
  split
  · exact blank_run inside outside
  · split <;> simp [Blank, space]

theorem advanceAll_run {quote : Option Char}
    (literal : ∀ opened, Text.advance quote m.char = some opened → Text.isQuote opened = true)
    (inside : Marked.Quoted quoted) (outside : Marked.Unquoted unquoted)
    (before : List Marked) :
    Text.advanceAll quote (Marked.text (m :: (quoted ++ (unquoted ++ before)))) =
      Text.advanceAll (Text.advance quote m.char) (Marked.text before) := by
  have blank := blank_run inside outside
  have stays : Text.advanceAll (Text.advance quote m.char) (Marked.text (quoted ++ unquoted)) =
      Text.advance quote m.char := by
    cases here : Text.advance quote m.char with
    | none => exact Text.advanceAll_none_blank blank
    | some opened => exact Text.advanceAll_blank (literal opened here) blank
  have split : Marked.text (m :: (quoted ++ (unquoted ++ before))) =
      m.char :: (Marked.text (quoted ++ unquoted) ++ Marked.text before) := by
    simp [Marked.text]
  calc Text.advanceAll quote (Marked.text (m :: (quoted ++ (unquoted ++ before))))
      = Text.advanceAll (Text.advance quote m.char)
          (Marked.text (quoted ++ unquoted) ++ Marked.text before) := by rw [split]; rfl
    _ = Text.advanceAll (Text.advance quote m.char) (Marked.text before) := by
        rw [Text.advanceAll_append, stays]

theorem squeeze_next_eq_iff {quote : Option Char} (visible : m.isBlank = false)
    (literal : ∀ opened, Text.advance quote m.char = some opened → Text.isQuote opened = true)
    (inside : Marked.Quoted quoted) (outside : Marked.Unquoted unquoted)
    (spaced : Spaced rest) :
    squeeze quote false (Marked.text (m :: (quoted ++ (unquoted ++ rest)))) =
        Marked.reduce false (m :: (quoted ++ (unquoted ++ rest))) ↔
      ShownAlike (Text.advance quote m.char) quoted unquoted ∧
        squeeze (Text.advance quote m.char) false (Marked.text rest) =
          Marked.reduce false rest := by
  rw [squeeze_next visible literal inside outside spaced,
    reduce_next visible inside outside spaced, List.cons.injEq, ← statementRun_eq_iff]
  constructor
  · rintro ⟨_, same⟩
    refine append_inj_of_heads (blank_statementRun inside outside _)
      (blank_lineRun inside unquoted) ?_ ?_ same
    · obtain ⟨n, more, rfl, shown⟩ := spaced.head
      have kept : Text.isBlank n.char = false := shown
      simp [Marked.text, squeeze, kept]
    · obtain ⟨n, more, rfl, shown⟩ := spaced.head
      have kept : Text.isBlank n.char = false := shown
      simp [Marked.reduce, shown, kept]
  · rintro ⟨run, others⟩
    rw [run, others]
    exact ⟨rfl, rfl⟩

end Shown

-- Both ways of reducing keep what is not white space, so the results can be compared
-- run by run.
theorem squeeze_eq_reduce_iff {marked : List Marked} (spaced : Spaced marked)
    {quote : Option Char} (literal : ∀ opened, quote = some opened → Text.isQuote opened = true) :
    squeeze quote false (Marked.text marked) = Marked.reduce false marked ↔
      ∀ before quoted unquoted after, IsRun marked before quoted unquoted after →
        ShownAlike (Text.advanceAll quote (Marked.text before)) quoted unquoted := by
  induction spaced generalizing quote with
  | @last m visible =>
      have shown : Text.isBlank m.char = false := visible
      have same : squeeze quote false (Marked.text [m]) = Marked.reduce false [m] := by
        simp [Marked.text, Marked.reduce, squeeze, shown, visible]
      exact iff_of_true same fun _ _ _ _ run => absurd run not_isRun_single
  | @next m quoted unquoted rest visible inside outside spaced ih =>
      have opens : ∀ opened, Text.advance quote m.char = some opened →
          Text.isQuote opened = true := by
        intro opened here
        exact Text.isQuote_of_advanceAll literal
          (show Text.advanceAll quote [m.char] = some opened from here)
      have further := advanceAll_run opens inside outside
      rw [squeeze_next_eq_iff visible opens inside outside spaced, ih opens]
      constructor
      · rintro ⟨here, others⟩ before inner outer after run
        rcases run.first_or_later inside outside spaced with ⟨rfl, rfl, rfl⟩ | ⟨next, rfl, later⟩
        · exact here
        · rw [further]
          exact others _ _ _ _ later
      · intro runs
        refine ⟨runs _ _ _ _ (isRun_first visible inside outside spaced), ?_⟩
        intro before inner outer after run
        rw [← further]
        exact runs _ _ _ _ run.later

theorem Follows.spaced_trim {marked : List Marked} (follows : Follows ends none marked)
    (nonempty : Marked.trim marked ≠ []) : Spaced (Marked.trim marked) := by
  have solid := Text.hasSolidEnds_trim (Marked.text marked)
  rw [← Marked.text_trim, Marked.text] at solid
  have last : ∀ m ∈ (Marked.trim marked).getLast?, m.isBlank = false := by
    intro m here
    apply solid.last
    rw [List.getLast?_map, here]
    rfl
  obtain ⟨quoted, unquoted, rest, whole, _, outside, spaced, none⟩ :=
    follows.trim.spaced nonempty last
  rw [none rfl, List.nil_append] at whole
  cases unquoted with
  | nil =>
      rw [whole]
      exact spaced
  | cons m unquoted =>
      have white := (outside m List.mem_cons_self).1
      have visible := solid.first m.char (by rw [whole]; rfl)
      exact absurd visible (by rw [← Marked.isBlank, white]; decide)

theorem collapse_marked (marked : List Marked) :
    collapse (Marked.text marked) = squeeze none false (Marked.text (Marked.trim marked)) := by
  rw [collapse, Marked.text_trim]

theorem collapse_eq_reduce_iff {marked : List Marked} (follows : Follows ends none marked) :
    collapse (Marked.text marked) = Marked.reduce false (Marked.trim marked) ↔
      ∀ before quoted unquoted after,
        IsRun (Marked.trim marked) before quoted unquoted after →
          ShownAlike (Text.advanceAll none (Marked.text before)) quoted unquoted := by
  rw [collapse_marked]
  by_cases empty : Marked.trim marked = []
  · rw [empty]
    refine iff_of_true rfl ?_
    rintro before _ _ _ ⟨whole, ⟨m, left, _⟩, _, _, _⟩
    rw [(List.append_eq_nil_iff.mp whole.symm).1] at left
    cases left
  · exact squeeze_eq_reduce_iff (follows.spaced_trim empty) (by simp)

theorem collapse_eq_nil_iff {marked : List Marked} (follows : Follows ends none marked) :
    collapse (Marked.text marked) = [] ↔ Marked.reduce false (Marked.trim marked) = [] := by
  rw [collapse_marked]
  by_cases empty : Marked.trim marked = []
  · rw [empty]
    exact Iff.rfl
  · obtain ⟨m, rest, whole, visible⟩ := (follows.spaced_trim empty).head
    have shown : Text.isBlank m.char = false := visible
    rw [whole]
    simp [Marked.text, squeeze, Marked.reduce, shown, visible]

end Comparing

section Programs

-- Where both drop the same texts, the lists that are left agree only entry by entry.
theorem filter_map_eq_iff {α : Type} {f g : α → Text} {xs : List α}
    (dropped : ∀ x ∈ xs, f x = [] ↔ g x = []) :
    (xs.map f).filter (fun text => !text.isEmpty) =
        (xs.map g).filter (fun text => !text.isEmpty) ↔ ∀ x ∈ xs, f x = g x := by
  induction xs with
  | nil => simp
  | cons x xs ih =>
      obtain ⟨here, others⟩ := List.forall_mem_cons.mp dropped
      by_cases empty : f x = []
      · simp [empty, here.mp empty, ih others]
      · have kept : g x ≠ [] := fun absent => empty (here.mpr absent)
        simp [empty, kept, ih others]

theorem statements_marked (source : Text) :
    statements source = ((markedChunks (markedPieces source)).map fun marked =>
      collapse (Marked.text marked)).filter fun text => !text.isEmpty := by
  rw [statements, chunks_pieces, List.map_map]
  rfl

/-- Splitting is as if literals ended with their lines exactly if every run of white space
    in a statement is shown alike: where a literal of the statement is open, at most a
    single space of the run is outside the literals of the lines, and where none is, the
    run is outside these too or is a single space. In particular it is so if every line
    closes its literals. -/
theorem statements_eq_lineStatements_iff (source : Text) :
    (statements source = lineStatements source ↔
      ∀ marked ∈ markedChunks (markedPieces source), ∀ before quoted unquoted after,
        IsRun (Marked.trim marked) before quoted unquoted after →
          ShownAlike (Text.advanceAll none (Marked.text before)) quoted unquoted) ∧
    ((∀ line ∈ Text.lines source, isCommentLine line = false →
        Text.closesQuotes (beforeRemark none line) = true) →
      statements source = lineStatements source) := by
  have follows : ∀ marked ∈ markedChunks (markedPieces source),
      Follows (fun _ => True) none marked := follows_of_lines fun _ _ _ => trivial
  have alike : statements source = lineStatements source ↔
      ∀ marked ∈ markedChunks (markedPieces source),
        collapse (Marked.text marked) = Marked.reduce false (Marked.trim marked) := by
    rw [statements_marked, lineStatements]
    apply filter_map_eq_iff
    intro marked member
    exact collapse_eq_nil_iff (follows marked member)
  constructor
  · rw [alike]
    exact forall₂_congr fun marked member => collapse_eq_reduce_iff (follows marked member)
  · intro closed
    have ended : ∀ marked ∈ markedChunks (markedPieces source),
        Follows (· = none) none marked := by
      apply follows_of_lines
      intro line here text
      exact Option.isNone_iff_eq_none.mp (closed line here text)
    apply alike.mpr
    intro marked member
    rw [(ended marked member).trim.reduce_eq, collapse_marked]

-- The literals of this program have white space in them and stand on lines of their own.
def closedSample : Text :=
  "WRITE:  'a  b'\n  ,   `it's`  \" isn't shown\n* isn't text\n , 'c'.".toList

theorem statements_eq_lineStatements_closed :
    (∀ line ∈ Text.lines closedSample, isCommentLine line = false →
      Text.closesQuotes (beforeRemark none line) = true) ∧
    statements closedSample = lineStatements closedSample ∧
    statements closedSample = ["WRITE: 'a  b' , `it's` , 'c'".toList] := by
  have closed : ∀ line ∈ Text.lines closedSample, isCommentLine line = false →
      Text.closesQuotes (beforeRemark none line) = true := by
    decide +kernel
  exact ⟨closed, (statements_eq_lineStatements_iff closedSample).2 closed, by decide +kernel⟩

def openSample : Text :=
  "WRITE 'oops.\nWRITE  'ok'.".toList

/-- The quote left open on the first line keeps the white space of the second one. -/
theorem statements_ne_lineStatements_open :
    statements openSample = ["WRITE 'oops. WRITE  'ok'".toList] ∧
      lineStatements openSample = ["WRITE 'oops. WRITE 'ok'".toList] ∧
      statements openSample ≠ lineStatements openSample := by
  refine ⟨by decide +kernel, by decide +kernel, by decide +kernel⟩

end Programs

end Source

end MiniAbap
