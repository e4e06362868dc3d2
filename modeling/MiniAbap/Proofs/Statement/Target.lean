import MiniAbap.Proofs.Statement.Opening

/-!
Statements with an operand and a target, divided by a keyword: adding, subtracting and
appending. The last occurrence of the keyword divides them, so the operand may hold the
keyword anywhere, also as a name; a target that spells the keyword is itself the last
occurrence, and leaves nothing behind it.
-/

namespace MiniAbap

inductive PairForm where
  | add
  | subtract
  | append
  deriving DecidableEq

namespace PairForm

def opener : PairForm → StatementWord
  | .add => .add
  | .subtract => .subtract
  | .append => .append

def keyword : PairForm → String
  | .add | .append => "TO"
  | .subtract => "FROM"

def form : PairForm → Form
  | .add => .add
  | .subtract => .subtract
  | .append => .append

def statement : PairForm → Text → Text → Statement
  | .add => .add
  | .subtract => .subtract
  | .append => .append

theorem isWord_keyword (pair : PairForm) : Text.IsWord pair.keyword.toList := by
  cases pair <;> exact Text.isWord_of_isName rfl

inductive Written (pair : PairForm) (operand target : Text) : Text → Prop where
  | mk (opener keyword first second third : Text)
      (opens : Text.sameWord opener pair.opener.title.toList = true)
      (divides : Text.sameWord keyword pair.keyword.toList = true)
      (before : Text.Blank first) (someBefore : first ≠ [])
      (between : Text.Blank second) (someBetween : second ≠ [])
      (after : Text.Blank third) (someAfter : third ≠ []) :
      Written pair operand target
        (opener ++ (first ++ (operand ++ (second ++ (keyword ++ (third ++ target))))))

end PairForm

/-- An operand as it may stand in a statement: not blank at either end, with its quotes
    closed, and not to be mistaken for the right side of an assignment. -/
structure Text.IsOperand (operand : Text) : Prop where
  nonempty : operand ≠ []
  trimmed : trim operand = operand
  closed : closesQuotes operand = true
  noAssignment : operand.head? ≠ some '='

namespace Statement

open Text (Blank IsWord)

variable {keyword operand target first second third : Text}

section Dividing

-- The last occurrence is the target if that spells the keyword, and the word before it
-- otherwise.
theorem getLast?_occurrences {known middle : Text} (word : IsWord known)
    (divides : Text.sameWord middle known = true) (closed : Text.advanceAll none first = none)
    (starts : Text.endsWord first.reverse = true) (after : Blank third) (someAfter : third ≠ [])
    (name : Text.isName target = true) :
    (Text.occurrences known (first ++ (middle ++ (third ++ target)))).getLast? =
      some (if Text.sameWord target known then ⟨first ++ (middle ++ third), target, []⟩
        else ⟨first, middle, third ++ target⟩) := by
  have solid := word.of_sameWord divides
  have ends : Text.endsWord (third ++ target) = true := Text.endsWord_append after someAfter
  have last : Text.endsWord (third.reverse ++ (middle.reverse ++ first.reverse)) = true :=
    Text.endsWord_reverse_append after someAfter
  obtain ⟨earlier, found⟩ := Text.exists_occurrencesFrom_append known [] none first
    (middle ++ (third ++ target))
  have tail := Text.occurrencesFrom_word word (Text.isWord_of_isName name) last
    (rfl : Text.endsWord [] = true)
  rw [List.append_nil] at found tail
  rw [Text.occurrences, found, closed, Text.occurrencesFrom_word word solid starts ends,
    if_pos divides, Text.occurrencesFrom_blank word after, tail]
  by_cases same : Text.sameWord target known = true <;>
    simp [same, Text.occurrencesFrom]

theorem readPair_eq {known : String} {middle : Text} (word : IsWord known.toList)
    (divides : Text.sameWord middle known.toList = true) (fits : operand.IsOperand)
    (before : Blank first) (between : Blank second) (someBetween : second ≠ [])
    (after : Blank third) (someAfter : third ≠ []) (name : Text.isName target = true)
    (form : Form) (build : Text → Text → Statement) :
    readPair form known build (first ++ (operand ++ (second ++ (middle ++ (third ++ target))))) =
      if Text.sameWord target known.toList then .malformed form else build operand target := by
  have closed : Text.advanceAll none (first ++ (operand ++ second)) = none := by
    have inner : Text.advanceAll none operand = none :=
      Option.isNone_iff_eq_none.mp fits.closed
    rw [Text.advanceAll_append, Text.advanceAll_none_blank before, Text.advanceAll_append, inner,
      Text.advanceAll_none_blank between]
  have starts : Text.endsWord (first ++ (operand ++ second)).reverse = true := by
    rw [List.reverse_append, List.reverse_append, List.append_assoc]
    exact Text.endsWord_reverse_append between someBetween
  have last := getLast?_occurrences word divides closed starts after someAfter name
  simp only [List.append_assoc] at last
  rw [readPair, operandAndTarget?, Text.splitAtLast, last]
  by_cases same : Text.sameWord target known.toList = true
  · have nothing : Text.trim [] = [] := rfl
    simp [same, Text.Occurrence.halves, nothing, Text.isName]
  · have solid := (Text.isWord_of_isName name).hasSolidEnds
    have amount : Text.trim (first ++ (operand ++ second)) = operand := by
      rw [Text.trim_blank_append before, Text.trim_append_blank between, fits.trimmed]
    have put : Text.trim (third ++ target) = target := by
      rw [Text.trim_blank_append after, solid.trim_eq]
    simp [same, Text.Occurrence.halves, amount, put, fits.nonempty, name]

end Dividing

section Reading

-- White space stands between two visible characters before the first equals sign.
theorem assignment?_of_operand {opener : Text} (solid : IsWord opener) (before : Blank first)
    (someBefore : first ≠ []) (fits : operand.IsOperand) (rest : Text) :
    assignment? (opener ++ (first ++ (operand ++ rest))) = none := by
  obtain ⟨c, more, rfl⟩ := List.exists_cons_of_ne_nil fits.nonempty
  obtain ⟨d, others, rfl⟩ := List.exists_cons_of_ne_nil solid.nonempty
  obtain ⟨white, spaces, rfl⟩ := List.exists_cons_of_ne_nil someBefore
  have visible : Text.isBlank c = false :=
    (fits.trimmed ▸ Text.hasSolidEnds_trim (c :: more)).first c rfl
  have plain : '=' ∉ d :: others ++ (white :: spaces ++ [c]) := by
    simp only [List.mem_append, List.mem_singleton, not_or]
    refine ⟨fun member => ?_, fun member => ?_, fun same => fits.noAssignment (same ▸ rfl)⟩
    · cases solid.letters _ member
    · cases before _ member
  have unnamed : ∀ later, Text.isName
      (Text.trim (d :: others ++ (white :: spaces ++ [c]) ++ later)) = false := by
    intro later
    have start : Text.trim (d :: others ++ (white :: spaces ++ [c]) ++ later) =
        Text.trimEnd (d :: others ++ white :: spaces ++ c :: later) := by
      simp [Text.trim, Text.trimStart, solid.solid d List.mem_cons_self]
    rw [start]
    have member : white ∈ Text.trimEnd (d :: others ++ white :: spaces ++ c :: later) :=
      (Text.isPrefix_trimEnd visible _ later).subset (by simp)
    exact Text.isName_eq_false member (Text.isNameChar_of_isBlank (before white List.mem_cons_self))
  have none := assignment?_eq_none plain unnamed (more ++ rest)
  simpa using none

/-- A written statement is read by its opening word, from what follows that word. -/
theorem read_of_opener (pair : PairForm) {opener rest : Text}
    (opens : Text.sameWord opener pair.opener.title.toList = true)
    (ends : Text.endsWord rest = true) (plain : assignment? (opener ++ rest) = none) :
    Statement.read (opener ++ rest) =
      .ok (readPair pair.form pair.keyword pair.statement rest) := by
  have solid := (StatementWord.isWord_title pair.opener).of_sameWord opens
  rw [read, plain, leadingWord_append solid ends]
  simp only [StatementWord.ofText?_upper opens]
  cases pair <;> rfl

/-- A statement with an operand and a target reads both back unless the target spells the
    keyword between them; such a statement is malformed. -/
theorem read_pair_written (pair : PairForm) {operand target text : Text}
    (fits : operand.IsOperand) (name : Text.isName target = true)
    (written : pair.Written operand target text) :
    Statement.read text =
      .ok (if Text.sameWord target pair.keyword.toList then .malformed pair.form
        else pair.statement operand target) := by
  obtain ⟨opener, middle, first, second, third, opens, divides, before, someBefore, between,
    someBetween, after, someAfter⟩ := written
  have solid := (StatementWord.isWord_title pair.opener).of_sameWord opens
  have plain := assignment?_of_operand solid before someBefore fits
  rw [read_of_opener pair opens (Text.endsWord_append before someBefore) (plain _),
    readPair_eq pair.isWord_keyword divides fits before between someBetween after someAfter name]

-- The operand has the keyword as a name and in a literal, and the target spells another
-- keyword.
theorem read_pair_written_named :
    Text.IsOperand "to + 'x TO y' = TO".toList ∧ Text.isName "Value".toList = true ∧
      PairForm.add.Written "to + 'x TO y' = TO".toList "Value".toList
        "Add to + 'x TO y' = TO\t to  Value".toList ∧
      Statement.read "Add to + 'x TO y' = TO\t to  Value".toList =
        .ok (.add "to + 'x TO y' = TO".toList "Value".toList) := by
  have fits : Text.IsOperand "to + 'x TO y' = TO".toList :=
    ⟨by decide, by decide, by decide, by decide⟩
  have written : PairForm.add.Written "to + 'x TO y' = TO".toList "Value".toList
      "Add to + 'x TO y' = TO\t to  Value".toList :=
    .mk "Add".toList "to".toList " ".toList "\t ".toList "  ".toList (by decide) (by decide)
      (by decide) (by decide) (by decide) (by decide) (by decide) (by decide)
  exact ⟨fits, by decide, written, read_pair_written .add fits (by decide) written⟩

/-- A variable may have the name of the keyword, but cannot be the target then. -/
theorem read_pair_target_keyword :
    Text.IsOperand "1".toList ∧ Text.isName "to".toList = true ∧
      Text.isName "from".toList = true ∧
      Statement.read "ADD 1 TO to".toList = .ok (.malformed .add) ∧
      Statement.read "SUBTRACT 1 FROM from".toList = .ok (.malformed .subtract) ∧
      Statement.read "APPEND 1 TO to".toList = .ok (.malformed .append) :=
  ⟨⟨by decide, by decide, by decide, by decide⟩, by decide, by decide, by decide, by decide,
    by decide⟩

end Reading

end Statement

end MiniAbap
