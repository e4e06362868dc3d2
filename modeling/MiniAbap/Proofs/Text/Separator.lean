import MiniAbap.Proofs.Text.Word

/-!
Items joined by a separator. A separator in a literal does not separate, so items that
close their quotes and have the separator in literals only are what splitting their join
gives back, up to the white space around them.
-/

namespace MiniAbap.Text

variable {separator : Char} {quote : Option Char} {part first second rest gap text : Text}

section Parts

def Together (separator : Char) (quote : Option Char) (text : Text) : Prop :=
  ∀ before after, text = before ++ separator :: after → (advanceAll quote before).isSome = true

theorem together_of_not_mem (absent : separator ∉ text) : Together separator quote text := by
  intro before after divided
  exact absurd (divided ▸ List.mem_append_right before List.mem_cons_self) absent

theorem together_cons {c : Char} :
    Together separator quote (c :: part) ↔
      (c = separator → quote.isSome = true) ∧ Together separator (advance quote c) part := by
  constructor
  · intro together
    constructor
    · rintro rfl
      exact together [] part rfl
    · intro before after divided
      exact together (c :: before) after (congrArg (c :: ·) divided)
  · rintro ⟨here, there⟩ before after divided
    cases before with
    | nil =>
        cases divided
        exact here rfl
    | cons d before =>
        obtain ⟨rfl, others⟩ := List.cons.inj divided
        exact there before after others

instance decidableTogether (separator : Char) :
    ∀ quote text, Decidable (Together separator quote text)
  | _, [] => .isTrue (together_of_not_mem List.not_mem_nil)
  | quote, c :: text =>
      have := decidableTogether separator (advance quote c) text
      decidable_of_iff _ together_cons.symm

theorem Together.append (here : Together separator quote first)
    (there : Together separator (advanceAll quote first) second) :
    Together separator quote (first ++ second) := by
  induction first generalizing quote with
  | nil => exact there
  | cons c first ih =>
      obtain ⟨start, others⟩ := together_cons.mp here
      exact together_cons.mpr ⟨start, ih others there⟩

-- A separator at the head of a part would stand outside literals, so it is passed.
theorem Together.passed {c : Char} (together : Together separator quote (c :: part)) :
    ¬ (quote.isNone && !isQuote c && c == separator) = true := by
  simp only [Bool.and_eq_true, Option.isNone_iff_eq_none, beq_iff_eq]
  rintro ⟨⟨rfl, _⟩, rfl⟩
  cases (together_cons.mp together).1 rfl

theorem Together.splitOutsideFrom_append (together : Together separator quote part)
    (closed : advanceAll quote part = none) (sign : isQuote separator = false) (rest : Text) :
    splitOutsideFrom separator quote (part ++ separator :: rest) =
      part :: splitOutsideFrom separator none rest := by
  induction part generalizing quote with
  | nil =>
      cases closed
      simp [splitOutsideFrom, sign]
  | cons c part ih =>
      have others := (together_cons.mp together).2
      rw [List.cons_append, splitOutsideFrom, if_neg together.passed, ih others closed]
      rfl

theorem Together.splitOutsideFrom_eq (together : Together separator quote part) :
    splitOutsideFrom separator quote part = [part] := by
  induction part generalizing quote with
  | nil => rfl
  | cons c part ih =>
      have others := (together_cons.mp together).2
      rw [splitOutsideFrom, if_neg together.passed, ih others]
      rfl

end Parts

section Items

/-- An item as it may stand between separators: not blank at either end, with its quotes
    closed, and with no separator outside them. -/
structure IsItem (separator : Char) (item : Text) : Prop where
  nonempty : item ≠ []
  trimmed : trim item = item
  closed : closesQuotes item = true
  together : Together separator none item

instance (item : Text) : Decidable (IsItem separator item) :=
  decidable_of_iff (item ≠ [] ∧ trim item = item ∧ closesQuotes item = true ∧
      Together separator none item)
    ⟨fun ⟨nonempty, trimmed, closed, together⟩ => ⟨nonempty, trimmed, closed, together⟩,
      fun item => ⟨item.nonempty, item.trimmed, item.closed, item.together⟩⟩

theorem IsItem.hasSolidEnds (item : IsItem separator text) : HasSolidEnds text :=
  item.trimmed ▸ hasSolidEnds_trim text

theorem IsItem.advanceAll_eq (item : IsItem separator text) : advanceAll none text = none :=
  Option.isNone_iff_eq_none.mp item.closed

theorem HasSolidEnds.append (start : HasSolidEnds first) (stop : HasSolidEnds second)
    (someFirst : first ≠ []) (someSecond : second ≠ []) (middle : Text) :
    HasSolidEnds (first ++ (middle ++ second)) where
  first c here := start.first c (by rwa [List.head?_append_of_ne_nil _ someFirst] at here)
  last c here := by
    rw [← List.append_assoc, List.getLast?_append_of_ne_nil _ someSecond] at here
    exact stop.last c here

theorem together_blank (blank : Blank gap) (solid : isBlank separator = false) :
    Together separator quote gap :=
  together_of_not_mem fun member => ne_of_isBlank (blank _ member) solid rfl

theorem IsWord.isItem {word : Text} (solid : IsWord word) (apart : isNameChar separator = false) :
    IsItem separator word where
  nonempty := solid.nonempty
  trimmed := solid.hasSolidEnds.trim_eq
  closed := Option.isNone_iff_eq_none.mpr (advanceAll_of_no_quote solid.plain)
  together := together_of_not_mem fun member => by simp [solid.letters _ member] at apart

theorem IsItem.append (start : IsItem separator first) (stop : IsItem separator second)
    (blank : Blank gap) (solid : isBlank separator = false) :
    IsItem separator (first ++ (gap ++ second)) where
  nonempty := List.append_ne_nil_of_left_ne_nil start.nonempty _
  trimmed := (start.hasSolidEnds.append stop.hasSolidEnds start.nonempty stop.nonempty gap).trim_eq
  closed := by
    rw [closesQuotes, advanceAll_append, start.advanceAll_eq, advanceAll_append,
      advanceAll_none_blank blank]
    exact stop.closed
  together := by
    refine start.together.append ?_
    rw [start.advanceAll_eq]
    refine (together_blank blank solid).append ?_
    rw [advanceAll_none_blank blank]
    exact stop.together

theorem Apart.isItem {listed : List Text} (apart : Apart listed text)
    (start : IsItem separator first) (solid : isBlank separator = false)
    (sign : isNameChar separator = false) : IsItem separator (first ++ text) := by
  induction apart generalizing first with
  | nil =>
      rw [List.append_nil]
      exact start
  | @cons c gap word rest listed white blank word' _ ih =>
      have spaces : Blank (c :: gap) := List.forall_mem_cons.mpr ⟨white, blank⟩
      have further := ih (start.append (word'.isItem sign) spaces solid)
      rwa [List.append_assoc, List.append_assoc] at further

end Items

section Joining

inductive Joined (separator : Char) : List Text → Text → Prop where
  | one (item : Text) : Joined separator [item] item
  | cons {item before after rest : Text} {items : List Text} (ends : Blank before)
      (starts : Blank after) (others : Joined separator items rest) :
      Joined separator (item :: items) (item ++ (before ++ separator :: (after ++ rest)))

theorem Joined.someItem {items : List Text} (joined : Joined separator items text) :
    items ≠ [] := by
  cases joined <;> exact List.cons_ne_nil _ _

theorem Joined.nonempty {items : List Text} (joined : Joined separator items text)
    (all : ∀ item ∈ items, IsItem separator item) : text ≠ [] := by
  cases joined with
  | one => exact (all _ List.mem_cons_self).nonempty
  | cons => exact List.append_ne_nil_of_left_ne_nil (all _ List.mem_cons_self).nonempty _

theorem Joined.hasSolidEnds {items : List Text} (joined : Joined separator items text)
    (all : ∀ item ∈ items, IsItem separator item) : HasSolidEnds text := by
  induction joined with
  | one => exact (all _ List.mem_cons_self).hasSolidEnds
  | @cons item before after rest items _ _ others ih =>
      obtain ⟨here, there⟩ := List.forall_mem_cons.mp all
      have whole := here.hasSolidEnds.append (ih there) here.nonempty (others.nonempty there)
        (before ++ separator :: after)
      rwa [List.append_assoc, List.cons_append] at whole

theorem map_trim_splitOutside_blank (blank : Blank gap) (solid : isBlank separator = false)
    (text : Text) :
    (splitOutside separator (gap ++ text)).map trim = (splitOutside separator text).map trim := by
  induction gap with
  | nil => rfl
  | cons c gap ih =>
      obtain ⟨white, others⟩ := List.forall_mem_cons.mp blank
      have passed : ¬ ((none : Option Char).isNone && !isQuote c && c == separator) = true := by
        simp [ne_of_isBlank white solid]
      rw [← ih others, splitOutside, List.cons_append, splitOutsideFrom, if_neg passed,
        advance_of_isBlank white, ← splitOutside]
      cases splitOutside separator (gap ++ text) with
      | nil => rfl
      | cons piece pieces =>
          have one : Blank [c] := List.forall_mem_singleton.mpr white
          exact congrArg (· :: pieces.map trim) (trim_blank_append one piece)

/-- Splitting gives the joined items back. -/
theorem Joined.map_trim_splitOutside {items : List Text} (joined : Joined separator items text)
    (all : ∀ item ∈ items, IsItem separator item) (solid : isBlank separator = false)
    (sign : isQuote separator = false) :
    (splitOutside separator text).map trim = items := by
  induction joined with
  | one item =>
      have only := all item List.mem_cons_self
      rw [splitOutside, only.together.splitOutsideFrom_eq, List.map_singleton, only.trimmed]
  | @cons item before after rest items ends starts _ ih =>
      obtain ⟨here, there⟩ := List.forall_mem_cons.mp all
      have closed : advanceAll none (item ++ before) = none := by
        rw [advanceAll_append, here.advanceAll_eq, advanceAll_none_blank ends]
      have whole : Together separator none (item ++ before) :=
        here.together.append (together_blank ends solid)
      rw [← List.append_assoc, splitOutside, whole.splitOutsideFrom_append closed sign,
        ← splitOutside, List.map_cons, map_trim_splitOutside_blank starts solid, ih there,
        trim_append_blank ends, here.trimmed]

end Joining

section Pieces

/-- An item with the white space around it: not blank as a whole, with its quotes closed, and
    with no separator outside them. -/
structure IsPiece (separator : Char) (piece : Text) : Prop where
  visible : ¬ Blank piece
  closed : closesQuotes piece = true
  together : Together separator none piece

instance (piece : Text) : Decidable (IsPiece separator piece) :=
  decidable_of_iff (¬ Blank piece ∧ closesQuotes piece = true ∧ Together separator none piece)
    ⟨fun ⟨visible, closed, together⟩ => ⟨visible, closed, together⟩,
      fun piece => ⟨piece.visible, piece.closed, piece.together⟩⟩

theorem IsPiece.isItem {piece : Text} (fits : IsPiece separator piece) :
    IsItem separator (trim piece) := by
  obtain ⟨before, after, blankBefore, blankAfter, whole⟩ := exists_trim piece
  have start := advanceAll_none_blank blankBefore
  constructor
  · intro empty
    rw [empty, List.nil_append] at whole
    exact fits.visible (whole ▸ blankBefore.append blankAfter)
  · exact (hasSolidEnds_trim piece).trim_eq
  · have closed : advanceAll none piece = none := Option.isNone_iff_eq_none.mp fits.closed
    rw [whole, advanceAll_append, start] at closed
    exact Option.isNone_iff_eq_none.mpr (closed_of_append_blank blankAfter closed)
  · intro first rest divided
    have inside := fits.together (before ++ first) (rest ++ after) (by
      rw [whole, divided]
      simp)
    rwa [advanceAll_append, start] at inside

/-- Pieces with separators between them are their items, joined, with white space around
    the whole. -/
theorem exists_joined (separator : Char) {pieces : List Text} (some : pieces ≠ []) :
    ∃ before joined after, Blank before ∧ Blank after ∧
      List.intercalate [separator] pieces = before ++ (joined ++ after) ∧
        Joined separator (pieces.map trim) joined := by
  induction pieces with
  | nil => exact absurd rfl some
  | cons piece pieces ih =>
      obtain ⟨before, after, blankBefore, blankAfter, whole⟩ := exists_trim piece
      cases pieces with
      | nil =>
          refine ⟨before, trim piece, after, blankBefore, blankAfter, ?_, .one _⟩
          rw [List.intercalate_singleton]
          exact whole
      | cons next others =>
          obtain ⟨first, joined, last, blankFirst, blankLast, rest, later⟩ :=
            ih (List.cons_ne_nil _ _)
          refine ⟨before, _, last, blankBefore, blankLast, ?_, .cons blankAfter blankFirst later⟩
          rw [List.intercalate_cons_cons, rest]
          conv_lhs => rw [whole]
          simp

end Pieces

end MiniAbap.Text
