import MiniAbap.Proofs.Text.Literal
import MiniAbap.Proofs.Text.Separator

/-!
Splitting at the separators outside literals against joining with separators. The parts
of a text are told from all other lists with the same join: each of them but the last
closes its literals, so the next one starts outside, and none has a separator outside the
literals that it has when it is read on its own.
-/

namespace MiniAbap.Text

variable {separator : Char} {quote : Option Char} {text part : Text} {parts : List Text}

section Parts

inductive Parted (separator : Char) : Option Char → List Text → Prop where
  | last {quote : Option Char} {part : Text} (together : Together separator quote part) :
      Parted separator quote [part]
  | cons {quote : Option Char} {part : Text} {parts : List Text}
      (together : Together separator quote part) (closed : advanceAll quote part = none)
      (others : Parted separator none parts) : Parted separator quote (part :: parts)

theorem Parted.cons_char {c : Char} (passed : c = separator → quote.isSome = true)
    (parted : Parted separator (advance quote c) parts) :
    Parted separator quote (parts.modifyHead (c :: ·)) := by
  cases parted with
  | last together => exact .last (together_cons.mpr ⟨passed, together⟩)
  | cons together closed others =>
      exact .cons (together_cons.mpr ⟨passed, together⟩) closed others

theorem parted_splitOutsideFrom (sign : isQuote separator = false) (quote : Option Char)
    (text : Text) : Parted separator quote (splitOutsideFrom separator quote text) := by
  induction text generalizing quote with
  | nil => exact .last (together_of_not_mem List.not_mem_nil)
  | cons c rest ih =>
      rw [splitOutsideFrom]
      split
      · next divides =>
          simp only [Bool.and_eq_true, Option.isNone_iff_eq_none] at divides
          obtain ⟨⟨rfl, _⟩, _⟩ := divides
          exact .cons (together_of_not_mem List.not_mem_nil) rfl (ih none)
      · next passes =>
          refine (ih (advance quote c)).cons_char ?_
          rintro rfl
          cases quote with
          | none => simp [sign] at passes
          | some opened => rfl

theorem intercalate_modifyHead (c : Char) (filled : parts ≠ []) :
    List.intercalate [separator] (parts.modifyHead (c :: ·)) =
      c :: List.intercalate [separator] parts := by
  cases parts with
  | nil => exact absurd rfl filled
  | cons part parts =>
      cases parts with
      | nil => simp
      | cons next others => simp [List.intercalate_cons_cons]

theorem Parted.nonempty (parted : Parted separator quote parts) : parts ≠ [] := by
  cases parted <;> exact List.cons_ne_nil _ _

theorem intercalate_splitOutsideFrom (sign : isQuote separator = false) (quote : Option Char)
    (text : Text) :
    List.intercalate [separator] (splitOutsideFrom separator quote text) = text := by
  induction text generalizing quote with
  | nil => rfl
  | cons c rest ih =>
      rw [splitOutsideFrom]
      split
      · next divides =>
          simp only [Bool.and_eq_true, beq_iff_eq] at divides
          have filled := (parted_splitOutsideFrom sign none rest).nonempty
          obtain ⟨part, parts, found⟩ := List.exists_cons_of_ne_nil filled
          have joined := ih none
          rw [found] at joined ⊢
          rw [List.intercalate_cons_cons, joined, divides.2]
          rfl
      · have filled := (parted_splitOutsideFrom sign (advance quote c) rest).nonempty
        rw [intercalate_modifyHead c filled, ih]

theorem Parted.splitOutsideFrom_eq (parted : Parted separator quote parts)
    (sign : isQuote separator = false) :
    splitOutsideFrom separator quote (List.intercalate [separator] parts) = parts := by
  induction parted with
  | last together => rw [List.intercalate_singleton, together.splitOutsideFrom_eq]
  | cons together closed others ih =>
      obtain ⟨next, more, rfl⟩ := List.exists_cons_of_ne_nil others.nonempty
      rw [List.intercalate_cons_cons, List.append_assoc, List.singleton_append,
        together.splitOutsideFrom_append closed sign, ih]

end Parts

section Inverse

structure IsSplit (separator : Char) (text : Text) (parts : List Text) : Prop where
  nonempty : parts ≠ []
  joined : List.intercalate [separator] parts = text
  closed : ∀ part ∈ parts.dropLast, Closed part
  inside : ∀ part ∈ parts, ∀ before after, part = before ++ separator :: after → ¬ Closed before

theorem together_iff :
    Together separator none part ↔
      ∀ before after, part = before ++ separator :: after → ¬ Closed before := by
  simp only [Together, closed_iff, Option.isSome_iff_ne_none, ne_eq]

theorem parted_iff :
    Parted separator none parts ↔
      parts ≠ [] ∧ (∀ part ∈ parts.dropLast, Closed part) ∧
        ∀ part ∈ parts, Together separator none part := by
  induction parts with
  | nil =>
      constructor
      · intro parted
        exact absurd rfl parted.nonempty
      · rintro ⟨filled, _⟩
        exact absurd rfl filled
  | cons part parts ih =>
      constructor
      · intro parted
        cases parted with
        | last together => simpa using together
        | cons together closed others =>
            obtain ⟨filled, closedOthers, togetherOthers⟩ := ih.mp others
            obtain ⟨next, more, rfl⟩ := List.exists_cons_of_ne_nil filled
            rw [List.dropLast_cons_cons]
            exact ⟨List.cons_ne_nil _ _,
              List.forall_mem_cons.mpr ⟨closed_iff.mpr closed, closedOthers⟩,
              List.forall_mem_cons.mpr ⟨together, togetherOthers⟩⟩
      · rintro ⟨_, closed, together⟩
        obtain ⟨here, there⟩ := List.forall_mem_cons.mp together
        cases parts with
        | nil => exact .last here
        | cons next others =>
            rw [List.dropLast_cons_cons, List.forall_mem_cons] at closed
            have later := ih.mpr ⟨List.cons_ne_nil _ _, closed.2, there⟩
            exact .cons here closed.1.advanceAll_eq later

/-- Splitting is the inverse of joining. It gives the text's parts, whose join is the text,
    and of every join of such parts it gives these parts. -/
theorem splitOutside_eq_iff (sign : isQuote separator = false) (text : Text)
    (parts : List Text) :
    splitOutside separator text = parts ↔ IsSplit separator text parts := by
  constructor
  · rintro rfl
    have parted := parted_splitOutsideFrom sign none text
    obtain ⟨filled, closed, together⟩ := parted_iff.mp parted
    exact ⟨filled, intercalate_splitOutsideFrom sign none text, closed,
      fun part member => together_iff.mp (together part member)⟩
  · rintro ⟨filled, rfl, closed, inside⟩
    have parted : Parted separator none parts :=
      parted_iff.mpr ⟨filled, closed, fun part member => together_iff.mpr (inside part member)⟩
    exact parted.splitOutsideFrom_eq sign

-- The first part has a comma in a literal, and the last one leaves a literal open over two.
theorem splitOutside_eq_iff_open :
    isQuote ',' = false ∧
      splitOutside ',' "'a,`b'c,,`d,'e,".toList =
        ["'a,`b'c".toList, [], "`d,'e,".toList] ∧
      IsSplit ',' "'a,`b'c,,`d,'e,".toList ["'a,`b'c".toList, [], "`d,'e,".toList] := by
  have sign : isQuote ',' = false := by decide
  have found : splitOutside ',' "'a,`b'c,,`d,'e,".toList =
      ["'a,`b'c".toList, [], "`d,'e,".toList] := by decide
  exact ⟨sign, found, (splitOutside_eq_iff sign _ _).mp found⟩

end Inverse

end MiniAbap.Text
