import Mathlib.Data.List.Induction
import MiniAbap.Proofs.Text.Blank

/-!
The literals of a text. A literal runs from a quote outside literals to the next equal
quote, or to the end of the text where there is none. So a text is a row of characters
that are no quotes and of literals that end, with at most one literal left open behind
them; following the open quote from character to character tells the same.
-/

namespace MiniAbap.Text

inductive Closed : Text → Prop where
  | nil : Closed []
  | plain {text : Text} {c : Char} (before : Closed text) (other : isQuote c = false) :
      Closed (text ++ [c])
  | literal {text content : Text} {quote : Char} (before : Closed text)
      (opens : isQuote quote = true) (inside : quote ∉ content) :
      Closed (text ++ quote :: (content ++ [quote]))

inductive LeftOpen (quote : Char) : Text → Prop where
  | mk {text content : Text} (before : Closed text) (opens : isQuote quote = true)
      (inside : quote ∉ content) : LeftOpen quote (text ++ quote :: content)

variable {quote : Char} {text : Text}

theorem advanceAll_of_not_mem (absent : quote ∉ text) :
    advanceAll (some quote) text = some quote := by
  induction text with
  | nil => rfl
  | cons c text ih =>
      have other : c ≠ quote := fun same => absent (same ▸ List.mem_cons_self)
      have passed : advance (some quote) c = some quote := by simp [advance, other]
      rw [advanceAll, List.foldl_cons, passed]
      exact ih fun member => absent (List.mem_cons_of_mem c member)

theorem advanceAll_quote (opens : isQuote quote = true) (text : Text) :
    advanceAll none (quote :: text) = advanceAll (some quote) text := by
  rw [advanceAll, List.foldl_cons, advance, if_pos opens, advanceAll]

theorem Closed.advanceAll_eq (closed : Closed text) : advanceAll none text = none := by
  induction closed with
  | nil => rfl
  | plain _ other ih =>
      rw [advanceAll_append, ih]
      simp [advanceAll, advance, other]
  | literal _ opens inside ih =>
      rw [advanceAll_append, ih, advanceAll_quote opens, advanceAll_append,
        advanceAll_of_not_mem inside]
      simp [advanceAll, advance]

theorem LeftOpen.advanceAll_eq (leftOpen : LeftOpen quote text) :
    advanceAll none text = some quote := by
  cases leftOpen with
  | mk before opens inside =>
      rw [advanceAll_append, before.advanceAll_eq, advanceAll_quote opens,
        advanceAll_of_not_mem inside]

-- The last character decides whether the literal before it goes on, or a new one starts.
theorem closed_or_leftOpen (text : Text) : Closed text ∨ ∃ quote, LeftOpen quote text := by
  induction text using List.reverseRecOn with
  | nil => exact .inl .nil
  | append_singleton text c ih =>
      rcases ih with closed | ⟨quote, leftOpen⟩
      · by_cases opens : isQuote c = true
        · exact .inr ⟨c, .mk closed opens List.not_mem_nil⟩
        · exact .inl (.plain closed (Bool.not_eq_true _ ▸ opens))
      · cases leftOpen with
        | @mk before content closed opens inside =>
            rw [List.append_assoc, List.cons_append]
            by_cases ends : c = quote
            · subst ends
              exact .inl (.literal closed opens inside)
            · have further : quote ∉ content ++ [c] := by simp [inside, Ne.symm ends]
              exact .inr ⟨quote, .mk closed opens further⟩

theorem closed_iff : Closed text ↔ advanceAll none text = none := by
  constructor
  · exact Closed.advanceAll_eq
  · intro outside
    rcases closed_or_leftOpen text with closed | ⟨quote, leftOpen⟩
    · exact closed
    · rw [leftOpen.advanceAll_eq] at outside
      cases outside

instance (text : Text) : Decidable (Closed text) :=
  decidable_of_iff (advanceAll none text = none) closed_iff.symm

end MiniAbap.Text
