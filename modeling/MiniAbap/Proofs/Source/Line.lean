import MiniAbap.Source

/-!
The lines of a program: where they end, and how far each of them is read.
-/

namespace MiniAbap

namespace Text

section Lines

def dropReturn (line : Text) : Text :=
  if line.getLast? = some '\r' then line.dropLast else line

-- A character ends its line, belongs to the end of its line, or stands in it.
theorem line_cases (c : Char) (rest : Text) :
    c = '\n' ∨ (c = '\r' ∧ ∃ more, rest = '\n' :: more) ∨
      c ≠ '\n' ∧ (c = '\r' → rest.head? ≠ some '\n') := by
  by_cases ends : c = '\n'
  · exact .inl ends
  · by_cases next : rest.head? = some '\n'
    · by_cases returns : c = '\r'
      · exact .inr (.inl ⟨returns, List.head?_eq_some_iff.mp next⟩)
      · exact .inr (.inr ⟨ends, fun here => absurd here returns⟩)
    · exact .inr (.inr ⟨ends, fun _ => next⟩)

theorem lines_cons {c : Char} {rest : Text} (inside : c ≠ '\n')
    (alone : c = '\r' → rest.head? ≠ some '\n') :
    lines (c :: rest) = (c :: (lines rest).headD []) :: (lines rest).tail := by
  rw [lines.eq_4]
  · cases lines rest <;> rfl
  · exact inside
  · rintro more rfl rfl
    exact alone rfl rfl

theorem lines_line {line : Text} (inside : '\n' ∉ line) (rest : Text) :
    lines (line ++ '\n' :: rest) = dropReturn line :: lines rest := by
  induction line with
  | nil => simp [lines, dropReturn]
  | cons c line ih =>
      rw [List.mem_cons, not_or] at inside
      cases line with
      | nil =>
          by_cases returns : c = '\r'
          · subst returns
            simp [lines, dropReturn]
          · rw [List.singleton_append, lines_cons (Ne.symm inside.1) (absurd · returns)]
            simp [lines, dropReturn, returns]
      | cons d more =>
          have next : d ≠ '\n' := fun same => inside.2 (same ▸ List.mem_cons_self)
          rw [List.cons_append, lines_cons (Ne.symm inside.1) (by simp [next]), ih inside.2]
          simp only [List.headD_cons, List.tail_cons, dropReturn, List.getLast?_cons_cons]
          split <;> rfl

theorem lines_last {line : Text} (inside : '\n' ∉ line) (nonempty : line ≠ []) :
    lines line = [line] := by
  induction line with
  | nil => exact absurd rfl nonempty
  | cons c line ih =>
      rw [List.mem_cons, not_or] at inside
      have alone : line.head? ≠ some '\n' :=
        fun first => inside.2 (List.mem_of_mem_head? first)
      rw [lines_cons (Ne.symm inside.1) fun _ => alone]
      cases line with
      | nil => rfl
      | cons d more => rw [ih inside.2 (List.cons_ne_nil _ _)]; rfl

end Lines

end Text

namespace Source

section Remarks

def beforeRemark (quote : Option Char) : Text → Text
  | [] => []
  | c :: rest =>
      if quote.isNone && c == '"' then [] else c :: beforeRemark (Text.advance quote c) rest

theorem isDecimalPoint_beforeRemark (previous : Option Char) (rest : Text) :
    isDecimalPoint previous (beforeRemark none rest) = isDecimalPoint previous rest := by
  cases rest with
  | nil => rfl
  | cons c more =>
      by_cases remark : c = '"'
      · subst remark
        simp [beforeRemark, isDecimalPoint]
      · simp [beforeRemark, isDecimalPoint, remark]

/-- What follows the double quote of a remark is not looked at. -/
theorem piecesFrom_beforeRemark (quote previous : Option Char) (line : Text) :
    piecesFrom quote previous (beforeRemark quote line) = piecesFrom quote previous line := by
  induction line generalizing quote previous with
  | nil => rfl
  | cons c rest ih =>
      by_cases remark : (quote.isNone && c == '"') = true
      · rw [beforeRemark, if_pos remark, piecesFrom, piecesFrom, if_pos remark]
      · rw [beforeRemark, if_neg remark, piecesFrom, piecesFrom, if_neg remark, if_neg remark,
          ih]
        by_cases stop : (quote.isNone && c == '.') = true
        · simp only [Bool.and_eq_true, Option.isNone_iff_eq_none, beq_iff_eq] at stop
          obtain ⟨rfl, rfl⟩ := stop
          have outside : Text.advance none '.' = none := rfl
          rw [outside, isDecimalPoint_beforeRemark, ih]
        · simp only [stop, Bool.false_and, Bool.false_eq_true, if_false]

end Remarks

end Source

end MiniAbap
