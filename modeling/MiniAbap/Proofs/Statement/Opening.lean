import MiniAbap.Proofs.Text.Occurrence
import MiniAbap.Statement.Read

/-!
How a statement starts: when it is no assignment, and which word it is then read by.
-/

namespace MiniAbap

namespace Text

-- The visible character after the first part keeps trimming out of that part.
theorem isPrefix_trimEnd {c : Char} (solid : isBlank c = false) (first rest : Text) :
    first <+: trimEnd (first ++ c :: rest) := by
  obtain ⟨blanks, blank, whole⟩ := exists_trimEnd_append (first ++ c :: rest)
  rcases List.append_eq_append_iff.mp whole with ⟨more, kept, _⟩ | ⟨more, _, cut⟩
  · exact ⟨more, kept.symm⟩
  · have white := blank c (cut ▸ List.mem_append_right more List.mem_cons_self)
    rw [solid] at white
    cases white

end Text

namespace Statement

theorem assignment?_eq_none {first : Text} (plain : '=' ∉ first)
    (unnamed : ∀ more, Text.isName (Text.trim (first ++ more)) = false) (rest : Text) :
    assignment? (first ++ rest) = none := by
  have passed : ∀ c ∈ first, (!(c == '=')) = true := by
    intro c member
    simpa using fun same : c = '=' => plain (same ▸ member)
  simp only [assignment?, Text.splitFirst, List.takeWhile_append_of_pos passed]
  split
  · rfl
  · next found =>
      split at found
      · cases found
      · cases found
        simp [unnamed]

theorem leadingWord_append {word rest : Text} (solid : Text.IsWord word)
    (ends : Text.endsWord rest = true) :
    Text.leadingWord (word ++ rest) = (Text.upper word, rest) := by
  rw [Text.leadingWord, solid.takeWhile_append ends, solid.dropWhile_append ends]

end Statement

namespace StatementWord

theorem isWord_title (keyword : StatementWord) : Text.IsWord keyword.title.toList := by
  cases keyword <;> exact Text.isWord_of_isName rfl

theorem ofText?_upper {word : Text} {keyword : StatementWord}
    (same : Text.sameWord word keyword.title.toList = true) :
    ofText? (Text.upper word) = some keyword := by
  have folded : Text.lower word = Text.lower keyword.title.toList := beq_iff_eq.mp same
  rw [← Text.upper_lower, folded]
  cases keyword <;> decide

end StatementWord

end MiniAbap
