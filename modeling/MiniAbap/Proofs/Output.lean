import MiniAbap.Proofs.Run.Footprint
import MiniAbap.Proofs.Run.Growth

/-!
The lines of the output against the calls that wrote them. A new line starts a line, and
so does an item that is written before there is one; the items of a line stand one space
apart. An item that ends in white space can bring that space along itself, so the layout
is exact for items that end visibly. Whatever is written, a line that another one follows
is never touched again.
-/

namespace MiniAbap.Output

section Layout

def itemsHere : List Call → List Text
  | .write item :: rest => item :: itemsHere rest
  | .newLine :: _ | [] => []

def itemsBelow : List Call → List (List Text)
  | .newLine :: rest => itemsHere rest :: itemsBelow rest
  | .write _ :: rest => itemsBelow rest
  | [] => []

def StartsWritten (calls : List Call) : Prop :=
  itemsHere calls ≠ []

instance (calls : List Call) : Decidable (StartsWritten calls) :=
  inferInstanceAs (Decidable (itemsHere calls ≠ []))

def itemLines (calls : List Call) : List (List Text) :=
  if StartsWritten calls then itemsHere calls :: itemsBelow calls else itemsBelow calls

def spaced (items : List Text) : Text :=
  List.intercalate [' '] items

theorem length_itemsBelow (calls : List Call) :
    (itemsBelow calls).length = calls.count .newLine := by
  induction calls with
  | nil => rfl
  | cons call rest ih => cases call <;> simp [itemsBelow, ih]

theorem length_itemLines (calls : List Call) :
    (itemLines calls).length =
      calls.count .newLine + if StartsWritten calls then 1 else 0 := by
  rw [itemLines]
  split <;> simp [length_itemsBelow]

end Layout

section Lines

variable {output : Output} {init : List Text} {last line item : Text}

def EndsVisibly (text : Text) : Prop :=
  ∃ init c, text = init ++ [c] ∧ Text.isBlank c = false

def VisibleItems (calls : List Call) : Prop :=
  ∀ item, .write item ∈ calls → EndsVisibly item

theorem VisibleItems.tail {call : Call} {rest : List Call} (fit : VisibleItems (call :: rest)) :
    VisibleItems rest :=
  fun item member => fit item (List.mem_cons_of_mem call member)

theorem EndsVisibly.append (visible : EndsVisibly item) (before : Text) :
    EndsVisibly (before ++ item) := by
  obtain ⟨init, c, rfl, solid⟩ := visible
  exact ⟨before ++ init, c, (List.append_assoc ..).symm, solid⟩

theorem EndsVisibly.trimEnd_eq (visible : EndsVisibly item) : Text.trimEnd item = item := by
  obtain ⟨init, c, rfl, solid⟩ := visible
  simp [Text.trimEnd, solid]

def makeRoom (line : Text) : Text :=
  (space line.reverse).reverse

theorem exists_makeRoom (line : Text) : ∃ gap, makeRoom line = line ++ gap := by
  obtain ⟨gap, spread⟩ := space_eq line.reverse
  exact ⟨gap.reverse, by simp [makeRoom, spread]⟩

theorem EndsVisibly.makeRoom_eq (visible : EndsVisibly line) :
    makeRoom line = line ++ [' '] := by
  obtain ⟨init, c, rfl, solid⟩ := visible
  have other : c ≠ ' ' := by
    rintro rfl
    cases solid
  simp [makeRoom, space, other]

theorem reversed_eq (output : Output) :
    output.reversed = (output.lines.map List.reverse).reverse := by
  simp [lines]

theorem lines_write_of_empty (empty : output.lines = []) (item : Text) :
    (output.write item).lines = [item] := by
  have stored : output.reversed = [] := by rw [reversed_eq, empty]; rfl
  simp [write, stored, lines]

theorem lines_write (spelled : output.lines = init ++ [last]) (item : Text) :
    (output.write item).lines = init ++ [makeRoom last ++ item] := by
  have stored : output.reversed = last.reverse :: (init.map List.reverse).reverse := by
    rw [reversed_eq, spelled]
    simp
  simp [write, stored, lines, makeRoom]

/-- An item starts the first line, or goes to the end of the last one. -/
theorem lines_write_cases (output : Output) (item : Text) :
    (output.lines = [] ∧ (output.write item).lines = [item]) ∨
      ∃ init last, output.lines = init ++ [last] ∧
        (output.write item).lines = init ++ [makeRoom last ++ item] := by
  rcases List.eq_nil_or_concat output.lines with empty | ⟨init, last, spelled⟩
  · exact .inl ⟨empty, lines_write_of_empty empty item⟩
  · rw [List.concat_eq_append] at spelled
    exact .inr ⟨init, last, spelled, lines_write spelled item⟩

theorem spaced_append {items : List Text} (filled : items ≠ []) (item : Text) :
    spaced (items ++ [item]) = spaced items ++ ' ' :: item := by
  induction items with
  | nil => exact absurd rfl filled
  | cons first items ih =>
      cases items with
      | nil => simp [spaced]
      | cons second items =>
          have later := ih (List.cons_ne_nil _ _)
          simp only [spaced, List.cons_append, List.intercalate_cons_cons] at later ⊢
          simp [later]

theorem endsVisibly_spaced {items : List Text} (filled : items ≠ [])
    (visible : ∀ item ∈ items, EndsVisibly item) : EndsVisibly (spaced items) := by
  rcases List.eq_nil_or_concat items with rfl | ⟨init, last, rfl⟩
  · exact absurd rfl filled
  · rw [List.concat_eq_append] at visible ⊢
    have stop : EndsVisibly last := visible last (by simp)
    by_cases alone : init = []
    · simpa [alone, spaced] using stop
    · rw [spaced_append alone, ← List.singleton_append]
      exact (stop.append [' ']).append _

-- Nothing stands before the first item, and the last character before a later one is visible.
theorem makeRoom_spaced {items : List Text} (visible : ∀ item ∈ items, EndsVisibly item)
    (item : Text) : makeRoom (spaced items) ++ item = spaced (items ++ [item]) := by
  by_cases alone : items = []
  · simp [alone, spaced, makeRoom, space]
  · rw [(endsVisibly_spaced alone visible).makeRoom_eq, spaced_append alone]
    simp

theorem lines_foldl {items : List Text} (visible : ∀ item ∈ items, EndsVisibly item)
    (spelled : output.lines = init ++ [spaced items]) {calls : List Call}
    (fit : VisibleItems calls) :
    (calls.foldl perform output).lines =
      init ++ spaced (items ++ itemsHere calls) :: (itemsBelow calls).map spaced := by
  induction calls generalizing output init items with
  | nil => simpa [itemsHere, itemsBelow] using spelled
  | cons call rest ih =>
      cases call with
      | newLine =>
          have started : output.newLine.lines = (init ++ [spaced items]) ++ [spaced []] := by
            rw [lines_newLine, spelled]
            rfl
          have later := ih (by simp) started fit.tail
          simpa [itemsHere, itemsBelow, perform] using later
      | write item =>
          have here : EndsVisibly item := fit item List.mem_cons_self
          have grown : (output.write item).lines = init ++ [spaced (items ++ [item])] := by
            rw [lines_write spelled, makeRoom_spaced visible]
          have all : ∀ other ∈ items ++ [item], EndsVisibly other := by
            simpa [or_imp, forall_and] using ⟨visible, here⟩
          have later := ih all grown fit.tail
          simpa [itemsHere, itemsBelow, perform] using later

def ofCalls (calls : List Call) : Output :=
  calls.foldl perform {}

theorem lines_ofCalls {calls : List Call} (fit : VisibleItems calls) :
    (ofCalls calls).lines = (itemLines calls).map spaced := by
  cases calls with
  | nil => rfl
  | cons call rest =>
      cases call with
      | newLine =>
          have started : (({} : Output).newLine).lines = [] ++ [spaced []] := rfl
          exact lines_foldl (by simp) started fit.tail
      | write item =>
          have here : EndsVisibly item := fit item List.mem_cons_self
          have started : (({} : Output).write item).lines = [] ++ [spaced [item]] := by
            rw [spaced, List.intercalate_singleton]
            exact lines_write_of_empty rfl item
          exact lines_foldl (by simpa using here) started fit.tail

end Lines

section Rendering

variable {output : Output}

def Trimmed (output : Output) : Prop :=
  ∀ line ∈ output.lines, Text.trimEnd line = line

theorem Trimmed.newLine (trimmed : output.Trimmed) : output.newLine.Trimmed := by
  intro line member
  rw [lines_newLine] at member
  rcases List.mem_append.mp member with old | new
  · exact trimmed line old
  · rw [List.mem_singleton.mp new]
    rfl

theorem Trimmed.write (trimmed : output.Trimmed) {item : Text} (visible : EndsVisibly item) :
    (output.write item).Trimmed := by
  intro line member
  rcases lines_write_cases output item with ⟨_, written⟩ | ⟨init, last, spelled, written⟩
  · rw [written] at member
    rw [List.mem_singleton.mp member, visible.trimEnd_eq]
  · rw [written] at member
    rcases List.mem_append.mp member with old | new
    · exact trimmed line (spelled ▸ List.mem_append_left [last] old)
    · rw [List.mem_singleton.mp new, (visible.append _).trimEnd_eq]

theorem Trimmed.foldl (trimmed : output.Trimmed) {calls : List Call} (fit : VisibleItems calls) :
    (calls.foldl perform output).Trimmed := by
  induction calls generalizing output with
  | nil => exact trimmed
  | cons call rest ih =>
      cases call with
      | newLine => exact ih trimmed.newLine fit.tail
      | write item => exact ih (trimmed.write (fit item List.mem_cons_self)) fit.tail

theorem Trimmed.render_eq (trimmed : output.Trimmed) :
    output.render = List.intercalate ['\n']
      (if output.lines.getLast? = some [] then output.lines.dropLast else output.lines) := by
  have kept : output.lines.map Text.trimEnd = output.lines :=
    (List.map_congr_left trimmed).trans (List.map_id _)
  simp only [render, kept, beq_iff_eq]

end Rendering

section Growth

theorem lines_perform (output : Output) (call : Call) :
    (∃ line, (output.perform call).lines = output.lines ++ [line]) ∨
      ∃ init last more, output.lines = init ++ [last] ∧
        (output.perform call).lines = init ++ [last ++ more] := by
  cases call with
  | newLine => exact .inl ⟨[], lines_newLine output⟩
  | write item =>
      rcases lines_write_cases output item with ⟨empty, written⟩ | ⟨init, last, spelled, written⟩
      · refine .inl ⟨item, ?_⟩
        rw [empty]
        exact written
      · obtain ⟨gap, room⟩ := exists_makeRoom last
        refine .inr ⟨init, last, gap ++ item, spelled, ?_⟩
        rw [← List.append_assoc, ← room]
        exact written

/-- Items that end visibly are laid out line by line: there is a line for each new line and
    one more if something is written before the first, each line has its items one space
    apart, and the lines are shown as they are, without an empty one at the end. Whatever
    the items are, a call adds a line or adds to the last one, and changes nothing else. -/
theorem lines_laid_out :
    (∀ calls, VisibleItems calls →
      (ofCalls calls).lines.length =
        calls.count .newLine + (if StartsWritten calls then 1 else 0) ∧
      (ofCalls calls).lines = (itemLines calls).map spaced ∧
      (ofCalls calls).render = List.intercalate ['\n']
        (if (ofCalls calls).lines.getLast? = some [] then (ofCalls calls).lines.dropLast
        else (ofCalls calls).lines)) ∧
    ∀ (output : Output) (call : Call),
      (∃ line, (output.perform call).lines = output.lines ++ [line]) ∨
        ∃ init last more, output.lines = init ++ [last] ∧
          (output.perform call).lines = init ++ [last ++ more] := by
  refine ⟨?_, lines_perform⟩
  intro calls fit
  have laid := lines_ofCalls fit
  have trimmed : (ofCalls calls).Trimmed := Trimmed.foldl (by simp [Trimmed, lines]) fit
  refine ⟨?_, laid, trimmed.render_eq⟩
  rw [laid, List.length_map, length_itemLines]

-- The second item starts with a space, and nothing is written on the second and last line.
theorem lines_laid_out_gaps :
    VisibleItems [.write "a".toList, .write " b".toList, .newLine, .newLine,
        .write "c".toList, .newLine] ∧
      (ofCalls [.write "a".toList, .write " b".toList, .newLine, .newLine,
        .write "c".toList, .newLine]).lines = ["a  b".toList, [], "c".toList, []] ∧
      (ofCalls [.write "a".toList, .write " b".toList, .newLine, .newLine,
        .write "c".toList, .newLine]).render = "a  b\n\nc".toList := by
  have fit : VisibleItems [.write "a".toList, .write " b".toList, .newLine, .newLine,
      .write "c".toList, .newLine] := by
    intro item member
    simp only [List.mem_cons, Call.write.injEq, reduceCtorEq, false_or, or_false,
      List.not_mem_nil] at member
    rcases member with rfl | rfl | rfl
    · exact ⟨[], 'a', rfl, by decide⟩
    · exact ⟨[' '], 'b', rfl, by decide⟩
    · exact ⟨[], 'c', rfl, by decide⟩
  obtain ⟨_, laid, shown⟩ := lines_laid_out.1 _ fit
  rw [laid] at shown
  exact ⟨fit, laid, shown⟩

end Growth

end MiniAbap.Output
