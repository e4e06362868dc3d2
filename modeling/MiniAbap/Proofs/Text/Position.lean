import MiniAbap.Proofs.Text.Literal
import MiniAbap.Proofs.Text.Occurrence

/-!
Where a keyword stands in a text, by byte offsets of its UTF-8 form. The scan for
occurrences passes over the text once, and finds the keyword exactly where it is a whole
word outside literals. Both ends of it lie between characters, so that cutting the text
there never cuts through one.
-/

namespace MiniAbap.Text

variable {keyword passed text before found after : Text} {offset : Nat}

section Bytes

/-- The offset lies between two characters of the text or at an end of it, and the bytes
    before it are those of `before`. -/
structure CutAt (text : Text) (offset : Nat) (before after : Text) : Prop where
  whole : text = before ++ after
  bytes : byteLength before = offset

def IsBoundary (text : Text) (offset : Nat) : Prop :=
  String.Pos.Raw.IsValid (String.ofList text) ⟨offset⟩

theorem byteLength_append (first second : Text) :
    byteLength (first ++ second) = byteLength first + byteLength second := by
  induction first with
  | nil => simp [byteLength]
  | cons c first ih => rw [List.cons_append, byteLength, byteLength, ih, Nat.add_assoc]

theorem byteLength_eq_zero_iff : byteLength text = 0 ↔ text = [] := by
  cases text with
  | nil => simp [byteLength]
  | cons c rest => simp [byteLength, (Char.utf8Size_pos c).ne']

theorem byteLength_eq_utf8ByteSize (text : Text) :
    byteLength text = (String.ofList text).utf8ByteSize := by
  induction text with
  | nil => rfl
  | cons c rest ih =>
      rw [byteLength, ih, String.ofList_cons]
      simp

theorem CutAt.isBoundary (cut : CutAt text offset before after) : IsBoundary text offset := by
  apply String.Pos.Raw.isValid_iff_exists_append.mpr
  refine ⟨String.ofList before, String.ofList after, ?_, ?_⟩
  · rw [cut.whole, String.ofList_append]
  · rw [← cut.bytes, byteLength_eq_utf8ByteSize]
    rfl

end Bytes

section Exactness

/-- The keyword stands at the offset, in any case, as a whole word outside literals. -/
structure StandsAt (keyword text : Text) (offset : Nat) (before found after : Text) :
    Prop where
  start : CutAt text offset before (found ++ after)
  stop : CutAt text (offset + byteLength keyword) (before ++ found) after
  outside : Closed before
  spelled : sameWord found keyword = true
  wordStarts : ∀ c ∈ before.getLast?, isNameChar c = false
  wordEnds : ∀ c ∈ after.head?, isNameChar c = false

theorem endsWord_iff : endsWord text = true ↔ ∀ c ∈ text.head?, isNameChar c = false := by
  simp only [endsWord]
  cases text.head? <;> simp

theorem byteLength_of_sameWord (known : IsWord keyword)
    (spelled : sameWord found keyword = true) : byteLength found = byteLength keyword := by
  have solid := known.of_sameWord spelled
  rw [byteLength_of_isNameChar solid.letters, byteLength_of_isNameChar known.letters,
    length_eq (beq_iff_eq.mp spelled)]

theorem Occurrence.Divides.standsAt {occurrence : Occurrence} (known : IsWord keyword)
    (divides : occurrence.Divides keyword text) :
    StandsAt keyword text occurrence.offset occurrence.before occurrence.found
      occurrence.after where
  start := ⟨divides.whole, rfl⟩
  stop := by
    constructor
    · rw [List.append_assoc]
      exact divides.whole
    · rw [byteLength_append, byteLength_of_sameWord known divides.spelled]
      rfl
  outside := closed_iff.mpr divides.closed
  spelled := divides.spelled
  wordStarts := by
    rw [← List.head?_reverse]
    exact endsWord_iff.mp divides.starts
  wordEnds := endsWord_iff.mp divides.ends

theorem mem_occurrencesFrom_cons {quote : Option Char} {c : Char} {rest : Text}
    {occurrence : Occurrence}
    (later : occurrence ∈ occurrencesFrom keyword (c :: passed) (advance quote c) rest) :
    occurrence ∈ occurrencesFrom keyword passed quote (c :: rest) := by
  rw [occurrencesFrom]
  split
  · split
    · exact List.mem_cons_of_mem _ later
    · exact later
  · exact later

/-- A keyword that lies ahead is found when the scan gets there. -/
theorem Occurrence.Ahead.mem {quote : Option Char} {middle : Text} {occurrence : Occurrence}
    (known : IsWord keyword) (ahead : occurrence.Ahead keyword passed quote text middle) :
    occurrence ∈ occurrencesFrom keyword passed quote text := by
  induction middle generalizing passed quote text with
  | nil =>
      obtain ⟨before, found, after⟩ := occurrence
      obtain ⟨rfl, rfl, rfl, starts, spelled, ends⟩ := ahead
      have solid := known.of_sameWord spelled
      have matched : matchWord keyword (found ++ after) = some (found, after) := by
        rw [matchWord_eq known, solid.takeWhile_append ends, solid.dropWhile_append ends,
          if_pos spelled]
      obtain ⟨c, more, rfl⟩ := List.exists_cons_of_ne_nil solid.nonempty
      have here : ((none : Option Char).isNone && !isQuote c && endsWord passed) = true := by
        have plain := solid.plain c List.mem_cons_self
        simpa [plain] using starts
      rw [List.cons_append] at matched
      rw [List.nil_append, List.cons_append, occurrencesFrom]
      simp only [here, matched, if_true, List.append_nil]
      exact List.mem_cons_self
  | cons c middle ih =>
      obtain ⟨rfl, earlier, closed, starts, spelled, ends⟩ := ahead
      apply mem_occurrencesFrom_cons
      apply ih
      refine ⟨rfl, ?_, closed, ?_, spelled, ends⟩
      · simpa using earlier
      · simpa using starts

theorem StandsAt.mem (known : IsWord keyword)
    (stands : StandsAt keyword text offset before found after) :
    ⟨before, found, after⟩ ∈ occurrences keyword text := by
  have starts : endsWord (before.reverse ++ []) = true := by
    rw [List.append_nil, endsWord_iff, List.head?_reverse]
    exact stands.wordStarts
  have ahead : Occurrence.Ahead keyword [] none text before ⟨before, found, after⟩ :=
    ⟨stands.start.whole, rfl, stands.outside.advanceAll_eq, starts, stands.spelled,
      endsWord_iff.mpr stands.wordEnds⟩
  exact ahead.mem known

theorem byteLength_lt_offset {quote : Option Char} {c : Char} {occurrence : Occurrence}
    (later : occurrence ∈ occurrencesFrom keyword (c :: passed) quote text) :
    byteLength passed.reverse < occurrence.offset := by
  obtain ⟨middle, ahead⟩ := exists_ahead_of_mem later
  have positive := Char.utf8Size_pos c
  rw [Occurrence.offset, ahead.before, List.reverse_cons, byteLength_append, byteLength_append,
    byteLength, byteLength]
  omega

theorem pairwise_occurrencesFrom (keyword passed : Text) (quote : Option Char) (text : Text) :
    (occurrencesFrom keyword passed quote text).Pairwise fun first second =>
      first.offset < second.offset := by
  induction text generalizing passed quote with
  | nil => exact .nil
  | cons c rest ih =>
      have others := ih (c :: passed) (advance quote c)
      rw [occurrencesFrom]
      split
      · split
        · exact .cons (fun later member => byteLength_lt_offset member) others
        · exact others
      · exact others

def positions (keyword text : Text) : List Nat :=
  (occurrences keyword text).map Occurrence.offset

theorem pairwise_positions (keyword text : Text) :
    (positions keyword text).Pairwise (· < ·) :=
  List.pairwise_map.mpr (pairwise_occurrencesFrom keyword [] none text)

theorem mem_positions_iff (known : IsWord keyword) :
    offset ∈ positions keyword text ↔
      ∃ before found after, StandsAt keyword text offset before found after := by
  constructor
  · intro listed
    obtain ⟨occurrence, member, rfl⟩ := List.mem_map.mp listed
    exact ⟨_, _, _, (divides_of_mem_occurrences member).standsAt known⟩
  · rintro ⟨before, found, after, stands⟩
    exact List.mem_map.mpr ⟨_, stands.mem known, stands.start.bytes⟩

end Exactness

section Slices

def HalvesAt (keyword text : Text) (offset : Nat) (halves : Text × Text) : Prop :=
  ∃ before rest first after, CutAt text offset before rest ∧
    CutAt text (offset + byteLength keyword) first after ∧ halves = (trim before, trim after)

def StemAt (text : Text) (offset : Nat) (stem : Text) : Prop :=
  ∃ before rest, CutAt text offset before rest ∧ stem = trimEnd before

theorem halvesAt_of_mem (known : IsWord keyword) {occurrence : Occurrence}
    (member : occurrence ∈ occurrences keyword text) :
    HalvesAt keyword text occurrence.offset occurrence.halves := by
  have stands := (divides_of_mem_occurrences member).standsAt known
  exact ⟨_, _, _, _, stands.start, stands.stop, rfl⟩

theorem rel_halves {related : Nat → Text × Text → Prop} {chosen : Option Occurrence}
    (fits : ∀ occurrence ∈ chosen, related occurrence.offset occurrence.halves) :
    Option.Rel related (chosen.map Occurrence.offset) (chosen.map Occurrence.halves) := by
  cases chosen with
  | none => exact .none
  | some occurrence => exact .some (fits occurrence rfl)

theorem splitAtFirst_halves (known : IsWord keyword) (text : Text) :
    Option.Rel (HalvesAt keyword text) (positions keyword text).head?
      (splitAtFirst keyword text) := by
  rw [positions, List.head?_map]
  exact rel_halves fun occurrence first => halvesAt_of_mem known (List.mem_of_head? first)

theorem splitAtLast_halves (known : IsWord keyword) (text : Text) :
    Option.Rel (HalvesAt keyword text) (positions keyword text).getLast?
      (splitAtLast keyword text) := by
  rw [positions, List.getLast?_map]
  exact rel_halves fun occurrence last => halvesAt_of_mem known (List.mem_of_getLast? last)

theorem stripTrailing_stem (known : IsWord keyword) (text : Text) :
    Option.Rel (StemAt (trimEnd text))
      ((positions keyword (trimEnd text)).getLast?.filter fun offset =>
        offset + byteLength keyword = byteLength (trimEnd text))
      (stripTrailing keyword text) := by
  rw [positions, List.getLast?_map, stripTrailing]
  cases last : (occurrences keyword (trimEnd text)).getLast? with
  | none => exact .none
  | some occurrence =>
      have member := List.mem_of_getLast? last
      have stands := (divides_of_mem_occurrences member).standsAt known
      have total := congrArg byteLength stands.stop.whole
      rw [byteLength_append, stands.stop.bytes] at total
      by_cases ends : occurrence.after = []
      · have here : occurrence.offset + byteLength keyword = byteLength (trimEnd text) := by
          rw [total, ends]
          rfl
        simp only [Option.map_some, Option.filter_some, here, ends, decide_true, if_true,
          List.isEmpty_nil]
        exact .some ⟨_, _, stands.start, rfl⟩
      · have short : occurrence.offset + byteLength keyword ≠ byteLength (trimEnd text) := by
          have more := mt byteLength_eq_zero_iff.mp ends
          omega
        have filled : occurrence.after.isEmpty = false := List.isEmpty_eq_false_iff.mpr ends
        simp only [Option.map_some, Option.filter_some, short, filled, decide_false]
        exact .none

/-- A keyword is found exactly where it stands, from left to right, and no cut at either end
    of it falls inside a character. -/
theorem positions_exact (filled : keyword ≠ []) (letters : ∀ c ∈ keyword, c.isAlpha = true)
    (text : Text) :
    (positions keyword text).Pairwise (· < ·) ∧
    (∀ offset, offset ∈ positions keyword text ↔
      ∃ before found after, StandsAt keyword text offset before found after) ∧
    (∀ offset ∈ positions keyword text,
      IsBoundary text offset ∧ IsBoundary text (offset + byteLength keyword)) ∧
    Option.Rel (HalvesAt keyword text) (positions keyword text).head?
      (splitAtFirst keyword text) ∧
    Option.Rel (HalvesAt keyword text) (positions keyword text).getLast?
      (splitAtLast keyword text) ∧
    Option.Rel (StemAt (trimEnd text))
      ((positions keyword (trimEnd text)).getLast?.filter fun offset =>
        offset + byteLength keyword = byteLength (trimEnd text))
      (stripTrailing keyword text) := by
  have known : IsWord keyword :=
    ⟨filled, fun c member => by simp [isNameChar, Char.isAlphanum, letters c member]⟩
  refine ⟨pairwise_positions keyword text, fun offset => mem_positions_iff known, ?_,
    splitAtFirst_halves known text, splitAtLast_halves known text,
    stripTrailing_stem known text⟩
  intro offset listed
  obtain ⟨before, found, after, stands⟩ := (mem_positions_iff known).mp listed
  exact ⟨stands.start.isBoundary, stands.stop.isBoundary⟩

-- A letter outside the alphabet of names ends a word, and so does a quote on either side.
theorem positions_exact_accents :
    positions "to".toList "é'to'TO ñto to`to".toList = [6, 11, 14] ∧
      (∃ before found after,
        StandsAt "to".toList "é'to'TO ñto to`to".toList 11 before found after) ∧
      IsBoundary "é'to'TO ñto to`to".toList 11 ∧ IsBoundary "é'to'TO ñto to`to".toList 13 := by
  have found : positions "to".toList "é'to'TO ñto to`to".toList = [6, 11, 14] := by
    decide +kernel
  have listed : 11 ∈ positions "to".toList "é'to'TO ñto to`to".toList := by
    rw [found]
    decide
  have filled : "to".toList ≠ [] := by decide
  have letters : ∀ c ∈ "to".toList, c.isAlpha = true := by simp
  have width : byteLength "to".toList = 2 := by cbv
  obtain ⟨_, stands, bounds, _⟩ := positions_exact filled letters "é'to'TO ñto to`to".toList
  have ends := bounds 11 listed
  rw [width] at ends
  exact ⟨found, (stands 11).mp listed, ends⟩

end Slices

end MiniAbap.Text
