import MiniAbap.Proofs.Run.Typing
import MiniAbap.Proofs.Text.Word

/-!
What a text field makes of a value. The field sees only the text that the value is shown as,
and either stores that text in the form of its type or refuses it. What is stored has that
form already, so it is stored again as it is; assignments between fields of one type rest on
that. Digit fields can be declared longer than leading zeros can be filled up to, and such a
field takes no value at all: the first digits that it is given crash the program.
-/

namespace MiniAbap

theorem Text.Digits.byteLength_eq {text : Text} (decimal : text.Digits) :
    Text.byteLength text = text.length := by
  apply Text.byteLength_of_isNameChar
  intro c member
  have digit := List.all_eq_true.mp ((Text.isDigits_iff text).mpr decimal) c member
  simp [Text.isNameChar, Char.isAlphanum, digit]

-- One character repeated is known by its length.
theorem Text.eq_of_run {mark : Char} {one other : Text} (first : ∀ c ∈ one, c = mark)
    (second : ∀ c ∈ other, c = mark) (same : one.length = other.length) : one = other := by
  rw [List.eq_replicate_iff.mpr ⟨same, first⟩]
  exact (List.eq_replicate_iff.mpr ⟨rfl, second⟩).symm

namespace FieldType

variable {type : FieldType} {shown text other : Text} {fault : ValueFault}

/-- What a text field stores of a value that is shown as `shown`. -/
inductive Stores : FieldType → Text → Text → Prop where
  | string (shown : Text) : Stores .string shown shown
  | chars {length : Nat} {shown spaces : Text} (blank : ∀ c ∈ spaces, c = ' ')
      (exact : (shown.take length ++ spaces).length = length) :
      Stores (.chars length) shown (shown.take length ++ spaces)
  | digits {shown : Text} (decimal : shown.Digits) : Stores (.digits none) shown shown
  | filled {length : Nat} {shown zeros : Text} (decimal : shown.Digits)
      (zero : ∀ c ∈ zeros, c = '0') (exact : (zeros ++ shown).length = length) :
      Stores (.digits (some length)) shown (zeros ++ shown)
  | date {shown : Text} (decimal : shown.Digits) (exact : Text.byteLength shown = 8) :
      Stores .date shown shown

/-- Why a text field refuses a value that is shown as `shown`. Strings and texts of a fixed
    length refuse nothing. -/
inductive Refuses : FieldType → Text → ValueFault → Prop where
  | notDigits {length : Option Nat} {shown : Text} (other : ¬ shown.Digits) :
      Refuses (.digits length) shown .notDigits
  | tooLong {length : Nat} {shown : Text} (decimal : shown.Digits)
      (longer : length < Text.byteLength shown) :
      Refuses (.digits (some length)) shown (.tooLong length)
  | notDate {shown : Text} (other : ¬ (shown.Digits ∧ Text.byteLength shown = 8)) :
      Refuses .date shown .notDate

def Fillable : FieldType → Prop
  | .digits (some length) => length ≤ widestPadding
  | _ => True

section Decided

theorem Stores.unique (first : type.Stores shown text) (second : type.Stores shown other) :
    text = other := by
  cases first with
  | string | digits | date =>
      cases second
      rfl
  | @chars length _ spaces blank exact =>
      cases second with
      | @chars _ _ spaces' blank' exact' =>
          have same : spaces.length = spaces'.length := by
            simp only [List.length_append] at exact exact'
            omega
          rw [Text.eq_of_run blank blank' same]
  | @filled length _ zeros _ zero exact =>
      cases second with
      | @filled _ _ zeros' _ zero' exact' =>
          have same : zeros.length = zeros'.length := by
            simp only [List.length_append] at exact exact'
            omega
          rw [Text.eq_of_run zero zero' same]

theorem Stores.not_refuses (stores : type.Stores shown text) : ¬ type.Refuses shown fault := by
  intro refuses
  cases stores with
  | string | chars => cases refuses
  | digits decimal =>
      cases refuses with
      | notDigits other => exact other decimal
  | filled decimal _ exact =>
      cases refuses with
      | notDigits other => exact other decimal
      | tooLong _ longer =>
          rw [decimal.byteLength_eq] at longer
          rw [List.length_append] at exact
          omega
  | date decimal exact =>
      cases refuses with
      | notDate other => exact other ⟨decimal, exact⟩

theorem Refuses.unique {second : ValueFault} (one : type.Refuses shown fault)
    (next : type.Refuses shown second) : fault = second := by
  cases one with
  | notDigits other =>
      cases next with
      | notDigits => rfl
      | tooLong decimal => exact absurd decimal other
  | tooLong decimal =>
      cases next with
      | notDigits other => exact absurd decimal other
      | tooLong => rfl
  | notDate =>
      cases next
      rfl

end Decided

section Coercing

inductive Taken (type : FieldType) (shown : Text) : Except (Stop ValueFault) Content → Prop where
  | stored {text : Text} (stores : type.Stores shown text) : Taken type shown (.ok (.text text))
  | refused {fault : ValueFault} (refuses : type.Refuses shown fault) :
      Taken type shown (.error (.fault fault))

theorem taken_coerceDigits {length : Option Nat} (fillable : (digits length).Fillable)
    (shown : Text) : (digits length).Taken shown (coerceDigits length shown) := by
  unfold coerceDigits
  split
  · next decimal =>
      have decimal := (Text.isDigits_iff shown).mp decimal
      cases length with
      | none => exact .stored (.digits decimal)
      | some length =>
          have padded : ¬ widestPadding < length := Nat.not_lt.mpr fillable
          simp only [padded, if_false]
          split
          · next longer =>
              exact .refused (.tooLong decimal (by rwa [decimal.byteLength_eq]))
          · next short =>
              have zero : ∀ c ∈ List.replicate (length - shown.length) '0', c = '0' :=
                fun c member => List.eq_of_mem_replicate member
              refine .stored (.filled decimal zero ?_)
              rw [List.length_append, List.length_replicate]
              omega
  · next other =>
      rw [Text.isDigits_iff] at other
      exact .refused (.notDigits other)

theorem taken_coerce (textual : type.isNumeric = false) (fillable : type.Fillable)
    (value : Value) : type.Taken value.display (type.coerce value) := by
  cases type with
  | integer | float | packed => cases textual
  | string => exact .stored (.string value.display)
  | chars length =>
      have blank : ∀ c ∈ List.replicate (length - (value.display.take length).length) ' ',
          c = ' ' := fun c member => List.eq_of_mem_replicate member
      refine .stored (.chars blank ?_)
      rw [List.length_append, List.length_replicate, List.length_take]
      omega
  | digits length => exact taken_coerceDigits fillable value.display
  | date =>
      simp only [coerce]
      split
      · next shaped =>
          rw [Bool.and_eq_true, decide_eq_true_eq, Text.isDigits_iff] at shaped
          exact .stored (.date shaped.2 (shaped.2.byteLength_eq.trans shaped.1))
      · next other =>
          rw [Bool.and_eq_true, decide_eq_true_eq, Text.isDigits_iff] at other
          refine .refused (.notDate ?_)
          rintro ⟨decimal, exact⟩
          exact other ⟨decimal.byteLength_eq.symm.trans exact, decimal⟩

theorem Taken.unique {one next : Except (Stop ValueFault) Content} (first : type.Taken shown one)
    (second : type.Taken shown next) : one = next := by
  cases first with
  | stored stores =>
      cases second with
      | stored others => rw [stores.unique others]
      | refused refuses => exact absurd refuses stores.not_refuses
  | refused refuses =>
      cases second with
      | stored stores => exact absurd refuses stores.not_refuses
      | refused others => rw [refuses.unique others]

theorem coerce_eq_iff (textual : type.isNumeric = false) (fillable : type.Fillable)
    (value : Value) (result : Except (Stop ValueFault) Content) :
    type.coerce value = result ↔ type.Taken value.display result := by
  have taken := taken_coerce textual fillable value
  constructor
  · rintro rfl
    exact taken
  · exact taken.unique

theorem coerce_eq_ok_iff (textual : type.isNumeric = false) (fillable : type.Fillable)
    (value : Value) (content : Content) :
    type.coerce value = .ok content ↔
      ∃ text, content = .text text ∧ type.Stores value.display text := by
  rw [coerce_eq_iff textual fillable]
  constructor
  · intro taken
    cases taken with
    | stored stores => exact ⟨_, rfl, stores⟩
  · rintro ⟨text, rfl, stores⟩
    exact .stored stores

theorem coerce_eq_error_iff (textual : type.isNumeric = false) (fillable : type.Fillable)
    (value : Value) (stop : Stop ValueFault) :
    type.coerce value = .error stop ↔
      ∃ fault, stop = .fault fault ∧ type.Refuses value.display fault := by
  rw [coerce_eq_iff textual fillable]
  constructor
  · intro taken
    cases taken with
    | refused refuses => exact ⟨_, rfl, refuses⟩
  · rintro ⟨fault, rfl, refuses⟩
    exact .refused refuses

end Coercing

section Stable

theorem exists_text_of_holds {content : Content} (textual : type.isNumeric = false)
    (holds : type.Holds content) : ∃ text, content = .text text := by
  cases content with
  | text text => exact ⟨text, rfl⟩
  | number x =>
      cases type with
      | integer | float | packed => cases textual
      | string | chars | date => cases holds
      | digits length => cases length <;> cases holds

-- Content of the type's form needs neither cutting nor filling.
theorem stores_self (textual : type.isNumeric = false) (holds : type.Holds (.text text)) :
    type.Stores text text := by
  have nothing (mark : Char) : ∀ c ∈ ([] : Text), c = mark := nofun
  cases type with
  | integer | float | packed => cases textual
  | string => exact .string text
  | chars length =>
      have whole : text.take length = text := List.take_of_length_le (Nat.le_of_eq holds)
      have kept : (chars length).Stores text (text.take length ++ []) :=
        .chars (nothing ' ') (by rw [List.append_nil, whole]; exact holds)
      rwa [List.append_nil, whole] at kept
  | digits length =>
      cases length with
      | none => exact .digits holds
      | some length => exact .filled holds.2 (nothing '0') holds.1
  | date => exact .date holds.2 (holds.2.byteLength_eq.trans holds.1)

/-- A field that is given what it may hold takes it unchanged. -/
theorem coerce_of_holds {content : Content} (textual : type.isNumeric = false)
    (fillable : type.Fillable) (holds : type.Holds content) :
    type.coerce (.ofContent content) = .ok content := by
  obtain ⟨text, rfl⟩ := exists_text_of_holds textual holds
  exact (coerce_eq_ok_iff textual fillable _ _).mpr ⟨text, rfl, stores_self textual holds⟩

/-- A text field stores the text that a value is shown as in the form of its type, or refuses
    it for the one reason that applies. What it stores, and what it holds at first, it takes
    again unchanged. -/
theorem coerce_text_canonical (type : FieldType) (textual : type.isNumeric = false)
    (fillable : type.Fillable) :
    (∀ value content, type.coerce value = .ok content ↔
      ∃ text, content = .text text ∧ type.Stores value.display text) ∧
    (∀ value content, type.coerce value = .ok content →
      type.coerce (.ofContent content) = .ok content) ∧
    (∃ text, type.initial = .text text) ∧
    type.coerce (.ofContent type.initial) = .ok type.initial ∧
    (∀ value stop, type.coerce value = .error stop ↔
      ∃ fault, stop = .fault fault ∧ type.Refuses value.display fault) ∧
    (type = .string ∨ (∃ length, type = .chars length) →
      ∀ value, ∃ content, type.coerce value = .ok content) := by
  refine ⟨coerce_eq_ok_iff textual fillable, ?_, exists_text_of_holds textual type.initial_holds,
    coerce_of_holds textual fillable type.initial_holds, coerce_eq_error_iff textual fillable, ?_⟩
  · intro value content coerced
    exact coerce_of_holds textual fillable (coerce_holds coerced)
  · intro unrefusing value
    cases result : type.coerce value with
    | ok content => exact ⟨content, rfl⟩
    | error stop =>
        obtain ⟨fault, _, refuses⟩ := (coerce_eq_error_iff textual fillable value stop).mp result
        rcases unrefusing with rfl | ⟨length, rfl⟩ <;> cases refuses

-- Characters and not bytes are counted for a text of a fixed length; a truth value is shown
-- by a word, which digits refuse.
theorem coerce_text_canonical_fields :
    ((chars 3).coerce (.text "é".toList) = .ok (.text "é  ".toList) ∧
      (chars 3).coerce (.text "é  ".toList) = .ok (.text "é  ".toList)) ∧
    ((digits (some 5)).Fillable ∧
      (digits (some 5)).coerce (.text "42".toList) = .ok (.text "00042".toList) ∧
      (digits (some 5)).coerce (.text "00042".toList) = .ok (.text "00042".toList) ∧
      (digits (some 5)).Refuses (Value.truth true).display .notDigits) := by
  have narrow : (digits (some 5)).Fillable := (by decide : 5 ≤ widestPadding)
  have cut : (chars 3).coerce (.text "é".toList) = .ok (.text "é  ".toList) := rfl
  have zeros : (digits (some 5)).coerce (.text "42".toList) = .ok (.text "00042".toList) := rfl
  have word : (digits (some 5)).coerce (.truth true) = .error (.fault .notDigits) := rfl
  obtain ⟨_, same, refuses⟩ := ((coerce_text_canonical _ rfl narrow).2.2.2.2.1 _ _).mp word
  cases same
  exact ⟨⟨cut, (coerce_text_canonical (chars 3) rfl trivial).2.1 _ _ cut⟩,
    narrow, zeros, (coerce_text_canonical _ rfl narrow).2.1 _ _ zeros, refuses⟩

end Stable

section Filling

theorem ofName_digits {length : Nat} (positive : 1 ≤ length) (within : length ≤ longestField) :
    FieldType.ofName .n (some length) none = .ok (.digits (some length)) := by
  have some : length ≠ 0 := by omega
  have small : ¬ longestField < length := Nat.not_lt.mpr within
  simp [FieldType.ofName, some, small, TypeName.takesLength]

theorem declarable_iff (length : Nat) :
    (∃ clause, DataType.ofClause clause = .ok (.field (.digits (some length)))) ↔
      1 ≤ length ∧ length ≤ longestField := by
  constructor
  · rintro ⟨clause, described⟩
    exact (DataType.ofClause_valid described).length_range length rfl
  · rintro ⟨positive, within⟩
    have named : TypeName.ofText? ['n'] = some .n := by decide +kernel
    refine ⟨.field ['n'] (some length) none, ?_⟩
    simp only [DataType.ofClause, named, ofName_digits positive within, Except.map]

/-- Of the digit fields that can be declared, exactly those up to the widest padding can be
    filled: digits that fit are stored behind as many zeros as are missing. Any digits that
    a longer field is given crash the program. -/
theorem digits_filled_iff (length : Nat) (value : Value) (decimal : value.display.Digits)
    (fits : value.display.length ≤ length) :
    ((∃ clause, DataType.ofClause clause = .ok (.field (.digits (some length)))) ↔
      1 ≤ length ∧ length ≤ longestField) ∧
    ((digits (some length)).coerce value =
        .ok (.text (List.replicate (length - value.display.length) '0' ++ value.display)) ↔
      length ≤ widestPadding) ∧
    (widestPadding < length → (digits (some length)).coerce value = .error .crash) := by
  have shaped : Text.isDigits value.display = true := (Text.isDigits_iff _).mpr decimal
  have short : ¬ length < value.display.length := Nat.not_lt.mpr fits
  have coerced : (digits (some length)).coerce value =
      if widestPadding < length then .error .crash
      else .ok (.text (List.replicate (length - value.display.length) '0' ++ value.display)) := by
    simp [coerce, coerceDigits, shaped, short]
  refine ⟨declarable_iff length, ?_, ?_⟩
  · rw [coerced, ← Nat.not_lt]
    split
    · next wide => simp [wide]
    · next narrow => simp [narrow]
  · intro wide
    rw [coerced, if_pos wide]

theorem digits_filled_iff_widest :
    (∃ clause, DataType.ofClause clause = .ok (.field (.digits (some 65535)))) ∧
    (digits (some 65535)).coerce (.text "7".toList) =
      .ok (.text (List.replicate 65534 '0' ++ "7".toList)) := by
  have filled := digits_filled_iff 65535 (.text "7".toList)
    ((Text.isDigits_iff _).mp rfl) (by decide)
  exact ⟨filled.1.mpr (by decide), filled.2.1.mpr (by decide)⟩

/-- A digit field that is declared one digit longer cannot store a single digit. -/
theorem digits_declared_unfilled :
    (∃ clause, DataType.ofClause clause = .ok (.field (.digits (some 65536)))) ∧
    (Value.text "1".toList).display.Digits ∧ (Value.text "1".toList).display.length ≤ 65536 ∧
    (digits (some 65536)).coerce (.text "1".toList) = .error .crash ∧
    (digits (some 65536)).coerce (.text "1".toList) ≠
      .ok (.text (List.replicate 65535 '0' ++ "1".toList)) := by
  have declared := (declarable_iff 65536).mpr (by decide)
  have coerced : (digits (some 65536)).coerce (.text "1".toList) = .error .crash := rfl
  refine ⟨declared, (Text.isDigits_iff _).mp rfl, by decide, coerced, ?_⟩
  rw [coerced]
  nofun

end Filling

end FieldType

end MiniAbap
