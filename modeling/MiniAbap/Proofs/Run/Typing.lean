import MiniAbap.Proofs.Number.Finite
import MiniAbap.Proofs.Run.Trace

/-!
Every variable holds what its type says, in every state that a run passes. The
types say it once, in `FieldType.Holds`; taking a value and starting anew give
such content whatever the value is, and no change writes any other.
-/

namespace MiniAbap

def Text.Digits (text : Text) : Prop :=
  ∀ c ∈ text, '0' ≤ c ∧ c ≤ '9'

namespace FieldType

def length? : FieldType → Option Nat
  | .packed length _ => length
  | .chars length => some length
  | .digits length => length
  | .integer | .float | .string | .date => none

structure Valid (type : FieldType) : Prop where
  length_range : ∀ length, type.length? = some length → 1 ≤ length ∧ length ≤ longestField
  decimals_le : ∀ length decimals, type = .packed (some length) (some decimals) →
    decimals ≤ length

def Holds : FieldType → Content → Prop
  | .integer, .number x => x.isFinite ∧ ∃ y : Float, y.isFinite ∧ x = Number.truncate y
  | .float, .number x => x.isFinite
  | .packed _ _, .number x => x.isFinite
  | .string, .text _ => True
  | .chars length, .text text => text.length = length
  | .digits none, .text text => text.Digits
  | .digits (some length), .text text => text.length = length ∧ text.Digits
  | .date, .text text => text.length = 8 ∧ text.Digits
  | _, _ => False

end FieldType

def DataType.Valid : DataType → Prop
  | .field type => type.Valid
  | .table _ => True

def Variable.WellTyped : Variable → Prop
  | .field type content => type.Valid ∧ type.Holds content
  | .table type rows => ∀ row ∈ rows.toList, type.fieldType.Holds row

def Environment.WellTyped (env : Environment) : Prop :=
  ∀ entry ∈ env.entries, entry.2.WellTyped

section Contents

theorem Text.isDigits_iff (text : Text) : Text.isDigits text = true ↔ text.Digits := by
  simp only [Text.isDigits, Text.Digits, List.all_eq_true, Char.isDigit, Bool.and_eq_true,
    decide_eq_true_eq]
  exact Iff.rfl

theorem Text.digits_zeros (count : Nat) : Text.Digits (List.replicate count '0') := by
  intro c member
  rw [List.eq_of_mem_replicate member]
  decide

theorem Value.isFinite_of_numeric? {value : Value} {x : Float}
    (read : value.numeric? = some x) : x.isFinite = true :=
  (Option.filter_eq_some_iff.mp read).2

namespace FieldType

theorem coerceNumber_eq_ok {value : Value} {shape : Float → Float} {content : Content}
    (coerced : coerceNumber value shape = .ok content) :
    ∃ x : Float, x.isFinite = true ∧ content = .number (shape x) := by
  simp only [coerceNumber] at coerced
  split at coerced
  · next x read =>
      cases coerced
      exact ⟨x, Value.isFinite_of_numeric? read, rfl⟩
  · cases coerced

theorem coerceDigits_holds {length : Option Nat} {text : Text} {content : Content}
    (coerced : coerceDigits length text = .ok content) : (digits length).Holds content := by
  simp only [coerceDigits] at coerced
  split at coerced
  · next digits =>
      have digits := (Text.isDigits_iff text).mp digits
      split at coerced
      · cases coerced
        exact digits
      · next length =>
          split at coerced
          · cases coerced
          · split at coerced
            · cases coerced
            · cases coerced
              refine ⟨?_, List.forall_mem_append.mpr ⟨Text.digits_zeros _, digits⟩⟩
              rw [List.length_append, List.length_replicate]
              omega
  · cases coerced

-- Whatever the value, a field takes only content of its type.
theorem coerce_holds {type : FieldType} {value : Value} {content : Content}
    (coerced : type.coerce value = .ok content) : type.Holds content := by
  cases type with
  | integer =>
      obtain ⟨x, finite, rfl⟩ := coerceNumber_eq_ok coerced
      exact ⟨Number.isFinite_truncate x finite, x, finite, rfl⟩
  | float =>
      obtain ⟨x, finite, rfl⟩ := coerceNumber_eq_ok coerced
      exact finite
  | packed length decimals =>
      obtain ⟨x, finite, rfl⟩ := coerceNumber_eq_ok coerced
      cases decimals with
      | none => exact finite
      | some decimals => exact Number.isFinite_roundToDecimals x decimals finite
  | string =>
      cases coerced
      trivial
  | chars length =>
      cases coerced
      simp only [Holds, List.length_append, List.length_replicate, List.length_take]
      omega
  | digits length => exact coerceDigits_holds coerced
  | date =>
      simp only [coerce] at coerced
      split at coerced
      · next shaped =>
          cases coerced
          rw [Bool.and_eq_true, decide_eq_true_eq, Text.isDigits_iff] at shaped
          exact shaped
      · cases coerced

theorem initial_holds (type : FieldType) : type.Holds type.initial := by
  cases type with
  | integer =>
      have finite : (0 : Float).isFinite = true := by decide
      exact ⟨finite, 0, finite, Number.truncate_zero.symm⟩
  | float => exact (by decide : (0 : Float).isFinite = true)
  | packed => exact (by decide : (0 : Float).isFinite = true)
  | string => trivial
  | chars length => exact List.length_replicate
  | digits length =>
      cases length with
      | none => exact Text.digits_zeros 1
      | some length => exact ⟨List.length_replicate, Text.digits_zeros length⟩
  | date => exact ⟨List.length_replicate, Text.digits_zeros 8⟩

end FieldType

end Contents

section Types

theorem FieldType.length_range_of_ofName {name : TypeName} {length decimals : Option Nat}
    {type : FieldType} (described : FieldType.ofName name length decimals = .ok type) :
    ∀ given, length = some given → 1 ≤ given ∧ given ≤ longestField := by
  rintro given rfl
  rcases Nat.eq_zero_or_pos given with rfl | positive
  · simp [FieldType.ofName] at described
  · rcases Nat.lt_or_ge longestField given with large | within
    · simp [FieldType.ofName, Nat.ne_of_gt positive, large] at described
    · exact ⟨positive, within⟩

theorem FieldType.ofName_valid {name : TypeName} {length decimals : Option Nat}
    {type : FieldType} (described : FieldType.ofName name length decimals = .ok type) :
    type.Valid := by
  have range := length_range_of_ofName described
  revert described
  fun_cases FieldType.ofName name length decimals with
  | case1 | case2 | case3 | case4 => simp
  | case5 | case6 | case9 | case12 =>
      rintro ⟨⟩
      exact ⟨by simp [FieldType.length?], by simp⟩
  | case7 => simp
  | case8 _ _ related =>
      rintro ⟨⟩
      refine ⟨range, ?_⟩
      rintro whole places ⟨⟩
      simpa using related
  | case10 =>
      -- Text without a length has the length one.
      rintro ⟨⟩
      refine ⟨?_, by simp⟩
      intro given same
      cases length with
      | none =>
          cases same
          decide
      | some length => exact range given same
  | case11 =>
      rintro ⟨⟩
      exact ⟨range, by simp⟩

theorem DataType.ofClause_valid {clause : TypeClause} {type : DataType}
    (described : DataType.ofClause clause = .ok type) : type.Valid := by
  revert described
  fun_cases DataType.ofClause clause with
  | case1 =>
      rintro ⟨⟩
      trivial
  | case2 | case4 => simp
  | case3 typeName length decimals name _ =>
      intro described
      obtain ⟨found, named, rfl⟩ := Environment.map_eq_ok.mp described
      exact FieldType.ofName_valid named

end Types

section Variables

theorem Variable.WellTyped.type_valid {found : Variable} (typed : found.WellTyped) :
    found.type.Valid := by
  cases found with
  | field type content => exact typed.1
  | table type rows => trivial

theorem Variable.initial_wellTyped {type : DataType} (valid : type.Valid) :
    (Variable.initial type).WellTyped := by
  cases type with
  | field fieldType => exact ⟨valid, fieldType.initial_holds⟩
  | table rowType =>
      intro row member
      cases member

namespace Environment

theorem mem_of_find? {key : Text} {entries : List (Text × Variable)} {found : Variable}
    (looked : find? key entries = some found) : ∃ name, (name, found) ∈ entries := by
  induction entries with
  | nil => cases looked
  | cons entry rest ih =>
      simp only [find?] at looked
      split at looked
      · cases looked
        exact ⟨entry.1, List.mem_cons_self⟩
      · obtain ⟨name, member⟩ := ih looked
        exact ⟨name, List.mem_cons_of_mem _ member⟩

theorem mem_put {key : Text} {new : Variable} {entries : List (Text × Variable)}
    {entry : Text × Variable} (member : entry ∈ put key new entries) :
    entry.2 = new ∨ entry ∈ entries := by
  induction entries with
  | nil =>
      rw [List.mem_singleton.mp member]
      exact .inl rfl
  | cons first rest ih =>
      simp only [put] at member
      split at member
      · rcases List.mem_cons.mp member with rfl | later
        · exact .inl rfl
        · exact .inr (List.mem_cons_of_mem _ later)
      · rcases List.mem_cons.mp member with rfl | later
        · exact .inr List.mem_cons_self
        · exact (ih later).imp_right (List.mem_cons_of_mem _)

namespace WellTyped

variable {env : Environment}

theorem get? (typed : env.WellTyped) {name : Text} {found : Variable}
    (looked : env.get? name = some found) : found.WellTyped := by
  obtain ⟨key, member⟩ := mem_of_find? looked
  exact typed _ member

theorem declare (typed : env.WellTyped) {name : Text} {new : Variable}
    (fits : new.WellTyped) : (env.declare name new).WellTyped := by
  intro entry member
  rcases mem_put member with same | old
  · rw [same]
    exact fits
  · exact typed entry old

end WellTyped

theorem copyRows_hold {name : Text} {type : RowType} {source rows : List Content}
    (copied : copyRows name type source = .ok rows) :
    ∀ row ∈ rows, type.fieldType.Holds row := by
  induction source generalizing rows with
  | nil =>
      cases copied
      simp
  | cons first rest ih =>
      simp only [copyRows] at copied
      obtain ⟨head, coerced, copied⟩ := bind_eq_ok.mp copied
      obtain ⟨tail, others, copied⟩ := bind_eq_ok.mp copied
      cases copied
      exact List.forall_mem_cons.mpr
        ⟨FieldType.coerce_holds (contentFor_eq_ok.mp coerced), ih others⟩

theorem initialRows_hold {env : Environment} {name source : Text} {type : RowType}
    {rows : Rows} (initial : env.initialRows name type source = .ok rows) :
    ∀ row ∈ rows.toList, type.fieldType.Holds row := by
  revert initial
  fun_cases initialRows env name type source with
  | case1 | case2 | case4 => simp
  | case3 _ _ stored _ =>
      intro initial
      obtain ⟨taken, copied, rfl⟩ := map_eq_ok.mp initial
      rw [Rows.toList_ofList]
      exact copyRows_hold copied

theorem initialVariable_wellTyped {env : Environment} {name : Text} {type : DataType}
    {value : Option Text} {new : Variable} (valid : type.Valid)
    (initial : env.initialVariable name type value = .ok new) : new.WellTyped := by
  simp only [initialVariable] at initial
  split at initial
  · cases initial
    exact Variable.initial_wellTyped valid
  · obtain ⟨value, _, initial⟩ := bind_eq_ok.mp initial
    obtain ⟨content, coerced, written⟩ := bind_eq_ok.mp initial
    cases written
    exact ⟨valid, FieldType.coerce_holds (contentFor_eq_ok.mp coerced)⟩
  · obtain ⟨rows, copied, written⟩ := bind_eq_ok.mp initial
    cases written
    exact initialRows_hold copied

-- Rows bound to a work area are stored like any other value, so they need no case of
-- their own.
theorem Changes.wellTyped {env next : Environment} (changes : env.Changes next)
    (typed : env.WellTyped) : next.WellTyped := by
  cases changes with
  | declared described _ initial =>
      exact typed.declare (initialVariable_wellTyped (DataType.ofClause_valid described) initial)
  | stored found coerced =>
      obtain ⟨content, known⟩ := fieldType_eq_ok.mp found
      exact typed.declare ⟨(typed.get? known).1, FieldType.coerce_holds coerced⟩
  | cleared found =>
      apply typed.declare
      exact Variable.initial_wellTyped (typed.get? found).type_valid
  | appended found coerced =>
      apply typed.declare
      have rows := typed.get? (table_eq_ok.mp found)
      simp only [Variable.WellTyped, Rows.toList_push]
      exact List.forall_mem_append.mpr ⟨rows, by simpa using FieldType.coerce_holds coerced⟩

end Environment

end Variables

theorem State.Step.wellTyped {before after : State} (step : Step before after)
    (typed : before.env.WellTyped) : after.env.WellTyped := by
  cases step with
  | change changes => exact changes.wellTyped typed
  | newLine | write | record | count => exact typed

namespace Program

theorem wellTyped_of_mem_states (limit : Nat) (source : Text) (state : State)
    (passed : state ∈ states limit source) : state.env.WellTyped := by
  simp only [states] at passed
  split at passed
  · cases passed
  · next nodes _ =>
      refine (walk limit nodes {}).invariant (fun state => state.env.WellTyped) ?_ ?_
        state passed
      · exact State.Step.wellTyped
      · intro entry member
        cases member

-- The first pass fails once and stores once, and the budget refuses the second.
def passSample : Text :=
  "DATA code TYPE n LENGTH 3. DO 2 TIMES. code = 'x'. code = '7'. ENDDO.".toList

theorem wellTyped_after_refusal :
    ∃ state ∈ states 1 passSample,
      (state.env.size, state.passes, state.faults.length) = (1, 2, 2) ∧
        state.env.WellTyped := by
  have counts : (states 1 passSample).getLast?.map
      (fun state => (state.env.size, state.passes, state.faults.length)) =
        some (1, 2, 2) := by
    decide +kernel
  obtain ⟨state, last, same⟩ := Option.map_eq_some_iff.mp counts
  have passed := List.mem_of_getLast? last
  exact ⟨state, passed, same, wellTyped_of_mem_states 1 passSample state passed⟩

end Program

end MiniAbap
