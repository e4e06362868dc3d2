import Mathlib.Data.List.Forall2
import MiniAbap.Proofs.Run.Trace

/-!
Declarations are permanent. A name that is declared at some point of a run is
declared with the same type from there on, whatever the run does. Declaring it
again with another type is refused; with the same type it resets the variable.
-/

namespace MiniAbap

namespace Environment

def KeptIn (before after : Environment) : Prop :=
  ∀ name old, before.get? name = some old →
    ∃ new, after.get? name = some new ∧ new.type = old.type

theorem KeptIn.refl (env : Environment) : env.KeptIn env :=
  fun _ old found => ⟨old, found, rfl⟩

theorem KeptIn.trans {first second third : Environment} (before : first.KeptIn second)
    (after : second.KeptIn third) : first.KeptIn third := by
  intro name old found
  obtain ⟨middle, stands, same⟩ := before name old found
  obtain ⟨new, remains, alike⟩ := after name middle stands
  exact ⟨new, remains, alike.trans same⟩

/-- What a declaration of the type makes of its variable: the initial content, the
    coerced value, or a copy of another table with each row coerced. -/
inductive Resets (env : Environment) : DataType → Option Text → Variable → Prop where
  | initial (type : DataType) : Resets env type none (.initial type)
  | coerced {type : FieldType} {source : Text} {value : Value} {content : Content}
      (evaluated : env.evaluate source = .ok value) (fits : type.coerce value = .ok content) :
      Resets env (.field type) (some source) (.field type content)
  | copied {type other : RowType} {source : Text} {rows : Rows} {copies : List Content}
      (found : env.get? source = some (.table other rows))
      (fits : List.Forall₂ (fun row copy => type.fieldType.coerce (.ofContent row) = .ok copy)
        rows.toList copies) :
      Resets env (.table type) (some source) (.table type (.ofList copies))

theorem forall₂_of_copyRows {name : Text} {type : RowType} {rows copies : List Content}
    (copied : copyRows name type rows = .ok copies) :
    List.Forall₂ (fun row copy => type.fieldType.coerce (.ofContent row) = .ok copy)
      rows copies := by
  induction rows generalizing copies with
  | nil =>
      cases copied
      exact .nil
  | cons row rest ih =>
      simp only [copyRows] at copied
      obtain ⟨first, fits, copied⟩ := bind_eq_ok.mp copied
      obtain ⟨others, taken, built⟩ := bind_eq_ok.mp copied
      cases built
      exact .cons (contentFor_eq_ok.mp fits) (ih taken)

theorem operand_eq_ok {env : Environment} {source : Text} {value : Value}
    (evaluated : env.operand source = .ok value) : env.evaluate source = .ok value := by
  simp only [operand] at evaluated
  split at evaluated <;> simp_all

theorem resets_of_initialVariable {env : Environment} {name : Text} {type : DataType}
    {value : Option Text} {new : Variable}
    (made : env.initialVariable name type value = .ok new) : env.Resets type value new := by
  simp only [initialVariable] at made
  split at made
  · cases made
    exact .initial _
  · obtain ⟨value, evaluated, made⟩ := bind_eq_ok.mp made
    obtain ⟨content, fits, built⟩ := bind_eq_ok.mp made
    cases built
    exact .coerced (operand_eq_ok (mapError_eq_ok.mp evaluated)) (contentFor_eq_ok.mp fits)
  · obtain ⟨rows, copied, built⟩ := bind_eq_ok.mp made
    cases built
    simp only [initialRows] at copied
    split at copied
    · split at copied
      · cases copied
      · cases copied
      · next found =>
          obtain ⟨copies, taken, rfl⟩ := map_eq_ok.mp copied
          exact .copied found (forall₂_of_copyRows taken)
    · cases copied

end Environment

namespace State

theorem Step.keptIn {before after : State} (step : Step before after) :
    before.env.KeptIn after.env := by
  cases step with
  | change changes => exact fun _ _ found => changes.type_kept found
  | newLine | write | record | count => exact .refl _

-- A step relates its two states, so transitivity relates any two on a walk.
theorem Walk.pairwise {first last : State} {states : List State} {Related : State → State → Prop}
    (trans : ∀ {a b c : State}, Related a b → Related b c → Related a c)
    (stepped : ∀ {before after : State}, Step before after → Related before after)
    (walk : Walk first states last) : (first :: states).Pairwise Related := by
  induction walk with
  | stay state => exact List.pairwise_singleton _ _
  | @step state next last rest first _ ih =>
      refine .cons ?_ ih
      intro later member
      rcases List.mem_cons.mp member with rfl | further
      · exact stepped first
      · exact trans (stepped first) (List.rel_of_pairwise_cons ih further)

section Redeclaring

variable {state next : State} {declaration : Declaration} {old : Variable} {type : DataType}

theorem runDeclaration_of_other_type (found : state.env.get? declaration.name = some old)
    (described : DataType.ofClause declaration.type = .ok type) (differs : type ≠ old.type) :
    state.runDeclaration declaration = .failed (.redeclared declaration.name) state := by
  have refused : (state.env.get? declaration.name).any (fun known => known.type != type) =
      true := by
    rw [found]
    exact bne_iff_ne.mpr differs.symm
  simp only [runDeclaration, described, refused, if_true]

theorem produce_eq_done {α : Type} {made : Except (Stop RunError) α} {follow : α → Outcome}
    (ended : state.produce made follow = .done next) :
    ∃ value, made = .ok value ∧ follow value = .done next := by
  simp only [produce] at ended
  split at ended
  · exact ⟨_, rfl, ended⟩
  · cases ended
  · cases ended

theorem declare_of_runDeclaration (described : DataType.ofClause declaration.type = .ok type)
    (ended : state.runDeclaration declaration = .done next) :
    ∃ new, state.env.Resets type declaration.value new ∧
      next = state.declare declaration.name new := by
  simp only [runDeclaration, described] at ended
  split at ended
  · cases ended
  · obtain ⟨new, made, written⟩ := produce_eq_done ended
    cases written
    exact ⟨new, Environment.resets_of_initialVariable made, rfl⟩

theorem runStatement_single (state : State) (text : Text) (declaration : Declaration) :
    state.runStatement text (.data [declaration]) = state.runDeclaration declaration := by
  simp only [runStatement, runData, Outcome.andThen]
  cases state.runDeclaration declaration <;> rfl

end Redeclaring

end State

namespace Program

theorem keptIn_of_states (limit : Nat) (source : Text) :
    (states limit source).Pairwise fun earlier later => earlier.env.KeptIn later.env := by
  simp only [states]
  split
  · exact .nil
  · next nodes _ =>
      exact (walk limit nodes {}).pairwise Environment.KeptIn.trans State.Step.keptIn

/-- A declared name keeps its type to the end of the run. A single declaration of it
    fails where it gives another type, and otherwise resets this one variable. -/
theorem declarations_permanent (limit : Nat) (source : Text) :
    ((states limit source).Pairwise fun earlier later =>
      ∀ name old, earlier.env.get? name = some old →
        ∃ new, later.env.get? name = some new ∧ new.type = old.type) ∧
    ∀ (state : State) (text : Text) (declaration : Declaration) (old : Variable)
      (type : DataType), state.env.get? declaration.name = some old →
      DataType.ofClause declaration.type = .ok type →
      (type ≠ old.type →
        state.runStatement text (.data [declaration]) =
          .failed (.redeclared declaration.name) state) ∧
      (type = old.type → ∀ next, state.runStatement text (.data [declaration]) = .done next →
        ∃ new, state.env.Resets type declaration.value new ∧
          next.env.get? declaration.name = some new ∧
          next = { state with env := state.env.declare declaration.name new }) := by
  refine ⟨keptIn_of_states limit source, ?_⟩
  intro state text declaration old type found described
  rw [State.runStatement_single]
  constructor
  · exact State.runDeclaration_of_other_type found described
  · intro _ next ended
    obtain ⟨new, resets, rfl⟩ := State.declare_of_runDeclaration described ended
    refine ⟨new, resets, ?_, rfl⟩
    rw [State.declare, Environment.get?_declare, if_pos rfl]

-- Each pass declares the variable again, first with another type and then with its own.
def againSample : Text :=
  "DATA x TYPE i VALUE 4. DO 2 TIMES. DATA X TYPE string. DATA x TYPE i. ENDDO.".toList

def wholeSample : State :=
  { env := ({} : Environment).declare "x".toList (.field .integer (.number 4)) }

theorem declarations_permanent_again :
    (∃ earlier later old new, [earlier, later].Sublist (states 2 againSample) ∧
      later.faults.length = 2 ∧ earlier.env.get? "x".toList = some old ∧
        later.env.get? "x".toList = some new ∧ new.type = old.type) ∧
    wholeSample.runStatement [] (.data [⟨"X".toList, .field "string".toList none none, none⟩]) =
      .failed (.redeclared "X".toList) wholeSample ∧
    ∃ next new,
      wholeSample.runStatement [] (.data [⟨"X".toList, .field "I".toList none none, none⟩]) =
        .done next ∧
      next.env.get? "X".toList = some new ∧
        wholeSample.env.Resets (.field .integer) none new := by
  obtain ⟨kept, declared⟩ := declarations_permanent 2 againSample
  refine ⟨?_, ?_, ?_⟩
  · have long : 2 < (states 2 againSample).length := by decide +kernel
    have before : (((states 2 againSample)[1]?).bind fun state =>
        state.env.get? "x".toList).isSome = true := by
      decide +kernel
    have after : ((states 2 againSample).getLast?).map (fun state => state.faults.length) =
        some 2 := by
      decide +kernel
    generalize states 2 againSample = passed at kept long before after
    match passed, kept, long, before, after with
    | start :: earlier :: next :: rest, kept, _, before, after =>
        obtain ⟨old, found⟩ := Option.isSome_iff_exists.mp before
        obtain ⟨later, last, faults⟩ := Option.map_eq_some_iff.mp after
        have member : later ∈ next :: rest := List.mem_of_getLast? (by simpa using last)
        obtain ⟨new, stands, same⟩ := List.rel_of_pairwise_cons
          (List.Pairwise.of_cons kept) member "x".toList old found
        refine ⟨earlier, later, old, new, ?_, faults, found, stands, same⟩
        exact .cons _ (.cons_cons _ (List.singleton_sublist.mpr member))
  · exact (declared wholeSample [] ⟨"X".toList, .field "string".toList none none, none⟩ _ _
      rfl rfl).1 (by decide)
  · obtain ⟨new, resets, found, _⟩ :=
      (declared wholeSample [] ⟨"X".toList, .field "I".toList none none, none⟩ _ _ rfl rfl).2
        rfl _ rfl
    exact ⟨_, new, rfl, found, resets⟩

end Program

end MiniAbap
