import MiniAbap.Proofs.Run.Failure
import MiniAbap.Proofs.Statement.Declaration

/-!
Chains. A statement with several items means the same as one statement for each of them, in
order, both as it is read and as it is run. Declarations take effect one by one, so that is
so in every state; items of output are all looked up before the first is shown, but showing
an item changes no variable, so looking up the later ones cannot tell the difference.
-/

namespace MiniAbap

inductive ChainForm where
  | data
  | write

namespace ChainForm

abbrev Item : ChainForm → Type
  | .data => Declaration
  | .write => WriteItem

def opener : ChainForm → StatementWord
  | .data => .data
  | .write => .write

def statement : (form : ChainForm) → List form.Item → Statement
  | .data => .data
  | .write => .write

def readItem : (form : ChainForm) → Text → Except MalformedDeclaration form.Item
  | .data => Declaration.read
  | .write => fun text => .ok (Statement.writeItem text)

end ChainForm

def Statement.chain (opener : Text) (pieces : List Text) : Text :=
  opener ++ ':' :: List.intercalate [','] pieces

def ChainForm.singles (form : ChainForm) (opener : Text) (pieces : List Text)
    (lists : List (List form.Item)) : List (Text × Statement) :=
  List.zipWith (fun piece items => (Statement.chain opener [piece], form.statement items))
    pieces lists

section Reading

open Text (Blank)

variable {form : ChainForm} {opener : Text} {pieces : List Text} {statement : Statement}

theorem forall₂_of_mapM {α β ε : Type} {f : α → Except ε β} {inputs : List α} {outputs : List β}
    (mapped : inputs.mapM f = .ok outputs) :
    List.Forall₂ (fun input output => f input = .ok output) inputs outputs := by
  induction inputs generalizing outputs with
  | nil =>
      cases mapped
      exact .nil
  | cons input inputs ih =>
      rw [List.mapM_cons] at mapped
      cases first : f input with
      | error fault =>
          rw [first] at mapped
          cases mapped
      | ok output =>
          cases others : inputs.mapM f with
          | error fault =>
              rw [first, others] at mapped
              cases mapped
          | ok rest =>
              rw [first, others] at mapped
              cases mapped
              exact .cons first (ih others)

theorem Declaration.readAll_eq_mapM (texts : List Text) : readAll texts = texts.mapM read := by
  induction texts with
  | nil => rfl
  | cons text rest ih =>
      rw [readAll, List.mapM_cons, ih]
      cases read text with
      | error => rfl
      | ok declaration => cases rest.mapM read <;> rfl

namespace Statement

theorem chainItems_pieces (some : pieces ≠ []) (each : ∀ piece ∈ pieces, Text.IsPiece ',' piece) :
    chainItems (':' :: List.intercalate [','] pieces) = pieces.map Text.trim := by
  obtain ⟨before, joined, after, blankBefore, blankAfter, whole, items⟩ :=
    Text.exists_joined ',' some
  have all : ∀ item ∈ pieces.map Text.trim, Text.IsItem ',' item := by
    intro item member
    obtain ⟨piece, listed, rfl⟩ := List.mem_map.mp member
    exact (each piece listed).isItem
  have nothing : Blank [] := nofun
  have same : stripColon (':' :: List.intercalate [','] pieces) =
      stripColon ([] ++ ':' :: (before ++ joined)) := by
    rw [stripColon_eq nothing, whole, ← List.append_assoc]
    exact (stripColon_eq nothing).trans (Text.trim_append_blank blankAfter _)
  rw [← chainItems_joined nothing blankBefore items all, chainItems, same, ← chainItems]

/-- A chain is read item by item. -/
theorem read_chain (opens : Text.sameWord opener form.opener.title.toList = true)
    (some : pieces ≠ []) (each : ∀ piece ∈ pieces, Text.IsPiece ',' piece) :
    Statement.read (chain opener pieces) =
      ((pieces.map Text.trim).mapM form.readItem).map form.statement := by
  have solid := (StatementWord.isWord_title form.opener).of_sameWord opens
  have plain : '=' ∉ opener := fun member => by cases solid.letters _ member
  have listed := chainItems_pieces some each
  have filled : pieces.map Text.trim ≠ [] := by simpa using some
  rw [chain, Statement.read, assignment?_of_colon plain, leadingWord_append solid rfl]
  simp only [StatementWord.ofText?_upper opens]
  obtain ⟨first, rest, texts⟩ := List.exists_cons_of_ne_nil filled
  rw [texts] at listed ⊢
  cases form with
  | data =>
      simp only [ChainForm.opener, readData, listed, Declaration.readAll_eq_mapM,
        ChainForm.readItem, List.mapM_cons]
      cases Declaration.read first with
      | error => rfl
      | ok declaration => cases rest.mapM Declaration.read <;> rfl
  | write =>
      have all : (first :: rest).mapM ChainForm.write.readItem =
          .ok ((first :: rest).map writeItem) := List.mapM_pure
      simp only [ChainForm.opener, readWrite, listed, all]
      rfl

theorem read_chain_single (opens : Text.sameWord opener form.opener.title.toList = true)
    {piece : Text} (fits : Text.IsPiece ',' piece) {item : form.Item}
    (read : form.readItem (Text.trim piece) = .ok item) :
    Statement.read (chain opener [piece]) = .ok (form.statement [item]) := by
  have each : ∀ other ∈ [piece], Text.IsPiece ',' other := List.forall_mem_singleton.mpr fits
  rw [read_chain opens (List.cons_ne_nil _ _) each, List.map_singleton, List.mapM_cons, read]
  rfl

/-- The items of a chain that is read are those of its pieces, each read by itself. -/
theorem exists_items (opens : Text.sameWord opener form.opener.title.toList = true)
    (some : pieces ≠ []) (each : ∀ piece ∈ pieces, Text.IsPiece ',' piece)
    (accepted : Statement.read (chain opener pieces) = .ok statement) :
    ∃ lists : List (List form.Item), statement = form.statement lists.flatten ∧
      List.Forall₂ (fun piece items =>
        Statement.read (chain opener [piece]) = .ok (form.statement items)) pieces lists := by
  rw [read_chain opens some each] at accepted
  cases mapped : (pieces.map Text.trim).mapM form.readItem with
  | error fault =>
      rw [mapped] at accepted
      cases accepted
  | ok items =>
      rw [mapped] at accepted
      cases accepted
      refine ⟨items.map ([·]), ?_, ?_⟩
      · rw [← List.flatMap_def, List.flatMap_singleton']
      · have read := List.forall₂_map_left_iff.mp (forall₂_of_mapM mapped)
        rw [List.forall₂_map_right_iff]
        have both := (List.forall₂_and_left _ _).mpr ⟨each, read⟩
        exact both.imp fun piece item ⟨fits, found⟩ => read_chain_single opens fits found

end Statement

end Reading

section Running

/-- Both ended well and in the same state, or both with the same fault and with the same
    variables, or both crashed with the same variables. -/
inductive Outcome.Agrees : Outcome → Outcome → Prop where
  | done (state : State) : Agrees (.done state) (.done state)
  | failed {fault : RunError} {first second : State} (sameEnv : first.env = second.env) :
      Agrees (.failed fault first) (.failed fault second)
  | crashed {first second : State} (sameEnv : first.env = second.env) :
      Agrees (.crashed first) (.crashed second)

def State.runAll : List (Text × Statement) → State → Outcome
  | [], state => .done state
  | (text, statement) :: rest, state => (state.runStatement text statement).andThen (runAll rest)

namespace Outcome

variable {one two three : Outcome} {next later : State → Outcome}

theorem Agrees.trans (first : one.Agrees two) (second : two.Agrees three) : one.Agrees three := by
  cases first with
  | done => exact second
  | failed sameEnv =>
      cases second with
      | failed further => exact .failed (sameEnv.trans further)
  | crashed sameEnv =>
      cases second with
      | crashed further => exact .crashed (sameEnv.trans further)

theorem Agrees.andThen (agrees : one.Agrees two)
    (further : ∀ state, (next state).Agrees (later state)) :
    (one.andThen next).Agrees (two.andThen later) := by
  cases agrees with
  | done state => exact further state
  | failed sameEnv => exact .failed sameEnv
  | crashed sameEnv => exact .crashed sameEnv

theorem andThen_assoc (outcome : Outcome) (next later : State → Outcome) :
    (outcome.andThen next).andThen later =
      outcome.andThen fun state => (next state).andThen later := by
  cases outcome <;> rfl

end Outcome

namespace Environment

theorem itemTexts_append (env : Environment) (first second : List WriteItem) :
    env.itemTexts (first ++ second) = (do
      let texts ← env.itemTexts first
      let others ← env.itemTexts second
      return texts ++ others) := by
  induction first with
  | nil =>
      simp only [List.nil_append, itemTexts]
      cases env.itemTexts second <;> rfl
  | cons item rest ih =>
      simp only [List.cons_append, itemTexts, ih]
      cases item.value <;> simp

end Environment

namespace State

variable {form : ChainForm}

theorem agrees_runStatement (state : State) (text : Text) (statement : Statement) :
    (state.runStatement text statement).Agrees (state.runStatement text statement) := by
  have ends := ends_runStatement state text statement
  generalize state.runStatement text statement = outcome at ends ⊢
  cases ends with
  | finished => exact .done _
  | abandoned | cutShort => exact .failed rfl
  | crashed => exact .crashed rfl

theorem runData_append (state : State) (first second : List Declaration) :
    state.runData (first ++ second) =
      (state.runData first).andThen fun next => next.runData second := by
  induction first generalizing state with
  | nil => rfl
  | cons declaration rest ih =>
      simp only [List.cons_append, runData, Outcome.andThen_assoc, ih]

-- The later items are looked up in the same variables, whatever has been shown before.
theorem agrees_runWrite_append (state : State) (first second : List WriteItem) :
    (state.runWrite (first ++ second)).Agrees
      ((state.runWrite first).andThen fun next => next.runWrite second) := by
  have appended := state.env.itemTexts_append first second
  simp only [runWrite, appended]
  cases state.env.itemTexts first with
  | error fault => exact .failed rfl
  | ok texts =>
      simp only [require, Outcome.andThen]
      cases state.env.itemTexts second with
      | error fault => exact .failed rfl
      | ok others =>
          simp only [bind, Except.bind, pure, Except.pure, List.foldl_append]
          exact .done _

theorem agrees_runStatement_append (state : State) (first second : List form.Item)
    (whole one other : Text) :
    (state.runStatement whole (form.statement (first ++ second))).Agrees
      ((state.runStatement one (form.statement first)).andThen fun next =>
        next.runStatement other (form.statement second)) := by
  cases form with
  | data =>
      change (state.runData (first ++ second)).Agrees
        ((state.runData first).andThen fun next => next.runData second)
      rw [← runData_append]
      exact agrees_runStatement state whole (.data (first ++ second))
  | write => exact agrees_runWrite_append state first second

-- By induction on the pieces: the chain without its first piece is run as one statement
-- from where that piece ended.
theorem agrees_runAll {opener : Text} {pieces : List Text} {lists : List (List form.Item)}
    {reads : Text → List form.Item → Prop} (each : List.Forall₂ reads pieces lists)
    (whole : Text) (state : State) :
    (state.runStatement whole (form.statement lists.flatten)).Agrees
      (state.runAll (form.singles opener pieces lists)) := by
  induction each generalizing state with
  | nil => cases form <;> exact .done state
  | @cons piece items pieces lists _ _ ih =>
      have divided := agrees_runStatement_append state items lists.flatten whole
        (Statement.chain opener [piece]) whole
      exact divided.trans ((agrees_runStatement state _ _).andThen ih)

/-- A chain that is read has the items of its pieces, and running it agrees with running a
    statement for each piece, in order up to the first that fails. -/
theorem chain_in_sequence (form : ChainForm) {opener : Text} {pieces : List Text}
    {statement : Statement} (opens : Text.sameWord opener form.opener.title.toList = true)
    (some : pieces ≠ []) (each : ∀ piece ∈ pieces, Text.IsPiece ',' piece)
    (accepted : Statement.read (Statement.chain opener pieces) = .ok statement) :
    ∃ lists : List (List form.Item), statement = form.statement lists.flatten ∧
      List.Forall₂ (fun piece items => Statement.read (Statement.chain opener [piece]) =
        .ok (form.statement items)) pieces lists ∧
      ∀ state : State,
        (state.runStatement (Statement.chain opener pieces) statement).Agrees
          (state.runAll (form.singles opener pieces lists)) := by
  obtain ⟨lists, rfl, reads⟩ := Statement.exists_items opens some each accepted
  exact ⟨lists, rfl, reads, agrees_runAll reads _⟩

-- A comma in a literal, a new line with and without an operand, and a declaration that reads
-- the one before it.
theorem chain_in_sequence_items :
    (∃ lists : List (List WriteItem), List.Forall₂ (fun piece items =>
        Statement.read (Statement.chain "Write".toList [piece]) = .ok (.write items))
          [" / 'a,b' ".toList, "x".toList, " /".toList] lists ∧
      lists.flatten = [⟨true, some "'a,b'".toList⟩, ⟨false, some "x".toList⟩, ⟨true, none⟩]) ∧
    ∃ lists : List (List Declaration), ∀ state : State,
      (state.runStatement "data:a TYPE i, b TYPE i VALUE a".toList
        (.data [⟨"a".toList, .field "i".toList none none, none⟩,
          ⟨"b".toList, .field "i".toList none none, some "a".toList⟩])).Agrees
      (state.runAll (ChainForm.data.singles "data".toList
        ["a TYPE i".toList, " b TYPE i VALUE a".toList] lists)) := by
  have written : Statement.read
      (Statement.chain "Write".toList [" / 'a,b' ".toList, "x".toList, " /".toList]) =
        .ok (.write [⟨true, some "'a,b'".toList⟩, ⟨false, some "x".toList⟩, ⟨true, none⟩]) := by
    decide
  have declared : Statement.read
      (Statement.chain "data".toList ["a TYPE i".toList, " b TYPE i VALUE a".toList]) =
        .ok (.data [⟨"a".toList, .field "i".toList none none, none⟩,
          ⟨"b".toList, .field "i".toList none none, some "a".toList⟩]) := by
    decide
  obtain ⟨items, same, reads, _⟩ :=
    chain_in_sequence .write (by decide) (by decide) (by decide) written
  obtain ⟨lists, _, _, agrees⟩ :=
    chain_in_sequence .data (by decide) (by decide) (by decide) declared
  exact ⟨⟨items, reads, (Statement.write.inj same).symm⟩, lists, agrees⟩

end State

end Running

end MiniAbap
