import MiniAbap.Proofs.LetterCase.Expr
import MiniAbap.Statement.Read

/-!
Statement texts that differ in the case of letters outside literals read to the
same statement but for the case of names and of operands. A declaration that
cannot be read is refused for the same reason.
-/

namespace MiniAbap

open Text (lower)

inductive TypeClause.Recased : TypeClause → TypeClause → Prop where
  | field {name other : Text} (same : lower name = lower other) (length decimals : Option Nat) :
      Recased (.field name length decimals) (.field other length decimals)
  | table {rows other : Text} (same : lower rows = lower other) :
      Recased (.table rows) (.table other)

structure Declaration.Recased (one other : Declaration) : Prop where
  name : lower one.name = lower other.name
  type : one.type.Recased other.type
  value : Option.Rel (Text.Recased none) one.value other.value

structure WriteItem.Recased (one other : WriteItem) : Prop where
  newLine : one.newLine = other.newLine
  value : Option.Rel (Text.Recased none) one.value other.value

inductive Statement.Recased : Statement → Statement → Prop where
  | data {one other : List Declaration} (alike : List.Forall₂ Declaration.Recased one other) :
      Recased (.data one) (.data other)
  | write {one other : List WriteItem} (alike : List.Forall₂ WriteItem.Recased one other) :
      Recased (.write one) (.write other)
  | add {amount amount' target target' : Text} (operand : Text.Recased none amount amount')
      (name : lower target = lower target') : Recased (.add amount target) (.add amount' target')
  | subtract {amount amount' target target' : Text} (operand : Text.Recased none amount amount')
      (name : lower target = lower target') :
      Recased (.subtract amount target) (.subtract amount' target')
  | clear {target target' : Text} (name : lower target = lower target') :
      Recased (.clear target) (.clear target')
  | append {value value' table table' : Text} (operand : Text.Recased none value value')
      (name : lower table = lower table') : Recased (.append value table) (.append value' table')
  | assign {target target' value value' : Text} (name : lower target = lower target')
      (operand : Text.Recased none value value') :
      Recased (.assign target value) (.assign target' value')
  | malformed (form : Form) : Recased (.malformed form) (.malformed form)
  | unsupported : Recased .unsupported .unsupported

section Declarations

abbrev SameWords : List Text → List Text → Prop :=
  List.Forall₂ fun word other => lower word = lower other

theorem sameWords_words {first second : Text} (same : lower first = lower second) :
    SameWords (Text.words first) (Text.words second) := by
  have lists := Text.words_eq same
  rw [← List.forall₂_eq_eq_eq, List.forall₂_map_left_iff, List.forall₂_map_right_iff] at lists
  exact lists

theorem lower_intercalate {words others : List Text} (same : SameWords words others) :
    lower (List.intercalate [' '] words) = lower (List.intercalate [' '] others) := by
  induction same with
  | nil => rfl
  | @cons word other rest rest' here later ih =>
      cases later with
      | nil => simpa using here
      | cons next more =>
          simp only [List.intercalate_cons_cons, Text.lower_append, here] at ih ⊢
          rw [ih]

namespace Declaration

variable {words others : List Text}

theorem amount?_eq {word other : Text} (same : lower word = lower other) :
    amount? word = amount? other := by
  have digits : Text.isDigits word = Text.isDigits other := by
    rw [Text.isDigits, ← Text.insensitive_isDigit.all_lower, same,
      Text.insensitive_isDigit.all_lower, Text.isDigits]
  by_cases number : Text.isDigits word = true
  · rw [Text.eq_of_isDigits same number]
  · simp [amount?, number, ← digits]

theorem parameter_eq {word other : Text} (same : lower word = lower other) :
    Parameter.ofText? word = Parameter.ofText? other := by
  simp only [Parameter.ofText?, Text.sameWord_right same]

theorem readParameters_alike (given : Parameters) (same : SameWords words others) :
    Alike (SameMessage DeclarationFault.reason) Eq (readParameters given words)
      (readParameters given others) := by
  induction given, words using readParameters.induct generalizing others with
  | case1 given =>
      cases same
      exact .refl _
  | case2 given word rest unknown =>
      cases same with
      | @cons _ other _ rest' here later =>
          simp only [readParameters, ← parameter_eq here, unknown]
          apply Alike.error
          dsimp only [SameMessage, DeclarationFault.reason, toString]
          simp only [folded_append, folded_ofList, lower_intercalate (.cons here later)]
  | case3 given word rest parameter known again =>
      cases same with
      | cons here later =>
          simp only [readParameters, ← parameter_eq here, known, again, if_true]
          exact .error rfl
  | case4 given word parameter known fresh =>
      cases same with
      | cons here later =>
          cases later
          simp only [readParameters, ← parameter_eq here, known, fresh]
          exact .refl _
  | case5 given word parameter known fresh amount rest missing =>
      cases same with
      | cons here later =>
          cases later with
          | cons next later =>
              simp only [readParameters, ← parameter_eq here, ← amount?_eq next, known, fresh,
                missing]
              exact .refl _
  | case6 given word parameter known fresh amount rest n found ih =>
      cases same with
      | cons here later =>
          cases later with
          | cons next later =>
              simp only [readParameters, ← parameter_eq here, ← amount?_eq next, known, fresh,
                found]
              exact ih later

theorem withoutStandard_alike (same : SameWords words others) :
    SameWords
      (if words.head?.any (Text.sameWord "STANDARD".toList) then words.tail else words)
      (if others.head?.any (Text.sameWord "STANDARD".toList) then others.tail else others) := by
  cases same with
  | nil => exact .nil
  | @cons word other rest rest' here later =>
      simp only [List.head?_cons, Option.any_some, Text.sameWord_right here, List.tail_cons]
      by_cases standard : Text.sameWord "STANDARD".toList other = true
      · simp only [standard, if_true]
        exact later
      · simp only [standard]
        exact .cons here later

theorem readTable_alike (same : SameWords words others) :
    Alike (SameMessage DeclarationFault.reason) TypeClause.Recased (readTable words)
      (readTable others) := by
  have kept := withoutStandard_alike same
  simp only [readTable]
  generalize (if words.head?.any (Text.sameWord "STANDARD".toList) then words.tail else words) =
    left at kept
  generalize
    (if others.head?.any (Text.sameWord "STANDARD".toList) then others.tail else others) =
    right at kept
  -- Three words, no more and no fewer, make up the table type.
  rcases kept with _ | ⟨table, _ | ⟨ofWord, _ | ⟨rowType, _ | _⟩⟩⟩
  · exact .error rfl
  · exact .error rfl
  · exact .error rfl
  · simp only [Text.sameWord_left table, Text.sameWord_left ofWord, Text.isName_eq rowType]
    split
    · exact .ok (.table rowType)
    · exact .error rfl
  · exact .error rfl

theorem readType_alike (same : SameWords words others) :
    Alike (SameMessage DeclarationFault.reason) TypeClause.Recased (readType words)
      (readType others) := by
  cases same with
  | nil => exact .error rfl
  | cons here later =>
      simp only [readType, Text.sameWord_left here, Text.isName_eq here]
      split
      · exact readTable_alike (.cons here later)
      · split
        · refine (readParameters_alike {} later).map ?_
          rintro given _ rfl
          exact .field here _ _
        · apply Alike.error
          dsimp only [SameMessage, DeclarationFault.reason, toString]
          simp only [folded_append, folded_ofList, here]

def ValueAlike (one other : Text × Option Text) : Prop :=
  lower one.1 = lower other.1 ∧ Option.Rel (Text.Recased none) one.2 other.2

variable {first second : Text}

theorem splitValue_alike (recased : Text.Recased none first second) :
    Alike (SameMessage DeclarationFault.reason) ValueAlike (splitValue first)
      (splitValue second) := by
  have plain : ∀ c ∈ "VALUE".toList, Text.isQuote c = false := by simp [Text.isQuote]
  have divided := recased.splitAtFirst plain
  simp only [splitValue]
  generalize Text.splitAtFirst "VALUE".toList first = one at divided
  generalize Text.splitAtFirst "VALUE".toList second = other at divided
  cases divided with
  | none => exact .ok ⟨recased.lower_eq, .none⟩
  | some halves =>
      simp only [halves.2.isEmpty_eq]
      split
      · exact .error rfl
      · exact .ok ⟨halves.1.lower_eq, .some halves.2⟩

theorem isQuote_of_sameWord {word keyword : Text}
    (plain : ∀ c ∈ keyword, Text.isQuote c = false)
    (same : Text.sameWord word keyword = true) : ∀ c ∈ word, Text.isQuote c = false :=
  Text.isQuote_of_lower_eq (beq_iff_eq.mp same) plain

-- A name and the word TYPE hold no quotes, so what follows them is divided alike.
theorem readShape_alike (recased : Text.Recased none first second) :
    Alike (SameMessage DeclarationFault.reason) Recased (readShape first)
      (readShape second) := by
  obtain ⟨name, afterName⟩ := recased.firstWord
  simp only [readShape, Text.isName_eq name.lower_eq]
  by_cases named : Text.isName (Text.firstWord second).1 = true
  · have rest := afterName (Text.isQuote_of_isName (Text.isName_eq name.lower_eq ▸ named))
    obtain ⟨typeWord, clause⟩ := rest.firstWord
    simp only [named, Text.sameWord_left typeWord.lower_eq]
    by_cases typed : Text.sameWord (Text.firstWord (Text.firstWord second).2).1
        "TYPE".toList = true
    · have plain : ∀ c ∈ "TYPE".toList, Text.isQuote c = false := by simp [Text.isQuote]
      have clauses := clause
        (isQuote_of_sameWord plain (Text.sameWord_left typeWord.lower_eq _ ▸ typed))
      simp only [typed]
      rcases (splitValue_alike clauses).result_cases with
        ⟨fault, fault', split, split', same⟩ | ⟨parts, parts', split, split', same⟩
      · simp only [split, split']
        exact .error same
      · simp only [split, split']
        refine (readType_alike (sameWords_words same.1)).map ?_
        exact fun type type' types => ⟨name.lower_eq, types, same.2⟩
    · simp only [typed]
      exact .error rfl
  · simp only [named]
    apply Alike.error
    dsimp only [SameMessage, DeclarationFault.reason, toString]
    simp only [folded_append, folded_ofList, name.lower_eq]

theorem sameMessage_of_reason {fault fault' : DeclarationFault}
    (same : lower first = lower second)
    (reasons : SameMessage DeclarationFault.reason fault fault') :
    SameMessage MalformedDeclaration.message ⟨first, fault⟩ ⟨second, fault'⟩ := by
  simp only [SameMessage] at reasons
  dsimp only [SameMessage, MalformedDeclaration.message, toString]
  simp only [folded_append, folded_ofList, same, reasons]

theorem read_alike (recased : Text.Recased none first second) :
    Alike (SameMessage MalformedDeclaration.message) Recased (read first) (read second) := by
  simp only [read]
  rcases (readShape_alike recased).result_cases with
    ⟨fault, fault', shape, shape', same⟩ | ⟨declaration, other, shape, shape', same⟩
  · simp only [shape, shape']
    exact .error (sameMessage_of_reason recased.lower_eq same)
  · simp only [shape, shape']
    exact .ok same

theorem readAll_alike {texts texts' : List Text}
    (alike : List.Forall₂ (Text.Recased none) texts texts') :
    Alike (SameMessage MalformedDeclaration.message) (List.Forall₂ Recased) (readAll texts)
      (readAll texts') := by
  induction alike with
  | nil => exact .ok .nil
  | cons here _ ih =>
      simp only [readAll]
      rcases (read_alike here).result_cases with
        ⟨error, error', first, first', same⟩ | ⟨declaration, other, first, first', same⟩
      · simp only [first, first']
        exact .error same
      · simp only [first, first']
        exact ih.map fun _ _ others => .cons same others

end Declaration

end Declarations

section Statements

namespace Statement

variable {first second : Text}

theorem isQuote_of_isName_trim (name : Text.isName (Text.trim first) = true) :
    ∀ c ∈ first, Text.isQuote c = false := by
  intro c member
  by_cases white : Text.isBlank c = true
  · exact Text.isQuote_of_isBlank white
  · exact Text.isQuote_of_isName name c (Text.mem_trim member white)

def AssignedAlike (one other : Text × Text) : Prop :=
  lower one.1 = lower other.1 ∧ Text.Recased none one.2 other.2

theorem assignment?_alike (recased : Text.Recased none first second) :
    Option.Rel AssignedAlike (assignment? first) (assignment? second) := by
  have divided := recased.splitFirst (Text.insensitive_beq (by decide : ('=').isAlpha = false))
    (by simp [Text.isQuote])
  simp only [assignment?]
  generalize Text.splitFirst (· == '=') first = one at divided
  generalize Text.splitFirst (· == '=') second = other at divided
  cases divided with
  | none => exact .none
  | @some one other halves =>
      obtain ⟨target, value⟩ := halves
      have names := target.trim.lower_eq
      simp only [Text.isName_eq names]
      split
      · next named =>
          have plain := isQuote_of_isName_trim (Text.isName_eq names ▸ named)
          exact .some ⟨names, (value plain).trim⟩
      · exact .none

theorem isAssignment_eq (recased : Text.Recased none first second) :
    isAssignment first = isAssignment second := by
  have alike := assignment?_alike recased
  rw [isAssignment, isAssignment]
  generalize assignment? first = one at alike
  generalize assignment? second = other at alike
  cases alike <;> rfl

theorem stripColon_alike (recased : Text.Recased none first second) :
    Text.Recased none (stripColon first) (stripColon second) := by
  have trimmed := recased.trimStart
  simp only [stripColon]
  generalize Text.trimStart first = one at trimmed
  generalize Text.trimStart second = other at trimmed
  cases trimmed with
  | nil => exact .nil none
  | @cons _ c d rest other same literal others =>
      have colons := Text.eq_sign_iff same (by decide : (':').isAlpha = false)
      by_cases colon : c = ':'
      · obtain rfl := colon
        obtain rfl := colons.mp rfl
        exact others.trim
      · have colon' : ¬ d = ':' := mt colons.mpr colon
        split
        · next found => exact absurd (List.cons.inj found).1 colon
        · split
          · next found => exact absurd (List.cons.inj found).1 colon'
          · exact Text.Recased.trim (.cons same literal others)

theorem chainItems_alike (recased : Text.Recased none first second) :
    List.Forall₂ (Text.Recased none) (chainItems first) (chainItems second) := by
  have items := (stripColon_alike recased).splitOutside (by decide : (',').isAlpha = false)
  apply Text.recased_filter
  rw [List.forall₂_map_left_iff, List.forall₂_map_right_iff]
  exact items.imp fun _ _ => Text.Recased.trim

theorem present_alike (recased : Text.Recased none first second) :
    Option.Rel (Text.Recased none) (if first.isEmpty then none else some first)
      (if second.isEmpty then none else some second) := by
  rw [recased.isEmpty_eq]
  split
  · exact .none
  · exact .some recased

theorem writeItem_of_ne {c : Char} {rest : Text} (slash : ¬ c = '/') :
    writeItem (c :: rest) = ⟨false, some (c :: rest)⟩ := by
  simp [writeItem, slash]

theorem writeItem_alike (recased : Text.Recased none first second) :
    (writeItem first).Recased (writeItem second) := by
  have whole := recased
  cases recased with
  | nil => exact ⟨rfl, .none⟩
  | @cons _ c d rest other same literal others =>
      have slashes := Text.eq_sign_iff same (by decide : ('/').isAlpha = false)
      by_cases slash : c = '/'
      · obtain rfl := slash
        obtain rfl := slashes.mp rfl
        exact ⟨rfl, present_alike others.trim⟩
      · have slash' : ¬ d = '/' := mt slashes.mpr slash
        rw [writeItem_of_ne slash, writeItem_of_ne slash']
        exact ⟨rfl, .some whole⟩

theorem readWrite_alike (recased : Text.Recased none first second) :
    (readWrite first).Recased (readWrite second) := by
  have items : List.Forall₂ WriteItem.Recased ((chainItems first).map writeItem)
      ((chainItems second).map writeItem) := by
    rw [List.forall₂_map_left_iff, List.forall₂_map_right_iff]
    exact (chainItems_alike recased).imp fun _ _ => writeItem_alike
  simp only [readWrite]
  generalize (chainItems first).map writeItem = one at items
  generalize (chainItems second).map writeItem = other at items
  cases items with
  | nil => exact .malformed _
  | cons here later => exact .write (.cons here later)

variable {keyword : Text}

theorem operandAndTarget?_alike (plain : ∀ c ∈ keyword, Text.isQuote c = false)
    (recased : Text.Recased none first second) :
    Option.Rel (fun one other => Text.Recased none one.1 other.1 ∧ lower one.2 = lower other.2)
      (operandAndTarget? keyword first) (operandAndTarget? keyword second) := by
  have divided := recased.splitAtLast plain
  simp only [operandAndTarget?]
  generalize Text.splitAtLast keyword first = one at divided
  generalize Text.splitAtLast keyword second = other at divided
  cases divided with
  | none => exact .none
  | some halves =>
      simp only [halves.1.isEmpty_eq, Text.isName_eq halves.2.lower_eq]
      split
      · exact .none
      · exact .some ⟨halves.1, halves.2.lower_eq⟩

theorem readPair_alike {word : String} (form : Form) {build : Text → Text → Statement}
    (plain : ∀ c ∈ word.toList, Text.isQuote c = false)
    (built : ∀ operand operand' target target', Text.Recased none operand operand' →
      lower target = lower target' → (build operand target).Recased (build operand' target'))
    (recased : Text.Recased none first second) :
    (readPair form word build first).Recased (readPair form word build second) := by
  have alike := operandAndTarget?_alike plain recased
  simp only [readPair]
  generalize operandAndTarget? word.toList first = one at alike
  generalize operandAndTarget? word.toList second = other at alike
  cases alike with
  | none => exact .malformed form
  | some both => exact built _ _ _ _ both.1 both.2

theorem readClear_alike (recased : Text.Recased none first second) :
    (readClear first).Recased (readClear second) := by
  have names := recased.trim.lower_eq
  simp only [readClear, Text.isName_eq names]
  split
  · exact .clear names
  · exact .malformed _

theorem readData_alike {rest other : Text} (same : lower first = lower second)
    (recased : Text.Recased none rest other) :
    Alike (SameMessage MalformedDeclaration.message) Recased (readData first rest)
      (readData second other) := by
  simp only [readData]
  rcases (Declaration.readAll_alike (chainItems_alike recased)).result_cases with
    ⟨error, error', all, all', faults⟩ | ⟨declarations, others, all, all', alike⟩
  · simp only [all, all']
    exact .error faults
  · simp only [all, all']
    cases alike with
    | nil => exact .error (Declaration.sameMessage_of_reason same rfl)
    | cons here later => exact .ok (.data (.cons here later))

theorem read_alike (recased : Text.Recased none first second) :
    Alike (SameMessage MalformedDeclaration.message) Recased (read first) (read second) := by
  have assigned := assignment?_alike recased
  obtain ⟨word, rest⟩ := recased.leadingWord
  have plainTo : ∀ c ∈ "TO".toList, Text.isQuote c = false := by simp [Text.isQuote]
  have plainFrom : ∀ c ∈ "FROM".toList, Text.isQuote c = false := by simp [Text.isQuote]
  simp only [read, word]
  generalize assignment? first = one at assigned
  generalize assignment? second = other at assigned
  cases assigned with
  | some both =>
      apply Alike.ok
      simp only [both.2.isEmpty_eq]
      split
      · exact .malformed _
      · exact .assign both.1 both.2
  | none =>
      cases StatementWord.ofText? (Text.leadingWord second).1 with
      | none => exact .ok .unsupported
      | some statement =>
          cases statement with
          | data => exact readData_alike recased.lower_eq rest
          | write => exact .ok (readWrite_alike rest)
          | add => exact .ok (readPair_alike _ plainTo (fun _ _ _ _ => .add) rest)
          | subtract => exact .ok (readPair_alike _ plainFrom (fun _ _ _ _ => .subtract) rest)
          | clear => exact .ok (readClear_alike rest)
          | append => exact .ok (readPair_alike _ plainTo (fun _ _ _ _ => .append) rest)

end Statement

end Statements

end MiniAbap
