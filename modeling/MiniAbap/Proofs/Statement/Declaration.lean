import MiniAbap.Proofs.Statement.Opening
import MiniAbap.Proofs.Text.Separator

/-!
Written declarations. What may be written for a declaration is said once, part by part:
the words of its type, its initial value, the whole declaration, and a statement that
declares several. Each part is read back from any text that writes it, whatever the case
of the keywords, the white space between words and the order of the parameters.
-/

namespace MiniAbap

section Written

inductive Parameter.Written (parameter : Parameter) : Option Nat → List Text → Prop where
  | omitted : Written parameter none []
  | given {word digits : Text} {amount : Nat}
      (spelled : Text.sameWord word parameter.title.toList = true)
      (decimal : Text.isDigits digits = true) (value : Text.digitsValue digits = amount)
      (fits : amount ≤ Declaration.largestAmount) :
      Written parameter (some amount) [word, digits]

inductive TypeClause.Written : TypeClause → List Text → Prop where
  | field {typeName : Text} {length decimals : Option Nat} {first second words : List Text}
      (name : Text.isName typeName = true)
      (noStandard : Text.sameWord typeName "STANDARD".toList = false)
      (noTable : Text.sameWord typeName "TABLE".toList = false)
      (noValue : Text.sameWord typeName "VALUE".toList = false)
      (lengthWords : Parameter.length.Written length first)
      (decimalsWords : Parameter.decimals.Written decimals second)
      (ordered : words = first ++ second ∨ words = second ++ first) :
      Written (.field typeName length decimals) (typeName :: words)
  | table {standard : Option Text} {tableWord ofWord rowType : Text}
      (standardWord : ∀ word ∈ standard, Text.sameWord word "STANDARD".toList = true)
      (isTable : Text.sameWord tableWord "TABLE".toList = true)
      (isOf : Text.sameWord ofWord "OF".toList = true)
      (name : Text.isName rowType = true)
      (noValue : Text.sameWord rowType "VALUE".toList = false) :
      Written (.table rowType) (standard.toList ++ [tableWord, ofWord, rowType])

namespace Declaration

inductive ValueWritten : Option Text → Text → Prop where
  | absent : ValueWritten none []
  | given {before word between value : Text} (blankBefore : Text.Blank before)
      (someBefore : before ≠ []) (spelled : Text.sameWord word "VALUE".toList = true)
      (blankBetween : Text.Blank between) (someBetween : between ≠ [])
      (fits : Text.IsItem ',' value) :
      ValueWritten (some value) (before ++ (word ++ (between ++ value)))

inductive Written (declaration : Declaration) : Text → Prop where
  | mk {typeWord typeText valueText : Text} {words : List Text}
      (name : Text.isName declaration.name = true)
      (spelled : Text.sameWord typeWord "TYPE".toList = true)
      (typed : declaration.type.Written words)
      (spaced : Text.Apart (typeWord :: words) typeText)
      (valued : ValueWritten declaration.value valueText) :
      Written declaration (declaration.name ++ (typeText ++ valueText))

end Declaration

inductive Statement.DataWritten (declarations : List Declaration) : Text → Prop where
  | mk {opener before after chain : Text} {items : List Text}
      (opens : Text.sameWord opener "DATA".toList = true) (blankBefore : Text.Blank before)
      (blankAfter : Text.Blank after)
      (each : List.Forall₂ Declaration.Written declarations items)
      (joined : Text.Joined ',' items chain) :
      DataWritten declarations (opener ++ (before ++ ':' :: (after ++ chain)))

end Written

namespace Declaration

open Text (Blank IsWord Apart)

section Types

theorem parameter_ofText? {parameter : Parameter} {word : Text}
    (spelled : Text.sameWord word parameter.title.toList = true) :
    Parameter.ofText? word = some parameter := by
  have folded : Text.lower word = Text.lower parameter.title.toList := beq_iff_eq.mp spelled
  simp only [Parameter.ofText?, Text.sameWord_right folded]
  cases parameter <;> decide

def Parameters.put (given : Parameters) (parameter : Parameter) (amount : Option Nat) :
    Parameters :=
  amount.elim given (given.set parameter)

theorem Parameters.get_put {one other : Parameter} (different : one ≠ other)
    (given : Parameters) (amount : Option Nat) :
    (given.put one amount).get other = given.get other := by
  cases amount with
  | none => rfl
  | some n =>
      cases one with
      | length =>
          cases other with
          | length => exact absurd rfl different
          | decimals => rfl
      | decimals =>
          cases other with
          | length => rfl
          | decimals => exact absurd rfl different

theorem Parameters.get_empty (parameter : Parameter) : Parameters.get {} parameter = none := by
  cases parameter <;> rfl

theorem readParameters_append {parameter : Parameter} {amount : Option Nat} {words : List Text}
    (written : parameter.Written amount words) {given : Parameters}
    (fresh : given.get parameter = none) (rest : List Text) :
    readParameters given (words ++ rest) = readParameters (given.put parameter amount) rest := by
  cases written with
  | omitted => rfl
  | @given word digits amount spelled decimal value fits =>
      have read : amount? digits = some amount := by simp [amount?, decimal, value, fits]
      simp [readParameters, parameter_ofText? spelled, fresh, read, Parameters.put]

theorem readParameters_pair {one other : Parameter} {amount amount' : Option Nat}
    {first second : List Text} (different : one ≠ other) (here : one.Written amount first)
    (there : other.Written amount' second) :
    readParameters {} (first ++ second) =
      .ok ((Parameters.put {} one amount).put other amount') := by
  have fresh : (Parameters.put {} one amount).get other = none :=
    (Parameters.get_put different {} amount).trans (Parameters.get_empty other)
  have last := readParameters_append there fresh []
  rw [List.append_nil] at last
  rw [readParameters_append here (Parameters.get_empty one), last]
  rfl

theorem readParameters_written {length decimals : Option Nat} {first second words : List Text}
    (lengthWords : Parameter.length.Written length first)
    (decimalsWords : Parameter.decimals.Written decimals second)
    (ordered : words = first ++ second ∨ words = second ++ first) :
    readParameters {} words = .ok ⟨length, decimals⟩ := by
  rcases ordered with rfl | rfl
  · rw [readParameters_pair (by decide) lengthWords decimalsWords]
    cases length <;> cases decimals <;> rfl
  · rw [readParameters_pair (by decide) decimalsWords lengthWords]
    cases length <;> cases decimals <;> rfl

-- A table may start with another word, which is taken off first.
theorem readTable_written {standard : Option Text} {tableWord ofWord rowType : Text}
    (standardWord : ∀ word ∈ standard, Text.sameWord word "STANDARD".toList = true)
    (isTable : Text.sameWord tableWord "TABLE".toList = true)
    (isOf : Text.sameWord ofWord "OF".toList = true) (name : Text.isName rowType = true) :
    readTable (standard.toList ++ [tableWord, ofWord, rowType]) = .ok (.table rowType) := by
  have shape : (Text.sameWord tableWord "TABLE".toList && Text.sameWord ofWord "OF".toList
      && Text.isName rowType) = true := by
    rw [isTable, isOf, name]
    rfl
  cases standard with
  | none =>
      have folded : Text.lower tableWord = Text.lower "TABLE".toList := beq_iff_eq.mp isTable
      have other : Text.sameWord "STANDARD".toList tableWord = false := by
        rw [Text.sameWord_right folded]
        decide
      simp only [readTable, Option.toList_none, List.nil_append, List.head?_cons, Option.any_some,
        other, Bool.false_eq_true, if_false, shape, if_true]
  | some word =>
      have spelled : Text.sameWord "STANDARD".toList word = true := by
        rw [Text.sameWord_comm]
        exact standardWord word rfl
      simp only [readTable, Option.toList_some, List.cons_append, List.nil_append,
        List.head?_cons, Option.any_some, spelled, if_true, List.tail_cons, shape]

theorem readType_written {type : TypeClause} {words : List Text} (written : type.Written words) :
    readType words = .ok type := by
  cases written with
  | field name noStandard noTable _ lengthWords decimalsWords ordered =>
      have given := readParameters_written lengthWords decimalsWords ordered
      rw [readType, noStandard, noTable, name, given]
      rfl
  | @table standard tableWord ofWord rowType standardWord isTable isOf name _ =>
      rw [← readTable_written standardWord isTable isOf name]
      cases standard with
      | none => simp only [readType, Option.toList_none, List.nil_append, isTable, Bool.or_true,
          if_true]
      | some word =>
          simp only [readType, Option.toList_some, List.cons_append, standardWord word rfl,
            Bool.true_or, if_true]

theorem not_value_of_sameWord {word keyword : Text} (spelled : Text.sameWord word keyword = true)
    (other : Text.sameWord keyword "VALUE".toList = false) :
    Text.sameWord word "VALUE".toList = false :=
  (Text.sameWord_left (beq_iff_eq.mp spelled) _).trans other

theorem not_value_of_parameter {parameter : Parameter} {amount : Option Nat} {words : List Text}
    (written : parameter.Written amount words) :
    ∀ word ∈ words, Text.sameWord word "VALUE".toList = false := by
  cases written with
  | omitted => nofun
  | @given word digits amount spelled decimal _ _ =>
      have number : Text.sameWord digits "VALUE".toList = false := by
        cases same : Text.sameWord digits "VALUE".toList with
        | false => rfl
        | true =>
            rw [Text.eq_of_isDigits (beq_iff_eq.mp same) decimal] at decimal
            cases decimal
      have title : Text.sameWord parameter.title.toList "VALUE".toList = false := by
        cases parameter <;> decide
      simp only [List.forall_mem_cons]
      exact ⟨not_value_of_sameWord spelled title, number, nofun⟩

-- So the first occurrence of the keyword is the one that a value follows.
theorem not_value_of_type {type : TypeClause} {words : List Text}
    (written : type.Written words) :
    ∀ word ∈ words, Text.sameWord word "VALUE".toList = false := by
  cases written with
  | field _ _ _ noValue lengthWords decimalsWords ordered =>
      have first := not_value_of_parameter lengthWords
      have second := not_value_of_parameter decimalsWords
      refine List.forall_mem_cons.mpr ⟨noValue, ?_⟩
      rcases ordered with rfl | rfl
      · exact List.forall_mem_append.mpr ⟨first, second⟩
      · exact List.forall_mem_append.mpr ⟨second, first⟩
  | @table standard _ _ _ standardWord isTable isOf _ noValue =>
      refine List.forall_mem_append.mpr ⟨?_, ?_⟩
      · intro word member
        exact not_value_of_sameWord (standardWord word (Option.mem_toList.mp member)) (by decide)
      · simp only [List.forall_mem_cons]
        exact ⟨not_value_of_sameWord isTable (by decide), not_value_of_sameWord isOf (by decide),
          noValue, nofun⟩

end Types

section Values

theorem isWord_value : IsWord "VALUE".toList :=
  Text.isWord_of_isName rfl

theorem ValueWritten.endsWord {value : Option Text} {text : Text}
    (valued : ValueWritten value text) : Text.endsWord text = true := by
  cases valued with
  | absent => rfl
  | given blankBefore someBefore => exact Text.endsWord_append blankBefore someBefore

theorem occurrences_value {gap word rest valueText : Text} {others : List Text}
    {value : Option Text} (blank : Blank gap) (solid : IsWord word) (apart : Apart others rest)
    (noValue : ∀ other ∈ word :: others, Text.sameWord other "VALUE".toList = false)
    (valued : ValueWritten value valueText) :
    Text.occurrences "VALUE".toList (gap ++ (word ++ (rest ++ valueText))) =
      Text.occurrencesFrom "VALUE".toList (gap ++ (word ++ rest)).reverse none valueText := by
  obtain ⟨here, there⟩ := List.forall_mem_cons.mp noValue
  have starts : Text.endsWord (gap.reverse ++ []) = true :=
    Text.endsWord_blank_append (fun c member => blank c (List.mem_reverse.mp member)) rfl
  rw [Text.occurrences, Text.occurrencesFrom_blank isWord_value blank,
    Text.occurrencesFrom_word isWord_value solid starts (apart.endsWord_append valued.endsWord),
    here, apart.occurrencesFrom isWord_value there valued.endsWord]
  simp

theorem splitValue_written {gap word rest valueText : Text} {others : List Text}
    {value : Option Text} (blank : Blank gap) (solid : IsWord word) (apart : Apart others rest)
    (noValue : ∀ other ∈ word :: others, Text.sameWord other "VALUE".toList = false)
    (valued : ValueWritten value valueText) :
    ∃ type, splitValue (gap ++ (word ++ (rest ++ valueText))) = .ok (type, value) ∧
      Text.words type = word :: others := by
  have listed : Text.words (gap ++ (word ++ rest)) = word :: others := by
    rw [Text.words_blank_append blank, apart.words_append solid]
  have found := occurrences_value blank solid apart noValue valued
  cases valued with
  | absent =>
      rw [List.append_nil] at found ⊢
      refine ⟨gap ++ (word ++ rest), ?_, listed⟩
      rw [splitValue, Text.splitAtFirst, found]
      rfl
  | @given before keyword between value blankBefore someBefore spelled blankBetween someBetween
      fits =>
      have starts : Text.endsWord (before.reverse ++ (gap ++ (word ++ rest)).reverse) = true :=
        Text.endsWord_reverse_append blankBefore someBefore
      have ends : Text.endsWord (between ++ value) = true :=
        Text.endsWord_append blankBetween someBetween
      have kept : Text.trim (between ++ value) = value := by
        rw [Text.trim_blank_append blankBetween, fits.trimmed]
      have some : value.isEmpty = false := List.isEmpty_eq_false_iff.mpr fits.nonempty
      rw [Text.occurrencesFrom_blank isWord_value blankBefore, Text.occurrencesFrom_word
        isWord_value (isWord_value.of_sameWord spelled) starts ends, if_pos spelled] at found
      refine ⟨Text.trim (gap ++ (word ++ rest) ++ before), ?_, ?_⟩
      · rw [splitValue, Text.splitAtFirst, found]
        simp [Text.Occurrence.halves, kept, some]
      · rw [Text.words_trim, Text.words_append_gap blankBefore, listed]

end Values

section Whole

/-- A declaration is read back from any text that writes it. -/
theorem read_written {declaration : Declaration} {text : Text}
    (written : declaration.Written text) : Declaration.read text = .ok declaration := by
  obtain @⟨typeWord, _, valueText, _, name, spelled, typed, spaced, valued⟩ := written
  obtain _ | @⟨c, gap, _, _, _, white, blank, typeSolid, apart⟩ := spaced
  cases apart with
  | nil => cases readType_written typed
  | @cons d between word more others dWhite blankBetween solid apart =>
      have nothing : Blank [] := nofun
      obtain ⟨type, split, listed⟩ := splitValue_written blankBetween solid apart
        (not_value_of_type typed) valued
      have first := (Text.isWord_of_isName name).firstWord_append nothing white
        (gap ++ (typeWord ++ d :: (between ++ (word ++ (more ++ valueText)))))
      have second := typeSolid.firstWord_append blank dWhite
        (between ++ (word ++ (more ++ valueText)))
      have shape : readShape (declaration.name ++ (c :: gap ++ (typeWord ++
          (d :: between ++ (word ++ more))) ++ valueText)) = .ok declaration := by
        simp only [List.nil_append, List.append_assoc, List.cons_append] at first second ⊢
        simp only [readShape, first, second, name, spelled, split, listed, readType_written typed]
        rfl
      rw [Declaration.read, shape]

theorem ValueWritten.isItem {value : Option Text} {first text : Text}
    (valued : ValueWritten value text) (start : Text.IsItem ',' first) :
    Text.IsItem ',' (first ++ text) := by
  cases valued with
  | absent =>
      rw [List.append_nil]
      exact start
  | given blankBefore _ spelled blankBetween _ fits =>
      have solid := isWord_value.of_sameWord spelled
      have keyword := solid.isItem (by decide : Text.isNameChar ',' = false)
      exact start.append (keyword.append fits blankBetween (by decide)) blankBefore (by decide)

theorem Written.isItem {declaration : Declaration} {text : Text}
    (written : declaration.Written text) : Text.IsItem ',' text := by
  obtain ⟨name, _, _, spaced, valued⟩ := written
  have start := (Text.isWord_of_isName name).isItem (by decide : Text.isNameChar ',' = false)
  have typed := spaced.isItem start (by decide) (by decide)
  rw [← List.append_assoc]
  exact valued.isItem typed

theorem forall_isItem {declarations : List Declaration} {items : List Text}
    (each : List.Forall₂ Written declarations items) : ∀ item ∈ items, Text.IsItem ',' item := by
  induction each with
  | nil => nofun
  | cons here _ ih => exact List.forall_mem_cons.mpr ⟨here.isItem, ih⟩

theorem readAll_written {declarations : List Declaration} {items : List Text}
    (each : List.Forall₂ Written declarations items) : readAll items = .ok declarations := by
  induction each with
  | nil => rfl
  | cons here _ ih =>
      rw [readAll, read_written here, ih]
      rfl

end Whole

end Declaration

namespace Statement

open Text (Blank)

theorem stripColon_eq {before chain : Text} (blank : Blank before) :
    stripColon (before ++ ':' :: chain) = Text.trim chain := by
  have start : Text.trimStart (':' :: chain) = ':' :: chain := rfl
  simp only [stripColon, Text.trimStart_blank_append blank, start]

theorem chainItems_joined {before after chain : Text} {items : List Text} (blank : Blank before)
    (blankAfter : Blank after) (joined : Text.Joined ',' items chain)
    (all : ∀ item ∈ items, Text.IsItem ',' item) :
    chainItems (before ++ ':' :: (after ++ chain)) = items := by
  rw [chainItems, stripColon_eq blank, Text.trim_blank_append blankAfter,
    (joined.hasSolidEnds all).trim_eq, joined.map_trim_splitOutside all (by decide) (by decide)]
  apply List.filter_eq_self.mpr
  intro item member
  simpa using (all item member).nonempty

-- No name has a colon in it, so what stands before an equals sign is none.
theorem assignment?_of_colon {first : Text} (plain : '=' ∉ first) (rest : Text) :
    assignment? (first ++ ':' :: rest) = none := by
  have unnamed : ∀ more, Text.isName (Text.trim (first ++ [':'] ++ more)) = false := by
    intro more
    have colon : ':' ∈ Text.trim (first ++ [':'] ++ more) :=
      Text.mem_trim (by simp) (by decide)
    exact Text.isName_eq_false colon (by decide)
  have none := assignment?_eq_none (by simpa using plain) unnamed rest
  rwa [List.append_assoc] at none

theorem readData_written {declarations : List Declaration} {items : List Text} {rest : Text}
    (each : List.Forall₂ Declaration.Written declarations items) (some : items ≠ [])
    (listed : chainItems rest = items) (text : Text) :
    readData text rest = .ok (.data declarations) := by
  rw [readData, listed, Declaration.readAll_written each]
  cases each with
  | nil => exact absurd rfl some
  | cons => rfl

/-- A statement that declares variables is read as exactly the declarations it writes. -/
theorem read_data_written {declarations : List Declaration} {text : Text}
    (written : DataWritten declarations text) :
    Statement.read text = .ok (.data declarations) := by
  obtain @⟨opener, before, after, chain, items, opens, blankBefore, blankAfter, each, joined⟩ :=
    written
  have solid := (StatementWord.isWord_title .data).of_sameWord opens
  have opened : StatementWord.ofText? (Text.upper opener) = some .data :=
    StatementWord.ofText?_upper opens
  have ends : Text.endsWord (before ++ ':' :: (after ++ chain)) = true :=
    Text.endsWord_blank_append blankBefore rfl
  have plain : assignment? (opener ++ (before ++ ':' :: (after ++ chain))) = none := by
    rw [← List.append_assoc]
    refine assignment?_of_colon ?_ _
    simp only [List.mem_append, not_or]
    refine ⟨fun member => ?_, fun member => ?_⟩
    · cases solid.letters _ member
    · cases blankBefore _ member
  have listed := chainItems_joined blankBefore blankAfter joined (Declaration.forall_isItem each)
  rw [Statement.read, plain, leadingWord_append solid ends]
  simp only [opened]
  exact readData_written each joined.someItem listed _

-- Variables are named after keywords, the value has a keyword and a comma in it, and the
-- parameters stand the other way round.
theorem read_data_written_named :
    DataWritten
        [⟨"value".toList, .field "p".toList (some 7) (some 2), some "',' & VALUE".toList⟩,
          ⟨"type".toList, .table "i".toList, none⟩]
        "Data :value Type p decimals 2 length 07 value\t',' & VALUE ,type TYPE table OF i".toList ∧
      Statement.read
        "Data :value Type p decimals 2 length 07 value\t',' & VALUE ,type TYPE table OF i".toList =
        .ok (.data
          [⟨"value".toList, .field "p".toList (some 7) (some 2), some "',' & VALUE".toList⟩,
            ⟨"type".toList, .table "i".toList, none⟩]) := by
  have length : Parameter.length.Written (some 7) ["length".toList, "07".toList] :=
    .given (by decide) (by decide) (by decide) (by decide)
  have decimals : Parameter.decimals.Written (some 2) ["decimals".toList, "2".toList] :=
    .given (by decide) (by decide) (by decide) (by decide)
  have fieldType : (TypeClause.field "p".toList (some 7) (some 2)).Written
      ["p".toList, "decimals".toList, "2".toList, "length".toList, "07".toList] :=
    .field rfl (by decide) (by decide) (by decide) length decimals (.inr rfl)
  have tableType : (TypeClause.table "i".toList).Written
      ["table".toList, "OF".toList, "i".toList] :=
    @TypeClause.Written.table none _ _ _ nofun (by decide) (by decide) rfl (by decide)
  have initial : Declaration.ValueWritten (some "',' & VALUE".toList)
      (" ".toList ++ ("value".toList ++ ("\t".toList ++ "',' & VALUE".toList))) :=
    .given (by decide) (by decide) (by decide) (by decide) (by decide) (by decide)
  have first := @Declaration.Written.mk ⟨"value".toList, _, _⟩ "Type".toList _ _ _ rfl
    (by decide) fieldType (Text.apart_flatMap (by decide)) initial
  have second := @Declaration.Written.mk ⟨"type".toList, _, _⟩ "TYPE".toList _ _ _ rfl
    (by decide) tableType (Text.apart_flatMap (by decide)) .absent
  have written := @DataWritten.mk _ "Data".toList " ".toList [] _ _ (by decide) (by decide)
    (by decide) (.cons first (.cons second .nil))
    (@Text.Joined.cons ',' _ " ".toList [] _ _ (by decide) (by decide) (.one _))
  exact ⟨written, read_data_written written⟩

end Statement

end MiniAbap
