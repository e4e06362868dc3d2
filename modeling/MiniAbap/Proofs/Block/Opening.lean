import MiniAbap.Proofs.Block.Grammar
import MiniAbap.Proofs.Expr.Grammar
import MiniAbap.Proofs.Statement.Target
import MiniAbap.Proofs.Text.Separator
import MiniAbap.Proofs.Token.Occurrence

/-!
Written openings of blocks. The condition or the count of a block is found by its keywords
and not by the grammar of expressions, so the two have to agree on every expression: it
never looks like the right side of an assignment, it closes its literals before the keyword
that ends it, and it hides no keyword at its own end unless its last token is one.
-/

namespace MiniAbap

section Written

structure Text.IsExpression (text : Text) : Prop where
  trimmed : trim text = text
  accepted : ∃ expr, Expr.read text = .ok expr

def Text.EndsInName (keyword text : Text) : Prop :=
  ∃ tokens word, Token.scan text = .ok tokens ∧ tokens.getLast? = some (.name word) ∧
    sameWord word keyword = true

inductive Text.Headed (keyword rest : Text) : Text → Prop where
  | mk {word gap : Text} (spelled : sameWord word keyword = true) (blank : Blank gap)
      (filled : gap ≠ []) : Headed keyword rest (word ++ (gap ++ rest))

inductive Text.Ended (keyword first : Text) : Text → Prop where
  | mk {gap word : Text} (blank : Blank gap) (filled : gap ≠ [])
      (spelled : sameWord word keyword = true) : Ended keyword first (first ++ (gap ++ word))

inductive BlockWord.ConditionWritten (word : BlockWord) (condition text : Text) : Prop where
  | bare (headed : Text.Headed word.title.toList condition text)
      (other : ¬ Text.EndsInName "THEN".toList condition)
  | ended {rest : Text} (headed : Text.Headed word.title.toList rest text)
      (ends : Text.Ended "THEN".toList condition rest)

inductive Branch.Written : Branch → Text → Prop where
  | condition {condition text : Text} (fits : condition.IsExpression)
      (written : BlockWord.openIf.ConditionWritten condition text) :
      Written (.clause [] condition) text
  | counted {word : LoopWord} {count rest text : Text} (fits : count.IsExpression)
      (noTable : word = .loopWord →
        (Text.words count).head?.any (Text.sameWord "AT".toList) = false)
      (headed : Text.Headed word.title.toList rest text)
      (ends : Text.Ended "TIMES".toList count rest) :
      Written (.counted word count) text
  | overRows {table workArea atWord intoWord tail text : Text}
      (tableName : Text.isName table = true) (areaName : Text.isName workArea = true)
      (isAt : Text.sameWord atWord "AT".toList = true)
      (isInto : Text.sameWord intoWord "INTO".toList = true)
      (headed : Text.Headed LoopWord.loopWord.title.toList (atWord ++ tail) text)
      (apart : Text.Apart [table, intoWord, workArea] tail) :
      Written (.overRows table workArea) text

end Written

section Expressions

theorem Phrase.exists_head {rank : Rank} (phrase : Phrase rank) :
    ∃ token rest, phrase.tokens = token :: rest ∧ token ≠ .operator .equal := by
  induction phrase with
  | number | literal | name => exact ⟨_, _, rfl, nofun⟩
  | signed sign inner _ =>
      refine ⟨_, _, rfl, ?_⟩
      cases sign <;> nofun
  | group inner _ => exact ⟨_, _, rfl, nofun⟩
  | factor _ ih | term _ ih | side _ ih => exact ih
  | product left op _ right ih _ | sum left op _ right ih _ | comparison left op _ right ih _ =>
      obtain ⟨token, rest, first, other⟩ := ih
      exact ⟨token, _, congrArg (· ++ _) first, other⟩

-- Two equals signs are an operator of another language, so one that scans is a token.
theorem Token.Scanned.head_equal {tokens : List Token} {text : Text}
    (scanned : Scanned tokens ('=' :: text) []) :
    ∃ rest, tokens = .operator .equal :: rest := by
  generalize whole : '=' :: text = source at scanned
  cases scanned with
  | nil spaces =>
      rw [List.append_nil] at whole
      cases spaces '=' (whole ▸ List.mem_cons_self)
  | @cons pattern token tokens gap spelling after _ spaces takes meaning _ =>
      cases gap with
      | cons c gap =>
          obtain ⟨rfl, _⟩ := List.cons.inj whole
          cases spaces '=' List.mem_cons_self
      | nil =>
          have starts : spelling <+: '=' :: text := by
            rw [whole]
            exact List.prefix_append _ _
          have family := takes.matched.family_eq starts
          cases takes.matched with
          | operator op =>
              cases meaning
              cases op with
              | equal => exact ⟨_, rfl⟩
              | _ => cases (List.cons_prefix_cons.mp starts).1
          | leftParen | rightParen => cases (List.cons_prefix_cons.mp starts).1
          | foreign => cases meaning
          | digits | pointed | fraction | literal | openLiteral | name => cases family

namespace Text.IsExpression

variable {text : Text}

theorem exists_scan (fits : text.IsExpression) :
    ∃ tokens token rest, Token.scan text = .ok tokens ∧ tokens = token :: rest ∧
      token ≠ .operator .equal := by
  obtain ⟨expr, accepted⟩ := fits.accepted
  unfold Expr.read at accepted
  split at accepted
  · cases accepted
  · next tokens scanned =>
      split at accepted
      · cases accepted
      · next found =>
          obtain ⟨_, _, phrase, spelled, _⟩ := (Expr.ofTokens_eq_ok_iff _ _).mp found
          obtain ⟨token, rest, first, other⟩ := phrase.exists_head
          exact ⟨tokens, token, rest, scanned, spelled ▸ first, other⟩

/-- What is read as an expression can stand as an operand. -/
theorem isOperand (fits : text.IsExpression) : text.IsOperand := by
  obtain ⟨tokens, token, rest, scanned, rfl, other⟩ := fits.exists_scan
  have whole := (Token.scan_eq_ok_iff _ _).mp scanned
  constructor
  · rintro rfl
    cases whole.eq_nil
  · exact fits.trimmed
  · exact Option.isNone_iff_eq_none.mpr whole.closed
  · intro first
    obtain ⟨more, rfl⟩ := List.head?_eq_some_iff.mp first
    obtain ⟨_, same⟩ := whole.head_equal
    exact other (List.cons.inj same).1

end Text.IsExpression

end Expressions

namespace Text

variable {keyword first text : Text}

theorem Ended.exists_append (ends : Ended keyword first text) : ∃ more, text = first ++ more := by
  cases ends
  exact ⟨_, rfl⟩

theorem Ended.trim_eq (known : IsWord keyword) (fits : first.IsOperand)
    (ends : Ended keyword first text) : trim text = text := by
  cases ends with
  | @mk gap word _ _ spelled =>
      have solid := known.of_sameWord spelled
      have start : HasSolidEnds first := fits.trimmed ▸ hasSolidEnds_trim first
      exact (start.append solid.hasSolidEnds fits.nonempty solid.nonempty gap).trim_eq

theorem Ended.stripTrailing (known : IsWord keyword) (fits : first.IsOperand)
    (ends : Ended keyword first text) : stripTrailing keyword text = some first := by
  cases ends with
  | mk blank filled spelled =>
      have start : HasSolidEnds first := fits.trimmed ▸ hasSolidEnds_trim first
      exact stripTrailing_append known spelled (Option.isNone_iff_eq_none.mp fits.closed)
        start.trimEnd_eq blank filled

-- White space follows the expression, so its first word is the first word of the whole.
theorem Ended.head?_words (fits : first.IsOperand) (ends : Ended keyword first text) :
    (words text).head? = (words first).head? := by
  cases ends with
  | @mk gap word blank filled _ =>
      obtain ⟨white, spaces, rfl⟩ := List.exists_cons_of_ne_nil filled
      obtain ⟨c, more, rfl⟩ := List.exists_cons_of_ne_nil fits.nonempty
      have visible : isBlank c = false :=
        (fits.trimmed ▸ hasSolidEnds_trim (c :: more)).first c rfl
      have divided : words (c :: more ++ (white :: spaces ++ word)) =
          words (c :: more) ++ words (spaces ++ word) :=
        words_append (blank white List.mem_cons_self) _ _
      rw [divided, List.head?_append_of_ne_nil _ (words_cons_ne_nil visible more)]

theorem IsWord.isOperand {word : Text} (solid : IsWord word) : word.IsOperand := by
  constructor
  · exact solid.nonempty
  · exact solid.hasSolidEnds.trim_eq
  · exact Option.isNone_iff_eq_none.mpr (advanceAll_of_no_quote solid.plain)
  · intro here
    cases solid.letters '=' (List.mem_of_mem_head? here)

end Text

theorem BlockWord.isWord_title (word : BlockWord) : Text.IsWord word.title.toList := by
  cases word with
  | openIf | elseIf | elseWord => exact Text.isWord_of_isName rfl
  | openLoop word => cases word <;> exact Text.isWord_of_isName rfl
  | close terminator => cases terminator <;> exact Text.isWord_of_isName rfl

theorem BlockWord.upper_eq {word : BlockWord} {opener : Text}
    (opens : Text.sameWord opener word.title.toList = true) :
    Text.upper opener = word.title.toList := by
  have folded : Text.lower opener = Text.lower word.title.toList := beq_iff_eq.mp opens
  rw [← Text.upper_lower, folded]
  cases word with
  | openIf | elseIf | elseWord => decide
  | openLoop word => cases word <;> decide
  | close terminator => cases terminator <;> decide

/-- A block word heads what is written behind it, unless that could be the right side of an
    assignment. -/
theorem BlockWord.heads_of_headed {word : BlockWord} {operand more text : Text}
    (fits : operand.IsOperand) (trimmed : Text.trim (operand ++ more) = operand ++ more)
    (headed : Text.Headed word.title.toList (operand ++ more) text) :
    word.Heads text (operand ++ more) := by
  cases headed with
  | mk spelled blank filled =>
      have solid := word.isWord_title.of_sameWord spelled
      have plain := Statement.assignment?_of_operand solid blank filled fits more
      have leading := Statement.leadingWord_append solid
        (Text.endsWord_append blank filled : Text.endsWord (_ ++ (operand ++ more)) = true)
      constructor
      · rw [Statement.isAssignment, plain]
        rfl
      constructor
      · rw [leading, upper_eq spelled]
      · rw [leading, Text.trim_blank_append blank, trimmed]

theorem BlockWord.Heads.not_isPlain {word : BlockWord} {text rest : Text}
    (heads : word.Heads text rest) : ¬ Statement.IsPlain text := by
  obtain ⟨noAssignment, same, _⟩ := heads
  rintro (assigned | other)
  · rw [noAssignment] at assigned
    cases assigned
  · exact other word same

namespace Builder

section Reading

variable {word : BlockWord} {condition count rest text : Text}

theorem isWord_then : Text.IsWord "THEN".toList :=
  Text.isWord_of_isName rfl

theorem isWord_times : Text.IsWord "TIMES".toList :=
  Text.isWord_of_isName rfl

theorem isWord_at : Text.IsWord "AT".toList :=
  Text.isWord_of_isName rfl

theorem readCondition_bare (fits : condition.IsExpression)
    (other : ¬ Text.EndsInName "THEN".toList condition) :
    readCondition word text condition = .ok condition := by
  obtain ⟨tokens, _, _, scanned, _⟩ := fits.exists_scan
  have start : Text.HasSolidEnds condition := fits.trimmed ▸ Text.hasSolidEnds_trim condition
  have kept : Text.stripTrailing "THEN".toList condition = none := by
    apply Token.stripTrailing_eq_none rfl scanned start.trimEnd_eq
    intro last ends
    cases same : Text.sameWord last "THEN".toList with
    | false => rfl
    | true => exact absurd ⟨tokens, last, scanned, ends, same⟩ other
  have some : condition.isEmpty = false := List.isEmpty_eq_false_iff.mpr fits.isOperand.nonempty
  simp only [readCondition, kept, Option.getD_none, fits.trimmed, some]
  rfl

theorem readCondition_ended (fits : condition.IsExpression)
    (ends : Text.Ended "THEN".toList condition rest) :
    readCondition word text rest = .ok condition := by
  have kept := ends.stripTrailing isWord_then fits.isOperand
  have some : condition.isEmpty = false := List.isEmpty_eq_false_iff.mpr fits.isOperand.nonempty
  simp only [readCondition, kept, Option.getD_some, fits.trimmed, some]
  rfl

/-- A written condition is found behind its word, as it was written. -/
theorem readCondition_written (fits : condition.IsExpression)
    (written : word.ConditionWritten condition text) :
    ∃ rest, word.Heads text rest ∧ readCondition word text rest = .ok condition := by
  have operand := fits.isOperand
  cases written with
  | bare headed other =>
      rw [← List.append_nil condition] at headed
      have heads := BlockWord.heads_of_headed operand (by simpa using fits.trimmed) headed
      rw [List.append_nil] at heads
      exact ⟨condition, heads, readCondition_bare fits other⟩
  | @ended rest headed ends =>
      have trimmed := ends.trim_eq isWord_then operand
      have read : readCondition word text rest = .ok condition := readCondition_ended fits ends
      obtain ⟨more, rfl⟩ := ends.exists_append
      exact ⟨_, BlockWord.heads_of_headed operand trimmed headed, read⟩

theorem readCounted_ended (word : LoopWord) (fits : count.IsExpression)
    (ends : Text.Ended "TIMES".toList count rest) :
    readCounted word text rest = .ok (.counted word count) := by
  have operand := fits.isOperand
  have kept := ends.stripTrailing isWord_times operand
  have some : count.isEmpty = false := List.isEmpty_eq_false_iff.mpr operand.nonempty
  have someRest : rest.isEmpty = false := by
    obtain ⟨more, rfl⟩ := ends.exists_append
    exact List.isEmpty_eq_false_iff.mpr (List.append_ne_nil_of_left_ne_nil operand.nonempty _)
  simp only [readCounted, someRest, kept, some]
  rfl

theorem readLoop_counted (fits : count.IsExpression)
    (noTable : (Text.words count).head?.any (Text.sameWord "AT".toList) = false)
    (ends : Text.Ended "TIMES".toList count rest) :
    readLoop text rest = .ok (.counted .loopWord count) := by
  have same := ends.head?_words fits.isOperand
  simp only [readLoop, same, noTable, readCounted_ended .loopWord fits ends]
  rfl

theorem readLoop_overRows {table workArea atWord intoWord tail : Text}
    (tableName : Text.isName table = true) (areaName : Text.isName workArea = true)
    (isAt : Text.sameWord atWord "AT".toList = true)
    (isInto : Text.sameWord intoWord "INTO".toList = true)
    (apart : Text.Apart [table, intoWord, workArea] tail) :
    readLoop text (atWord ++ tail) = .ok (.overRows table workArea) := by
  have listed := apart.words_append (isWord_at.of_sameWord isAt)
  have same : Text.sameWord "AT".toList atWord = true := by
    rw [Text.sameWord_comm]
    exact isAt
  simp only [readLoop, listed, List.head?_cons, Option.any_some, same, isInto, tableName, areaName]
  rfl

end Reading

section Steps

variable {branch : Branch} {text : Text}

/-- A written opening opens its branch. -/
theorem opens_of_written (written : branch.Written text) : Opens text branch := by
  cases written with
  | condition fits written =>
      obtain ⟨rest, heads, read⟩ := readCondition_written fits written
      exact .ifClause heads read
  | @counted word count rest _ fits noTable headed ends =>
      have trimmed := ends.trim_eq isWord_times fits.isOperand
      have heads : (BlockWord.openLoop word).Heads text rest := by
        obtain ⟨more, rfl⟩ := ends.exists_append
        exact BlockWord.heads_of_headed fits.isOperand trimmed headed
      cases word with
      | doWord => exact .doTimes heads (readCounted_ended .doWord fits ends)
      | loopWord => exact .loopTimes heads (readLoop_counted fits (noTable rfl) ends)
  | overRows tableName areaName isAt isInto headed apart =>
      have solid := isWord_at.of_sameWord isAt
      have item := apart.isItem (solid.isItem (by decide : Text.isNameChar ',' = false)) (by decide)
        (by decide)
      have heads : (BlockWord.openLoop .loopWord).Heads text _ :=
        BlockWord.heads_of_headed solid.isOperand item.trimmed headed
      exact .loopAt heads (readLoop_overRows tableName areaName isAt isInto apart)

theorem Opens.not_isPlain (opens : Opens text branch) : ¬ Statement.IsPlain text := by
  cases opens with
  | ifClause heads | doTimes heads | loopTimes heads | loopAt heads => exact heads.not_isPlain

/-- A statement that is written around an expression or two names opens a block for exactly
    these, and one that is written so inside a conditional starts a clause for them. -/
theorem step_written (builder : Builder) :
    (∀ branch text, branch.Written text → builder.blocks.length < deepestBlock →
      ¬ Statement.IsPlain text ∧
        builder.step text =
          .ok { builder with blocks := ⟨text, branch, []⟩ :: builder.blocks }) ∧
    (∀ (condition text : Text) block outer earlier former, condition.IsExpression →
      BlockWord.elseIf.ConditionWritten condition text → builder.blocks = block :: outer →
      block.branch = .clause earlier former →
      ¬ Statement.IsPlain text ∧
        builder.step text = .ok { builder with
          blocks := ⟨block.opening, .clause (earlier ++ [.mk former block.body]) condition, []⟩ ::
            outer }) := by
  constructor
  · intro branch text written room
    have opens := opens_of_written written
    exact ⟨opens.not_isPlain, step_of_stepsTo _ _ _ (.opening opens room)⟩
  · intro condition text block outer earlier former fits written stack current
    obtain ⟨rest, heads, read⟩ := readCondition_written fits written
    exact ⟨heads.not_isPlain,
      step_of_stepsTo _ _ _ (.dividing (.elseIf heads read) stack current)⟩

-- A variable has the name of a keyword, and a literal has the other one and a sign in it.
theorem step_written_named :
    Text.IsExpression "then = 'a = b TIMES'".toList ∧
      step {} "If then = 'a = b TIMES' \tthen".toList =
        .ok ⟨[], [⟨"If then = 'a = b TIMES' \tthen".toList,
          .clause [] "then = 'a = b TIMES'".toList, []⟩]⟩ ∧
      step ⟨[], [⟨"IF x".toList, .clause [] "x".toList, []⟩]⟩
          "elseif then = 'a = b TIMES'".toList =
        .ok ⟨[], [⟨"IF x".toList,
          .clause [.mk "x".toList []] "then = 'a = b TIMES'".toList, []⟩]⟩ ∧
      step {} "LOOP then = 'a = b TIMES' Times".toList =
        .ok ⟨[], [⟨"LOOP then = 'a = b TIMES' Times".toList,
          .counted .loopWord "then = 'a = b TIMES'".toList, []⟩]⟩ ∧
      step {} "Loop at into into at".toList =
        .ok ⟨[], [⟨"Loop at into into at".toList, .overRows "into".toList "at".toList, []⟩]⟩ := by
  have fits : Text.IsExpression "then = 'a = b TIMES'".toList :=
    ⟨by decide, .binary .equal (.name "then".toList) (.literal "a = b TIMES".toList), by cbv⟩
  have ends : ¬ Text.EndsInName "THEN".toList "then = 'a = b TIMES'".toList := by
    rintro ⟨tokens, word, scanned, last, _⟩
    have tokenized : Token.scan "then = 'a = b TIMES'".toList =
      .ok [.name "then".toList, .operator .equal, .literal "a = b TIMES".toList] := by cbv
    rw [tokenized] at scanned
    cases scanned
    cases last
  have opening : Branch.Written (.clause [] "then = 'a = b TIMES'".toList)
      "If then = 'a = b TIMES' \tthen".toList :=
    .condition fits (.ended
      (@Text.Headed.mk _ _ "If".toList " ".toList (by decide) (by decide) (by decide))
      (@Text.Ended.mk _ _ " \t".toList "then".toList (by decide) (by decide) (by decide)))
  have clause : BlockWord.elseIf.ConditionWritten "then = 'a = b TIMES'".toList
      "elseif then = 'a = b TIMES'".toList :=
    .bare (@Text.Headed.mk _ _ "elseif".toList " ".toList (by decide) (by decide) (by decide)) ends
  have counted : Branch.Written (.counted .loopWord "then = 'a = b TIMES'".toList)
      "LOOP then = 'a = b TIMES' Times".toList :=
    .counted fits (fun _ => by decide)
      (@Text.Headed.mk _ _ "LOOP".toList " ".toList (by decide) (by decide) (by decide))
      (@Text.Ended.mk _ _ " ".toList "Times".toList (by decide) (by decide) (by decide))
  have overRows : Branch.Written (.overRows "into".toList "at".toList)
      "Loop at into into at".toList :=
    @Branch.Written.overRows _ _ "at".toList "into".toList _ _ rfl rfl (by decide) (by decide)
      (@Text.Headed.mk _ _ "Loop".toList " ".toList (by decide) (by decide) (by decide))
      (Text.apart_flatMap (by decide))
  exact ⟨fits, ((step_written {}).1 _ _ opening (by decide)).2,
    ((step_written ⟨[], [⟨"IF x".toList, .clause [] "x".toList, []⟩]⟩).2 _ _ _ _ _ _ fits clause
      rfl rfl).2,
    ((step_written {}).1 _ _ counted (by decide)).2,
    ((step_written {}).1 _ _ overRows (by decide)).2⟩

end Steps

end Builder

end MiniAbap
