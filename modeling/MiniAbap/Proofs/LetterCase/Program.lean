import MiniAbap.Program
import MiniAbap.Proofs.LetterCase.Run
import MiniAbap.Proofs.Source.Line

/-!
Programs that differ in the case of letters outside literals. A literal counts
where it is part of a statement: not in a comment line, nor in the remark that a
double quote starts. Where every line closes the quotes it opens, such programs
are split at the same places, and their runs show the same.
-/

namespace MiniAbap

open Text (lower)

namespace Source

def Closed (source : Text) : Prop :=
  ∀ line ∈ Text.lines source, isCommentLine line = false →
    Text.closesQuotes (beforeRemark none line) = true

/-- Line by line, the texts differ in the case of letters outside literals only. -/
structure Recased (source other : Text) : Prop where
  same : lower source = lower other
  literals : List.Forall₂ (fun line line' => isCommentLine line = true ∨
    Text.Recased none (beforeRemark none line) (beforeRemark none line'))
    (Text.lines source) (Text.lines other)

section Splitting

theorem lines_lower (text : Text) : Text.lines (lower text) = (Text.lines text).map lower := by
  induction length : text.length using Nat.strong_induction_on generalizing text with
  | _ length ih =>
      cases text with
      | nil => rfl
      | cons c rest =>
          subst length
          have later := ih rest.length (by simp) rest rfl
          rcases Text.line_cases c rest with rfl | ⟨rfl, more, rfl⟩ | ⟨inside, alone⟩
          · exact congrArg ([] :: ·) later
          · exact congrArg ([] :: ·) (ih more.length (by simp) more rfl)
          · -- Neither end-of-line character is a letter.
            have fold := Char.toLower_toLower_eq_toLower c
            have inside' : c.toLower ≠ '\n' := mt (Text.eq_sign_iff fold (by decide)).mp inside
            have alone' : c.toLower = '\r' → (lower rest).head? ≠ some '\n' := fun returns =>
              mt (Text.head?_lower_iff (by decide) rest).mp
                (alone ((Text.eq_sign_iff fold (by decide)).mp returns))
            rw [Text.lines_cons inside alone]
            change Text.lines (c.toLower :: lower rest) = _
            rw [Text.lines_cons inside' alone', later]
            cases Text.lines rest <;> rfl

theorem lines_alike {source other : Text} (same : lower source = lower other) :
    List.Forall₂ (fun line line' => lower line = lower line') (Text.lines source)
      (Text.lines other) := by
  have lists : (Text.lines source).map lower = (Text.lines other).map lower := by
    rw [← lines_lower, same, lines_lower]
  rw [← List.forall₂_eq_eq_eq, List.forall₂_map_left_iff, List.forall₂_map_right_iff] at lists
  exact lists

theorem isCommentLine_eq {line line' : Text} (same : lower line = lower line') :
    isCommentLine line = isCommentLine line' := by
  have letterless : ('*').isAlpha = false := by decide
  rw [isCommentLine, isCommentLine, Bool.eq_iff_iff, beq_iff_eq, beq_iff_eq,
    ← Text.head?_lower_iff letterless, Text.lower_trimStart, same, ← Text.lower_trimStart,
    Text.head?_lower_iff letterless]

inductive PiecesRecased : Option Char → List Piece → List Piece → Prop where
  | nil (quote : Option Char) : PiecesRecased quote [] []
  | stop {rest other : List Piece} (others : PiecesRecased none rest other) :
      PiecesRecased none (.stop :: rest) (.stop :: other)
  | char {quote : Option Char} {c d : Char} {rest other : List Piece}
      (same : c.toLower = d.toLower) (literal : quote ≠ none → c = d)
      (others : PiecesRecased (Text.advance quote c) rest other) :
      PiecesRecased quote (.char c :: rest) (.char d :: other)

theorem isDecimalPoint_eq {previous previous' : Option Char} {rest other : Text}
    (before : previous.any Char.isDigit = previous'.any Char.isDigit)
    (same : lower rest = lower other) :
    isDecimalPoint previous rest = isDecimalPoint previous' other := by
  rw [isDecimalPoint, before, ← Text.insensitive_isDigit.head_lower rest, same,
    Text.insensitive_isDigit.head_lower, isDecimalPoint]

-- The line leaves no quote open, so the pieces after it start outside literals.
theorem piecesRecased_line {quote previous previous' : Option Char} {line other : Text}
    (recased : Text.Recased quote line other)
    (before : previous.any Char.isDigit = previous'.any Char.isDigit)
    (closed : Text.advanceAll quote line = none) {more more' : List Piece}
    (after : PiecesRecased none more more') :
    PiecesRecased quote (piecesFrom quote previous line ++ more)
      (piecesFrom quote previous' other ++ more') := by
  induction recased generalizing previous previous' with
  | nil quote =>
      obtain rfl : quote = none := closed
      exact after
  | @cons quote c d rest other same literal others ih =>
      have quotes : (c == '"') = (d == '"') := Text.insensitive_beq (by decide) c d same
      have stops : (c == '.') = (d == '.') := Text.insensitive_beq (by decide) c d same
      have digits : (some c).any Char.isDigit = (some d).any Char.isDigit :=
        Text.insensitive_isDigit c d same
      have points := isDecimalPoint_eq before others.lower_eq
      have later := ih digits closed
      simp only [piecesFrom, quotes, stops, points]
      split
      · next remark =>
          simp only [Bool.and_eq_true, Option.isNone_iff_eq_none] at remark
          rw [remark.1]
          exact after
      · split
        · next stop =>
            simp only [Bool.and_eq_true, Option.isNone_iff_eq_none, ← stops, beq_iff_eq] at stop
            obtain ⟨⟨rfl, rfl⟩, _⟩ := stop
            exact .stop later
        · rw [Text.Recased.advance_eq same literal] at later ⊢
          refine .char same literal ?_
          rw [Text.Recased.advance_eq same literal]
          exact later

theorem piecesRecased_lines {lines lines' : List Text}
    (closed : ∀ line ∈ lines, isCommentLine line = false →
      Text.closesQuotes (beforeRemark none line) = true)
    (same : List.Forall₂ (fun line line' => lower line = lower line') lines lines')
    (literals : List.Forall₂ (fun line line' => isCommentLine line = true ∨
      Text.Recased none (beforeRemark none line) (beforeRemark none line')) lines lines') :
    PiecesRecased none (lines.flatMap linePieces) (lines'.flatMap linePieces) := by
  induction same with
  | nil => exact .nil none
  | @cons line line' rest rest' here _ ih =>
      obtain ⟨closes, others⟩ := List.forall_mem_cons.mp closed
      obtain _ | ⟨outside, following⟩ := literals
      have later := ih others following
      simp only [List.flatMap_cons, linePieces, ← isCommentLine_eq here]
      split
      · exact later
      · next comment =>
          have recased := outside.resolve_left comment
          have ended := closes (Bool.eq_false_iff.mpr comment)
          rw [List.append_assoc, List.append_assoc, ← piecesFrom_beforeRemark none none line,
            ← piecesFrom_beforeRemark none none line']
          apply piecesRecased_line recased rfl (Option.isNone_iff_eq_none.mp ended)
          exact .char rfl (fun _ => rfl) later

theorem PiecesRecased.chunks {quote : Option Char} {list list' : List Piece}
    (recased : PiecesRecased quote list list') :
    ∃ one others one' others', chunks list = one :: others ∧ chunks list' = one' :: others' ∧
      Text.Recased quote one one' ∧ List.Forall₂ (Text.Recased none) others others' := by
  induction recased with
  | nil quote => exact ⟨[], [], [], [], rfl, rfl, .nil quote, .nil⟩
  | stop _ ih =>
      obtain ⟨one, others, one', others', left, right, head, tail⟩ := ih
      refine ⟨[], one :: others, [], one' :: others', ?_, ?_, .nil none, .cons head tail⟩
      · rw [Source.chunks, left]
      · rw [Source.chunks, right]
  | char same literal _ ih =>
      obtain ⟨one, others, one', others', left, right, head, tail⟩ := ih
      refine ⟨_ :: one, others, _ :: one', others', ?_, ?_, .cons same literal head, tail⟩
      · rw [Source.chunks, left]
        rfl
      · rw [Source.chunks, right]
        rfl

theorem squeeze_alike {quote : Option Char} {first second : Text}
    (recased : Text.Recased quote first second) (pending : Bool)
    (outside : pending = true → quote = none) :
    Text.Recased quote (squeeze quote pending first) (squeeze quote pending second) := by
  induction recased generalizing pending with
  | nil quote => exact .nil quote
  | @cons quote c d rest other same literal _ ih =>
      simp only [squeeze, ← Text.insensitive_isBlank c d same]
      split
      · next white =>
          simp only [Bool.and_eq_true, Option.isNone_iff_eq_none] at white
          obtain ⟨rfl, blank⟩ := white
          rw [Text.advance_of_isBlank blank] at ih
          exact ih true fun _ => rfl
      · have kept : Text.Recased quote (c :: squeeze (Text.advance quote c) false rest)
            (d :: squeeze (Text.advance quote d) false other) := by
          rw [← Text.Recased.advance_eq same literal]
          exact .cons same literal (ih false nofun)
        split
        · next after =>
            obtain rfl := outside after
            exact .cons rfl (fun _ => rfl) kept
        · exact kept

theorem statements_alike {source other : Text} (closed : Closed source)
    (recased : Recased source other) :
    List.Forall₂ (Text.Recased none) (statements source) (statements other) := by
  obtain ⟨one, others, one', others', left, right, head, tail⟩ :=
    (piecesRecased_lines closed (lines_alike recased.same) recased.literals).chunks
  have texts : List.Forall₂ (Text.Recased none) (chunks (pieces source))
      (chunks (pieces other)) := by
    rw [pieces, pieces, left, right]
    exact .cons head tail
  apply Text.recased_filter
  rw [List.forall₂_map_left_iff, List.forall₂_map_right_iff]
  exact texts.imp fun _ _ alike => squeeze_alike alike.trim false nofun

end Splitting

end Source

namespace Program

theorem shownState?_alike {nodes nodes' : List Node} (limit : Nat)
    (alike : List.Forall₂ Node.Recased nodes nodes') {start start' : State}
    (states : start.Recased start') :
    Option.Rel State.Recased (shownState? limit nodes start)
      (shownState? limit nodes' start') := by
  have outcomes := Block.runsAlike limit nodes alike start start' states
  unfold shownState? crashes finalState
  generalize Block.run limit nodes start = outcome at outcomes
  generalize Block.run limit nodes' start' = outcome' at outcomes
  cases outcomes with
  | done last => exact .some last
  | failed faults last => exact .some (last.record faults)
  | exhausted last => exact .some (last.record (.passLimit limit))
  | crashed last => exact .none

theorem diagnostics_alike {state state' : State} (states : state.Recased state') :
    List.Forall₂ (SameMessage id) state.diagnostics state'.diagnostics := by
  rw [State.diagnostics, State.diagnostics, List.forall₂_map_left_iff,
    List.forall₂_map_right_iff]
  exact (List.rel_reverse states.faults).imp fun _ _ fault => fault.sameMessage

/-- The case of letters outside literals does not matter to a run: the output stays the
    same, and the diagnostics stay the same but for case. Where one crashes, so does the
    other. -/
theorem run_ignores_case (limit : Nat) {source other : Text} (closed : Source.Closed source)
    (recased : Source.Recased source other) :
    Option.Rel (fun report report' => report.output = report'.output ∧
      report.diagnostics.length = report'.diagnostics.length ∧
      List.Forall₂ (fun message message' => lower message.toList = lower message'.toList)
        report.diagnostics report'.diagnostics) (run limit source) (run limit other) := by
  have blocks := Block.ofStatements_alike (Source.statements_alike closed recased)
  simp only [run, read]
  rcases blocks.result_cases with
    ⟨error, error', built, built', errors⟩ | ⟨nodes, nodes', built, built', alike⟩
  · simp only [built, built']
    exact .some ⟨rfl, rfl, .cons errors.sameMessage .nil⟩
  · have start : State.Recased {} {} := ⟨rfl, rfl, .nil, rfl⟩
    have shown := shownState?_alike limit alike start
    simp only [built, built']
    generalize shownState? limit nodes {} = one at shown ⊢
    generalize shownState? limit nodes' {} = one' at shown ⊢
    cases shown with
    | none => exact .none
    | some states =>
        have messages := diagnostics_alike states
        exact .some ⟨congrArg Output.render states.output, messages.length_eq, messages⟩

-- The remark and the comment line each hold a quote of their own.
def greeting : Text :=
  "write 'Hi'. \" it's
* don't
clear me.".toList

def loudGreeting : Text :=
  "WRITE 'Hi'. \" IT'S
* Don't
Clear ME.".toList

theorem run_ignores_case_greeting :
    Source.Closed greeting ∧ Source.Recased greeting loudGreeting ∧
      ∃ report report', run 1 greeting = some report ∧ run 1 loudGreeting = some report' ∧
        report.output = "Hi".toList ∧ report.output = report'.output ∧
        report.diagnostics ≠ report'.diagnostics ∧
        report.diagnostics.length = report'.diagnostics.length ∧
        List.Forall₂ (fun message message' => lower message.toList = lower message'.toList)
          report.diagnostics report'.diagnostics := by
  have closed : Source.Closed greeting := by
    rw [Source.Closed]
    decide +kernel
  have recased : Source.Recased greeting loudGreeting :=
    ⟨by decide +kernel, by decide +kernel⟩
  have quiet : (run 1 greeting).map Report.output = some "Hi".toList := by decide +kernel
  have differ : (run 1 greeting).map Report.diagnostics ≠
      (run 1 loudGreeting).map Report.diagnostics := by
    decide +kernel
  have same := run_ignores_case 1 closed recased
  generalize run 1 greeting = one at same quiet differ ⊢
  generalize run 1 loudGreeting = one' at same differ ⊢
  cases same with
  | none => cases quiet
  | @some report report' same =>
      obtain ⟨output, count, messages⟩ := same
      refine ⟨closed, recased, report, report', rfl, rfl, Option.some.inj quiet, output, ?_,
        count, messages⟩
      exact fun alike => differ (congrArg some alike)

end Program

end MiniAbap
