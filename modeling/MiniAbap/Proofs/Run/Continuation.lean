import MiniAbap.Proofs.Block.Append
import MiniAbap.Proofs.Run.LargerBudget
import MiniAbap.Proofs.Source.Append

/-!
A program and a longer one that begins with it. The statements of the longer one
are those of the two parts, and so are its nodes; its run begins with the run of
the first part, so it only adds to what that shows, unless the second part crashes
and takes all of it along.
-/

namespace MiniAbap

namespace Program

-- A run that the budget stops in the first part is stopped there whatever follows.
theorem growsTo_append (limit : Nat) (first second : List Node) (start : State) :
    (finalState limit first start).GrowsTo (finalState limit (first ++ second) start) := by
  have longer := growsTo_finalState limit (first ++ second) start
  rw [Block.run_append] at longer
  simp only [finalState, Block.run_append] at longer ⊢
  generalize Block.run limit first start = outcome at longer ⊢
  cases outcome with
  | done last => exact (Block.grows limit second last).trans longer
  | failed fault last => exact .refl _
  | exhausted last | crashed last => exact .refl _

theorem crashes_append {limit : Nat} {first : List Node} {start : State} (second : List Node)
    (crashed : crashes limit first start = true) :
    crashes limit (first ++ second) start = true := by
  obtain ⟨last, ended⟩ := Outcome.isCrashed_iff.mp crashed
  rw [crashes, Block.run_append, ended]
  rfl

theorem run_of_read {source : Text} {nodes : List Node} (accepted : read source = .ok nodes)
    (limit : Nat) : run limit source = (shownState? limit nodes {}).map State.report := by
  simp only [run, accepted]

theorem shownState?_append (limit : Nat) (first second : List Node) (start : State) :
    (shownState? limit first start = none →
      shownState? limit (first ++ second) start = none) ∧
    ∀ short, shownState? limit first start = some short →
      (crashes limit (first ++ second) start = false ↔
        ∃ long, shownState? limit (first ++ second) start = some long ∧
          short.diagnostics <+: long.diagnostics ∧
            Output.Extended short.output.lines long.output.lines) := by
  constructor
  · intro lost
    have crashed := shownState?_eq_none.mp lost
    exact shownState?_eq_none.mpr (crashes_append second crashed)
  · intro short shown
    obtain ⟨_, rfl⟩ := shownState?_eq_some.mp shown
    have grows := growsTo_append limit first second start
    constructor
    · intro survives
      exact ⟨_, shownState?_eq_some.mpr ⟨survives, rfl⟩, grows.diagnostics, grows.output⟩
    · rintro ⟨long, also, _⟩
      exact (shownState?_eq_some.mp also).1

/-- After a program whose statements are all ended, another one only adds statements,
    nodes, diagnostics and output, or fails to start with the error it has alone. When
    the run of both crashes, nothing is left of either. -/
theorem longer_program_extends {first : Text} {nodes : List Node}
    (terminated : Source.isTerminated first = true) (accepted : read first = .ok nodes)
    (second : Text) :
    Source.statements (first ++ '\n' :: second) =
      Source.statements first ++ Source.statements second ∧
    (∀ more, read second = .ok more →
      Block.ofStatements (Source.statements first ++ Source.statements second) =
        .ok (nodes ++ more) ∧
      ∀ limit,
        run limit first = (shownState? limit nodes {}).map State.report ∧
        run limit (first ++ '\n' :: second) =
          (shownState? limit (nodes ++ more) {}).map State.report ∧
        (shownState? limit nodes {} = none → shownState? limit (nodes ++ more) {} = none) ∧
        ∀ short, shownState? limit nodes {} = some short →
          (crashes limit (nodes ++ more) {} = false ↔
            ∃ long, shownState? limit (nodes ++ more) {} = some long ∧
              short.diagnostics <+: long.diagnostics ∧
                Output.Extended short.output.lines long.output.lines)) ∧
    ∀ error, read second = .error error →
      Block.ofStatements (Source.statements first ++ Source.statements second) =
        .error error := by
  have split := Source.statements_append_line terminated second
  have built := Block.ofStatements_append accepted (Source.statements second)
  refine ⟨split, ?_, ?_⟩
  · intro more further
    change Block.ofStatements (Source.statements second) = .ok more at further
    rw [further] at built
    refine ⟨built, ?_⟩
    intro limit
    have whole : read (first ++ '\n' :: second) = .ok (nodes ++ more) := by
      rw [read, split]
      exact built
    exact ⟨run_of_read accepted limit, run_of_read whole limit,
      shownState?_append limit nodes more {}⟩
  · intro error refused
    change Block.ofStatements (Source.statements second) = .error error at refused
    rw [refused] at built
    exact built

-- The first program ends in a comment that holds a full stop and opens a quote.
def openingSample : Text :=
  "WRITE 'a'. y = 1. \" isn't. read".toList

def openingNodes : List Node :=
  [.leaf "WRITE 'a'".toList (.write [⟨false, some "'a'".toList⟩]),
    .leaf "y = 1".toList (.assign "y".toList "1".toList)]

def furtherNodes : List Node :=
  [.leaf "WRITE 'b'".toList (.write [⟨false, some "'b'".toList⟩]),
    .leaf "z = 1".toList (.assign "z".toList "1".toList)]

theorem longer_program_extends_opening :
    Source.isTerminated openingSample = true ∧ read openingSample = .ok openingNodes ∧
      read "WRITE 'b'. z = 1.".toList = .ok furtherNodes ∧
      run 9 openingSample = (shownState? 9 openingNodes {}).map State.report ∧
      (∃ short long, shownState? 9 openingNodes {} = some short ∧
        shownState? 9 (openingNodes ++ furtherNodes) {} = some long ∧
          short.diagnostics <+: long.diagnostics ∧
            Output.Extended short.output.lines long.output.lines) ∧
      Block.ofStatements (Source.statements openingSample ++
        Source.statements "ENDDO.".toList) =
          .error (.unexpectedTerminator .endDo "ENDDO".toList) := by
  have terminated : Source.isTerminated openingSample = true := by decide +kernel
  have accepted : read openingSample = .ok openingNodes := by rfl
  have further : read "WRITE 'b'. z = 1.".toList = .ok furtherNodes := by rfl
  have refused : read "ENDDO.".toList =
      .error (.unexpectedTerminator .endDo "ENDDO".toList) := by
    rfl
  have first : crashes 9 openingNodes {} = false := by decide +kernel
  have both : crashes 9 (openingNodes ++ furtherNodes) {} = false := by decide +kernel
  obtain ⟨_, added, _⟩ :=
    longer_program_extends terminated accepted "WRITE 'b'. z = 1.".toList
  obtain ⟨_, each⟩ := added _ further
  obtain ⟨alone, _, _, longer⟩ := each 9
  have shown := shownState?_eq_some.mpr ⟨first, rfl⟩
  obtain ⟨long, also, grown⟩ := (longer _ shown).mp both
  obtain ⟨_, _, fails⟩ := longer_program_extends terminated accepted "ENDDO.".toList
  exact ⟨terminated, accepted, further, alone, ⟨_, long, shown, also, grown⟩, fails _ refused⟩

-- The second program stores a digit in a field that is too long to be filled up.
theorem longer_program_crashes :
    let first := "WRITE 'a'.".toList
    let second := "DATA n TYPE n LENGTH 65536. n = '1'.".toList
    Source.isTerminated first = true ∧ run 9 first = some ⟨"a".toList, []⟩ ∧
      (∃ more, read second = .ok more) ∧ run 9 (first ++ '\n' :: second) = none := by
  intro first second
  have alone : run 9 first = some ⟨"a".toList, []⟩ := by decide +kernel
  have further : read second =
      .ok [.leaf "DATA n TYPE n LENGTH 65536".toList
          (.data [⟨"n".toList, .field "n".toList (some 65536) none, none⟩]),
        .leaf "n = '1'".toList (.assign "n".toList "'1'".toList)] := by
    rfl
  have together : run 9 (first ++ '\n' :: second) = none := by decide +kernel
  exact ⟨by decide +kernel, alone, ⟨_, further⟩, together⟩

end Program

end MiniAbap
