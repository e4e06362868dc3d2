import MiniAbap.Proofs.Token.Pattern

/-!
A whole text as tokens. What has been scanned of a text is said by one relation: runs of
spaces and longest spellings in turn, and what remains. A scan succeeds exactly when nothing
remains, and otherwise names the first place where it cannot go on. A start of the text up to
such a place scans on its own, since a spelling that is the longest in a text is so in every
start of it.
-/

namespace MiniAbap

namespace Token

open Lexeme (Found isSpace)

variable {tokens : List Token} {text rest : Text} {column : Nat}

/-- The text starts with the tokens, each spelled by the longest spelling at its place and
    set apart by spaces at will, and goes on with `rest`. -/
inductive Scanned : List Token → Text → Text → Prop where
  | nil {gap rest : Text} (spaces : ∀ c ∈ gap, isSpace c = true) : Scanned [] (gap ++ rest) rest
  | cons {pattern : Pattern} {token : Token} {tokens : List Token} {gap spelling after rest : Text}
      (spaces : ∀ c ∈ gap, isSpace c = true) (takes : pattern.Takes spelling after)
      (meaning : pattern.token? spelling = some token) (others : Scanned tokens after rest) :
      Scanned (token :: tokens) (gap ++ (spelling ++ after)) rest

section Relation

theorem Scanned.refl (text : Text) : Scanned [] text text :=
  @Scanned.nil [] text nofun

theorem Scanned.space {c : Char} (here : isSpace c = true) (scanned : Scanned tokens text rest) :
    Scanned tokens (c :: text) rest := by
  cases scanned with
  | @nil gap _ spaces => exact @Scanned.nil (c :: gap) _ (List.forall_mem_cons.mpr ⟨here, spaces⟩)
  | @cons _ _ _ gap _ _ _ spaces takes meaning others =>
      have longer : ∀ d ∈ c :: gap, isSpace d = true := List.forall_mem_cons.mpr ⟨here, spaces⟩
      exact Scanned.cons longer takes meaning others

/-- What has been scanned of a text scans without the rest. -/
theorem Scanned.exists_before (scanned : Scanned tokens text rest) :
    ∃ before, text = before ++ rest ∧ Scanned tokens before [] := by
  induction scanned with
  | @nil gap rest spaces =>
      have alone : Scanned [] (gap ++ []) [] := .nil spaces
      rw [List.append_nil] at alone
      exact ⟨gap, rfl, alone⟩
  | @cons _ _ _ gap spelling after rest spaces takes meaning _ ih =>
      obtain ⟨before, rfl, others⟩ := ih
      refine ⟨gap ++ (spelling ++ before), by simp, ?_⟩
      exact .cons spaces takes.of_append meaning others

end Relation

section Following

theorem scanFrom_spaces {gap : Text} (spaces : ∀ c ∈ gap, isSpace c = true) (text : Text) :
    scanFrom column (gap ++ text) = scanFrom (column + gap.length) text := by
  induction gap generalizing column with
  | nil => rfl
  | cons c gap ih =>
      obtain ⟨here, others⟩ := List.forall_mem_cons.mp spaces
      rw [List.cons_append, scanFrom, if_pos here, ih others, List.length_cons]
      congr 1
      omega

theorem isSpace_of_matches {pattern : Pattern} {spelling : Text}
    (matched : pattern.Matches spelling) :
    ∃ c more, spelling = c :: more ∧ ¬ isSpace c = true := by
  obtain ⟨c, more, rfl, family⟩ := matched.of?_eq
  refine ⟨c, more, rfl, ?_⟩
  intro space
  simp only [isSpace, Bool.or_eq_true, beq_iff_eq] at space
  rcases space with (((rfl | rfl) | rfl) | rfl) | rfl <;> cases family

theorem scanFrom_takes {pattern : Pattern} {token : Token} {spelling after : Text}
    (takes : pattern.Takes spelling after) (meaning : pattern.token? spelling = some token) :
    scanFrom column (spelling ++ after) =
      (scanFrom (column + spelling.length) after).map (token :: ·) := by
  obtain ⟨c, more, rfl, visible⟩ := isSpace_of_matches takes.matched
  have read : Lexeme.read column c (more ++ after) = .ok ⟨token, c :: more, after⟩ := by
    rcases (Lexeme.found_read column c (more ++ after)).of_takes takes rfl with
      ⟨other, same, read⟩ | ⟨rfl, _⟩ | ⟨rfl, _⟩
    · rw [meaning] at same
      cases same
      exact read
    · cases meaning
    · cases meaning
  rw [List.cons_append, scanFrom_visible visible, read]
  rfl

/-- A scan goes through what is scanned and on from there. -/
theorem Scanned.scanFrom_eq {before : Text} (scanned : Scanned tokens text rest)
    (divided : text = before ++ rest) :
    scanFrom column text = (scanFrom (column + before.length) rest).map (tokens ++ ·) := by
  induction scanned generalizing before column with
  | @nil gap rest spaces =>
      obtain rfl := List.append_cancel_right divided
      rw [scanFrom_spaces spaces]
      cases scanFrom (column + gap.length) rest <;> rfl
  | @cons _ token tokens gap spelling after rest spaces takes meaning others ih =>
      obtain ⟨middle, rfl, _⟩ := others.exists_before
      have start : gap ++ (spelling ++ middle) = before := by
        have same : gap ++ (spelling ++ middle) ++ rest = before ++ rest := by simpa using divided
        exact List.append_cancel_right same
      rw [scanFrom_spaces spaces, scanFrom_takes takes meaning, ih rfl, ← start]
      have columns : column + gap.length + spelling.length + middle.length =
          column + (gap ++ (spelling ++ middle)).length := by
        simp only [List.length_append]
        omega
      rw [columns]
      cases scanFrom (column + (gap ++ (spelling ++ middle)).length) rest <;> rfl

theorem scan_eq_ok_of_scanned (scanned : Scanned tokens text []) : scan text = .ok tokens := by
  rw [scan, scanned.scanFrom_eq (List.append_nil text).symm]
  simp [scanFrom, Except.map]

/-- What stands before the rest scans to the same tokens. -/
theorem Scanned.scan_before {before : Text} (scanned : Scanned tokens text rest)
    (divided : text = before ++ rest) : scan before = .ok tokens := by
  obtain ⟨start, whole, alone⟩ := scanned.exists_before
  rw [divided] at whole
  rw [List.append_cancel_right whole]
  exact scan_eq_ok_of_scanned alone

end Following

section Ending

inductive Ended (column : Nat) (text : Text) : Except LexError (List Token) → Prop where
  | done {tokens : List Token} (scanned : Scanned tokens text []) : Ended column text (.ok tokens)
  | stopped {before rest : Text} {tokens : List Token} {error : LexError}
      (divided : text = before ++ rest) (scanned : Scanned tokens text rest)
      (found : Found (column + before.length) rest (.error error)) :
      Ended column text (.error error)

theorem Ended.space {c : Char} {result : Except LexError (List Token)}
    (here : isSpace c = true) (ended : Ended (column + 1) text result) :
    Ended column (c :: text) result := by
  cases ended with
  | done scanned => exact .done (scanned.space here)
  | @stopped before rest tokens error divided scanned found =>
      have whole : c :: text = c :: before ++ rest := congrArg (c :: ·) divided
      apply Ended.stopped whole (scanned.space here)
      rw [List.length_cons, ← Nat.add_assoc, Nat.add_right_comm]
      exact found

theorem Ended.cons {pattern : Pattern} {token : Token} {spelling after : Text}
    {result : Except LexError (List Token)} (takes : pattern.Takes spelling after)
    (meaning : pattern.token? spelling = some token)
    (ended : Ended (column + spelling.length) after result) :
    Ended column (spelling ++ after) (result.map (token :: ·)) := by
  have nothing : ∀ c ∈ ([] : Text), isSpace c = true := nofun
  cases ended with
  | done scanned => exact .done (.cons nothing takes meaning scanned)
  | @stopped before rest tokens error divided scanned found =>
      have whole : spelling ++ after = spelling ++ before ++ rest := by
        rw [divided, List.append_assoc]
      apply Ended.stopped whole (.cons nothing takes meaning scanned)
      rw [List.length_append, ← Nat.add_assoc]
      exact found

theorem ended_scanFrom (column : Nat) (text : Text) :
    Ended column text (scanFrom column text) := by
  -- On the length of the text, since a lexeme takes any number of characters.
  induction length : text.length using Nat.strong_induction_on generalizing text column with
  | _ length ih =>
      subst length
      cases text with
      | nil =>
          rw [scanFrom]
          exact .done (.refl [])
      | cons c rest =>
          by_cases space : isSpace c = true
          · rw [scanFrom, if_pos space]
            exact (ih rest.length (by simp) _ _ rfl).space space
          · have found := Lexeme.found_read column c rest
            rw [scanFrom_visible space]
            cases read : Lexeme.read column c rest with
            | error error =>
                rw [read] at found
                exact @Ended.stopped column _ [] _ _ _ rfl (.refl _) found
            | ok lexeme =>
                have shorter := Lexeme.read_rest_lt column c rest lexeme read
                have later := ih _ shorter (column + lexeme.spelling.length) lexeme.rest rfl
                rw [read] at found
                generalize c :: rest = text at found
                cases found with
                | lexeme takes meaning => exact later.cons takes meaning

theorem scan_eq_ok_iff (text : Text) (tokens : List Token) :
    scan text = .ok tokens ↔ Scanned tokens text [] := by
  constructor
  · intro scanned
    have ended := ended_scanFrom 1 text
    rw [← scan, scanned] at ended
    cases ended with
    | done whole => exact whole
  · exact scan_eq_ok_of_scanned

/-- A text scans exactly to the tokens of the longest spellings that it is made of, and a scan
    that fails points at the first place that no token can be taken from. -/
theorem scan_takes_longest (text : Text) :
    (∀ tokens, scan text = .ok tokens ↔ Scanned tokens text []) ∧
    (∀ c column, scan text = .error (.unexpectedCharacter c column) →
      ∃ before after tokens, text = before ++ c :: after ∧ before.length + 1 = column ∧
        scan before = .ok tokens ∧ Scanned tokens text (c :: after) ∧
        ∀ (pattern : Pattern) spelling, spelling <+: c :: after → ¬ pattern.Matches spelling) ∧
    (∀ column, scan text = .error (.unterminatedLiteral column) →
      ∃ before quote after tokens, text = before ++ quote :: after ∧
        before.length + 1 = column ∧ scan before = .ok tokens ∧
        Scanned tokens text (quote :: after) ∧ Text.isQuote quote = true ∧ quote ∉ after) ∧
    (∀ operator, scan text = .error (.unsupportedOperator operator) →
      ∃ before after tokens, text = before ++ (operator ++ after) ∧
        scan before = .ok tokens ∧ Scanned tokens text (operator ++ after) ∧
        operator ∈ Pattern.foreign ∧
        ∀ other ∈ Pattern.foreign, other <+: operator ++ after →
          other.length ≤ operator.length) := by
  have ended := ended_scanFrom 1 text
  rw [← scan] at ended
  constructor
  · exact scan_eq_ok_iff text
  constructor
  · intro c column failed
    rw [failed] at ended
    cases ended with
    | @stopped before rest tokens _ divided scanned found =>
        cases found with
        | nothing unmatched =>
            exact ⟨before, _, tokens, divided, Nat.add_comm _ _, scanned.scan_before divided,
              scanned, unmatched⟩
  constructor
  · intro column failed
    rw [failed] at ended
    cases ended with
    | @stopped before rest tokens _ divided scanned found =>
        cases found with
        | @openLiteral quote after takes =>
            cases takes.matched with
            | openLiteral opens absent =>
                exact ⟨before, quote, after, tokens, divided, Nat.add_comm _ _,
                  scanned.scan_before divided, scanned, opens, absent⟩
  · intro operator failed
    rw [failed] at ended
    cases ended with
    | @stopped before rest tokens _ divided scanned found =>
        cases found with
        | @foreign _ after takes =>
            cases takes.matched with
            | foreign listed =>
                refine ⟨before, after, tokens, divided, scanned.scan_before divided, scanned,
                  listed, ?_⟩
                intro other member starts
                exact takes.longest (.symbol none) other (.foreign member) starts

-- A point that starts no number, a quote inside another literal and one that stays open, and
-- an operator of which a shorter one is a start.
theorem scan_takes_longest_refusals :
    (scan "gv-a<>`é'`+.x".toList = .error (.unexpectedCharacter '.' 12) ∧
      ∃ before after tokens, "gv-a<>`é'`+.x".toList = before ++ '.' :: after ∧
        before.length + 1 = 12 ∧ scan before = .ok tokens) ∧
    (scan "`'`='b".toList = .error (.unterminatedLiteral 5) ∧
      ∃ before quote after, "`'`='b".toList = before ++ quote :: after ∧
        before.length + 1 = 5 ∧ Text.isQuote quote = true ∧ quote ∉ after) ∧
    (scan "a<>!=b".toList = .error (.unsupportedOperator "!=".toList) ∧
      ∃ before after tokens, "a<>!=b".toList = before ++ ("!=".toList ++ after) ∧
        scan before = .ok tokens) := by
  have point : scan "gv-a<>`é'`+.x".toList = .error (.unexpectedCharacter '.' 12) := by cbv
  have quote : scan "`'`='b".toList = .error (.unterminatedLiteral 5) := by cbv
  have sign : scan "a<>!=b".toList = .error (.unsupportedOperator "!=".toList) := by cbv
  obtain ⟨before, after, tokens, whole, place, scanned, _⟩ :=
    (scan_takes_longest _).2.1 _ _ point
  obtain ⟨before', opened, after', _, whole', place', _, _, opens, absent⟩ :=
    (scan_takes_longest _).2.2.1 _ quote
  obtain ⟨before'', after'', tokens'', whole'', scanned'', _⟩ :=
    (scan_takes_longest _).2.2.2 _ sign
  exact ⟨⟨point, before, after, tokens, whole, place, scanned⟩,
    ⟨quote, before', opened, after', whole', place', opens, absent⟩,
    ⟨sign, before'', after'', tokens'', whole'', scanned''⟩⟩

end Ending

end Token

end MiniAbap
