import MiniAbap.Proofs.Expr.Height

/-!
How much allowance reading an expression needs. The readers are watched: each operand that
is started on is noted with the groups and signs that are pending there, whether or not the
tokens turn out to be an expression. The most that is pending at once is exactly the allowance
that reading needs, and it is never more than the estimate of the nesting: up to the token
where reading stops, every pending group and sign is one that the estimate has counted and not
yet dropped.
-/

namespace MiniAbap

/-- What is open around an operand: a group whose end has not been read, or a sign whose
    operand has not. -/
inductive Pending where
  | group
  | sign (sign : Sign)
  deriving DecidableEq

abbrev Reading := Except SyntaxFault (Expr × List Token)

/-- A reader together with what is pending at each operand it starts on, in the order of
    reading and outermost first. Between two such moments nothing new becomes pending. -/
structure Watched where
  read : Reader
  starts : List Token → List (List Pending)

namespace Watched

section Watching

def further (reading : Reading) (more : Expr × List Token → List (List Pending)) :
    List (List Pending) :=
  match reading with
  | .error _ => []
  | .ok read => more read

def chainStarts (level : Level) (operand : Watched) : Nat → List Token → List (List Pending)
  | 0, _ => []
  | steps + 1, tokens =>
      match Reader.nextOperator? level tokens with
      | none => []
      | some (_, after) =>
          operand.starts after ++
            further (operand.read after) fun read => chainStarts level operand steps read.2

def leftGrouped (level : Level) (operand : Watched) : Watched where
  read := Reader.leftGrouped level operand.read
  starts tokens :=
    operand.starts tokens ++
      further (operand.read tokens) fun read => chainStarts level operand read.2.length read.2

def product (operand : Watched) : Watched :=
  leftGrouped .product operand

def sum (operand : Watched) : Watched :=
  leftGrouped .sum (product operand)

def comparison (operand : Watched) : Watched where
  read := Reader.comparison operand.read
  starts tokens :=
    (sum operand).starts tokens ++
      further ((sum operand).read tokens) fun read =>
        match Reader.nextOperator? .comparison read.2 with
        | none => []
        | some (_, after) => (sum operand).starts after

-- Where the allowance is used up, the operand that it would be needed for is noted all the
-- same, though it is not read.
def operandStarts : Nat → List Token → List (List Pending)
  | 0, .leftParen :: _ => [[], [.group]]
  | allowance + 1, .leftParen :: rest =>
      [] :: ((comparison ⟨Reader.operand allowance, operandStarts allowance⟩).starts rest).map
        (.group :: ·)
  | allowance, .operator op :: rest =>
      match (Token.operator op).sign? with
      | none => [[]]
      | some sign =>
          match allowance with
          | 0 => [[], [.sign sign]]
          | allowance + 1 => [] :: (operandStarts allowance rest).map (.sign sign :: ·)
  | _, _ => [[]]

def operand (allowance : Nat) : Watched :=
  ⟨Reader.operand allowance, operandStarts allowance⟩

theorem starts_group (allowance : Nat) (rest : List Token) :
    (operand (allowance + 1)).starts (.leftParen :: rest) =
      [] :: ((comparison (operand allowance)).starts rest).map (.group :: ·) :=
  rfl

theorem starts_signed {op : BinaryOp} {sign : Sign}
    (signed : (Token.operator op).sign? = some sign) (allowance : Nat) (rest : List Token) :
    (operand (allowance + 1)).starts (.operator op :: rest) =
      [] :: ((operand allowance).starts rest).map (.sign sign :: ·) := by
  simp only [operand, operandStarts, signed]

theorem mem_further {reading : Reading} {more : Expr × List Token → List (List Pending)}
    {pending : List Pending} (member : pending ∈ further reading more) :
    ∃ read, reading = .ok read ∧ pending ∈ more read := by
  cases reading with
  | error fault => cases member
  | ok read => exact ⟨read, rfl, member⟩

end Watching

section Sequencing

/-! The readers as readings one after the other, which is how they are watched. -/

theorem chain_succ (level : Level) (operand : Reader) (steps : Nat) (left : Expr)
    (tokens : List Token) :
    Reader.chain level operand (steps + 1) left tokens =
      match Reader.nextOperator? level tokens with
      | none => .ok (left, tokens)
      | some (op, after) => (operand after).bind fun read =>
          Reader.chain level operand steps (.binary op left read.1) read.2 := by
  rw [Reader.chain]
  cases Reader.nextOperator? level tokens with
  | none => rfl
  | some found =>
      obtain ⟨op, after⟩ := found
      dsimp only
      cases operand after <;> rfl

theorem leftGrouped_eq (level : Level) (operand : Reader) (tokens : List Token) :
    Reader.leftGrouped level operand tokens =
      (operand tokens).bind fun read =>
        Reader.chain level operand read.2.length read.1 read.2 := by
  rw [Reader.leftGrouped]
  cases operand tokens <;> rfl

theorem comparison_eq (operand : Reader) (tokens : List Token) :
    Reader.comparison operand tokens =
      (Reader.sum operand tokens).bind fun read =>
        match Reader.nextOperator? .comparison read.2 with
        | none => .ok read
        | some (op, after) => (Reader.sum operand after).bind fun right =>
            .ok (.binary op read.1 right.1, right.2) := by
  rw [Reader.comparison]
  cases Reader.sum operand tokens with
  | error fault => rfl
  | ok read =>
      simp only [Except.bind]
      cases Reader.nextOperator? .comparison read.2 with
      | none => rfl
      | some found =>
          obtain ⟨op, after⟩ := found
          dsimp only
          cases Reader.sum operand after <;> rfl

theorem operand_group_eq (allowance : Nat) (rest : List Token) :
    Reader.operand (allowance + 1) (.leftParen :: rest) =
      (Reader.comparison (Reader.operand allowance) rest).bind Reader.closeGroup := by
  rw [Reader.operand_group]
  cases Reader.comparison (Reader.operand allowance) rest <;> rfl

theorem operand_signed_eq {op : BinaryOp} {sign : Sign}
    (signed : (Token.operator op).sign? = some sign) (allowance : Nat) (rest : List Token) :
    Reader.operand (allowance + 1) (.operator op :: rest) =
      (Reader.operand allowance rest).bind fun read => .ok (.signed sign read.1, read.2) := by
  rw [Reader.operand_operator, signed]
  cases Reader.operand allowance rest <;> rfl

end Sequencing

section Limiting

variable {bound : Nat} {starts : List (List Pending)} {whole reading : Reading}
  {reader : Reader} {watched : Watched}

/-- What a bound on the pending groups and signs makes of a reading: nothing where they stay
    within it, else it fails for its nesting. -/
inductive Cut (bound : Nat) (starts : List (List Pending)) (whole reading : Reading) : Prop where
  | kept (low : ∀ pending ∈ starts, pending.length ≤ bound) (same : reading = whole)
      (shallow : reading ≠ .error .tooDeep)
  | tooDeep {pending : List Pending} (member : pending ∈ starts)
      (high : bound < pending.length) (failed : reading = .error .tooDeep)

theorem Cut.done (shallow : reading ≠ .error .tooDeep) : Cut bound [] reading reading :=
  .kept nofun rfl shallow

theorem Cut.bind {more : Expr × List Token → List (List Pending)}
    {next limited : Expr × List Token → Reading} (cut : Cut bound starts whole reading)
    (others : ∀ read, Cut bound (more read) (next read) (limited read)) :
    Cut bound (starts ++ further whole more) (whole.bind next) (reading.bind limited) := by
  cases cut with
  | kept low same shallow =>
      subst same
      cases reading with
      | error fault =>
          refine .kept ?_ rfl shallow
          rwa [further, List.append_nil]
      | ok read =>
          cases others read with
          | kept later same shallow =>
              exact .kept (List.forall_mem_append.mpr ⟨low, later⟩) same shallow
          | tooDeep member high failed =>
              exact .tooDeep (List.mem_append_right _ member) high failed
  | tooDeep member high failed =>
      subst failed
      exact .tooDeep (List.mem_append_left _ member) high rfl

theorem Cut.map {next : Expr × List Token → Reading} (cut : Cut bound starts whole reading)
    (shallow : ∀ read, next read ≠ .error .tooDeep) :
    Cut bound starts (whole.bind next) (reading.bind next) := by
  have nothing : further whole (fun _ => []) = [] := by cases whole <;> rfl
  have mapped := cut.bind fun read => Cut.done (shallow read)
  rwa [nothing, List.append_nil] at mapped

-- One more group or sign around everything takes one more of the bound.
theorem Cut.inside (outer : Pending) (cut : Cut bound starts whole reading) :
    Cut (bound + 1) ([] :: starts.map (outer :: ·)) whole reading := by
  cases cut with
  | kept low same shallow =>
      refine .kept (List.forall_mem_cons.mpr ⟨Nat.zero_le _, ?_⟩) same shallow
      intro pending member
      obtain ⟨inner, present, rfl⟩ := List.mem_map.mp member
      exact Nat.succ_le_succ (low inner present)
  | tooDeep member high failed =>
      refine .tooDeep (List.mem_cons_of_mem _ (List.mem_map_of_mem member)) ?_ failed
      exact Nat.succ_lt_succ high

def Limits (bound : Nat) (reader : Reader) (watched : Watched) : Prop :=
  ∀ tokens, Cut bound (watched.starts tokens) (watched.read tokens) (reader tokens)

theorem Limits.chain (limits : Limits bound reader watched) (level : Level) (steps : Nat)
    (left : Expr) (tokens : List Token) :
    Cut bound (chainStarts level watched steps tokens)
      (Reader.chain level watched.read steps left tokens)
      (Reader.chain level reader steps left tokens) := by
  induction steps generalizing left tokens with
  | zero => exact .done nofun
  | succ steps ih =>
      rw [chain_succ, chain_succ, chainStarts]
      cases Reader.nextOperator? level tokens with
      | none => exact .done nofun
      | some found => exact (limits found.2).bind fun read => ih _ read.2

theorem Limits.leftGrouped (limits : Limits bound reader watched) (level : Level) :
    Limits bound (Reader.leftGrouped level reader) (leftGrouped level watched) := by
  intro tokens
  change Cut bound _ (Reader.leftGrouped level watched.read tokens) _
  rw [leftGrouped_eq, leftGrouped_eq]
  exact (limits tokens).bind fun read => limits.chain level read.2.length read.1 read.2

theorem Limits.sum (limits : Limits bound reader watched) :
    Limits bound (Reader.sum reader) (sum watched) :=
  (limits.leftGrouped .product).leftGrouped .sum

theorem Limits.comparison (limits : Limits bound reader watched) :
    Limits bound (Reader.comparison reader) (comparison watched) := by
  intro tokens
  change Cut bound _ (Reader.comparison watched.read tokens) _
  rw [comparison_eq, comparison_eq]
  refine (limits.sum tokens).bind fun read => ?_
  cases Reader.nextOperator? .comparison read.2 with
  | none => exact .done nofun
  | some found => exact (limits.sum found.2).map nofun

theorem nil_mem_operandStarts (allowance : Nat) (tokens : List Token) :
    [] ∈ operandStarts allowance tokens := by
  unfold operandStarts
  split
  · exact List.mem_cons_self
  · exact List.mem_cons_self
  · split
    · exact List.mem_cons_self
    · split <;> exact List.mem_cons_self
  · exact List.mem_cons_self

theorem nil_mem_starts (allowance : Nat) (tokens : List Token) :
    [] ∈ (comparison (operand allowance)).starts tokens := by
  have first := nil_mem_operandStarts allowance tokens
  exact List.mem_append_left _ (List.mem_append_left _ (List.mem_append_left _ first))

theorem closeGroup_ne_tooDeep (read : Expr × List Token) :
    Reader.closeGroup read ≠ .error .tooDeep := by
  unfold Reader.closeGroup
  split <;> nofun

-- An operand that is a single token needs no allowance.
theorem Cut.single (shallow : reading ≠ .error .tooDeep) : Cut bound [[]] reading reading :=
  .kept (List.forall_mem_singleton.mpr (Nat.zero_le _)) rfl shallow

theorem group_mem_starts (allowance : Nat) (rest : List Token) :
    [.group] ∈ (operand allowance).starts (.leftParen :: rest) := by
  cases allowance with
  | zero => exact List.mem_cons_of_mem _ List.mem_cons_self
  | succ allowance =>
      rw [starts_group]
      exact List.mem_cons_of_mem _ (List.mem_map_of_mem (nil_mem_starts allowance rest))

theorem sign_mem_starts {op : BinaryOp} {sign : Sign}
    (signed : (Token.operator op).sign? = some sign) (allowance : Nat) (rest : List Token) :
    [.sign sign] ∈ (operand allowance).starts (.operator op :: rest) := by
  cases allowance with
  | zero =>
      simp only [operand, operandStarts, signed]
      exact List.mem_cons_of_mem _ List.mem_cons_self
  | succ allowance =>
      rw [starts_signed signed]
      exact List.mem_cons_of_mem _ (List.mem_map_of_mem (nil_mem_operandStarts allowance rest))

-- The allowance matters at a group and at a sign only.
theorem limits_of_open {fewer more : Nat}
    (group : ∀ rest, Cut fewer ((operand more).starts (.leftParen :: rest))
      (Reader.operand more (.leftParen :: rest)) (Reader.operand fewer (.leftParen :: rest)))
    (signed : ∀ op sign rest, (Token.operator op).sign? = some sign →
      Cut fewer ((operand more).starts (.operator op :: rest))
        (Reader.operand more (.operator op :: rest))
        (Reader.operand fewer (.operator op :: rest))) :
    Limits fewer (Reader.operand fewer) (operand more) := by
  intro tokens
  rcases tokens with _ | ⟨token, rest⟩
  · cases fewer <;> cases more <;> exact .single (by rintro ⟨⟩)
  · cases token with
    | number | literal | name | rightParen =>
        cases fewer <;> cases more <;> exact .single (by rintro ⟨⟩)
    | leftParen => exact group rest
    | operator op =>
        cases found : (Token.operator op).sign? with
        | some sign => exact signed op sign rest found
        | none =>
            cases fewer <;> cases more <;>
              simp only [operand, operandStarts, Reader.operand, found] <;>
              exact .single (by rintro ⟨⟩)

/-- An allowance is a bound on what is pending, whatever larger allowance is watched. -/
theorem limits_operand {fewer more : Nat} (le : fewer ≤ more) :
    Limits fewer (Reader.operand fewer) (operand more) := by
  -- Where the smaller allowance is used up, the larger one goes on to an operand that has
  -- something pending.
  induction fewer generalizing more with
  | zero =>
      apply limits_of_open
      · intro rest
        exact .tooDeep (group_mem_starts more rest) Nat.zero_lt_one rfl
      · intro op sign rest signed
        refine .tooDeep (sign_mem_starts signed more rest) Nat.zero_lt_one ?_
        simp only [Reader.operand, signed]
  | succ fewer ih =>
      obtain ⟨more, rfl⟩ : ∃ less, more = less + 1 := ⟨more - 1, by omega⟩
      have inner := ih (Nat.le_of_succ_le_succ le)
      apply limits_of_open
      · intro rest
        rw [starts_group, operand_group_eq, operand_group_eq]
        exact ((inner.comparison rest).map closeGroup_ne_tooDeep).inside .group
      · intro op sign rest signed
        rw [starts_signed signed, operand_signed_eq signed, operand_signed_eq signed]
        exact ((inner rest).map fun _ => by rintro ⟨⟩).inside (.sign sign)

end Limiting

end Watched

section Estimate

/-! What is pending at an operand has been counted by the estimate and is still counted there. -/

namespace Nesting

variable {state : Nesting} {tokens first rest : List Token} {pending : List Pending}

theorem deepest_move (state : Nesting) (token : Token) :
    (state.move token).deepest = state.deepest := by
  cases token with
  | rightParen =>
      simp only [move, leaveGroup]
      split <;> rfl
  | number | literal | name | operator | leftParen => rfl

theorem depth_move_le (state : Nesting) (token : Token) :
    (state.move token).depth ≤ state.depth + 1 := by
  cases token with
  | rightParen =>
      simp only [move, leaveGroup]
      split
      · exact Nat.le_succ _
      · dsimp only
        omega
  | number | literal | name => exact Nat.le_succ _
  | operator | leftParen => exact Nat.le_refl _

theorem deepest_le_foldl (state : Nesting) (tokens : List Token) :
    state.deepest ≤ (tokens.foldl step state).deepest := by
  induction tokens generalizing state with
  | nil => exact Nat.le_refl _
  | cons token rest ih =>
      have later := ih (state.step token)
      simp only [step, deepest_move] at later
      simp only [List.foldl_cons, step, deepest_move]
      omega

theorem deepest_foldl_le (state : Nesting) (tokens : List Token) :
    (tokens.foldl step state).deepest ≤ max state.deepest (state.depth + tokens.length) := by
  induction tokens generalizing state with
  | nil => exact Nat.le_max_left _ _
  | cons token rest ih =>
      have later := ih (state.step token)
      have slow := depth_move_le state token
      simp only [step, deepest_move] at later
      simp only [List.foldl_cons, List.length_cons, step, deepest_move]
      omega

def Covers (state : Nesting) (tokens : List Token) (pending : List Pending) : Prop :=
  state.depth + pending.length ≤ max state.depth (tokens.foldl step state).deepest

theorem Covers.nil (state : Nesting) (tokens : List Token) : state.Covers tokens [] :=
  Nat.le_max_left _ _

-- What has been read since raised the depth, so it leaves the more room before it.
theorem Covers.of_append (higher : state.depth ≤ (first.foldl step state).depth)
    (covers : (first.foldl step state).Covers rest pending) :
    state.Covers (first ++ rest) pending := by
  simp only [Covers, List.foldl_append] at covers ⊢
  omega

theorem Covers.cons {token : Token} {outer : Pending}
    (deeper : (state.step token).depth = state.depth + 1)
    (covers : (state.step token).Covers rest pending) :
    state.Covers (token :: rest) (outer :: pending) := by
  have reached : (state.step token).depth ≤ (state.step token).deepest := Nat.le_max_right _ _
  have kept := deepest_le_foldl (state.step token) rest
  simp only [Covers, List.foldl_cons, List.length_cons] at covers ⊢
  omega

theorem Covers.phrase {rank : Rank} {phrase : Phrase rank}
    (covers : (phrase.tokens.foldl step state).Covers rest pending) :
    state.Covers (phrase.tokens ++ rest) pending := by
  refine covers.of_append ?_
  rw [Phrase.foldl_step_tokens]
  exact Nat.le_add_right _ _

theorem Covers.operator {op : BinaryOp}
    (covers : (state.step (.operator op)).Covers rest pending) :
    state.Covers (.operator op :: rest) pending :=
  @Covers.of_append state [.operator op] rest pending (Nat.le_succ _) covers

end Nesting

namespace Watched

variable {watched : Watched} {rank : Rank}

def Covered (watched : Watched) : Prop :=
  ∀ (state : Nesting) (tokens : List Token), ∀ pending ∈ watched.starts tokens,
    state.Covers tokens pending

-- What is read first is a phrase, and the depth does not fall over a phrase.
theorem Covered.followed {more : Expr × List Token → List (List Pending)}
    (covered : Covered watched) (sound : Reader.Sound rank watched.read)
    (others : ∀ (state : Nesting) (read : Expr × List Token), ∀ pending ∈ more read,
      state.Covers read.2 pending)
    (state : Nesting) (tokens : List Token) :
    ∀ pending ∈ watched.starts tokens ++ further (watched.read tokens) more,
      state.Covers tokens pending := by
  intro pending member
  rcases List.mem_append.mp member with here | later
  · exact covered state tokens pending here
  · obtain ⟨read, taken, present⟩ := mem_further later
    obtain ⟨phrase, _, rfl⟩ := sound _ _ _ taken
    exact (others _ read pending present).phrase

theorem Covered.chain (covered : Covered watched) (sound : Reader.Sound rank watched.read)
    (level : Level) (steps : Nat) (state : Nesting) (tokens : List Token) :
    ∀ pending ∈ chainStarts level watched steps tokens, state.Covers tokens pending := by
  induction steps generalizing state tokens with
  | zero => exact fun _ member => absurd member List.not_mem_nil
  | succ steps ih =>
      intro pending member
      rw [chainStarts] at member
      split at member
      · cases member
      · next op after found =>
          obtain ⟨rfl, _⟩ := Reader.nextOperator?_eq_some found
          have linked := covered.followed sound fun state read => ih state read.2
          exact (linked _ after pending member).operator

theorem Covered.leftGrouped (covered : Covered watched) (sound : Reader.Sound rank watched.read)
    (level : Level) : Covered (leftGrouped level watched) :=
  covered.followed sound fun state read => covered.chain sound level read.2.length state read.2

theorem Covered.sum (covered : Covered watched) (sound : Reader.Sound .operand watched.read) :
    Covered (sum watched) :=
  (covered.leftGrouped sound .product).leftGrouped (Reader.product_sound sound) .sum

theorem Covered.comparison (covered : Covered watched)
    (sound : Reader.Sound .operand watched.read) : Covered (comparison watched) := by
  apply (covered.sum sound).followed (Reader.sum_sound sound)
  intro state read pending member
  split at member
  · cases member
  · next op after found =>
      rw [(Reader.nextOperator?_eq_some found).1]
      exact (covered.sum sound _ after pending member).operator

theorem covered_inside {state : Nesting} {token : Token} {rest : List Token} {outer : Pending}
    {starts : List (List Pending)} (deeper : (state.step token).depth = state.depth + 1)
    (inner : ∀ pending ∈ starts, (state.step token).Covers rest pending) :
    ∀ pending ∈ [] :: starts.map (outer :: ·), state.Covers (token :: rest) pending := by
  intro pending member
  rcases List.mem_cons.mp member with rfl | inside
  · exact .nil state _
  · obtain ⟨others, present, rfl⟩ := List.mem_map.mp inside
    exact (inner others present).cons deeper

-- Where the allowance is used up, just the operand behind the token is noted.
theorem covered_next {state : Nesting} {token : Token} (rest : List Token) (outer : Pending)
    (deeper : (state.step token).depth = state.depth + 1) :
    ∀ pending ∈ [[], [outer]], state.Covers (token :: rest) pending := by
  have inner : ∀ pending ∈ [([] : List Pending)], (state.step token).Covers rest pending :=
    List.forall_mem_singleton.mpr (.nil _ rest)
  exact covered_inside deeper inner

theorem covered_operand (allowance : Nat) : Covered (operand allowance) := by
  intro state tokens
  have single : ∀ pending ∈ [([] : List Pending)], state.Covers tokens pending :=
    List.forall_mem_singleton.mpr (.nil state tokens)
  rcases tokens with _ | ⟨token, rest⟩
  · cases allowance <;> exact single
  · cases token with
    | number | literal | name | rightParen => cases allowance <;> exact single
    | leftParen =>
        cases allowance with
        | zero => exact covered_next rest .group rfl
        | succ smaller =>
            exact covered_inside rfl
              ((covered_operand smaller).comparison (Reader.operand_sound smaller) _ rest)
    | operator op =>
        cases found : (Token.operator op).sign? with
        | none => cases allowance <;> simpa only [operand, operandStarts, found] using single
        | some sign =>
            cases allowance with
            | zero =>
                simp only [operand, operandStarts, found]
                exact covered_next rest (.sign sign) rfl
            | succ smaller =>
                rw [starts_signed found]
                exact covered_inside rfl (covered_operand smaller _ rest)

end Watched

end Estimate

namespace Expr

def pendingAt (tokens : List Token) : List (List Pending) :=
  (Watched.comparison (Watched.operand tokens.length)).starts tokens

def ofTokensWithin (allowance : Nat) (tokens : List Token) : Except SyntaxFault Expr :=
  if tokens.isEmpty then .error .empty
  else
    match Reader.comparison (Reader.operand allowance) tokens with
    | .error fault => .error fault
    | .ok read => complete read

variable {tokens : List Token} {allowance : Nat}

theorem nestingDepth_le_length (tokens : List Token) : nestingDepth tokens ≤ tokens.length := by
  have bound := Nesting.deepest_foldl_le {} tokens
  simpa [nestingDepth] using bound

theorem length_le_nestingDepth (allowance : Nat) (tokens : List Token) :
    ∀ pending ∈ (Watched.comparison (Watched.operand allowance)).starts tokens,
      pending.length ≤ nestingDepth tokens := by
  intro pending member
  have covered := (Watched.covered_operand allowance).comparison (Reader.operand_sound allowance)
  have within := covered {} tokens pending member
  simpa [Nesting.Covers, nestingDepth] using within

/-- Beyond the estimate no allowance changes what is read. -/
theorem comparison_eq_of_le {larger : Nat} (enough : nestingDepth tokens ≤ allowance)
    (le : allowance ≤ larger) :
    Reader.comparison (Reader.operand allowance) tokens =
      Reader.comparison (Reader.operand larger) tokens := by
  cases (Watched.limits_operand le).comparison tokens with
  | kept _ same _ => exact same
  | tooDeep member high _ =>
      have low := length_le_nestingDepth larger tokens _ member
      omega

theorem comparison_eq_length (enough : nestingDepth tokens ≤ allowance) :
    Reader.comparison (Reader.operand allowance) tokens =
      Reader.comparison (Reader.operand tokens.length) tokens := by
  rw [comparison_eq_of_le enough (Nat.le_max_left allowance tokens.length),
    comparison_eq_of_le (nestingDepth_le_length tokens) (Nat.le_max_right allowance tokens.length)]

theorem comparison_tooDeep_iff (allowance : Nat) (tokens : List Token) :
    Reader.comparison (Reader.operand allowance) tokens = .error .tooDeep ↔
      ∃ pending ∈ pendingAt tokens, allowance < pending.length := by
  have cut_iff {fewer : Nat} (le : fewer ≤ tokens.length) :
      Reader.comparison (Reader.operand fewer) tokens = .error .tooDeep ↔
        ∃ pending ∈ pendingAt tokens, fewer < pending.length := by
    cases (Watched.limits_operand le).comparison tokens with
    | kept low _ shallow =>
        refine iff_of_false shallow ?_
        rintro ⟨pending, member, high⟩
        have bound := low pending member
        omega
    | tooDeep member high failed => exact iff_of_true failed ⟨_, member, high⟩
  rcases Nat.le_total allowance tokens.length with le | ge
  · exact cut_iff le
  · have depth := nestingDepth_le_length tokens
    rw [comparison_eq_length (Nat.le_trans depth ge), cut_iff (Nat.le_refl _)]
    constructor
    · rintro ⟨pending, member, high⟩
      have low := length_le_nestingDepth _ tokens pending member
      omega
    · rintro ⟨pending, member, high⟩
      exact ⟨pending, member, Nat.lt_of_le_of_lt ge high⟩

/-- While a token list is read, whether it is an expression or not, no more groups and signs
    are pending at once than the estimate of its nesting, and that is all the allowance that
    reading uses. So what passes the limit on nesting is read, or refused, in the same way
    with that limit as the allowance and with any larger one. -/
theorem pending_within_nestingDepth (tokens : List Token) :
    (∀ pending ∈ pendingAt tokens, pending.length ≤ nestingDepth tokens) ∧
    (∀ allowance, Reader.comparison (Reader.operand allowance) tokens = .error .tooDeep ↔
      ∃ pending ∈ pendingAt tokens, allowance < pending.length) ∧
    (∀ allowance, nestingDepth tokens ≤ allowance →
      Reader.comparison (Reader.operand allowance) tokens =
        Reader.comparison (Reader.operand tokens.length) tokens) ∧
    (nestingDepth tokens ≤ deepestNesting →
      (∀ pending ∈ pendingAt tokens, pending.length ≤ deepestNesting) ∧
      (∀ allowance, deepestNesting ≤ allowance → ofTokensWithin allowance tokens =
        ofTokensWithin deepestNesting tokens) ∧
      ofTokens tokens = ofTokensWithin deepestNesting tokens ∧
      ∀ source, Token.scan source = .ok tokens →
        read source = (ofTokensWithin deepestNesting tokens).mapError (.malformed · source)) := by
  have pending := length_le_nestingDepth tokens.length tokens
  refine ⟨pending, fun allowance => comparison_tooDeep_iff allowance tokens,
    fun allowance => comparison_eq_length, ?_⟩
  intro shallow
  have same : ofTokens tokens = ofTokensWithin deepestNesting tokens := by
    rw [ofTokens, if_neg (Nat.not_lt.mpr shallow), ← comparison_eq_length shallow]
    rfl
  refine ⟨fun inner member => Nat.le_trans (pending inner member) shallow, ?_, same, ?_⟩
  · intro allowance larger
    rw [ofTokensWithin, ofTokensWithin, comparison_eq_of_le shallow larger]
  · intro source scanned
    rw [← same, read, scanned]
    dsimp only
    cases ofTokens tokens <;> rfl

-- The tokens of `-(-(a+`: reading stops at the end, with both groups open and both signs
-- without their operand.
theorem pending_within_nestingDepth_unclosed :
    ∃ tokens : List Token, nestingDepth tokens = 5 ∧
      [.sign .minus, .group, .sign .minus, .group] ∈ pendingAt tokens ∧
      (∀ pending ∈ pendingAt tokens, pending.length ≤ 5) ∧
      Reader.comparison (Reader.operand 3) tokens = .error .tooDeep ∧
      ofTokens tokens = ofTokensWithin deepestNesting tokens := by
  let tokens : List Token := [.operator .minus, .leftParen, .operator .minus, .leftParen,
    .name ['a'], .operator .plus]
  have depth : nestingDepth tokens = 5 := rfl
  have member : [.sign .minus, .group, .sign .minus, .group] ∈ pendingAt tokens := by decide
  obtain ⟨low, needs, _, passed⟩ := pending_within_nestingDepth tokens
  have shallow : nestingDepth tokens ≤ deepestNesting := by decide
  exact ⟨tokens, depth, member, depth ▸ low, (needs 3).mpr ⟨_, member, by decide⟩,
    (passed shallow).2.2.1⟩

end Expr

end MiniAbap
