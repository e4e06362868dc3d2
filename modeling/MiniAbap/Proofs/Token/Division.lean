import MiniAbap.Proofs.Token.Occurrence

/-!
Dividing a text that scans at a keyword. What stands before and behind an occurrence scans
on its own, and the occurrence between them is one name. Trimming the two parts changes no
token: white space that is none of the scanner's spaces is refused outside literals, so at
the ends of a text that scans the two kinds of white space are the same.
-/

namespace MiniAbap

namespace Pattern

variable {pattern : Pattern} {spelling : Text} {c : Char}

theorem of?_of_isBlank (white : Text.isBlank c = true) : Family.of? c = none := by
  have point : c ≠ '.' := Text.ne_of_isBlank white (by decide)
  have start : Text.isNameStart c = false := by
    cases start : Text.isNameStart c with
    | false => rfl
    | true =>
        have part := Text.isNameChar_of_isNameStart start
        rw [Text.isNameChar_of_isBlank white] at part
        cases part
  have sign : isSign c = false := by
    cases sign : isSign c with
    | false => rfl
    | true =>
        have visible : "=<>!+-*/()".toList.all (fun d => !Text.isBlank d) = true := by decide
        have other := List.all_eq_true.mp visible c (List.contains_iff_mem.mp sign)
        rw [white] at other
        cases other
  simp [Family.of?, Text.isDigit_of_isBlank white, point, start, Text.isQuote_of_isBlank white,
    sign]

/-- A spelling that has a token does not end in white space, though a literal may hold some. -/
theorem Matches.last_visible {token : Token} (matched : pattern.Matches spelling)
    (meaning : pattern.token? spelling = some token) :
    ∀ c ∈ spelling.getLast?, Text.isBlank c = false := by
  intro c last
  have member := List.mem_of_mem_getLast? last
  cases white : Text.isBlank c with
  | false => rfl
  | true =>
      have family := of?_of_isBlank white
      cases pattern with
      | number =>
          rcases mem_of_number matched member with digit | rfl
          · simp [Family.of?, digit] at family
          · cases family
      | literal =>
          cases matched with
          | @literal quote content opens inside =>
              simp only [← List.cons_append, List.getLast?_concat, Option.mem_def,
                Option.some.injEq] at last
              subst last
              rw [of?_of_isQuote opens] at family
              cases family
      | openLiteral => cases meaning
      | name =>
          cases matched with
          | name name =>
              rw [(Text.isWord_of_isName name).solid c member] at white
              cases white
      | symbol =>
          rw [(of?_of_symbol matched).2 c member] at family
          cases family

end Pattern

namespace Token

open Lexeme (isSpace)

variable {tokens : List Token} {text rest gap left right word : Text}

section Trimming

theorem Scanned.of_blank {c : Char} (scanned : Scanned tokens (c :: text) [])
    (white : Text.isBlank c = true) : Scanned tokens text [] := by
  generalize whole : c :: text = source at scanned
  cases scanned with
  | @nil gap _ spaces =>
      rw [List.append_nil] at whole
      subst whole
      have others : ∀ d ∈ text, isSpace d = true :=
        fun d member => spaces d (List.mem_cons_of_mem c member)
      have alone : Scanned [] (text ++ []) [] := .nil others
      rwa [List.append_nil] at alone
  | @cons pattern token tokens gap spelling after _ spaces takes meaning scanned =>
      cases gap with
      | nil =>
          have starts : spelling <+: c :: text := by
            rw [whole]
            exact List.prefix_append _ _
          have family := takes.matched.family_eq starts
          rw [Pattern.of?_of_isBlank white] at family
          cases family
      | cons d gap =>
          obtain ⟨_, rfl⟩ := List.cons.inj whole
          exact .cons (List.forall_mem_cons.mp spaces).2 takes meaning scanned

theorem Scanned.of_blank_append (scanned : Scanned tokens (gap ++ text) [])
    (blank : Text.Blank gap) : Scanned tokens text [] := by
  induction gap with
  | nil => exact scanned
  | cons c gap ih =>
      obtain ⟨white, others⟩ := List.forall_mem_cons.mp blank
      exact ih (scanned.of_blank white) others

-- White space at the end reaches into no spelling, since none ends in white space.
theorem exists_later {pattern : Pattern} {token : Token} {start spelling after : Text}
    (matched : pattern.Matches spelling) (meaning : pattern.token? spelling = some token)
    (divided : start ++ spelling ++ after = left ++ gap) (blank : Text.Blank gap) :
    ∃ later, left = start ++ (spelling ++ later) ∧ after = later ++ gap := by
  rcases List.append_eq_append_iff.mp divided with ⟨later, longer, others⟩ | ⟨more, shorter, others⟩
  · exact ⟨later, by rw [longer, List.append_assoc], others⟩
  · rcases List.eq_nil_or_concat more with rfl | ⟨init, c, rfl⟩
    · exact ⟨[], by simpa using shorter.symm, by simpa using others.symm⟩
    · have filled : spelling ≠ [] := by
        obtain ⟨d, rest, rfl, _⟩ := matched.of?_eq
        exact List.cons_ne_nil d rest
      have last : c ∈ spelling.getLast? := by
        have same := congrArg List.getLast? shorter
        rw [List.getLast?_append_of_ne_nil _ filled] at same
        simp [same]
      have white : Text.isBlank c = true := blank c (by simp [others])
      rw [matched.last_visible meaning c last] at white
      cases white

theorem Scanned.of_append_blank (scanned : Scanned tokens text rest) (ended : rest = [])
    (divided : text = left ++ gap) (blank : Text.Blank gap) : Scanned tokens left [] := by
  induction scanned generalizing left with
  | @nil spaces rest allSpaces =>
      rw [ended, List.append_nil] at divided
      rw [divided] at allSpaces
      have alone : Scanned [] (left ++ []) [] := .nil (List.forall_mem_append.mp allSpaces).1
      rwa [List.append_nil] at alone
  | @cons pattern token tokens spaces spelling after rest allSpaces takes meaning _ ih =>
      rw [← List.append_assoc] at divided
      obtain ⟨later, rfl, rfl⟩ := exists_later takes.matched meaning divided blank
      exact .cons allSpaces takes.of_append meaning (ih ended rfl)

/-- Trimming a text that scans takes only spaces off it. -/
theorem scan_trimEnd (scanned : scan text = .ok tokens) :
    scan (Text.trimEnd text) = .ok tokens := by
  obtain ⟨gap, blank, whole⟩ := Text.exists_trimEnd_append text
  have kept := ((scan_eq_ok_iff _ _).mp scanned).of_append_blank rfl whole blank
  exact scan_eq_ok_of_scanned kept

theorem scan_trim (scanned : scan text = .ok tokens) : scan (Text.trim text) = .ok tokens := by
  obtain ⟨before, after, blankBefore, blankAfter, whole⟩ := Text.exists_trim text
  have inside : Scanned tokens (before ++ (Text.trim text ++ after)) [] :=
    whole ▸ (scan_eq_ok_iff _ _).mp scanned
  have kept := (inside.of_blank_append blankBefore).of_append_blank rfl rfl blankAfter
  exact scan_eq_ok_of_scanned kept

end Trimming

section Dividing

def Divided (tokens : List Token) (left word right : Text) : Prop :=
  ∃ first second, scan left = .ok first ∧ scan right = .ok second ∧
    tokens = first ++ .name word :: second

theorem Divided.trim (divided : Divided tokens left word right) :
    Divided tokens (Text.trim left) word (Text.trim right) := by
  obtain ⟨first, second, before, after, whole⟩ := divided
  exact ⟨first, second, scan_trim before, scan_trim after, whole⟩

theorem Divided.trimEnd (divided : Divided tokens left word right) :
    Divided tokens (Text.trimEnd left) word right := by
  obtain ⟨first, second, before, after, whole⟩ := divided
  exact ⟨first, second, scan_trimEnd before, after, whole⟩

theorem divided_of_mem {keyword : Text} {occurrence : Text.Occurrence}
    (known : Text.isName keyword = true) (scanned : scan text = .ok tokens)
    (member : occurrence ∈ Text.occurrences keyword text) :
    Divided tokens occurrence.before occurrence.found occurrence.after := by
  have divides := Text.divides_of_mem_occurrences member
  have name : Text.isName occurrence.found = true :=
    (Text.isName_eq (beq_iff_eq.mp divides.spelled)).trans known
  obtain ⟨first, second, whole, before, after⟩ := ((scan_eq_ok_iff _ _).mp scanned).divide rfl
    divides.whole name divides.closed divides.starts divides.ends
  exact ⟨first, second, scan_eq_ok_of_scanned before, scan_eq_ok_of_scanned after, whole⟩

theorem isName_of_letters {keyword : Text} (filled : keyword ≠ [])
    (letters : ∀ c ∈ keyword, c.isAlpha = true) : Text.isName keyword = true := by
  cases keyword with
  | nil => exact absurd rfl filled
  | cons c rest =>
      obtain ⟨first, others⟩ := List.forall_mem_cons.mp letters
      rw [Text.isName, Bool.and_eq_true, List.all_eq_true]
      constructor
      · simp [Text.isNameStart, first]
      · intro d member
        simp [Text.isNameChar, Char.isAlphanum, others d member]

/-- A text that scans is divided between its tokens wherever a keyword is found in it: the
    keyword is the name at that offset, and what stands before and behind it, trimmed or not,
    scans to the tokens before and behind that name. -/
theorem keyword_divides_tokens (keyword text : Text) (tokens : List Token)
    (filled : keyword ≠ []) (letters : ∀ c ∈ keyword, c.isAlpha = true)
    (scanned : scan text = .ok tokens) :
    (∀ offset ∈ (Text.occurrences keyword text).map Text.Occurrence.offset,
      ∃ before found after, text = before ++ (found ++ after) ∧
        Text.byteLength before = offset ∧ Text.byteLength found = Text.byteLength keyword ∧
        Text.sameWord found keyword = true ∧ Divided tokens before found after ∧
        Divided tokens (Text.trim before) found (Text.trim after)) ∧
    (∀ left right, Text.splitAtFirst keyword text = some (left, right) ∨
        Text.splitAtLast keyword text = some (left, right) →
      ∃ occurrence ∈ Text.occurrences keyword text, occurrence.halves = (left, right) ∧
        Divided tokens left occurrence.found right) ∧
    (∀ left, Text.stripTrailing keyword text = some left →
      ∃ occurrence ∈ Text.occurrences keyword (Text.trimEnd text),
        Text.trimEnd occurrence.before = left ∧ occurrence.after = [] ∧
        Divided tokens left occurrence.found []) := by
  have known := isName_of_letters filled letters
  have solid := Text.isWord_of_isName known
  constructor
  · intro offset listed
    obtain ⟨occurrence, member, rfl⟩ := List.mem_map.mp listed
    have divides := Text.divides_of_mem_occurrences member
    have divided := divided_of_mem known scanned member
    have width : Text.byteLength occurrence.found = Text.byteLength keyword := by
      have found := solid.of_sameWord divides.spelled
      rw [Text.byteLength_of_isNameChar found.letters, Text.byteLength_of_isNameChar solid.letters,
        Text.length_eq (beq_iff_eq.mp divides.spelled)]
    exact ⟨occurrence.before, occurrence.found, occurrence.after, divides.whole, rfl, width,
      divides.spelled, divided, divided.trim⟩
  constructor
  · intro left right split
    have found : ∃ occurrence ∈ Text.occurrences keyword text,
        occurrence.halves = (left, right) := by
      rcases split with first | last
      · obtain ⟨occurrence, here, halves⟩ := Option.map_eq_some_iff.mp first
        exact ⟨occurrence, List.mem_of_head? here, halves⟩
      · obtain ⟨occurrence, here, halves⟩ := Option.map_eq_some_iff.mp last
        exact ⟨occurrence, List.mem_of_getLast? here, halves⟩
    obtain ⟨occurrence, member, halves⟩ := found
    have divided := (divided_of_mem known scanned member).trim
    obtain ⟨rfl, rfl⟩ := Prod.mk.inj halves
    exact ⟨occurrence, member, rfl, divided⟩
  · intro left stripped
    unfold Text.stripTrailing at stripped
    split at stripped
    · next occurrence last =>
        have member := List.mem_of_getLast? last
        have divided := (divided_of_mem known (scan_trimEnd scanned) member).trimEnd
        split at stripped
        · next ends =>
            rw [List.isEmpty_iff] at ends
            cases stripped
            exact ⟨occurrence, member, rfl, ends, ends ▸ divided⟩
        · cases stripped
    · cases stripped

-- A literal holds the keyword in front of it and a name ends in it behind it.
theorem keyword_divides_tokens_quoted :
    (Text.occurrences "to".toList "`é to`+x TO b-to\t".toList).map Text.Occurrence.offset = [10] ∧
    (∃ before found after, "`é to`+x TO b-to\t".toList = before ++ (found ++ after) ∧
      Text.byteLength before = 10 ∧ Text.byteLength found = 2 ∧
      Divided [.literal "é to".toList, .operator .plus, .name "x".toList, .name "TO".toList,
        .name "b-to".toList] before found after) := by
  have place : (Text.occurrences "to".toList "`é to`+x TO b-to\t".toList).map
      Text.Occurrence.offset = [10] := by decide +kernel
  have scanned : scan "`é to`+x TO b-to\t".toList = .ok [.literal "é to".toList,
      .operator .plus, .name "x".toList, .name "TO".toList, .name "b-to".toList] := by cbv
  obtain ⟨before, found, after, whole, start, width, _, divided, _⟩ :=
    (keyword_divides_tokens "to".toList _ _ (by decide) (by simp) scanned).1 10
      (by rw [place]; exact List.mem_singleton_self 10)
  have two : Text.byteLength "to".toList = 2 := by cbv
  exact ⟨place, before, found, after, whole, start, width.trans two, divided⟩

end Dividing

end Token

end MiniAbap
