import Mathlib.Algebra.Ring.Int.Defs
import TelemetryPlatform.IdentityScan.Marks

/-!
# What the scanner finds

A line is passed over if a header of a `mock_outputs` block stands on it, in a comment
or not, or if the braces of the lines since the last header, those in strings and
comments with them, are not balanced. Of the others the scanner reads what is in front
of the first `#`.
-/

namespace IdentityScan

open Python Hcl

section Readings

variable {passed text rest : Str} {groups after : List (Nat × Str)}

/-- No character of a kind stands at the end of a text. -/
def EndsOutside (isWord : Chr → Bool) (front : Str) : Prop := ∀ c ∈ front.getLast?, isWord c = false

theorem reads_replicate_one {accepts : Chr → Bool} {n : Nat} :
    (Pattern.sequence (List.replicate n (.one accepts))).Reads passed text rest groups after ↔
      text.length = n ∧ (∀ c ∈ text, accepts c = true) ∧ after = groups := by
  induction n generalizing passed text groups with
  | zero =>
      rw [List.replicate_zero, reads_nil, List.length_eq_zero_iff]
      constructor
      · rintro ⟨rfl, rfl⟩
        exact ⟨rfl, by simp, rfl⟩
      · rintro ⟨rfl, -, rfl⟩
        exact ⟨rfl, rfl⟩
  | succ n ih =>
      simp only [List.replicate_succ, reads_cons, ih, reads_one]
      constructor
      · rintro ⟨_, back, _, rfl, ⟨c, rfl, accepted, rfl⟩, rfl, others, rfl⟩
        exact ⟨by simp, by simpa [accepted] using others, rfl⟩
      · rintro ⟨length, each, rfl⟩
        cases text with
        | nil => cases length
        | cons c text =>
            rcases List.forall_mem_cons.mp each with ⟨accepted, others⟩
            exact ⟨[c], text, _, rfl, ⟨c, rfl, accepted, rfl⟩, Nat.succ.inj length, others, rfl⟩

/-- A search finds the texts that a pattern reads as, whatever stands around them. -/
theorem search_isSome_iff {pattern : Pattern} {IsMatch : Str → Prop}
    (reads : ∀ passed text rest,
      (∃ after, pattern.Reads passed text rest [] after) ↔ IsMatch text) :
    (pattern.search text).isSome ↔
      ∃ front middle back, text = front ++ (middle ++ back) ∧ IsMatch middle := by
  rw [search_isSome]
  constructor
  · rintro ⟨after, front, middle, back, rfl, readsMiddle⟩
    exact ⟨front, middle, back, rfl, (reads _ _ _).mp ⟨after, readsMiddle⟩⟩
  · rintro ⟨front, middle, back, rfl, isMatch⟩
    rcases (reads front.reverse middle back).mpr isMatch with ⟨after, readsMiddle⟩
    exact ⟨after, front, middle, back, rfl, readsMiddle⟩

end Readings

section Searches

variable {classes : CharClasses} {codePart : Str}

theorem search_accountIdInQuotesRe : ((accountIdInQuotesRe classes).search codePart).isSome ↔
    Shows classes.digits .accountId codePart := by
  apply search_isSome_iff
  intro passed text rest
  simp only [accountIdInQuotesRe, reads_cons, reads_nil, reads_word, reads_group,
    reads_replicate_one]
  constructor
  · rintro ⟨_, _, _, _, rfl, ⟨rfl, rfl⟩, id, _, _, rfl, ⟨_, ⟨length, isDigit, rfl⟩, rfl⟩, _, _, _,
      rfl, ⟨rfl, rfl⟩, rfl, rfl⟩
    exact ⟨id, by simp, length, isDigit⟩
  · rintro ⟨id, rfl, length, isDigit⟩
    exact ⟨_, [quote], _, _, rfl, ⟨rfl, rfl⟩, id, _, _, rfl,
      ⟨_, ⟨length, isDigit, rfl⟩, rfl⟩, [quote], [], _, rfl, ⟨rfl, rfl⟩, rfl, rfl⟩

theorem search_regionLiteralRe (digits : DigitClass) :
    (regionLiteralRe.search codePart).isSome ↔ Shows digits .region codePart := by
  apply search_isSome_iff
  intro passed text rest
  simp only [regionLiteralRe, reads_cons, reads_nil, reads_word, reads_group, reads_either,
    IsLiteral, List.map_cons, List.map_nil, List.mem_cons, List.not_mem_nil, or_false]
  constructor
  · rintro ⟨_, _, _, _, rfl, ⟨rfl, rfl⟩, _, _, _, rfl, ⟨_, name, rfl⟩, _, _, _, rfl,
      ⟨rfl, rfl⟩, rfl, rfl⟩
    rcases name with ⟨rfl, rfl⟩ | ⟨rfl, rfl⟩
    · left
      simp
    · right
      simp
  · rintro (rfl | rfl)
    · exact ⟨_, [quote], _, _, rfl, ⟨rfl, rfl⟩, _, _, _, rfl, ⟨_, .inl ⟨rfl, rfl⟩, rfl⟩,
        [quote], [], _, rfl, ⟨rfl, rfl⟩, rfl, rfl⟩
    · exact ⟨_, [quote], _, _, rfl, ⟨rfl, rfl⟩, _, _, _, rfl, ⟨_, .inr ⟨rfl, rfl⟩, rfl⟩,
        [quote], [], _, rfl, ⟨rfl, rfl⟩, rfl, rfl⟩

theorem search_domainApexRe (digits : DigitClass) :
    (domainApexRe.search codePart).isSome ↔ Shows digits .domainApex codePart := by
  apply search_isSome_iff
  intro passed text rest
  simp only [domainApexRe, reads_word, IsLiteral, exists_and_left, exists_eq, and_true]

theorem search_cidrLiteralRe : ((cidrLiteralRe classes).search codePart).isSome ↔
    Shows classes.digits .cidr codePart := by
  apply search_isSome_iff
  intro passed text rest
  simp only [cidrLiteralRe, reads_cons, reads_nil, reads_word, reads_oneOrMore_one]
  constructor
  · rintro ⟨_, _, _, _, rfl, ⟨rfl, rfl⟩, n, _, _, rfl, ⟨some, isDigit, rfl⟩, _, _, _, rfl,
      ⟨rfl, rfl⟩, rfl, rfl⟩
    exact ⟨n, by simp, some, isDigit⟩
  · rintro ⟨n, rfl, some, isDigit⟩
    exact ⟨_, quote :: str "10.", _, _, rfl, ⟨rfl, rfl⟩, n, _, _, rfl, ⟨some, isDigit, rfl⟩,
      str ".0.0/16" ++ [quote], [], _, by simp, ⟨rfl, rfl⟩, rfl, rfl⟩

/-- No literal is white space. -/
theorem exists_solid {digits : DigitClass} {rule : Rule} {text : Str}
    (isLiteral : IsLiteral digits rule text) : ∃ c ∈ text, isSpace c = false := by
  have quoted : isSpace quote = false := by decide
  cases rule with
  | accountId =>
      rcases isLiteral with ⟨id, rfl, -⟩
      exact ⟨quote, by simp, quoted⟩
  | region =>
      rcases List.mem_map.mp isLiteral with ⟨name, -, rfl⟩
      exact ⟨quote, by simp, quoted⟩
  | domainApex =>
      cases isLiteral
      exact ⟨.char 't', by decide, by decide⟩
  | cidr =>
      rcases isLiteral with ⟨n, rfl, -⟩
      exact ⟨quote, by simp, quoted⟩
  | digitConfigPath => cases isLiteral
  | declaredLocal => cases isLiteral

/-- No literal is in front of the `#` of a line that begins with it. -/
theorem not_shows_of_comment {digits : DigitClass} {rule : Rule} {line : Str}
    (isComment : [hash] <+: line.dropWhile isSpace) :
    ¬Shows digits rule (stripInlineComment line) := by
  rcases isComment with ⟨rest, dropped⟩
  have split := List.takeWhile_append_dropWhile (p := isSpace) (l := line)
  have solid : hash ∉ line.takeWhile isSpace := by
    intro hashMem
    exact absurd (List.mem_takeWhile_imp hashMem) (by decide)
  rw [← dropped] at split
  have code : stripInlineComment line = line.takeWhile isSpace := by
    nth_rewrite 1 [← split]
    exact beforeFirst_append solid
  rw [code]
  rintro ⟨front, literal, back, same, isLiteral⟩
  rcases exists_solid isLiteral with ⟨c, cMem, solid⟩
  have spaceMem : c ∈ line.takeWhile isSpace := by
    rw [same]
    simp [cMem]
  rw [List.mem_takeWhile_imp spaceMem] at solid
  cases solid

end Searches

section Headers

variable (words : WordClass)

/-- A header of a `mock_outputs` block stands on a line, wherever on it. -/
def HasHeader (line : Str) : Prop :=
  ∃ front gap back, line = front ++ (str "mock_outputs" ++ (gap ++ openBrace :: back)) ∧
    EndsOutside words.holds front ∧
    (AllSpace gap ∨ ∃ left right, gap = left ++ .char '=' :: right ∧ AllSpace left ∧ AllSpace right)

/-- A string is assigned to `config_path` somewhere on a line. -/
def AssignsPath (codePart : Str) : Prop :=
  ∃ front left right value back, codePart = front ++ (str "config_path" ++
      (left ++ .char '=' :: (right ++ quote :: (value ++ quote :: back)))) ∧
    EndsOutside words.holds front ∧ AllSpace left ∧ AllSpace right ∧ quote ∉ value

/-- A line begins with a name and an equals sign. -/
def Assigns (name codePart : Str) : Prop :=
  ∃ indent gap back, codePart = indent ++ (name ++ (gap ++ .char '=' :: back)) ∧ AllSpace indent ∧
    AllSpace gap ∧ name ≠ [] ∧ ∀ c ∈ name, words.holds c = true

variable {words}

theorem endsOutside_iff {front : Str} :
    (∀ c ∈ front.reverse.head?, words.holds c = false) ↔ EndsOutside words.holds front := by
  rw [List.head?_reverse, EndsOutside]

theorem isWord_of_letter {c : Chr} (lowest : 0x61 ≤ c.code) (highest : c.code ≤ 0x7a) :
    words.holds c = true := by
  rw [words.ascii c (by omega), decide_eq_true_eq]
  omega

variable {classes : CharClasses} {passed text rest line codePart : Str}
  {groups after : List (Nat × Str)}

theorem reads_mockBlockStartRe : (mockBlockStartRe classes).Reads passed text rest groups after ↔
    (∀ c ∈ passed.head?, classes.words.holds c = false) ∧ after = groups ∧ ∃ gap,
      text = str "mock_outputs" ++ (gap ++ [openBrace]) ∧
      (AllSpace gap ∨ ∃ left right, gap = left ++ .char '=' :: right ∧ AllSpace left ∧
        AllSpace right) := by
  have letter : classes.words.holds (.char 'm') = true := isWord_of_letter (by decide) (by decide)
  have name : str "mock_outputs" = .char 'm' :: str "ock_outputs" := rfl
  rw [mockBlockStartRe, reads_either, name, reads_name letter, reads_name letter]
  simp only [reads_cons, reads_nil, reads_word, reads_spaces]
  constructor
  · rintro (⟨edge, _, rfl, left, _, _, rfl, ⟨leftSpace, rfl⟩, _, _, _, rfl, ⟨rfl, rfl⟩, right, _, _,
      rfl, ⟨rightSpace, rfl⟩, _, _, _, rfl, ⟨rfl, rfl⟩, rfl, rfl⟩ |
      ⟨edge, _, rfl, gap, _, _, rfl, ⟨gapSpace, rfl⟩, _, _, _, rfl, ⟨rfl, rfl⟩, rfl, rfl⟩)
    · exact ⟨edge, rfl, left ++ .char '=' :: right, by simp [str],
        .inr ⟨left, right, rfl, leftSpace, rightSpace⟩⟩
    · exact ⟨edge, rfl, gap, by simp, .inl gapSpace⟩
  · rintro ⟨edge, rfl, gap, rfl, gapSpace | ⟨left, right, rfl, leftSpace, rightSpace⟩⟩
    · exact .inr ⟨edge, _, rfl, gap, _, _, rfl, ⟨gapSpace, rfl⟩, [openBrace], [], _, rfl,
        ⟨rfl, rfl⟩, rfl, rfl⟩
    · exact .inl ⟨edge, _, rfl, left, _, _, by simp [str], ⟨leftSpace, rfl⟩, str "=", _, _,
        rfl, ⟨rfl, rfl⟩, right, _, _, rfl, ⟨rightSpace, rfl⟩, [openBrace], [], _, rfl,
        ⟨rfl, rfl⟩, rfl,
        rfl⟩

theorem startsMock_iff : startsMock classes line = true ↔ HasHeader classes.words line := by
  rw [startsMock, search_isSome]
  simp only [Pattern.Finds, reads_mockBlockStartRe, endsOutside_iff]
  constructor
  · rintro ⟨groups, front, _, back, rfl, outside, -, gap, rfl, shape⟩
    exact ⟨front, gap, back, by simp, outside, shape⟩
  · rintro ⟨front, gap, back, rfl, outside, shape⟩
    exact ⟨[], front, _, back, by simp, outside, rfl, gap, rfl, shape⟩

theorem reads_configPathValueRe : (configPathValueRe classes).Reads passed text rest groups after ↔
    (∀ c ∈ passed.head?, classes.words.holds c = false) ∧ ∃ left right value,
      text = str "config_path" ++ (left ++ .char '=' :: (right ++ quote :: (value ++ [quote]))) ∧
      AllSpace left ∧ AllSpace right ∧ quote ∉ value ∧ after = (1, value) :: groups := by
  have letter : classes.words.holds (.char 'c') = true := isWord_of_letter (by decide) (by decide)
  have name : str "config_path" = .char 'c' :: str "onfig_path" := rfl
  rw [configPathValueRe, name, reads_name letter]
  simp only [reads_cons, reads_nil, reads_word, reads_spaces, reads_group, reads_many_one]
  constructor
  · rintro ⟨edge, _, rfl, left, _, _, rfl, ⟨leftSpace, rfl⟩, _, _, _, rfl, ⟨rfl, rfl⟩, right, _, _,
      rfl, ⟨rightSpace, rfl⟩, _, _, _, rfl, ⟨rfl, rfl⟩, value, _, _, rfl,
      ⟨_, ⟨plain, rfl⟩, rfl⟩, _, _,
      _, rfl, ⟨rfl, rfl⟩, rfl, rfl⟩
    refine ⟨edge, left, right, value, by simp [str], leftSpace, rightSpace, ?_, rfl⟩
    intro quoteMem
    exact absurd (plain quote quoteMem) (by decide)
  · rintro ⟨edge, left, right, value, rfl, leftSpace, rightSpace, plain, rfl⟩
    exact ⟨edge, _, rfl, left, _, _, rfl, ⟨leftSpace, rfl⟩, str "=", _, _, rfl, ⟨rfl, rfl⟩,
      right, _, _, rfl, ⟨rightSpace, rfl⟩, [quote], _, _, rfl, ⟨rfl, rfl⟩, value, _, _, rfl,
      ⟨_, ⟨ne_quote_of_plain plain, rfl⟩, rfl⟩, [quote], [], _, rfl, ⟨rfl, rfl⟩, rfl, rfl⟩

theorem search_configPathValueRe :
    ((configPathValueRe classes).search codePart).isSome ↔ AssignsPath classes.words codePart := by
  rw [search_isSome]
  simp only [Pattern.Finds, reads_configPathValueRe, endsOutside_iff]
  constructor
  · rintro ⟨groups, front, _, back, rfl, outside, left, right, value, rfl, leftSpace,
      rightSpace, plain, -⟩
    exact ⟨front, left, right, value, back, by simp, outside, leftSpace, rightSpace, plain⟩
  · rintro ⟨front, left, right, value, back, rfl, outside, leftSpace, rightSpace, plain⟩
    exact ⟨_, front, _, back, by simp, outside, left, right, value, rfl, leftSpace,
      rightSpace, plain, rfl⟩

theorem reads_assignmentVarNameRe :
    (assignmentVarNameRe classes).Reads passed text rest groups after ↔
      (passed = [] ∨ passed.head? = newline) ∧ ∃ indent name gap,
        text = indent ++ (name ++ (gap ++ str "=")) ∧ AllSpace indent ∧ AllSpace gap ∧ name ≠ [] ∧
        (∀ c ∈ name, classes.words.holds c = true) ∧ after = (1, name) :: groups := by
  simp only [assignmentVarNameRe, reads_cons, reads_nil, reads_lineStart, reads_word, reads_spaces,
    reads_group, reads_oneOrMore_one]
  constructor
  · rintro ⟨_, _, _, rfl, ⟨rfl, rfl, starts⟩, indent, _, _, rfl, ⟨indentSpace, rfl⟩,
      name, _, _, rfl, ⟨_, ⟨some, isWord, rfl⟩, rfl⟩, gap, _, _, rfl, ⟨gapSpace, rfl⟩, _, _, _, rfl,
      ⟨rfl, rfl⟩, rfl,
      rfl⟩
    exact ⟨starts, indent, name, gap, by simp, indentSpace, gapSpace, some, isWord, rfl⟩
  · rintro ⟨starts, indent, name, gap, rfl, indentSpace, gapSpace, some, isWord, rfl⟩
    exact ⟨[], _, _, rfl, ⟨rfl, rfl, starts⟩, indent, _, _, rfl, ⟨indentSpace, rfl⟩,
      name, _, _, rfl, ⟨_, ⟨some, isWord, rfl⟩, rfl⟩, gap, _, _, rfl, ⟨gapSpace, rfl⟩, str "=", [],
      _, by simp,
      ⟨rfl, rfl⟩, rfl, rfl⟩

/-- A line begins with one name at most. -/
theorem Assigns.unique {name name' : Str} (assigns : Assigns classes.words name codePart)
    (assigns' : Assigns classes.words name' codePart) : name = name' := by
  rcases assigns with ⟨indent, gap, back, same, indentSpace, gapSpace, some, isWord⟩
  rcases assigns' with ⟨indent', gap', back', same', indentSpace', gapSpace', some', isWord'⟩
  have solid {name rest : Str} (some : name ≠ []) (isWord : ∀ c ∈ name,
      classes.words.holds c = true) :
      ∀ c ∈ (name ++ rest).head?, isSpace c = false := by
    cases name with
    | nil => exact absurd rfl some
    | cons c name =>
        rintro _ ⟨⟩
        exact classes.solid c (isWord c List.mem_cons_self)
  have outside {gap back : Str} (gapSpace : AllSpace gap) :
      ∀ c ∈ (gap ++ .char '=' :: back).head?, classes.words.holds c = false := by
    intro c first
    cases gap with
    | nil =>
        cases first
        rw [classes.words.ascii _ (by decide)]
        decide
    | cons d gap =>
        cases first
        rw [Bool.eq_false_iff]
        intro isWord
        have solid := classes.solid _ isWord
        rw [gapSpace _ List.mem_cons_self] at solid
        cases solid
  rw [same'] at same
  rcases span_unique indentSpace' indentSpace (solid some' isWord') (solid some isWord) same with
    ⟨-, names⟩
  exact (span_unique isWord' isWord (outside gapSpace') (outside gapSpace) names).1.symm

/-- The name in front of the equals sign is exempt where a line begins with an exempt name. -/
theorem matchAt_assignmentVarNameRe {names : List Str} :
    (((assignmentVarNameRe classes).matchAt [] codePart).any fun assigned =>
      decide (firstGroup assigned ∈ names)) = true ↔
      ∃ name ∈ names, Assigns classes.words name codePart := by
  have assigns_of_reads {text rest : Str} {after : List (Nat × Str)}
      (reads : (assignmentVarNameRe classes).Reads [] text rest [] after) :
      ∃ name, Assigns classes.words name (text ++ rest) ∧ after = [(1, name)] := by
    rcases reads_assignmentVarNameRe.mp reads with
      ⟨-, indent, name, gap, rfl, indentSpace, gapSpace, some, isWord, rfl⟩
    exact ⟨name, ⟨indent, gap, rest, by simp [str], indentSpace, gapSpace, some, isWord⟩, rfl⟩
  cases matched : (assignmentVarNameRe classes).matchAt [] codePart with
  | none =>
      refine iff_of_false (by simp) ?_
      rintro ⟨name, -, indent, gap, back, rfl, indentSpace, gapSpace, some, isWord⟩
      apply matchAt_eq_none.mp matched (indent ++ (name ++ (gap ++ str "="))) back [(1, name)]
      · simp [str]
      · exact reads_assignmentVarNameRe.mpr
          ⟨.inl rfl, indent, name, gap, rfl, indentSpace, gapSpace, some, isWord, rfl⟩
  | some assigned =>
      rcases reads_of_matchAt matched with ⟨-, whole, -, reads⟩
      rcases assigns_of_reads reads with ⟨name, assigns, groups⟩
      rw [← whole] at assigns
      have group : firstGroup assigned = name := by
        rw [firstGroup, Match.group, groups]
        rfl
      rw [Option.any_some, group, decide_eq_true_eq]
      constructor
      · intro nameMem
        exact ⟨name, nameMem, assigns⟩
      · rintro ⟨other, otherMem, assigns'⟩
        rwa [assigns.unique assigns']

end Headers

section Blocks

variable (words : WordClass)

def balanceOf (lines : List Str) : Int := (lines.map braceBalance).sum

/-- The last header in front of a line is that of a block which more braces open than close, up to
each line behind it. -/
def OpenBefore (before : List Str) (depth : Int) : Prop :=
  ∃ earlier opening between, before = earlier ++ opening :: between ∧ HasHeader words opening ∧
    (∀ line ∈ between, ¬HasHeader words line) ∧
    (∀ part, part <+: between → 0 < balanceOf (opening :: part)) ∧
    depth = balanceOf (opening :: between)

/-- The scanner takes a line for one of a `mock_outputs` block. -/
def PassedOver (before : List Str) (line : Str) : Prop :=
  HasHeader words line ∨ ∃ depth, OpenBefore words before depth

variable {words} {before : List Str} {line : Str} {depth : Int}

theorem balanceOf_concat (lines : List Str) :
    balanceOf (lines ++ [line]) = balanceOf lines + braceBalance line := by
  simp [balanceOf]

theorem openBefore_of_header (header : HasHeader words line) :
    OpenBefore words (before ++ [line]) depth ↔ 0 < depth ∧ depth = braceBalance line := by
  have alone : balanceOf [line] = braceBalance line := by simp [balanceOf]
  constructor
  · rintro ⟨earlier, opening, between, same, -, none, open', rfl⟩
    rcases List.eq_nil_or_concat between with rfl | ⟨between, last, rfl⟩
    · have lines := List.append_inj_right' same rfl
      cases lines
      exact ⟨open' [] List.prefix_rfl, alone⟩
    · rw [List.concat_eq_append, ← List.cons_append, ← List.append_assoc] at same
      cases List.append_inj_right' same rfl
      exact absurd header (none line (by simp))
  · rintro ⟨positive, rfl⟩
    refine ⟨before, line, [], rfl, header, by simp, ?_, alone.symm⟩
    intro part isPrefix
    rw [List.prefix_nil.mp isPrefix, alone]
    exact positive

theorem openBefore_of_not_header (noHeader : ¬HasHeader words line) :
    OpenBefore words (before ++ [line]) depth ↔
      0 < depth ∧ OpenBefore words before (depth - braceBalance line) := by
  constructor
  · rintro ⟨earlier, opening, between, same, header, none, open', rfl⟩
    rcases List.eq_nil_or_concat between with rfl | ⟨between, last, rfl⟩
    · cases List.append_inj_right' same rfl
      exact absurd header noHeader
    · rw [List.concat_eq_append] at same none open' ⊢
      rw [← List.cons_append, ← List.append_assoc] at same
      cases List.append_inj_right' same rfl
      refine ⟨open' _ List.prefix_rfl, earlier, opening, between,
        List.append_cancel_right same, header, ?_, ?_, ?_⟩
      · intro line lineMem
        exact none line (List.mem_append_left _ lineMem)
      · intro part isPrefix
        exact open' part (isPrefix.trans (List.prefix_append _ _))
      · rw [← List.cons_append, balanceOf_concat]
        omega
  · rintro ⟨positive, earlier, opening, between, rfl, header, none, open', depth_eq⟩
    have whole : balanceOf (opening :: (between ++ [line])) = depth := by
      rw [← List.cons_append, balanceOf_concat]
      omega
    refine ⟨earlier, opening, between ++ [line], by simp, header, ?_, ?_, whole.symm⟩
    · intro other otherMem
      rcases List.mem_append.mp otherMem with earlierMem | last
      · exact none other earlierMem
      · rwa [List.mem_singleton.mp last]
    · intro part isPrefix
      rcases List.prefix_concat_iff.mp isPrefix with rfl | isPrefix
      · rw [whole]
        exact positive
      · exact open' part isPrefix

variable {classes : CharClasses}

/-- The state of a scan behind some lines. -/
def stateAfter (classes : CharClasses) (before : List Str) : MockState :=
  before.foldl (MockState.next classes) ⟨false, 0⟩

/-- The state of a scan says whether a block is open, and by how many braces. -/
theorem openBefore_iff : OpenBefore classes.words before depth ↔
    (stateAfter classes before).inMockBlock = true ∧
      (stateAfter classes before).mockBraceDepth = depth := by
  induction before using List.reverseRecOn generalizing depth with
  | nil =>
      refine iff_of_false ?_ (by simp [stateAfter])
      rintro ⟨earlier, opening, between, nothing, -⟩
      simp at nothing
  | append_singleton before line ih =>
      have step : stateAfter classes (before ++ [line]) =
          (stateAfter classes before).next classes line := by
        rw [stateAfter, List.foldl_append]
        rfl
      rw [step, MockState.next]
      by_cases header : startsMock classes line = true
      · rw [openBefore_of_header (startsMock_iff.mp header), MockState.enter, if_pos header]
        simp only [if_true, Int.zero_add, decide_eq_true_eq]
        constructor
        · rintro ⟨positive, rfl⟩
          exact ⟨positive, rfl⟩
        · rintro ⟨positive, rfl⟩
          exact ⟨positive, rfl⟩
      · rw [openBefore_of_not_header (fun hasHeader => header (startsMock_iff.mpr hasHeader)),
          MockState.enter, if_neg header, ih]
        split
        · next inMock =>
            simp only [decide_eq_true_eq]
            constructor
            · rintro ⟨positive, -, depth_eq⟩
              omega
            · rintro ⟨positive, rfl⟩
              refine ⟨positive, inMock, ?_⟩
              omega
        · next outside =>
            simp [outside]

theorem passedOver_iff : PassedOver classes.words before line ↔
    ((stateAfter classes before).enter classes line).inMockBlock = true := by
  rw [PassedOver, MockState.enter, ← startsMock_iff]
  split
  · next header => simp [header]
  · next header =>
      simp only [header, openBefore_iff, Bool.false_eq_true, false_or]
      constructor
      · rintro ⟨depth, inMock, -⟩
        exact inMock
      · intro inMock
        exact ⟨_, inMock, rfl⟩

end Blocks

section Findings

variable {classes : CharClasses} {config : ScannerConfig} {hclFile codePart : Str} {lineno : Nat}
  {rule : Rule} {finding : Finding}

/-- The check of a rule. -/
def checkOf (classes : CharClasses) (config : ScannerConfig) (hclFile : Str) (lineno : Nat)
    (codePart : Str) : Rule → List Finding
  | .accountId => checkAccountId classes config hclFile lineno codePart
  | .region => checkRegion hclFile lineno codePart
  | .domainApex => checkDomainApex hclFile lineno codePart
  | .cidr => checkCidr classes hclFile lineno codePart
  | .digitConfigPath => checkConfigPathDigitIndex classes config hclFile lineno codePart
  | .declaredLocal => checkDeclaredLocal classes hclFile lineno codePart

theorem mem_checkCode : finding ∈ checkCode classes config hclFile lineno codePart ↔
    ∃ rule, finding ∈ checkOf classes config hclFile lineno codePart rule := by
  simp only [checkCode, List.mem_append]
  constructor
  · rintro (((((found | found) | found) | found) | found) | found)
    · exact ⟨.accountId, found⟩
    · exact ⟨.region, found⟩
    · exact ⟨.domainApex, found⟩
    · exact ⟨.cidr, found⟩
    · exact ⟨.digitConfigPath, found⟩
    · exact ⟨.declaredLocal, found⟩
  · rintro ⟨rule, found⟩
    cases rule with
    | accountId => exact .inl (.inl (.inl (.inl (.inl found))))
    | region => exact .inl (.inl (.inl (.inl (.inr found))))
    | domainApex => exact .inl (.inl (.inl (.inr found)))
    | cidr => exact .inl (.inl (.inr found))
    | digitConfigPath => exact .inl (.inr found)
    | declaredLocal => exact .inr found

theorem mem_checkPattern {pattern : Pattern} {literal : Match → Str}
    (found : finding ∈ checkPattern hclFile lineno codePart pattern rule literal) :
    ∃ text, finding = findingOf hclFile lineno rule text := by
  rw [checkPattern] at found
  split at found
  · cases found
  · exact ⟨_, List.mem_singleton.mp found⟩

/-- The findings of a check are of its rule. -/
theorem mem_checkOf (found : finding ∈ checkOf classes config hclFile lineno codePart rule) :
    ∃ text, finding = findingOf hclFile lineno rule text := by
  cases rule with
  | accountId =>
      rw [checkOf, checkAccountId] at found
      split at found
      · cases found
      · split_ifs at found
        · cases found
        · cases found
        · exact ⟨_, List.mem_singleton.mp found⟩
  | digitConfigPath =>
      rw [checkOf, checkConfigPathDigitIndex] at found
      split at found
      · cases found
      · simp only at found
        split_ifs at found
        · cases found
        · split at found
          · cases found
          · exact ⟨_, List.mem_singleton.mp found⟩
  | region => exact mem_checkPattern found
  | domainApex => exact mem_checkPattern found
  | cidr => exact mem_checkPattern found
  | declaredLocal => exact mem_checkPattern found

theorem checkPattern_ne_nil {pattern : Pattern} {literal : Match → Str} :
    checkPattern hclFile lineno codePart pattern rule literal ≠ [] ↔
      (pattern.search codePart).isSome := by
  rw [checkPattern]
  cases pattern.search codePart with
  | none => simp
  | some found => simp

/-- The code of a line is such that a rule looks at its literals. -/
def LooksAt (words : WordClass) (config : ScannerConfig) (rule : Rule) (codePart : Str) : Prop :=
  rule = .accountId → ¬AssignsPath words codePart ∧
    ∀ name ∈ config.exemptAccountIdVarNames, ¬Assigns words name codePart

theorem checkAccountId_ne_nil : checkAccountId classes config hclFile lineno codePart ≠ [] ↔
    Shows classes.digits .accountId codePart ∧
      LooksAt classes.words config .accountId codePart := by
  rw [checkAccountId, LooksAt, ← search_accountIdInQuotesRe, ← search_configPathValueRe]
  have assigned := @matchAt_assignmentVarNameRe classes codePart config.exemptAccountIdVarNames
  have none : (∀ name ∈ config.exemptAccountIdVarNames, ¬Assigns classes.words name codePart) ↔
      ¬∃ name ∈ config.exemptAccountIdVarNames, Assigns classes.words name codePart := by
    simp
  rw [none, ← assigned]
  cases (accountIdInQuotesRe classes).search codePart with
  | none => simp
  | some found =>
      simp only
      split_ifs with path exempt
      · simp [path]
      · simp [exempt]
      · simp [path, exempt]

/-- Where a check finds something. -/
theorem checkOf_ne_nil (literals : rule ≠ .digitConfigPath ∧ rule ≠ .declaredLocal) :
    checkOf classes config hclFile lineno codePart rule ≠ [] ↔
      Shows classes.digits rule codePart ∧ LooksAt classes.words config rule codePart := by
  cases rule with
  | accountId =>
      rw [checkOf, checkAccountId_ne_nil]
  | region =>
      rw [checkOf, checkRegion, checkPattern_ne_nil, search_regionLiteralRe classes.digits]
      simp [LooksAt]
  | domainApex =>
      rw [checkOf, checkDomainApex, checkPattern_ne_nil, search_domainApexRe classes.digits]
      simp [LooksAt]
  | cidr =>
      rw [checkOf, checkCidr, checkPattern_ne_nil, search_cidrLiteralRe]
      simp [LooksAt]
  | digitConfigPath => exact absurd rfl literals.1
  | declaredLocal => exact absurd rfl literals.2

end Findings

section Runs

variable {classes : CharClasses} {config : ScannerConfig} {hclFile text : Str} {lineno : Nat}
  {rule : Rule} {finding : Finding}

/-- The findings of a scan are those of the lines that it does not pass over. -/
theorem mem_scanLines {state : MockState} {lines : List Str} :
    finding ∈ scanLines classes config hclFile lineno state lines ↔
      ∃ before line after, lines = before ++ line :: after ∧
        ((before.foldl (MockState.next classes) state).enter classes line).inMockBlock ≠ true ∧
        ¬[hash] <+: line.dropWhile isSpace ∧
        finding ∈ checkCode classes config hclFile (lineno + before.length)
          (stripInlineComment line) := by
  induction lines generalizing lineno state with
  | nil => simp [scanLines]
  | cons line lines ih =>
      have here : finding ∈ scanLines classes config hclFile lineno state (line :: lines) ↔
          ((state.enter classes line).inMockBlock ≠ true ∧ ¬[hash] <+: line.dropWhile isSpace ∧
            finding ∈ checkCode classes config hclFile lineno (stripInlineComment line)) ∨
          finding ∈ scanLines classes config hclFile (lineno + 1) (state.next classes line)
              lines := by
        rw [scanLines]
        split
        · next skipped => simp [skipped]
        · next entered =>
            split
            · next comment => simp [comment]
            · next code => simp [entered, code]
      rw [here, ih]
      constructor
      · rintro (⟨outside, code, found⟩ | ⟨before, other, after, rfl, outside, code, found⟩)
        · exact ⟨[], line, lines, rfl, outside, code, found⟩
        · refine ⟨line :: before, other, after, rfl, outside, code, ?_⟩
          rwa [List.length_cons, Nat.add_comm before.length, ← Nat.add_assoc]
      · rintro ⟨before, other, after, same, outside, code, found⟩
        cases before with
        | nil =>
            cases same
            exact .inl ⟨outside, code, found⟩
        | cons _ before =>
            cases same
            refine .inr ⟨before, other, after, rfl, outside, code, ?_⟩
            rwa [List.length_cons, Nat.add_comm before.length, ← Nat.add_assoc] at found

variable (classes config text)

/-- A literal of a rule stands in front of the first `#` of a line that the scanner does not pass
over, and the rule looks at it there. The lines are those of `splitlines`. -/
def Seen (lineno : Nat) (rule : Rule) : Prop :=
  ∃ before line after, splitlines text = before ++ line :: after ∧ lineno = before.length + 1 ∧
    ¬PassedOver classes.words before line ∧
    Shows classes.digits rule (stripInlineComment line) ∧
    LooksAt classes.words config rule (stripInlineComment line)

variable {classes config text}

theorem exists_finding_iff (literals : rule ≠ .digitConfigPath ∧ rule ≠ .declaredLocal) :
    (∃ finding ∈ scanFile classes config hclFile text,
      finding.rule = rule ∧ finding.lineNumber = lineno) ↔
          Seen classes config text lineno rule := by
  constructor
  · rintro ⟨finding, findingMem, rfl, rfl⟩
    rcases mem_scanLines.mp findingMem with ⟨before, line, after, split, outside, -, found⟩
    rcases mem_checkCode.mp found with ⟨rule, found⟩
    rcases mem_checkOf found with ⟨literal, rfl⟩
    rcases (checkOf_ne_nil literals).mp (List.ne_nil_of_mem found) with ⟨shows', looks⟩
    refine ⟨before, line, after, split, Nat.add_comm 1 before.length, ?_, shows', looks⟩
    intro passed
    exact outside (passedOver_iff.mp passed)
  · rintro ⟨before, line, after, split, rfl, notPassed, shows', looks⟩
    rcases List.exists_mem_of_ne_nil _ ((checkOf_ne_nil literals).mpr ⟨shows', looks⟩) with
      ⟨finding, found⟩
    rcases @mem_checkOf _ _ hclFile _ (1 + before.length) _ _ found with ⟨literal, rfl⟩
    refine ⟨_, mem_scanLines.mpr ⟨before, line, after, split, ?_, ?_,
      mem_checkCode.mpr ⟨rule, found⟩⟩, rfl, Nat.add_comm 1 before.length⟩
    · intro inMock
      exact notPassed (passedOver_iff.mpr inMock)
    · intro isComment
      exact not_shows_of_comment isComment shows'

end Runs

section Completeness

/-- Each literal that has to be found is found on the lines where the scanner sees one. -/
theorem complete_iff (idents : WordClass) (classes : CharClasses) (config : ScannerConfig)
    (hclFile text : Str) : Complete idents classes config text hclFile ↔
      ∀ lineno rule, Deserves idents classes config text lineno rule →
        Seen classes config text lineno rule := by
  apply forall_congr'
  intro lineno
  apply forall_congr'
  intro rule
  apply imp_congr_right
  rintro ⟨front, literal, back, -, isLiteral, -⟩
  apply exists_finding_iff
  constructor
  · rintro rfl
    exact isLiteral
  · rintro rfl
    exact isLiteral

/-- A header in a comment, in front of a region. -/
def commentedHeader : Str := str "# mock_outputs = \x7b\nregion = \"us-east-1\"\n"

/-- The scanner takes everything behind the comment for a block. -/
theorem not_complete_commentedHeader :
    ¬Complete .latin .latin (buildDefaultConfig .latin) commentedHeader (str "region.hcl") := by
  intro complete
  have deserved : Deserves .latin .latin (buildDefaultConfig .latin) commentedHeader 2 .region := by
    refine ⟨(marks .latin commentedHeader).take 28,
      ((marks .latin commentedHeader).drop 28).take 11,
      (marks .latin commentedHeader).drop 39, by decide +kernel, ?_, by decide +kernel, ?_,
      by decide +kernel⟩
    · exact List.mem_map.mpr ⟨str "us-east-1", by decide, by decide +kernel⟩
    · rintro ⟨other, -⟩
      cases other
  rcases complete 2 .region deserved with ⟨finding, findingMem, -⟩
  have nothing : (scanFile .latin (buildDefaultConfig .latin) (str "region.hcl")
      commentedHeader).isEmpty = true := by decide +kernel
  rw [List.isEmpty_iff.mp nothing] at findingMem
  cases findingMem

end Completeness

end IdentityScan
