import TelemetryPlatform.ConstSources.Scan

/-!
# Files of module blocks

A `main.tf` is a sequence of module blocks with one `source` attribute each. What
the patterns of the scan find in such a file is found block by block: the attribute
where it stands on a line of its own, and the header where the name of the block has
no hyphen.
-/

namespace ConstSources

open Python

section Blocks

/-- The expression of a `source` attribute: a string, a variable or something else. -/
inductive SourceExpr where
  | literal (raw : Str)
  | varDriven (name : Str)
  | other (text : Str)

def SourceExpr.text : SourceExpr → Str
  | .literal raw => quote :: (raw ++ [quote])
  | .varDriven name => str "var." ++ name
  | .other text => text

/-- The text of a module block, with the lines in front of it. -/
structure BlockText where
  notes : Str
  indent : Str
  gap : Str
  name : Str
  brace : Str
  before : Str
  sourceGap : Str
  afterEquals : Str
  expr : SourceExpr
  after : Str

namespace BlockText

variable (block : BlockText)

def lead : Str := block.notes ++ block.indent

def header : Str :=
  str "module" ++ (block.gap ++ quote :: (block.name ++ quote :: (block.brace ++ str "\x7b")))

/-- The text after the equals sign. -/
def value : Str := block.afterEquals ++ (block.expr.text ++ block.after)

def close : Str := str "\x7d\n"

/-- Everything up to the equals sign. -/
def front : Str :=
  block.lead ++ (block.header ++ assignmentFront block.before (str "source") block.sourceGap)

def text : Str := block.front ++ (block.value ++ close)

end BlockText

/-- A place is at the start of a line. -/
def StartsLine (lines : Str) : Prop := lines = [] ∨ lines.getLast? = newline

/-- Whatever follows the block, the lines of the block that begin with a `source` attribute or with
the header of a module are its own. -/
structure ModuleBlock (words : WordClass) extends BlockText where
  startsLine : StartsLine notes
  space : AllSpace indent ∧ AllSpace gap ∧ AllSpace brace ∧ AllSpace sourceGap ∧
    AllSpace afterEquals
  gapSome : gap ≠ []
  named : name ≠ [] ∧ ∀ c ∈ name, words.holds c = true ∨ c = .char '-'
  fits : match expr with
    | .literal _ => True
    | .varDriven name => ∃ c ∈ name.head?, words.holds c = true
    | .other text => (∃ c ∈ text.head?, isSpace c = false ∧ c ≠ quote) ∧
        ¬str "var." <+: text ++ (after ++ BlockText.close)
  onlySource : ∀ lines indent' gap' back rest,
    toBlockText.text ++ rest = lines ++ (indent' ++ (str "source" ++ (gap' ++ (str "=" ++ back)))) →
    lines.length < toBlockText.text.length → StartsLine lines → AllSpace indent' → AllSpace gap' →
    ∃ cut, lines = toBlockText.lead ++ (toBlockText.header ++ cut) ∧ before = cut ++ indent'
  onlyHeader : ∀ lines indent' gap' back rest,
    toBlockText.text ++ rest = lines ++ (indent' ++ (str "module" ++ (gap' ++ quote :: back))) →
    lines.length < toBlockText.text.length → StartsLine lines → AllSpace indent' → AllSpace gap' →
    lines ++ indent' = toBlockText.lead

variable {words : WordClass}

/-- The attribute begins a line of the block. -/
def OnOwnLine (block : ModuleBlock words) : Prop :=
  ∃ cut indent, block.before = cut ++ indent ∧ cut.getLast? = newline ∧ AllSpace indent

/-- The name of the block has no hyphen. -/
def IsWord (block : ModuleBlock words) : Prop := ∀ c ∈ block.name, words.holds c = true

instance (block : ModuleBlock words) : Decidable (IsWord block) :=
  inferInstanceAs (Decidable (∀ c ∈ _, _))

/-- The text of some blocks. -/
def textOf (blocks : List (ModuleBlock words)) : Str := blocks.flatMap fun block => block.text

end Blocks

section Places

/-- A line with a `source` attribute of some shape. -/
def sourceLine (parts : List Pattern) : Pattern :=
  .sequence (Pattern.assignment (str "source") ++ parts)

variable {words : WordClass} {block : ModuleBlock words} {passed rest : Str} {found : Match}
  {parts : List Pattern}

theorem startsLine_of_passed {before : Str}
    (atStart : before.reverse ++ passed = [] ∨ (before.reverse ++ passed).head? = newline) :
    StartsLine before := by
  rcases List.eq_nil_or_concat before with rfl | ⟨others, c, rfl⟩
  · exact .inl rfl
  · right
    simpa using atStart

theorem getLast?_header (block : BlockText) : block.header.getLast? = some (.char '\x7b') := by
  have whole : block.header = str "module" ++ (block.gap ++ quote :: (block.name ++ quote ::
      block.brace)) ++ [.char '\x7b'] := by simp [BlockText.header, str]
  rw [whole, List.getLast?_concat]

theorem endsLine_of_startsLine {cut : Str} (starts : StartsLine
    (block.lead ++ (block.header ++ cut))) :
    cut.getLast? = newline := by
  have someHeader : block.header ≠ [] := by
    intro none
    have last := getLast?_header block.toBlockText
    rw [none] at last
    cases last
  rcases starts with nothing | ends
  · exact absurd (List.append_eq_nil_iff.mp (List.append_eq_nil_iff.mp nothing).2).1 someHeader
  · rw [List.getLast?_append_of_ne_nil _ (by simp [someHeader])] at ends
    by_cases nothing : cut = []
    · rw [nothing, List.append_nil, getLast?_header] at ends
      exact absurd ends (by decide)
    · rwa [List.getLast?_append_of_ne_nil _ nothing] at ends

/-- Where the attribute of a block is found. -/
theorem place_of_source {before after : Str} (split : block.text = before ++ after)
    (nonempty : after ≠ [])
    (matched : (sourceLine parts).matchAt (before.reverse ++ passed) (after ++ rest) = some found) :
    ∃ cut indent middle back, before = block.lead ++ (block.header ++ cut) ∧
      block.before = cut ++ indent ∧ cut.getLast? = newline ∧ AllSpace indent ∧
      found.text = indent ++ (str "source" ++ (block.sourceGap ++ str "=")) ++ middle ∧
      block.value ++ (BlockText.close ++ rest) = middle ++ back ∧
      (Pattern.sequence parts).Reads (block.front.reverse ++ passed) middle back []
        found.stop.groups := by
  rcases reads_of_matchAt matched with ⟨-, ahead, -, reads⟩
  rcases reads_append.mp reads with ⟨head, middle, between, whole, readsHead, readsParts⟩
  rcases reads_assignment.mp readsHead with ⟨atStart, rfl, indent, gap, rfl, indentSpace, gapSpace⟩
  have long : before.length < block.text.length := by
    rw [split, List.length_append]
    exact Nat.lt_add_of_pos_right (List.length_pos_iff.mpr nonempty)
  have place : block.text ++ rest =
      before ++ (indent ++ (str "source" ++ (gap ++
          (str "=" ++ (middle ++ found.stop.ahead))))) := by
    rw [split, List.append_assoc, ahead, whole]
    simp
  rcases block.onlySource before indent gap _ rest place long (startsLine_of_passed atStart)
    indentSpace gapSpace with ⟨cut, rfl, cut_eq⟩
  have same : block.sourceGap ++ .char '=' :: (block.value ++ (BlockText.close ++ rest)) =
      gap ++ .char '=' :: (middle ++ found.stop.ahead) := by
    simpa [BlockText.text, BlockText.front, assignmentFront, cut_eq, str] using place
  rcases span_cons_unique block.space.2.2.2.1 gapSpace (by decide) (by decide) same with
    ⟨rfl, -, value_eq⟩
  refine ⟨cut, indent, middle, found.stop.ahead, rfl, cut_eq,
    endsLine_of_startsLine (startsLine_of_passed atStart), indentSpace, whole, value_eq, ?_⟩
  simpa [BlockText.front, assignmentFront, cut_eq] using readsParts

/-- The attribute of a block is found where it is on its own line and the pattern goes on with its
value. -/
theorem matchAt_source {cut indent : Str} {groups : List (Nat × Str)}
    (before_eq : block.before = cut ++ indent) (ends : cut.getLast? = newline)
    (indentSpace : AllSpace indent)
    (begins : Begins parts (block.front.reverse ++ passed)
      (block.value ++ (BlockText.close ++ rest)) [] groups) :
    ((sourceLine parts).matchAt
      ((block.lead ++ (block.header ++ cut)).reverse ++ passed)
      (indent ++ (str "source" ++ (block.sourceGap ++ str "=")) ++
        (block.value ++ (BlockText.close ++ rest)))).isSome := by
  rcases begins with ⟨middle, back, value_eq, reads⟩
  apply matchAt_isSome.mpr
  refine ⟨indent ++ (str "source" ++ (block.sourceGap ++ str "=")) ++ middle, back, groups, ?_,
    reads_append.mpr ⟨_, middle, [], rfl, reads_assignment.mpr ⟨?_, rfl, indent, block.sourceGap,
      rfl, indentSpace, block.space.2.2.2.1⟩, ?_⟩⟩
  · simp [value_eq]
  · right
    simp [List.head?_append, ends]
  · simpa [BlockText.front, assignmentFront, before_eq] using reads

/-- The patterns of the parts match nothing beyond the block. -/
def StaysInside (block : BlockText) (parts : List Pattern) : Prop :=
  ∀ passed middle back rest groups, block.value ++ (BlockText.close ++ rest) = middle ++ back →
    (Pattern.sequence parts).Reads passed middle back [] groups → middle <+: block.value

/-- The attribute of a block can be read with a pattern. -/
def Shows (block : ModuleBlock words) (parts : List Pattern) (passed rest : Str)
    (groups : List (Nat × Str)) : Prop :=
  OnOwnLine block ∧ Begins parts (block.front.reverse ++ passed)
    (block.value ++ (BlockText.close ++ rest)) [] groups

theorem text_split {cut indent more : Str} (before_eq : block.before = cut ++ indent)
    {middle : Str} (value_eq : block.value = middle ++ more) :
    block.text = block.lead ++ (block.header ++ cut) ++
      (indent ++ (str "source" ++ (block.sourceGap ++ str "=")) ++ middle ++
        (more ++ BlockText.close)) := by
  simp [BlockText.text, BlockText.front, assignmentFront, before_eq, value_eq]

/-- A pattern finds one attribute in a block, or none. -/
theorem findFrom_source (block : ModuleBlock words) (parts : List Pattern) (passed rest : Str)
    (inside : StaysInside block.toBlockText parts) :
    ((sourceLine parts).findFrom passed 0 (block.text ++ rest) =
        (sourceLine parts).findFrom (block.text.reverse ++ passed) 0 rest ∧
      ∀ groups, ¬Shows block parts passed rest groups) ∨
    ∃ found cut, (sourceLine parts).findFrom passed 0 (block.text ++ rest) =
        found :: (sourceLine parts).findFrom (block.text.reverse ++ passed) 0 rest ∧
      cut <+: block.before ∧
      found.start.passed = (block.lead ++ (block.header ++ cut)).reverse ++ passed ∧
      Shows block parts passed rest found.stop.groups := by
  rcases avoids_or_first_within (sourceLine parts) passed block.text rest with
    avoids | ⟨before, after, found, split, nonempty, avoids, matched⟩
  · refine .inl ⟨findFrom_append avoids, ?_⟩
    rintro groups ⟨⟨cut, indent, before_eq, ends, indentSpace⟩, begins⟩
    have isSome := matchAt_source before_eq ends indentSpace begins
    have none := avoids _ _ (text_split before_eq (List.nil_append _).symm) (by simp [str])
    simp only [List.append_nil, List.append_assoc] at none isSome
    rw [none] at isSome
    cases isSome
  · right
    rcases place_of_source split nonempty matched with
      ⟨cut, indent, middle, back, rfl, before_eq, ends, indentSpace, whole, value_eq, reads⟩
    rcases inside _ middle back rest _ value_eq reads with ⟨more, more_eq⟩
    have after_eq : after = found.text ++ (more ++ BlockText.close) := by
      apply (List.append_right_inj (block.lead ++ (block.header ++ cut))).mp
      rw [← split, text_split before_eq more_eq.symm, whole]
    have someText : found.text ≠ [] := by simp [whole, str]
    rw [after_eq] at avoids matched
    have last : (sourceLine parts).Avoids (found.text.reverse ++
        ((block.lead ++ (block.header ++ cut)).reverse ++ passed))
            (more ++ BlockText.close) rest := by
      intro front back' parted some
      by_contra matched'
      rcases Option.ne_none_iff_exists'.mp matched' with ⟨other, again⟩
      have split' : block.text =
          (block.lead ++ (block.header ++ cut) ++ found.text ++ front) ++ back' := by
        rw [split, after_eq, parted]
        simp
      have again' : (sourceLine parts).matchAt ((block.lead ++ (block.header ++ cut) ++
          found.text ++ front).reverse ++ passed) (back' ++ rest) = Option.some other := by simpa
          using again
      rcases place_of_source split' some again' with ⟨cut', indent', -, -, before_eq', cut_eq, -⟩
      have lengths := congrArg List.length before_eq'
      rw [whole] at lengths
      simp only [List.length_append, str] at lengths
      have cuts := congrArg List.length (before_eq.symm.trans cut_eq)
      simp only [List.length_append] at cuts
      simp at lengths
      omega
    refine ⟨found, cut, ?_, ⟨indent, before_eq.symm⟩, ?_,
      ⟨cut, indent, before_eq, ends, indentSpace⟩, middle, back, value_eq, reads⟩
    · have single := findFrom_single someText avoids matched rfl last
      rw [split, after_eq]
      simpa using single
    · rw [(reads_of_matchAt matched).1]

end Places

section Headers

variable {words : WordClass} {block : ModuleBlock words} {passed tail rest : Str} {found : Match}

theorem reads_labelPart {text : Str} {groups after : List (Nat × Str)} :
    (Pattern.sequence (labelPart words)).Reads passed text rest groups after ↔
      ∃ gap name brace,
        text = gap ++ quote :: (name ++ quote :: (brace ++ str "\x7b")) ∧ gap ≠ [] ∧ AllSpace gap ∧
        name ≠ [] ∧ (∀ c ∈ name, words.holds c = true) ∧ AllSpace brace ∧
        after = (1, name) :: groups := by
  simp only [labelPart, reads_cons, reads_nil, reads_oneOrMore_one, reads_word, reads_group,
    reads_spaces]
  constructor
  · rintro ⟨gap, _, _, rfl, ⟨someGap, gapSpace, rfl⟩, _, _, _, rfl, ⟨rfl, rfl⟩, name, _, _, rfl,
      ⟨_, ⟨someName, isWord, rfl⟩, rfl⟩, _, _, _, rfl, ⟨rfl, rfl⟩, brace, _, _, rfl,
      ⟨braceSpace, rfl⟩,
      _, _, _, rfl, ⟨rfl, rfl⟩, rfl, rfl⟩
    exact ⟨gap, name, brace, by simp, someGap, gapSpace, someName, isWord, braceSpace, rfl⟩
  · rintro ⟨gap, name, brace, rfl, someGap, gapSpace, someName, isWord, braceSpace, rfl⟩
    exact ⟨gap, _, _, rfl, ⟨someGap, gapSpace, rfl⟩, [quote], _, _, rfl, ⟨rfl, rfl⟩,
      name, _, _, rfl, ⟨_, ⟨someName, isWord, rfl⟩, rfl⟩, [quote], _, _, rfl, ⟨rfl, rfl⟩,
      brace, _, _, rfl,
      ⟨braceSpace, rfl⟩, str "\x7b", [], _, rfl, ⟨rfl, rfl⟩, rfl, rfl⟩

theorem reads_keyword {text key : Str} {groups after : List (Nat × Str)} :
    (Pattern.sequence [.lineStart, .spaces, .word key]).Reads passed text rest groups after ↔
      (passed = [] ∨ passed.head? = newline) ∧ after = groups ∧
        ∃ indent, text = indent ++ key ∧ AllSpace indent := by
  simp only [reads_cons, reads_nil, reads_lineStart, reads_spaces, reads_word]
  constructor
  · rintro ⟨_, _, _, rfl, ⟨rfl, rfl, starts⟩, indent, _, _, rfl, ⟨indentSpace, rfl⟩, _, _, _, rfl,
      ⟨rfl, rfl⟩, rfl, rfl⟩
    exact ⟨starts, rfl, indent, by simp, indentSpace⟩
  · rintro ⟨starts, rfl, indent, rfl, indentSpace⟩
    exact ⟨[], _, _, rfl, ⟨rfl, rfl, starts⟩, indent, _, _, rfl, ⟨indentSpace, rfl⟩, key, [], _,
      by simp, ⟨rfl, rfl⟩, rfl, rfl⟩

theorem not_holds_quote (words : WordClass) : words.holds quote = false := by
  rw [words.ascii quote (by decide)]
  decide

theorem quote_not_mem_name (block : ModuleBlock words) : quote ∉ block.name := by
  intro quoteMem
  rcases block.named.2 quote quoteMem with isWord | isHyphen
  · rw [not_holds_quote] at isWord
    cases isWord
  · exact absurd isHyphen (by decide)

/-- In a text that begins with a block, up to some place behind its header, no other line begins
with a header. -/
def OnlyHeader (block : BlockText) (tail rest : Str) : Prop :=
  ∀ lines indent gap back,
    block.lead ++ (block.header ++ tail) ++ rest =
      lines ++ (indent ++ (str "module" ++ (gap ++ quote :: back))) →
    lines.length < (block.lead ++ (block.header ++ tail)).length → StartsLine lines →
    AllSpace indent → AllSpace gap → lines ++ indent = block.lead

/-- Where the header of a block is found. -/
theorem place_of_header {before after : Str} (only : OnlyHeader block.toBlockText tail rest)
    (split : block.lead ++ (block.header ++ tail) = before ++ after) (nonempty : after ≠ [])
    (matched : (moduleBlockStartRe words).matchAt (before.reverse ++ passed) (after ++ rest) =
      some found) :
    ∃ indent, before ++ indent = block.lead ∧ AllSpace indent ∧
      found.text = indent ++ block.header ∧ IsWord block ∧ found.group 1 = some block.name := by
  rcases reads_of_matchAt matched with ⟨-, ahead, -, reads⟩
  rcases reads_append.mp reads with ⟨head, label, between, whole, readsHead, readsLabel⟩
  rcases reads_keyword.mp readsHead with ⟨atStart, rfl, indent, rfl, indentSpace⟩
  rcases reads_labelPart.mp readsLabel with
    ⟨gap, name, brace, rfl, -, gapSpace, -, isWord, braceSpace, groups⟩
  have place : block.lead ++ (block.header ++ tail) ++ rest = before ++ (indent ++ (str "module" ++
      (gap ++ quote :: (name ++ quote :: (brace ++ .char '\x7b' :: found.stop.ahead))))) := by
    rw [split, List.append_assoc, ahead, whole]
    simp [str]
  have long : before.length < (block.lead ++ (block.header ++ tail)).length := by
    rw [split, List.length_append]
    exact Nat.lt_add_of_pos_right (List.length_pos_iff.mpr nonempty)
  have lead_eq := only before indent gap _ place long (startsLine_of_passed atStart) indentSpace
    gapSpace
  have same : block.gap ++ quote :: (block.name ++ quote :: (block.brace ++ .char '\x7b' ::
      (tail ++ rest))) =
      gap ++ quote :: (name ++ quote :: (brace ++ .char '\x7b' :: found.stop.ahead)) := by
    rw [← lead_eq] at place
    simpa [BlockText.header, str] using place
  have solid : isSpace quote = false := by decide
  have plain : quote ∉ name := by
    intro quoteMem
    have holds := isWord quote quoteMem
    rw [not_holds_quote] at holds
    cases holds
  rcases span_cons_unique block.space.2.1 gapSpace solid solid same with ⟨gap_eq, -, label⟩
  rcases span_cons_unique (ne_quote_of_plain (quote_not_mem_name block)) (ne_quote_of_plain plain)
    (by simp) (by simp) label with ⟨name_eq, -, closing⟩
  rcases span_cons_unique block.space.2.2.1 braceSpace (by decide) (by decide) closing with
    ⟨brace_eq, -, -⟩
  refine ⟨indent, lead_eq, indentSpace, ?_, ?_, ?_⟩
  · rw [whole, BlockText.header, gap_eq, name_eq, brace_eq, List.append_assoc]
  · rwa [IsWord, name_eq]
  · rw [Match.group, groups, name_eq]
    rfl

theorem matchAt_header (atLine : passed = [] ∨ passed.head? = newline) (isWord : IsWord block)
    (rest : Str) : ((moduleBlockStartRe words).matchAt (block.notes.reverse ++ passed)
      (block.indent ++ block.header ++ rest)).isSome := by
  apply matchAt_isSome.mpr
  refine ⟨block.indent ++ block.header, rest, [(1, block.name)], rfl,
    reads_append.mpr ⟨block.indent ++ str "module", block.gap ++ quote :: (block.name ++ quote ::
      (block.brace ++ str "\x7b")), [], by simp [BlockText.header],
      reads_keyword.mpr ⟨?_, rfl, block.indent, rfl, block.space.1⟩,
      reads_labelPart.mpr ⟨block.gap, block.name, block.brace, rfl, block.gapSome, block.space.2.1,
        block.named.1, isWord, block.space.2.2.1, rfl⟩⟩⟩
  rcases block.startsLine with nothing | ends
  · rw [nothing]
    exact atLine
  · right
    simp [List.head?_append, ends]

/-- The scan finds the header of a block where the name is a word. -/
theorem findFrom_header (block : ModuleBlock words) {passed tail rest : Str}
    (atLine : passed = [] ∨ passed.head? = newline)
    (only : OnlyHeader block.toBlockText tail rest) :
    (¬IsWord block ∧
      (moduleBlockStartRe words).findFrom passed 0 (block.lead ++ (block.header ++ tail) ++ rest) =
        (moduleBlockStartRe words).findFrom
          ((block.lead ++ (block.header ++ tail)).reverse ++ passed) 0 rest) ∨
    (IsWord block ∧ ∃ found, found.group 1 = some block.name ∧
      (moduleBlockStartRe words).findFrom passed 0 (block.lead ++ (block.header ++ tail) ++ rest) =
        found :: (moduleBlockStartRe words).findFrom
          ((block.lead ++ (block.header ++ tail)).reverse ++ passed) 0 rest) := by
  rcases avoids_or_first_within (moduleBlockStartRe words) passed
    (block.lead ++ (block.header ++ tail)) rest with
    avoids | ⟨before, after, found, split, nonempty, avoids, matched⟩
  · refine .inl ⟨fun isWord => ?_, findFrom_append avoids⟩
    have isSome := matchAt_header atLine isWord (tail ++ rest)
    have none := avoids block.notes (block.indent ++ block.header ++ tail)
      (by simp [BlockText.lead]) (by simp [BlockText.header])
    simp only [List.append_assoc] at none isSome
    rw [none] at isSome
    cases isSome
  · right
    rcases place_of_header only split nonempty matched with
      ⟨indent, lead_eq, indentSpace, whole, isWord, named⟩
    have after_eq : after = found.text ++ tail := by
      apply (List.append_right_inj before).mp
      rw [← split, whole, ← lead_eq]
      simp
    have someText : found.text ≠ [] := by simp [whole, BlockText.header]
    rw [after_eq] at avoids matched
    have last : (moduleBlockStartRe words).Avoids (found.text.reverse ++ (before.reverse ++ passed))
        tail rest := by
      intro front back parted some
      by_contra matched'
      rcases Option.ne_none_iff_exists'.mp matched' with ⟨other, again⟩
      have split' : block.lead ++ (block.header ++ tail) = (before ++ found.text ++ front) ++
          back := by
        rw [split, after_eq, parted]
        simp
      have again' : (moduleBlockStartRe words).matchAt ((before ++ found.text ++ front).reverse ++
          passed) (back ++ rest) = Option.some other := by simpa using again
      rcases place_of_header only split' some again' with ⟨indent', lead_eq', -⟩
      have lengths := congrArg List.length lead_eq'
      have positive := List.length_pos_iff.mpr someText
      rw [← lead_eq, whole] at lengths
      simp only [List.length_append] at lengths
      have header : 0 < block.header.length :=
        List.length_pos_iff.mpr (by simp [BlockText.header])
      omega
    refine ⟨isWord, found, named, ?_⟩
    have single := findFrom_single someText avoids matched rfl last
    rw [split, after_eq]
    simpa using single

end Headers

end ConstSources
