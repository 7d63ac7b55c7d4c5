import TelemetryPlatform.ConstSources.Blocks

/-!
# Whose source it is

`Attributed` says that the findings of a scan are those that the blocks of the file
deserve, each by its own name and source. The scan goes by the last header it can
read, and it reads no name with a hyphen; such a block counts for the last one in
front of it that has none.
-/

namespace ConstSources

open Python

section Sources

variable {words : WordClass} {block : ModuleBlock words} {passed rest : Str}
  {groups : List (Nat × Str)}

/-- The string of a block as the scan reads it: up to the first quotation mark, if that is not
all. -/
def readLiteral (block : BlockText) : Option Str :=
  match block.expr with
  | .literal raw =>
      if beforeFirst quote raw = [] then none else some (beforeFirst quote raw)
  | _ => none

def IsVarDriven (block : BlockText) : Prop := ∃ name, block.expr = .varDriven name

theorem reads_variablePart {text : Str} {after : List (Nat × Str)} :
    (Pattern.sequence (variablePart words)).Reads passed text rest groups after ↔
      ∃ gap name, text = gap ++ (str "var." ++ name) ∧ AllSpace gap ∧ name ≠ [] ∧
        (∀ c ∈ name, words.holds c = true) ∧ after = (1, name) :: groups := by
  simp only [variablePart, reads_cons, reads_nil, reads_oneOrMore_one, reads_word, reads_group,
    reads_spaces]
  constructor
  · rintro ⟨gap, _, _, rfl, ⟨gapSpace, rfl⟩, _, _, _, rfl, ⟨rfl, rfl⟩, name, _, _, rfl,
      ⟨_, ⟨someName, isWord, rfl⟩, rfl⟩, rfl, rfl⟩
    exact ⟨gap, name, by simp, gapSpace, someName, isWord, rfl⟩
  · rintro ⟨gap, name, rfl, gapSpace, someName, isWord, rfl⟩
    exact ⟨gap, _, _, rfl, ⟨gapSpace, rfl⟩, str "var.", _, _, rfl, ⟨rfl, rfl⟩, name, [], _, by simp,
      ⟨_, ⟨someName, isWord, rfl⟩, rfl⟩, rfl, rfl⟩

/-- The first character of the expression of a block. -/
theorem exists_first (block : ModuleBlock words) :
    ∃ c back, block.expr.text = c :: back ∧ isSpace c = false ∧
      (c = quote → ∃ raw, block.expr = .literal raw) := by
  have fits := block.fits
  cases shape : block.expr with
  | literal raw => exact ⟨quote, raw ++ [quote], rfl, by decide, fun _ => ⟨raw, rfl⟩⟩
  | varDriven name =>
      refine ⟨.char 'v', str "ar." ++ name, rfl, by decide, fun isQuote => ?_⟩
      exact absurd isQuote (by decide)
  | other text =>
      rw [shape] at fits
      rcases fits.1 with ⟨c, first, solid, notQuote⟩
      cases text with
      | nil => cases first
      | cons d back =>
          cases Option.some.inj first
          exact ⟨c, back, rfl, solid, fun isQuote => absurd isQuote notQuote⟩

/-- The first quotation mark behind the one that opens a string. -/
theorem exists_close (raw : Str) :
    ∃ back, raw ++ [quote] = beforeFirst quote raw ++ quote :: back := by
  rcases beforeFirst_cases quote raw with whole | ⟨back, split⟩
  · exact ⟨[], by rw [← whole]⟩
  · refine ⟨back ++ [quote], ?_⟩
    nth_rewrite 1 [split]
    simp

theorem exists_value_of_literal {raw : Str} (shape : block.expr = .literal raw) :
    ∃ back, block.value =
      block.afterEquals ++ quote :: (beforeFirst quote raw ++ quote :: back) := by
  rcases exists_close raw with ⟨back, same⟩
  refine ⟨back ++ block.after, ?_⟩
  rw [BlockText.value, shape, SourceExpr.text, same]
  simp

theorem begins_literal {raw : Str} (shape : block.expr = .literal raw) :
    Begins (Pattern.quotedText 1) passed (block.value ++ (BlockText.close ++ rest)) [] groups ↔
      beforeFirst quote raw ≠ [] ∧ groups = [(1, beforeFirst quote raw)] := by
  rcases exists_value_of_literal shape with ⟨back, value_eq⟩
  rw [value_eq, ← List.append_nil (Pattern.quotedText 1), List.append_assoc, List.cons_append,
    List.append_assoc, List.cons_append, begins_quotedText block.space.2.2.2.2 not_mem_beforeFirst,
    begins_nil]

theorem begins_quoted :
    Begins (Pattern.quotedText 1) passed (block.value ++ (BlockText.close ++ rest)) [] groups ↔
      ∃ value, readLiteral block.toBlockText = some value ∧ groups = [(1, value)] := by
  by_cases isLiteral : ∃ raw, block.expr = .literal raw
  · rcases isLiteral with ⟨raw, shape⟩
    rw [begins_literal shape, readLiteral, shape]
    simp only
    split
    · next nothing => simp [nothing]
    · next some => simp [some]
  · have unread : readLiteral block.toBlockText = none := by
      cases shape : block.expr with
      | literal raw => exact absurd ⟨raw, shape⟩ isLiteral
      | _ => simp [readLiteral, shape]
    rw [unread]
    refine iff_of_false (fun begins => ?_) (by simp)
    rcases exists_first block with ⟨c, back, text_eq, solid, quoted⟩
    rw [BlockText.value, text_eq, ← List.append_nil (Pattern.quotedText 1)] at begins
    simp only [List.append_assoc, List.cons_append] at begins
    exact isLiteral (quoted (eq_quote_of_begins block.space.2.2.2.2 solid begins))

theorem staysInside_quoted (block : ModuleBlock words) :
    StaysInside block.toBlockText (Pattern.quotedText 1) := by
  intro passed middle back rest groups same reads
  rcases begins_quoted.mp ⟨middle, back, same, reads⟩ with ⟨value, readable, -⟩
  rcases reads_quotedText.mp reads with ⟨gap, inner, rfl, gapSpace, -, plain, -⟩
  cases shape : block.expr with
  | literal raw =>
      rcases exists_value_of_literal shape with ⟨behind, value_eq⟩
      rw [value_eq] at same ⊢
      simp only [List.append_assoc, List.cons_append, List.nil_append] at same
      rcases span_cons_unique block.space.2.2.2.2 gapSpace (by decide) (by decide) same with
        ⟨gap_eq, -, opened⟩
      rcases span_cons_unique (ne_quote_of_plain not_mem_beforeFirst) (ne_quote_of_plain plain)
        (by simp) (by simp) opened with ⟨inner_eq, -, -⟩
      exact ⟨behind, by simp [gap_eq, inner_eq]⟩
  | _ => simp [readLiteral, shape] at readable

theorem not_close_of_isWord (words : WordClass) : words.holds (.char '\x7d') = false := by
  rw [words.ascii _ (by decide)]
  decide

theorem staysInside_variable (block : ModuleBlock words) :
    StaysInside block.toBlockText (variablePart words) := by
  intro passed middle back rest groups same reads
  rcases reads_variablePart.mp reads with ⟨gap, name, rfl, gapSpace, -, isWord, -⟩
  have closeBehind : gap ++ (str "var." ++ name) <+: block.value ++ .char '\x7d' ::
      newline :: rest :=
    ⟨back, same.symm⟩
  apply prefix_of_not_mem ?_ closeBehind
  simp only [List.mem_append, not_or]
  refine ⟨fun closeMem => absurd (gapSpace _ closeMem) (by decide), by decide, fun closeMem => ?_⟩
  have holds := isWord _ closeMem
  rw [not_close_of_isWord] at holds
  cases holds

theorem begins_variable :
    (∃ groups, Begins (variablePart words) passed (block.value ++ (BlockText.close ++ rest)) []
      groups) ↔ IsVarDriven block.toBlockText := by
  constructor
  · rintro ⟨groups, middle, back, same, reads⟩
    rcases reads_variablePart.mp reads with ⟨gap, name, rfl, gapSpace, -, -, -⟩
    rcases exists_first block with ⟨c, tail, text_eq, solid, -⟩
    have first : block.afterEquals ++ c :: (tail ++ (block.after ++ (BlockText.close ++ rest))) =
        gap ++ .char 'v' :: (str "ar." ++ (name ++ back)) := by
      simpa [BlockText.value, text_eq, str] using same
    rcases span_cons_unique block.space.2.2.2.2 gapSpace solid (by decide) first with
      ⟨gap_eq, isV, -⟩
    rw [isV] at text_eq
    cases shape : block.expr with
    | literal raw =>
        rw [shape, SourceExpr.text, List.cons.injEq] at text_eq
        exact absurd text_eq.1 (by decide)
    | varDriven name => exact ⟨name, shape⟩
    | other text =>
        have fits := block.fits
        rw [shape] at fits
        have begins : str "var." <+: text ++ block.after ++ .char '\x7d' :: newline :: rest := by
          refine ⟨name ++ back, (List.append_right_inj block.afterEquals).mp ?_⟩
          rw [BlockText.value, shape, SourceExpr.text, ← gap_eq] at same
          simpa [BlockText.close, str, newline] using same.symm
        apply absurd (prefix_of_not_mem (by decide) begins)
        intro early
        apply fits.2
        rw [← List.append_assoc]
        exact early.trans (List.prefix_append _ _)
  · rintro ⟨name, shape⟩
    have fits := block.fits
    rw [shape] at fits
    rcases fits with ⟨c, first, isWord⟩
    cases name with
    | nil => cases first
    | cons d name =>
        cases Option.some.inj first
        refine ⟨[(1, [c])], block.afterEquals ++ (str "var." ++ [c]),
          name ++ (block.after ++ (BlockText.close ++ rest)), ?_, reads_variablePart.mpr
          ⟨_, [c], rfl, block.space.2.2.2.2, List.cons_ne_nil c [], by simpa using isWord, rfl⟩⟩
        simp [BlockText.value, shape, SourceExpr.text]

end Sources

section Owners

variable {words : WordClass}

/-- The block that the scan takes for the owner of the last source of some blocks. -/
def ownerOf (blocks : List (ModuleBlock words)) : Option Str :=
  ((blocks.filter fun block => IsWord block).map fun block => block.name).getLast?

theorem atLine_textOf (blocks : List (ModuleBlock words)) :
    (textOf blocks).reverse = [] ∨ (textOf blocks).reverse.head? = newline := by
  rcases List.eq_nil_or_concat blocks with rfl | ⟨others, block, rfl⟩
  · exact .inl rfl
  · right
    simp [textOf, BlockText.text, BlockText.close, str, newline]

/-- The part of a block behind its header. -/
theorem text_eq_header (block : BlockText) :
    block.text = block.lead ++ (block.header ++ (assignmentFront block.before (str "source")
      block.sourceGap ++ (block.value ++ BlockText.close))) := by
  simp [BlockText.text, BlockText.front]

theorem onlyHeader_text (block : ModuleBlock words) (rest : Str) :
    OnlyHeader block.toBlockText (assignmentFront block.before (str "source") block.sourceGap ++
      (block.value ++ BlockText.close)) rest := by
  intro lines indent gap back same long
  rw [← text_eq_header] at same long
  exact block.onlyHeader lines indent gap back rest same long

theorem onlyHeader_cut (block : ModuleBlock words) {cut : Str} (isPrefix : cut <+: block.before) :
    OnlyHeader block.toBlockText cut [] := by
  rcases isPrefix with ⟨more, before_eq⟩
  intro lines indent gap back same long
  have whole : block.text ++ [] = lines ++ (indent ++ (str "module" ++ (gap ++ quote :: (back ++
      (more ++ (str "source" ++ (block.sourceGap ++ str "=")) ++
        (block.value ++ BlockText.close)))))) := by
    rw [List.append_nil] at same
    rw [text_eq_header, ← before_eq]
    have longer := congrArg (· ++ (more ++ (str "source" ++ (block.sourceGap ++ str "=")) ++
      (block.value ++ BlockText.close))) same
    simpa [assignmentFront] using longer
  apply block.onlyHeader lines indent gap _ [] whole
  apply Nat.lt_of_lt_of_le long
  simp [text_eq_header, assignmentFront, ← before_eq]

/-- The headers that the scan finds in some blocks. -/
theorem exists_headers (blocks : List (ModuleBlock words)) {passed : Str}
    (atLine : passed = [] ∨ passed.head? = newline) (rest : Str) :
    ∃ headers, (moduleBlockStartRe words).findFrom passed 0 (textOf blocks ++ rest) = headers ++
        (moduleBlockStartRe words).findFrom ((textOf blocks).reverse ++ passed) 0 rest ∧
      headers.map (·.group 1) =
        (blocks.filter fun block => IsWord block).map fun block => some block.name := by
  induction blocks generalizing passed with
  | nil => exact ⟨[], rfl, rfl⟩
  | cons block blocks ih =>
      have atLine' : block.text.reverse ++ passed = [] ∨
          (block.text.reverse ++ passed).head? = newline := by
        right
        simp [BlockText.text, BlockText.close, str, newline]
      rcases ih atLine' with ⟨headers, found, named⟩
      have step := findFrom_header block atLine (onlyHeader_text block (textOf blocks ++ rest))
      rw [← text_eq_header] at step
      have split : textOf (block :: blocks) ++ rest = block.text ++ (textOf blocks ++ rest) := by
        simp [textOf]
      have reversed : (textOf (block :: blocks)).reverse ++ passed =
          (textOf blocks).reverse ++ (block.text.reverse ++ passed) := by simp [textOf]
      rw [split, reversed]
      rcases step with ⟨notWord, skipped⟩ | ⟨isWord, header, group, first⟩
      · refine ⟨headers, skipped.trans found, ?_⟩
        rw [List.filter_cons_of_neg (by simpa using notWord)]
        exact named
      · refine ⟨header :: headers, ?_, ?_⟩
        · rw [first, found, List.cons_append]
        · rw [List.filter_cons_of_pos (by simpa using isWord), List.map_cons, List.map_cons, named,
            group]

theorem matchAt_nil_header {passed : Str} :
    (moduleBlockStartRe words).matchAt passed [] = none := by
  apply matchAt_eq_none.mpr
  intro text rest after nothing reads
  rcases reads_append.mp reads with ⟨head, label, between, rfl, readsHead, -⟩
  rcases reads_keyword.mp readsHead with ⟨-, -, indent, rfl, -⟩
  simp [str] at nothing

theorem last_group {headers : List Match} {names : List Str}
    (named : headers.map (·.group 1) = names.map some) :
    headers.getLast?.bind (·.group 1) = names.getLast? := by
  have last := congrArg List.getLast? named
  rw [List.getLast?_map, List.getLast?_map] at last
  cases lastHeader : headers.getLast? with
  | none =>
      rw [lastHeader] at last
      exact (Option.map_eq_none_iff.mp last.symm).symm
  | some header =>
      rw [lastHeader] at last
      rcases Option.map_eq_some_iff.mp last.symm with ⟨name, lastName, group⟩
      rw [lastName]
      exact group.symm

/-- The owner of a source is read off the blocks up to its own. -/
theorem owningModuleName_eq {earlier later : List (ModuleBlock words)} {block : ModuleBlock words}
    {cut : Str} (isPrefix : cut <+: block.before) :
    owningModuleName words (textOf (earlier ++ block :: later))
      (textOf earlier ++ (block.lead ++ (block.header ++ cut))).length = ownerOf
      (earlier ++ [block]) := by
  have taken : (textOf (earlier ++ block :: later)).take
      (textOf earlier ++ (block.lead ++ (block.header ++ cut))).length =
      textOf earlier ++ (block.lead ++ (block.header ++ cut) ++ []) := by
    rcases isPrefix with ⟨more, before_eq⟩
    have whole : textOf (earlier ++ block :: later) =
        textOf earlier ++ (block.lead ++ (block.header ++ cut)) ++ (more ++ (str "source" ++
          (block.sourceGap ++ str "=")) ++ (block.value ++ BlockText.close) ++ textOf later) := by
      simp [textOf, text_eq_header, assignmentFront, ← before_eq]
    rw [whole, List.take_left, List.append_nil]
  rw [owningModuleName, taken, Pattern.finditer]
  rcases exists_headers earlier (.inl rfl) (block.lead ++ (block.header ++ cut) ++ []) with
    ⟨headers, found, named⟩
  have atLine : (textOf earlier).reverse ++ [] = [] ∨
      ((textOf earlier).reverse ++ []).head? = some newline := by
    rw [List.append_nil]
    exact atLine_textOf earlier
  rw [found, ownerOf]
  apply last_group
  rw [List.map_append, named, List.filter_append, List.map_map, List.map_append]
  congr 1
  rcases findFrom_header block atLine (onlyHeader_cut block isPrefix) with
    ⟨notWord, skipped⟩ | ⟨isWord, header, group, first⟩
  · rw [skipped, Pattern.findFrom, if_pos rfl, matchAt_nil_header]
    simp [notWord]
  · rw [first, Pattern.findFrom, if_pos rfl, matchAt_nil_header]
    simp [isWord, group]

end Owners

section Attributes

variable {words : WordClass} {parts : List Pattern}

/-- A match is that of the attribute of a block. -/
def IsAttribute (earlier : List (ModuleBlock words)) (block : ModuleBlock words)
    (parts : List Pattern) (rest : Str) (found : Match) : Prop :=
  ∃ cut, cut <+: block.before ∧
    found.start.passed = (block.lead ++ (block.header ++ cut)).reverse ++ (textOf earlier).reverse ∧
    Shows block parts (textOf earlier).reverse rest found.stop.groups

theorem findFrom_nil_source {passed : Str} : (sourceLine parts).findFrom passed 0 [] = [] := by
  rw [Pattern.findFrom, if_pos rfl, matchAt_eq_none.mpr]
  · rfl
  · intro text rest after nothing reads
    rcases reads_append.mp reads with ⟨head, tail, between, rfl, readsHead, -⟩
    rcases reads_assignment.mp readsHead with ⟨-, -, indent, gap, rfl, -⟩
    simp [str] at nothing

theorem textOf_concat (earlier : List (ModuleBlock words)) (block : ModuleBlock words) :
    (textOf (earlier ++ [block])).reverse = block.text.reverse ++ (textOf earlier).reverse := by
  simp [textOf]

/-- Every match is that of the attribute of a block. -/
theorem isAttribute_of_mem {done todo : List (ModuleBlock words)} {found : Match}
    (inside : ∀ block : ModuleBlock words, StaysInside block.toBlockText parts)
    (foundMem : found ∈ (sourceLine parts).findFrom (textOf done).reverse 0 (textOf todo)) :
    ∃ earlier block later, todo = earlier ++ block :: later ∧
      IsAttribute (done ++ earlier) block parts (textOf later) found := by
  induction todo generalizing done with
  | nil =>
      rw [show textOf ([] : List (ModuleBlock words)) = [] from rfl,
        findFrom_nil_source] at foundMem
      cases foundMem
  | cons block todo ih =>
      have later (foundMem : found ∈ (sourceLine parts).findFrom
          (block.text.reverse ++ (textOf done).reverse) 0 (textOf todo)) :
          ∃ earlier other later, block :: todo = earlier ++ other :: later ∧
            IsAttribute (done ++ earlier) other parts (textOf later) found := by
        rw [← textOf_concat] at foundMem
        rcases ih foundMem with ⟨earlier, other, later, rfl, isAttribute⟩
        refine ⟨block :: earlier, other, later, rfl, ?_⟩
        rwa [List.append_assoc] at isAttribute
      have split : textOf (block :: todo) = block.text ++ textOf todo := rfl
      rw [split] at foundMem
      rcases findFrom_source block parts (textOf done).reverse (textOf todo) (inside block) with
        ⟨skipped, -⟩ | ⟨own, cut, first, isPrefix, passed, shows⟩
      · rw [skipped] at foundMem
        exact later foundMem
      · rw [first] at foundMem
        rcases List.mem_cons.mp foundMem with rfl | foundMem
        · refine ⟨[], block, todo, rfl, ?_⟩
          rw [List.append_nil]
          exact ⟨cut, isPrefix, passed, shows⟩
        · exact later foundMem

/-- The attribute of every block is matched that can be. -/
theorem exists_isAttribute {done earlier later : List (ModuleBlock words)}
    {block : ModuleBlock words}
    (inside : ∀ block : ModuleBlock words, StaysInside block.toBlockText parts)
    {groups : List (Nat × Str)}
    (shows : Shows block parts (textOf (done ++ earlier)).reverse (textOf later) groups) :
    ∃ found ∈ (sourceLine parts).findFrom (textOf done).reverse 0
      (textOf (earlier ++ block :: later)),
      IsAttribute (done ++ earlier) block parts (textOf later) found := by
  induction earlier generalizing done with
  | nil =>
      rw [List.append_nil] at shows ⊢
      have split : textOf ([] ++ block :: later) = block.text ++ textOf later := rfl
      rw [split]
      rcases findFrom_source block parts (textOf done).reverse (textOf later) (inside block) with
        ⟨-, never⟩ | ⟨own, cut, first, isPrefix, passed, shows⟩
      · exact absurd shows (never groups)
      · rw [first]
        exact ⟨own, List.mem_cons_self, cut, isPrefix, passed, shows⟩
  | cons first earlier ih =>
      have assoc : done ++ first :: earlier = (done ++ [first]) ++ earlier := by simp
      rw [assoc] at shows ⊢
      rcases ih shows with ⟨found, foundMem, isAttribute⟩
      refine ⟨found, ?_, isAttribute⟩
      have split : textOf ((first :: earlier) ++ block :: later) =
          first.text ++ textOf (earlier ++ block :: later) := rfl
      rw [textOf_concat] at foundMem
      rw [split]
      rcases findFrom_source first parts (textOf done).reverse (textOf (earlier ++ block :: later))
        (inside first) with ⟨skipped, -⟩ | ⟨own, cut, foundFirst, -⟩
      · rwa [skipped]
      · rw [foundFirst]
        exact List.mem_cons_of_mem own foundMem

end Attributes

section Verdicts

variable {words : WordClass}

/-- The findings of a scan, raised or returned. -/
def reported (result : Except Finding (List Finding)) : List Finding :=
  match result with
  | .error finding => [finding]
  | .ok findings => findings

def Finding.IsClassD (finding : Finding) : Prop :=
  ∃ moduleName varName, finding.kind = .variableized moduleName varName

def Finding.IsClassA (finding : Finding) : Prop := ∃ sourceVal,
    finding.kind = .bareLiteral sourceVal

/-- A place is in the text of the block that follows some blocks. -/
def InBlock (earlier : List (ModuleBlock words)) (block : ModuleBlock words) (offset : Nat) :
    Prop :=
  (textOf earlier).length ≤ offset ∧ offset < (textOf (earlier ++ [block])).length

variable (config : Config)

/-- The findings are those that the blocks deserve, each by its own name and source. -/
def Attributed (mainTf : List (ModuleBlock words)) : Prop :=
  ∀ earlier block later, mainTf = earlier ++ block :: later →
    ((∃ finding ∈ reported (scanMainTf words config (textOf mainTf)),
        InBlock earlier block finding.offset ∧ finding.IsClassD) ↔
      IsVarDriven block.toBlockText ∧ block.name ∈ config.externalNames) ∧
    ((∃ finding ∈ reported (scanMainTf words config (textOf mainTf)),
        InBlock earlier block finding.offset ∧ finding.IsClassA) ↔
      ∃ raw, block.expr = .literal raw ∧
        ¬(Contains config.extHost raw ∧ block.name ∈ config.externalNames))

/-- The block that a source is attributed to is in the external set. -/
def OwnerExternal (earlier : List (ModuleBlock words)) (block : ModuleBlock words) : Prop :=
  ∃ name ∈ ownerOf (earlier ++ [block]), name ∈ config.externalNames

/-- A source that has to be reported stands on a line of its own, a string is not empty, and a
source that can be read is attributed to a block on the same side of the external set. -/
def Fits (earlier : List (ModuleBlock words)) (block : ModuleBlock words) : Prop :=
  match block.expr with
  | .varDriven _ =>
      (block.name ∈ config.externalNames → OnOwnLine block) ∧
        (OnOwnLine block → (OwnerExternal config earlier block ↔ block.name ∈ config.externalNames))
  | .literal raw =>
      (¬(Contains config.extHost raw ∧ block.name ∈ config.externalNames) →
          OnOwnLine block ∧ beforeFirst quote raw ≠ []) ∧
        (OnOwnLine block → beforeFirst quote raw ≠ [] →
          (Contains config.extHost (beforeFirst quote raw) ∧ OwnerExternal config earlier block ↔
            Contains config.extHost raw ∧ block.name ∈ config.externalNames))
  | .other _ => True

variable {config}

theorem reported_scanMainTf {content : Str} : reported (scanMainTf words config content) =
    ((varSourceRe words).finditer content).filterMap (classD words config content) ++
      (bareLiteralSourceRe.finditer content).filterMap (classA words config content) := by
  rw [scanMainTf]
  split
  · next finding same => exact same.symm
  · rfl

section Attribute

variable {earlier later : List (ModuleBlock words)} {block : ModuleBlock words}
  {parts : List Pattern}
  {rest : Str} {found : Match}

theorem offset_of_isAttribute (isAttribute : IsAttribute earlier block parts rest found) :
    ∃ cut, cut <+: block.before ∧
      found.offset = (textOf earlier ++ (block.lead ++ (block.header ++ cut))).length := by
  rcases isAttribute with ⟨cut, isPrefix, passed, -⟩
  refine ⟨cut, isPrefix, ?_⟩
  rw [Match.offset, passed]
  simp only [List.length_append, List.length_reverse]
  omega

theorem inBlock_of_isAttribute (isAttribute : IsAttribute earlier block parts rest found) :
    InBlock earlier block found.offset := by
  rcases offset_of_isAttribute isAttribute with ⟨cut, ⟨more, before_eq⟩, offset_eq⟩
  rw [offset_eq]
  refine ⟨by simp, ?_⟩
  simp only [textOf, text_eq_header, assignmentFront, ← before_eq, BlockText.close, str,
    String.reduceToList, List.map_cons, List.flatMap_append, List.flatMap_cons, List.flatMap_nil,
    List.length_append, List.length_cons]
  omega

theorem owner_of_isAttribute (isAttribute : IsAttribute earlier block parts rest found) :
    owningModuleName words (textOf (earlier ++ block :: later)) found.offset =
      ownerOf (earlier ++ [block]) := by
  rcases offset_of_isAttribute isAttribute with ⟨cut, isPrefix, offset_eq⟩
  rw [offset_eq, owningModuleName_eq isPrefix]

end Attribute

theorem split_unique {earlier earlier' later later' : List (ModuleBlock words)}
    {block block' : ModuleBlock words} {offset : Nat}
    (same : earlier ++ block :: later = earlier' ++ block' :: later')
    (inBlock : InBlock earlier block offset) (inBlock' : InBlock earlier' block' offset) :
    earlier = earlier' ∧ block = block' := by
  have before {first second : List (ModuleBlock words)} {own : ModuleBlock words}
      (inFirst : offset < (textOf (first ++ [own])).length)
      (inSecond : (textOf second).length ≤ offset) : ¬first ++ [own] <+: second := by
    rintro ⟨more, rfl⟩
    simp only [textOf, List.flatMap_append, List.length_append] at inFirst inSecond
    omega
  rcases List.append_eq_append_iff.mp same with ⟨more, rfl, tail⟩ | ⟨more, rfl, tail⟩
  · cases more with
    | nil =>
        rw [List.nil_append, List.cons.injEq] at tail
        exact ⟨(List.append_nil earlier).symm, tail.1⟩
    | cons first more =>
        rw [List.cons_append, List.cons.injEq] at tail
        rcases tail with ⟨rfl, -⟩
        exact absurd ⟨more, by simp⟩ (before inBlock.2 inBlock'.1)
  · cases more with
    | nil =>
        rw [List.nil_append, List.cons.injEq] at tail
        exact ⟨List.append_nil earlier', tail.1.symm⟩
    | cons first more =>
        rw [List.cons_append, List.cons.injEq] at tail
        rcases tail with ⟨rfl, -⟩
        exact absurd ⟨more, by simp⟩ (before inBlock'.2 inBlock.1)

/-- The findings about a block are those of the match of its attribute. -/
theorem exists_finding {earlier later : List (ModuleBlock words)} {block : ModuleBlock words}
    {parts : List Pattern} {verdict : Match → Option Finding} {holds : Finding → Prop}
    (inside : ∀ block : ModuleBlock words, StaysInside block.toBlockText parts)
    (offsets : ∀ found finding, verdict found = some finding → finding.offset = found.offset) :
    (∃ finding ∈ ((sourceLine parts).finditer (textOf (earlier ++ block :: later))).filterMap
      verdict, InBlock earlier block finding.offset ∧ holds finding) ↔
      ∃ found ∈ (sourceLine parts).finditer (textOf (earlier ++ block :: later)),
        IsAttribute earlier block parts (textOf later) found ∧
          ∃ finding, verdict found = some finding ∧ holds finding := by
  constructor
  · rintro ⟨finding, findingMem, inBlock, here⟩
    rcases List.mem_filterMap.mp findingMem with ⟨found, foundMem, decided⟩
    rcases @isAttribute_of_mem words parts [] _ found inside foundMem with
      ⟨earlier', block', later', split, isAttribute⟩
    rw [List.nil_append] at isAttribute
    rw [offsets found finding decided] at inBlock
    rcases split_unique split inBlock (inBlock_of_isAttribute isAttribute) with ⟨rfl, rfl⟩
    have laters := List.append_cancel_left split
    rw [List.cons.injEq] at laters
    rw [← laters.2] at isAttribute
    exact ⟨found, foundMem, isAttribute, finding, decided, here⟩
  · rintro ⟨found, foundMem, isAttribute, finding, decided, here⟩
    refine ⟨finding, List.mem_filterMap.mpr ⟨found, foundMem, decided⟩, ?_, here⟩
    rw [offsets found finding decided]
    exact inBlock_of_isAttribute isAttribute

theorem finding_of_classD {content : Str} {found : Match} {finding : Finding} :
    classD words config content found = some finding ↔
      ∃ name ∈ owningModuleName words content found.offset,
      (name ≠ [] ∧ name ∈ config.externalNames) ∧
        finding = ⟨.variableized name ((found.group 1).getD []), found.offset⟩ := by
  rw [classD]
  cases owningModuleName words content found.offset with
  | none => simp
  | some name =>
      simp only [Option.mem_some_iff, exists_eq_left', Option.ite_none_right_eq_some,
        Option.some.injEq]
      exact and_congr_right fun _ => eq_comm

theorem finding_of_classA {content : Str} {found : Match} {finding : Finding} :
    classA words config content found = some finding ↔
      ¬(Contains config.extHost ((found.group 1).getD []) ∧
        OwnedExternally words config content found.offset) ∧
      finding = ⟨.bareLiteral ((found.group 1).getD []), found.offset⟩ := by
  rw [classA]
  simp only [Option.ite_none_left_eq_some, Option.some.injEq]
  exact and_congr_right fun _ => eq_comm

theorem reported_classD {content : Str} {holds : Finding → Prop} :
    (∃ finding ∈ reported (scanMainTf words config content), holds finding ∧ finding.IsClassD) ↔
      ∃ finding ∈ ((varSourceRe words).finditer content).filterMap (classD words config content),
        holds finding ∧ True := by
  rw [reported_scanMainTf]
  constructor
  · rintro ⟨finding, findingMem, here, moduleName, varName, isD⟩
    rcases List.mem_append.mp findingMem with inD | inA
    · exact ⟨finding, inD, here, trivial⟩
    · rcases List.mem_filterMap.mp inA with ⟨found, -, decided⟩
      rw [(finding_of_classA.mp decided).2] at isD
      cases isD
  · rintro ⟨finding, inD, here, -⟩
    rcases List.mem_filterMap.mp inD with ⟨found, -, decided⟩
    rcases finding_of_classD.mp decided with ⟨name, -, -, rfl⟩
    exact ⟨_, List.mem_append_left _ inD, here, name, _, rfl⟩

theorem reported_classA {content : Str} {holds : Finding → Prop} :
    (∃ finding ∈ reported (scanMainTf words config content), holds finding ∧ finding.IsClassA) ↔
      ∃ finding ∈ (bareLiteralSourceRe.finditer content).filterMap (classA words config content),
        holds finding ∧ True := by
  rw [reported_scanMainTf]
  constructor
  · rintro ⟨finding, findingMem, here, sourceVal, isA⟩
    rcases List.mem_append.mp findingMem with inD | inA
    · rcases List.mem_filterMap.mp inD with ⟨found, -, decided⟩
      rcases finding_of_classD.mp decided with ⟨name, -, -, rfl⟩
      cases isA
    · exact ⟨finding, inA, here, trivial⟩
  · rintro ⟨finding, inA, here, -⟩
    rcases List.mem_filterMap.mp inA with ⟨found, -, decided⟩
    rcases (finding_of_classA.mp decided).2 with rfl
    exact ⟨_, List.mem_append_right _ inA, here, _, rfl⟩

theorem ne_nil_of_ownerOf {blocks : List (ModuleBlock words)} {name : Str}
    (owns : name ∈ ownerOf blocks) : name ≠ [] := by
  rcases List.mem_map.mp (List.mem_of_getLast? owns) with ⟨block, -, rfl⟩
  exact block.named.1

/-- When a variable is reported. -/
theorem exists_classD {earlier later : List (ModuleBlock words)} {block : ModuleBlock words} :
    (∃ finding ∈ reported (scanMainTf words config (textOf (earlier ++ block :: later))),
      InBlock earlier block finding.offset ∧ finding.IsClassD) ↔
      IsVarDriven block.toBlockText ∧ OnOwnLine block ∧ OwnerExternal config earlier block := by
  rw [reported_classD, varSourceRe, ← sourceLine, exists_finding staysInside_variable]
  · constructor
    · rintro ⟨found, -, isAttribute, finding, decided, -⟩
      rcases finding_of_classD.mp decided with ⟨name, owns, ⟨-, external⟩, -⟩
      rw [owner_of_isAttribute isAttribute] at owns
      rcases isAttribute with ⟨cut, -, -, ownLine, begins⟩
      exact ⟨begins_variable.mp ⟨_, begins⟩, ownLine, name, owns, external⟩
    · rintro ⟨isVarDriven, ownLine, name, owns, external⟩
      rcases begins_variable.mpr isVarDriven with ⟨groups, begins⟩
      rcases @exists_isAttribute words (variablePart words) [] earlier later block
        staysInside_variable groups ⟨ownLine, begins⟩ with ⟨found, foundMem, isAttribute⟩
      rw [List.nil_append] at isAttribute
      refine ⟨found, foundMem, isAttribute, _, finding_of_classD.mpr ⟨name, ?_,
        ⟨ne_nil_of_ownerOf owns, external⟩, rfl⟩, trivial⟩
      rw [owner_of_isAttribute isAttribute]
      exact owns
  · intro found finding decided
    rcases finding_of_classD.mp decided with ⟨name, -, -, rfl⟩
    rfl

/-- When a string is reported. -/
theorem exists_classA {earlier later : List (ModuleBlock words)} {block : ModuleBlock words} :
    (∃ finding ∈ reported (scanMainTf words config (textOf (earlier ++ block :: later))),
      InBlock earlier block finding.offset ∧ finding.IsClassA) ↔
      ∃ value, readLiteral block.toBlockText = some value ∧ OnOwnLine block ∧
        ¬(Contains config.extHost value ∧ OwnerExternal config earlier block) := by
  rw [reported_classA, bareLiteralSourceRe, ← sourceLine, exists_finding staysInside_quoted]
  · constructor
    · rintro ⟨found, -, isAttribute, finding, decided, -⟩
      have notExempt := (finding_of_classA.mp decided).1
      rw [OwnedExternally, owner_of_isAttribute isAttribute] at notExempt
      rcases isAttribute with ⟨cut, -, -, ownLine, begins⟩
      rcases begins_quoted.mp begins with ⟨value, readable, groups⟩
      rw [Match.group, groups] at notExempt
      exact ⟨value, readable, ownLine, notExempt⟩
    · rintro ⟨value, readable, ownLine, notExempt⟩
      have begins : Begins (Pattern.quotedText 1) (block.front.reverse ++ (textOf earlier).reverse)
          (block.value ++ (BlockText.close ++ textOf later)) [] [(1, value)] :=
        begins_quoted.mpr ⟨value, readable, rfl⟩
      rcases @exists_isAttribute words (Pattern.quotedText 1) [] earlier later block
        staysInside_quoted [(1, value)] ⟨ownLine, begins⟩ with ⟨found, foundMem, isAttribute⟩
      rw [List.nil_append] at isAttribute
      refine ⟨found, foundMem, isAttribute, _, finding_of_classA.mpr ⟨?_, rfl⟩, trivial⟩
      rw [OwnedExternally, owner_of_isAttribute isAttribute]
      rcases isAttribute with ⟨cut, -, -, -, begins'⟩
      rcases begins_quoted.mp begins' with ⟨other, readable', groups⟩
      rw [readable] at readable'
      cases readable'
      rw [Match.group, groups]
      exact notExempt
  · intro found finding decided
    rw [(finding_of_classA.mp decided).2]

/-- When the findings of a scan are those that the blocks deserve. -/
theorem ownership_attributed_iff {mainTf : List (ModuleBlock words)} : Attributed config mainTf ↔
    ∀ earlier block later, mainTf = earlier ++ block :: later → Fits config earlier block := by
  apply forall_congr'
  intro earlier
  apply forall_congr'
  intro block
  apply forall_congr'
  intro later
  apply imp_congr_right
  rintro rfl
  rw [exists_classD, exists_classA, Fits]
  cases shape : block.expr with
  | literal raw =>
      simp only [IsVarDriven, readLiteral, shape, reduceCtorEq, exists_false, false_and,
        Option.ite_none_left_eq_some, Option.some.injEq, SourceExpr.literal.injEq, exists_eq_left',
        and_assoc, exists_and_left]
      tauto
  | varDriven name =>
      simp only [IsVarDriven, readLiteral, shape, reduceCtorEq, exists_false, false_and,
        SourceExpr.varDriven.injEq, exists_eq', true_and]
      tauto
  | other text => simp [IsVarDriven, readLiteral, shape]

end Verdicts

section HyphenatedName

instance (lines : Str) : Decidable (StartsLine lines) := inferInstanceAs (Decidable (_ ∨ _))

/-- A line of a text that begins with some character begins where the text has it. -/
theorem line_unique {text rest lines indent back : Str} {c : Chr} {place : Nat}
    (only : ∀ n < text.length, StartsLine (text.take n) →
      ∃ d ∈ ((text.drop n).dropWhile isSpace).head?, d = c → n = place)
    (same : text ++ rest = lines ++ (indent ++ c :: back)) (long : lines.length < text.length)
    (starts : StartsLine lines) (indentSpace : AllSpace indent) (solid : isSpace c = false) :
    lines = text.take place ∧ indent = (text.drop place).takeWhile isSpace := by
  rcases take_drop_of_append same (Nat.le_of_lt long) with ⟨lines_eq, dropped⟩
  rcases only lines.length long (lines_eq ▸ starts) with ⟨d, first, atPlace⟩
  cases remaining : (text.drop lines.length).dropWhile isSpace with
  | nil =>
      rw [remaining] at first
      cases first
  | cons e more =>
      rw [remaining] at first
      cases Option.some.inj first
      have solid' : isSpace d = false := by
        have head := List.head_dropWhile_not (l := text.drop lines.length) isSpace
            (by simp [remaining])
        simpa only [remaining, List.head_cons] using head
      rw [← List.takeWhile_append_dropWhile (p := isSpace) (l := text.drop lines.length), remaining,
        List.append_assoc, List.cons_append] at dropped
      rcases span_cons_unique (fun c cMem => List.mem_takeWhile_imp cMem) indentSpace solid' solid
        dropped with ⟨indent_eq, same_c, -⟩
      rw [← atPlace same_c]
      exact ⟨lines_eq, indent_eq.symm⟩

def hyphenText : BlockText where
  notes := []
  indent := []
  gap := str " "
  name := str "dynamodb-table"
  brace := str " "
  before := str "\n  "
  sourceGap := str " "
  afterEquals := str " "
  expr := .varDriven (str "dynamodb_source")
  after := str "\n"

def hyphenBlock : ModuleBlock .latin where
  toBlockText := hyphenText
  startsLine := .inl rfl
  space := by decide +kernel
  gapSome := by decide
  named := by decide +kernel
  fits := ⟨.char 'd', rfl, by decide⟩
  onlySource := by
    intro lines indent gap back rest same long starts indentSpace _
    have places : ∀ n < hyphenText.text.length, StartsLine (hyphenText.text.take n) →
        ∃ d ∈ ((hyphenText.text.drop n).dropWhile isSpace).head?, d = .char 's' → n = 26 := by
      decide +kernel
    rcases line_unique places same long starts indentSpace (by decide) with ⟨rfl, rfl⟩
    exact ⟨str "\n", by decide +kernel, by decide +kernel⟩
  onlyHeader := by
    intro lines indent gap back rest same long starts indentSpace _
    have places : ∀ n < hyphenText.text.length, StartsLine (hyphenText.text.take n) →
        ∃ d ∈ ((hyphenText.text.drop n).dropWhile isSpace).head?, d = .char 'm' → n = 0 := by
      decide +kernel
    rcases line_unique places same long starts indentSpace (by decide) with ⟨rfl, rfl⟩
    decide +kernel

/-- The settings where the environment sets none. -/
def defaultConfig : Config where
  externalNames := [str "budget", str "dynamodb-table"]
  extHost := str "github.com/caylent-solutions/terraform-modules"
  srcSuffix := str "_source"

/-- An external module whose name has a hyphen may take its source from a variable. -/
theorem not_attributed_hyphen : ¬Attributed defaultConfig [hyphenBlock] := by
  intro attributed
  have deserved : IsVarDriven hyphenBlock.toBlockText ∧
      hyphenBlock.name ∈ defaultConfig.externalNames :=
    ⟨⟨str "dynamodb_source", rfl⟩, by decide⟩
  rcases (attributed [] hyphenBlock [] rfl).1.mpr deserved with ⟨finding, findingMem, -⟩
  have nothing : reported (scanMainTf .latin defaultConfig (textOf [hyphenBlock])) = [] := by
    rw [reported_scanMainTf]
    decide +kernel
  rw [nothing] at findingMem
  cases findingMem

end HyphenatedName
end ConstSources
