import TelemetryPlatform.TerratestTags.References

/-!
# The blocks of an example directory

What the contract asks of a provider block is `Tagged`, and of the declaration of a
variable `HasType` and no `HasDefault`. The lint sees a `default_tags` block where it is
`Seen`, and the default of a variable where it is `Shown`.
-/

namespace TerratestTags

open Python Hcl

section Blocks

/-- A block with one label, and what is around it at the top level. -/
structure Block where
  earlier : Body
  indent : List Token
  label : Label
  gap : List Token
  inner : Body
  close : List Token
  later : Body

/-- What stands between the quotation marks, or the word. -/
def labelText : Label → Str
  | .quoted _ content => lettersText content
  | .bare _ word => word

namespace Block

variable (block : Block)

def body (type : Str) : Body :=
  block.earlier.append
    (.block block.indent type [block.label] block.gap block.inner block.close block.later)

/-- The text in front of the block. -/
def front : Str := tokensText (block.earlier.tokens ++ block.indent)

/-- The text between the braces. -/
def own : Str := tokensText (block.inner.tokens ++ block.close)

/-- The block itself. -/
def whole (type : Str) : Str :=
  type ++ (tokensText block.label.tokens ++ (tokensText block.gap ++ (str "\x7b" ++
    (block.own ++ str "\x7d"))))

/-- The text behind the block. -/
def behind (tail : List Token) : Str := tokensText (block.later.tokens ++ tail)

end Block

/-- A block without labels in another one. -/
structure InnerBlock where
  before : Body
  indent : List Token
  gap : List Token
  inner : Body
  close : List Token
  others : Body

def InnerBlock.body (type : Str) (tags : InnerBlock) : Body :=
  tags.before.append (.block tags.indent type [] tags.gap tags.inner tags.close tags.others)

/-- The tokens between the braces. -/
def InnerBlock.own (tags : InnerBlock) : List Token := tags.inner.tokens ++ tags.close

variable {idents : WordClass}

/-- The document has the block, which has the name. -/
def IsBlock (document : Document idents) (type name : Str) (block : Block) : Prop :=
  document.body = block.body type ∧ labelText block.label = name

theorem text_of_body {document : Document idents} {type : Str} {block : Block}
    (isBlock : document.body = block.body type) :
    document.text = block.front ++ (block.whole type ++ block.behind document.tail) := by
  simp [Document.text, isBlock, Block.body, Block.front, Block.whole, Block.own, Block.behind,
    Body.tokens, headTokens, Token.text, str]

variable (idents)

def variableNames : List Str := [projectTag, terratestRunId]

/-- The body of a provider has a block of default tags that refers to both variables. -/
def Tagged (inner : Body) : Prop :=
  ∃ tags : InnerBlock, inner = tags.body (str "default_tags") ∧
    ∀ name ∈ variableNames, References idents name tags.own

/-- An attribute of a body. -/
structure Assignment where
  before : Body
  indent : List Token
  gap : List Token
  expr : List Token
  others : Body

def Assignment.body (name : Str) (assignment : Assignment) : Body :=
  assignment.before.append
    (.attr assignment.indent name assignment.gap assignment.expr assignment.others)

/-- The type of a variable is `string`. -/
def HasType (inner : Body) : Prop :=
  ∃ (assignment : Assignment) (front back : List Token), inner = assignment.body (str "type") ∧
    assignment.expr = front ++ (codeOf (str "string") ++ back) ∧ AllWhite front ∧ AllWhite back

def HasDefault (inner : Body) : Prop :=
  ∃ assignment : Assignment, inner = assignment.body (str "default")

end Blocks

section Wiring

/-- The text in front of a block of default tags, up to its type. -/
def tagsFront (block : Block) (tags : InnerBlock) : Str :=
  tokensText (block.earlier.tokens ++ (block.indent ++ (headTokens (str "provider") [block.label]
    block.gap ++ (tags.before.tokens ++ tags.indent))))

def tagsHeader (tags : InnerBlock) : Str :=
  str "default_tags" ++ (tokensText tags.gap ++ str "\x7b")

/-- The tokens behind a block of default tags. -/
def tagsBehind (block : Block) (tags : InnerBlock) (tail : List Token) : List Token :=
  tags.others.tokens ++ (block.close ++ .code (.char '\x7d') :: (block.later.tokens ++ tail))

variable {idents words : WordClass} {document : Document idents} {block : Block}
  {tags : InnerBlock}

theorem tokens_of_tags (isBlock : document.body = block.body (str "provider"))
    (isTags : block.inner = tags.body (str "default_tags")) :
    document.body.tokens ++ document.tail = (block.earlier.tokens ++ (block.indent ++
      (headTokens (str "provider") [block.label] block.gap ++ (tags.before.tokens ++ (tags.indent ++
        headTokens (str "default_tags") [] tags.gap))))) ++
      (tags.own ++ .code (.char '\x7d') :: tagsBehind block tags document.tail) := by
  simp [isBlock, Block.body, isTags, InnerBlock.body, InnerBlock.own, tagsBehind, Body.tokens]

theorem text_of_tags (isBlock : document.body = block.body (str "provider"))
    (isTags : block.inner = tags.body (str "default_tags")) :
    document.text = tagsFront block tags ++ (tagsHeader tags ++ (tokensText tags.own ++
      .char '\x7d' :: tokensText (tagsBehind block tags document.tail))) := by
  rw [Document.text, tokens_of_tags isBlock isTags]
  simp [tagsFront, tagsHeader, headTokens, Token.text, str]

variable (words)

/-- The lint finds the block of default tags first of all, and the texts of references behind its
opening brace are references in it. -/
structure Seen (document : Document idents) (block : Block) (tags : InnerBlock) : Prop where
  gap : AllSpace (tokensText tags.gap)
  first : defaultTagsRe.Avoids [] (tagsFront block tags) (tagsHeader tags ++ (tokensText tags.own ++
    .char '\x7d' :: tokensText (tagsBehind block tags document.tail)))
  only : ∀ name ∈ variableNames, OnlyReferences idents words name tags.own
    (tokensText (tagsBehind block tags document.tail))

variable {words} {passed text rest : Str} {groups after : List (Nat × Str)} {found : Match}

theorem reads_defaultTagsRe : defaultTagsRe.Reads passed text rest groups after ↔
    ∃ gap, text = str "default_tags" ++ (gap ++ str "\x7b") ∧ AllSpace gap ∧ after = groups := by
  simp only [defaultTagsRe, reads_cons, reads_nil, reads_word, reads_spaces]
  constructor
  · rintro ⟨_, _, _, rfl, ⟨rfl, rfl⟩, gap, _, _, rfl, ⟨gapSpace, rfl⟩, _, _, _, rfl, ⟨rfl, rfl⟩,
      rfl, rfl⟩
    exact ⟨gap, by simp, gapSpace, rfl⟩
  · rintro ⟨gap, rfl, gapSpace, rfl⟩
    exact ⟨str "default_tags", _, _, rfl, ⟨rfl, rfl⟩, gap, _, _, rfl, ⟨gapSpace, rfl⟩, str "\x7b",
      [], _, by simp, ⟨rfl, rfl⟩, rfl, rfl⟩

/-- The search stops behind the opening brace of the block that is seen. -/
theorem stop_of_seen (isBlock : document.body = block.body (str "provider"))
    (isTags : block.inner = tags.body (str "default_tags")) (seen : Seen words document block tags)
    (searched : defaultTagsRe.search document.text = some found) :
    document.text.drop found.stopOffset = tokensText tags.own ++
      .char '\x7d' :: tokensText (tagsBehind block tags document.tail) := by
  have text_eq := text_of_tags isBlock isTags
  have first := seen.first
  generalize tokensText tags.own ++ .char '\x7d' ::
    tokensText (tagsBehind block tags document.tail) = inside at text_eq first ⊢
  have isFound : (defaultTagsRe.matchAt (tagsFront block tags).reverse
      (tagsHeader tags ++ inside)).isSome = true := by
    apply matchAt_isSome.mpr
    exact ⟨tagsHeader tags, inside, [], rfl, reads_defaultTagsRe.mpr ⟨_, rfl, seen.gap, rfl⟩⟩
  rcases Option.isSome_iff_exists.mp isFound with ⟨other, matched⟩
  have same : other = found := by
    have searched' := searchFrom_append first
    rw [List.append_nil, searchFrom_of_matchAt matched, ← text_eq] at searched'
    exact Option.some.inj (searched'.symm.trans searched)
  rw [same] at matched
  rcases reads_of_matchAt matched with ⟨-, split, stop, reads⟩
  rcases reads_defaultTagsRe.mp reads with ⟨gap, found_eq, gapSpace, -⟩
  have header_eq : found.text = tagsHeader tags := by
    have solidBrace : isSpace (.char '\x7b') = false := by decide
    rw [found_eq, tagsHeader] at split
    simp only [List.append_assoc] at split
    rcases span_cons_unique seen.gap gapSpace solidBrace solidBrace (List.append_cancel_left split)
      with ⟨gap_eq, -, -⟩
    rw [found_eq, tagsHeader, gap_eq]
  rw [text_eq, Match.stopOffset, stop, header_eq, ← List.append_assoc]
  apply List.drop_left'
  simp [Nat.add_comm]

end Wiring

section Declarations

namespace Block

variable (block : Block)

/-- The block up to its opening brace. -/
def header (type : Str) : Str :=
  type ++ (tokensText block.label.tokens ++ (tokensText block.gap ++ str "\x7b"))

/-- The text between the opening brace and the next closing one. -/
def shown : Str := beforeFirst (.char '\x7d') block.own

/-- The text behind that closing brace. -/
def unread (tail : List Token) : Str :=
  (block.own ++ .char '\x7d' :: block.behind tail).drop (block.shown.length + 1)

theorem own_eq (tail : List Token) : block.own ++ .char '\x7d' :: block.behind tail =
    block.shown ++ .char '\x7d' :: block.unread tail := by
  have split : ∃ rest, block.own ++ .char '\x7d' :: block.behind tail =
      block.shown ++ .char '\x7d' :: rest := by
    rcases beforeFirst_cases (.char '\x7d') block.own with same | ⟨rest, same⟩
    · exact ⟨block.behind tail, congrArg (· ++ _) same⟩
    · refine ⟨rest ++ .char '\x7d' :: block.behind tail, ?_⟩
      rw [shown, ← List.cons_append, ← List.append_assoc, ← same]
  rcases split with ⟨rest, split⟩
  rw [unread, split]
  simp

end Block

/-- The text of a declaration that the pattern takes for the whole. -/
def Block.read (block : Block) : Str :=
  block.header (str "variable") ++ (block.shown ++ str "\x7d")

variable {idents words : WordClass} {document : Document idents} {block : Block}

theorem text_of_variable (isBlock : document.body = block.body (str "variable")) :
    document.text = block.front ++ (block.read ++ block.unread document.tail) := by
  have whole : document.text = block.front ++ (block.header (str "variable") ++
      (block.own ++ .char '\x7d' :: block.behind document.tail)) := by
    rw [text_of_body isBlock]
    simp [Block.whole, Block.header, str]
  rw [whole, block.own_eq]
  simp [Block.read, str]

variable (words) in
/-- The pattern comes to the declaration, and reads on to the default. -/
structure Shown (document : Document idents) (block : Block) (assignment : Assignment) : Prop where
  label : PlainLabel block.label
  gap : AllSpace (tokensText block.gap)
  unclosed : .char '\x7d' ∉ tokensText (assignment.before.tokens ++ assignment.indent)
  apart : (tokensText (assignment.before.tokens ++ assignment.indent)).getLast?.any
    words.holds = false
  nameGap : AllSpace (tokensText assignment.gap)
  reached : variableBlockRe.ComesTo block.front block.read (block.unread document.tail)

end Declarations

section Defaults

variable {words : WordClass} {passed text rest : Str} {groups after : List (Nat × Str)}

theorem reads_variableBlockRe : variableBlockRe.Reads passed text rest groups after ↔
    ∃ labelGap name braceGap body,
      text = blockHeader (str "variable") labelGap name braceGap ++ (body ++ str "\x7d") ∧
        labelGap ≠ [] ∧ AllSpace labelGap ∧ name ∈ variableNames ∧ AllSpace braceGap ∧
          .char '\x7d' ∉ body ∧ after = (2, body) :: (1, name) :: groups := by
  have notClose (body : Str) : (∀ c ∈ body, inBlock c = true) ↔ .char '\x7d' ∉ body := all_ne_iff
  simp only [variableBlockRe, variableHeaderPart, List.cons_append, List.nil_append, reads_cons,
    reads_nil, reads_word, reads_spaces, reads_oneOrMore_one, reads_group, reads_either,
    reads_many_one, notClose, variableNames, List.mem_cons, List.not_mem_nil, or_false]
  constructor
  · rintro ⟨_, _, _, rfl, ⟨rfl, rfl⟩, labelGap, _, _, rfl, ⟨someGap, labelSpace, rfl⟩, _, _, _, rfl,
      ⟨rfl, rfl⟩, name, _, _, rfl, ⟨between, isName, rfl⟩, _, _, _, rfl, ⟨rfl, rfl⟩, braceGap, _, _,
      rfl, ⟨braceSpace, rfl⟩, _, _, _, rfl, ⟨rfl, rfl⟩, body, _, _, rfl, ⟨_, ⟨absent, rfl⟩, rfl⟩, _,
      _, _, rfl, ⟨rfl, rfl⟩, rfl, rfl⟩
    refine ⟨labelGap, name, braceGap, body, by simp [blockHeader, str], someGap, labelSpace, ?_,
      braceSpace, absent, ?_⟩
    · exact isName.imp And.left And.left
    · rcases isName with ⟨-, rfl⟩ | ⟨-, rfl⟩ <;> rfl
  · rintro ⟨labelGap, name, braceGap, body, rfl, someGap, labelSpace, isName, braceSpace, absent,
      rfl⟩
    exact ⟨str "variable", labelGap ++ ([quote] ++ (name ++ ([quote] ++ (braceGap ++
      (str "\x7b" ++ (body ++ (str "\x7d" ++ []))))))), _, by simp [blockHeader], ⟨rfl, rfl⟩,
      labelGap, _, _, rfl, ⟨someGap, labelSpace, rfl⟩, [quote], _, _, rfl, ⟨rfl, rfl⟩, name, _, _,
      rfl, ⟨groups, isName.imp (⟨·, rfl⟩) (⟨·, rfl⟩), rfl⟩, [quote], _, _, rfl, ⟨rfl, rfl⟩,
      braceGap, _, _, rfl, ⟨braceSpace, rfl⟩, str "\x7b", _, _, rfl, ⟨rfl, rfl⟩, body, _, _, rfl,
      ⟨_, ⟨absent, rfl⟩, rfl⟩, str "\x7d", [], _, rfl, ⟨rfl, rfl⟩, rfl, rfl⟩

variable {idents : WordClass} {document : Document idents} {block : Block}
  {assignment : Assignment} {found : Match} {ahead : Str}

theorem exists_blockHeader (label : PlainLabel block.label) : ∃ labelGap,
    block.header (str "variable") =
      blockHeader (str "variable") labelGap (labelText block.label) (tokensText block.gap) ∧
        labelGap ≠ [] ∧ AllSpace labelGap ∧ quote ∉ labelText block.label := by
  rcases label with ⟨gap, content, isLabel, someGap, gapSpace, -, noQuote⟩
  refine ⟨tokensText gap, ?_, someGap, gapSpace, ?_⟩
  · rw [Block.header, isLabel]
    simp [blockHeader, Label.tokens, Token.text, labelText]
  · rw [isLabel]
    exact noQuote

/-- From the beginning of a declaration on the pattern matches up to the first closing brace. -/
theorem exists_matchAt_read (label : PlainLabel block.label) (gap : AllSpace (tokensText block.gap))
    (isName : labelText block.label ∈ variableNames) :
    ∃ found, variableBlockRe.matchAt passed (block.read ++ rest) = some found ∧
      found.text = block.read := by
  rcases exists_blockHeader label with ⟨labelGap, header_eq, someGap, labelSpace, noQuote⟩
  have absent : .char '\x7d' ∉ block.shown := not_mem_beforeFirst
  have isFound : (variableBlockRe.matchAt passed (block.read ++ rest)).isSome = true := by
    apply matchAt_isSome.mpr
    refine ⟨block.read, rest, _, rfl, reads_variableBlockRe.mpr ⟨labelGap, _, _, block.shown, ?_,
      someGap, labelSpace, isName, gap, absent, rfl⟩⟩
    rw [Block.read, header_eq]
  rcases Option.isSome_iff_exists.mp isFound with ⟨found, matched⟩
  refine ⟨found, matched, ?_⟩
  rcases reads_of_matchAt matched with ⟨-, split, -, reads⟩
  rcases reads_variableBlockRe.mp reads with
    ⟨labelGap', name, braceGap, body, found_eq, -, labelSpace', isName', braceSpace, absent', -⟩
  have noQuote' : quote ∉ name := (by decide : ∀ name ∈ variableNames, quote ∉ name) name isName'
  rw [found_eq, Block.read, header_eq] at split
  simp only [List.append_assoc] at split
  rcases blockHeader_unique labelSpace labelSpace' noQuote noQuote' gap braceSpace split with
    ⟨labelGaps, names, braceGaps, backs⟩
  have bodies : block.shown ++ .char '\x7d' :: rest = body ++ .char '\x7d' :: found.stop.ahead := by
    simpa [str] using backs
  rcases span_cons_unique (all_ne_iff.mpr absent) (all_ne_iff.mpr absent') (by simp) (by simp)
    bodies with ⟨body_eq, -, -⟩
  rw [found_eq, Block.read, header_eq, labelGaps, names, braceGaps, body_eq]

/-- The header of a block up to its brace. -/
theorem blockHeader_eq (keyword labelGap name braceGap : Str) :
    blockHeader keyword labelGap name braceGap =
      (keyword ++ (labelGap ++ quote :: (name ++ quote :: braceGap))) ++ [.char '\x7b'] := by
  simp [blockHeader, str]

theorem brace_notMem {labelGap name braceGap : Str} (labelSpace : AllSpace labelGap)
    (isName : name ∈ variableNames) (braceSpace : AllSpace braceGap) :
    .char '\x7b' ∉ str "variable" ++ (labelGap ++ quote :: (name ++ quote :: braceGap)) := by
  have inName : .char '\x7b' ∉ name :=
    (by decide : ∀ name ∈ variableNames, .char '\x7b' ∉ name) name isName
  have inGap {gap : Str} (gapSpace : AllSpace gap) : .char '\x7b' ∉ gap := by
    intro inside
    exact absurd (gapSpace _ inside) (by decide)
  simp only [List.mem_append, List.mem_cons, not_or]
  exact ⟨by decide, inGap labelSpace, by decide, inName, by decide, inGap braceSpace⟩

/-- A match that ends where the declaration is read has its text behind some other. -/
theorem body_of_text_eq (label : PlainLabel block.label) (words : WordClass)
    (matched : variableBlockRe.matchAt passed ahead = some found)
    {front : Str} (text_eq : found.text = front ++ block.read) :
    ∃ more, found.group 2 = some (more ++ block.shown) ∧
      more.getLast?.any words.holds = false := by
  rcases exists_blockHeader label with ⟨labelGap, header_eq, -, -, -⟩
  rcases reads_of_matchAt matched with ⟨-, -, -, reads⟩
  rcases reads_variableBlockRe.mp reads with
    ⟨labelGap', name, braceGap, body, found_eq, -, labelSpace, isName, braceSpace, -, groups⟩
  have group_eq : found.group 2 = some body := by rw [Match.group, groups]; rfl
  have noBrace := brace_notMem labelSpace isName braceSpace
  rw [text_eq, Block.read, header_eq, blockHeader_eq, blockHeader_eq] at found_eq
  simp only [← List.append_assoc] at found_eq noBrace
  have ends := List.append_cancel_right found_eq
  rcases List.append_eq_append_iff.mp ends with
    ⟨more, header'_eq, shown_eq⟩ | ⟨more, headers, body_eq⟩
  · -- the brace of the block would be in front of that of the match
    rcases more.eq_nil_or_concat with rfl | ⟨more, c, rfl⟩
    · refine ⟨[], ?_, rfl⟩
      rw [group_eq, shown_eq]
      rfl
    · exfalso
      rw [List.concat_eq_append, ← List.append_assoc] at header'_eq
      have inits := (List.append_inj' header'_eq rfl).1
      apply noBrace
      rw [inits]
      simp
  · refine ⟨more, ?_, ?_⟩
    · rw [group_eq, body_eq]
    · rcases more.eq_nil_or_concat with rfl | ⟨more, c, rfl⟩
      · rfl
      · rw [List.concat_eq_append, ← List.append_assoc] at headers
        have last : [Chr.char '\x7b'] = [c] := (List.append_inj' headers rfl).2
        cases last
        rw [List.concat_eq_append, List.getLast?_concat, Option.any_some, words.ascii _ (by decide)]
        decide

theorem shown_eq (isDefault : block.inner = assignment.body (str "default"))
    (shown : Shown words document block assignment) : ∃ others, block.shown =
      tokensText (assignment.before.tokens ++ assignment.indent) ++
        (str "default" ++ (tokensText assignment.gap ++ (str "=" ++ others))) := by
  have own_eq : block.own = (tokensText (assignment.before.tokens ++ assignment.indent) ++
      (str "default" ++ (tokensText assignment.gap ++ str "="))) ++
        tokensText (assignment.expr ++ (assignment.others.tokens ++ block.close)) := by
    simp [Block.own, isDefault, Assignment.body, Body.tokens, attributeTokens, Token.text, str]
  have inGap : .char '\x7d' ∉ tokensText assignment.gap := by
    intro inside
    exact absurd (shown.nameGap _ inside) (by decide)
  have unclosed : .char '\x7d' ∉ tokensText (assignment.before.tokens ++ assignment.indent) ++
      (str "default" ++ (tokensText assignment.gap ++ str "=")) := by
    simp only [List.mem_append, not_or]
    have before := shown.unclosed
    rw [tokensText_append, List.mem_append, not_or] at before
    rw [tokensText_append, List.mem_append, not_or]
    exact ⟨before, by decide, inGap, by decide⟩
  refine ⟨beforeFirst (.char '\x7d') (tokensText (assignment.expr ++
    (assignment.others.tokens ++ block.close))), ?_⟩
  rw [Block.shown, own_eq, beforeFirst, List.takeWhile_append_of_pos (all_ne_iff.mpr unclosed)]
  simp [beforeFirst]

/-- The search for a default finds one that no word stands in front of. -/
theorem finds_default {front gap others : Str} (apart : front.getLast?.any words.holds = false)
    (gapSpace : AllSpace gap) : ((defaultAssignmentRe words).search
      (front ++ (str "default" ++ (gap ++ (str "=" ++ others))))).isSome = true := by
  rw [search_isSome]
  refine ⟨[], front, str "default" ++ (gap ++ str "="), others, by simp, ?_⟩
  have wordly : words.holds (.char 'd') = true := by
    rw [words.ascii _ (by decide)]
    decide
  simp only [defaultAssignmentRe, reads_cons, reads_nil, reads_word, reads_spaces, reads_wordEdge]
  refine ⟨[], _, _, rfl, ⟨rfl, rfl, ?_⟩, str "default", gap ++ str "=", _, rfl, ⟨rfl, rfl⟩, gap,
    str "=", _, rfl, ⟨gapSpace, rfl⟩, str "=", [], _, by simp, ⟨rfl, rfl⟩, rfl, rfl⟩
  rw [List.head?_reverse, apart]
  change false ≠ words.holds (.char 'd')
  rw [wordly]
  exact Bool.noConfusion

theorem ne_nil_of_matchAt (matched : variableBlockRe.matchAt passed ahead = some found) :
    found.text ≠ [] := by
  rcases reads_of_matchAt matched with ⟨-, -, -, reads⟩
  rcases reads_variableBlockRe.mp reads with ⟨_, _, _, _, found_eq, -⟩
  rw [found_eq]
  simp [blockHeader, str]

/-- The lint finds a default that is shown. -/
theorem exists_found_of_shown (isBlock : document.body = block.body (str "variable"))
    (isName : labelText block.label ∈ variableNames)
    (isDefault : block.inner = assignment.body (str "default"))
    (shown : Shown words document block assignment) :
    ∃ found ∈ variableBlockRe.finditer document.text,
      ((defaultAssignmentRe words).search ((found.group 2).getD [])).isSome = true := by
  rw [text_of_variable isBlock]
  apply exists_mem_finditer (fun _ _ _ => ne_nil_of_matchAt) shown.reached
    (exists_matchAt_read shown.label shown.gap isName)
  intro earlier rest found matched text_eq
  rcases body_of_text_eq shown.label words matched text_eq with ⟨more, group_eq, apart⟩
  rcases shown_eq isDefault shown with ⟨others, shown_eq⟩
  rw [group_eq, Option.getD_some, shown_eq, ← List.append_assoc]
  apply finds_default _ shown.nameGap
  rw [List.getLast?_append]
  have last := shown.apart
  cases before : (tokensText (assignment.before.tokens ++ assignment.indent)).getLast? with
  | none => exact apart
  | some c =>
      rw [before] at last
      exact last

end Defaults

end TerratestTags
