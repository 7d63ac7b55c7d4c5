import TelemetryPlatform.DependencyPaths.Paths

/-!
# The blocks that the pattern finds

A `Dependency` is a block of a document with its `config_path`, taken apart. It is
`Visible` where the pattern gets from the header of the block to the path: the braces and
quotation marks between them are the block's own, and no other path follows in front of
the next closing brace. The path of a visible block is among those that are checked.
-/

namespace DependencyPaths

open Python Hcl

section Dependencies

/-- The text of an attribute, as the pattern has it. -/
def pathText (nameGap valueGap value : Str) : Str :=
  str "config_path" ++ (nameGap ++ (str "=" ++ (valueGap ++ quote :: (value ++ [quote]))))

/-- A block with the label of a dependency, and its `config_path`. -/
structure Dependency where
  earlier : Body
  indent : List Token
  label : Label
  gap : List Token
  before : Body
  nameIndent : List Token
  nameGap : List Token
  valueGap : List Token
  path : List Letter
  trail : List Token
  others : Body
  close : List Token
  later : Body

namespace Dependency

variable (dependency : Dependency)

/-- The body of the document in which the block stands. -/
def body : Body :=
  dependency.earlier.append (.block dependency.indent (str "dependency") [dependency.label]
    dependency.gap (dependency.before.append (.attr dependency.nameIndent (str "config_path")
      dependency.nameGap (dependency.valueGap ++ .string dependency.path :: dependency.trail)
      dependency.others)) dependency.close dependency.later)

/-- The text in front of the block. -/
def front : Str := tokensText (dependency.earlier.tokens ++ dependency.indent)

/-- The block up to its opening brace. -/
def header : Str :=
  str "dependency" ++ (tokensText dependency.label.tokens ++
    (tokensText dependency.gap ++ str "\x7b"))

/-- The text between the opening brace and the attribute. -/
def inside : Str := tokensText (dependency.before.tokens ++ dependency.nameIndent)

/-- The attribute up to the end of its string. -/
def assignment : Str :=
  pathText (tokensText dependency.nameGap) (tokensText dependency.valueGap)
    (lettersText dependency.path)

/-- The text behind the string. -/
def behind (tail : List Token) : Str :=
  tokensText (dependency.trail ++ (dependency.others.tokens ++ (dependency.close ++
    .code (.char '\x7d') :: dependency.later.tokens)) ++ tail)

/-- The block up to the end of its path. -/
def whole : Str := dependency.header ++ (dependency.inside ++ dependency.assignment)

end Dependency

/-- The document has the block. -/
def Declares {idents : WordClass} (document : Document idents) (dependency : Dependency) : Prop :=
  document.body = dependency.body ∧ AllWhite dependency.valueGap ∧ AllWhite dependency.trail

theorem text_of_declares {idents : WordClass} {document : Document idents}
    {dependency : Dependency} (declared : Declares document dependency) :
    document.text =
      dependency.front ++ (dependency.whole ++ dependency.behind document.tail) := by
  simp [Document.text, declared.1, Dependency.body, Dependency.front, Dependency.whole,
    Dependency.header, Dependency.inside, Dependency.assignment, Dependency.behind, pathText,
    Body.tokens, headTokens,
    attributeTokens, Token.text, str]

end Dependencies

section Visible

/-- A text begins with an attribute that the pattern takes for a path. -/
def BeginsPath (text : Str) : Prop :=
  ∃ nameGap valueGap value rest, text = pathText nameGap valueGap value ++ rest ∧
    AllSpace nameGap ∧ AllSpace valueGap ∧ value ≠ [] ∧ quote ∉ value

/-- Behind the beginning of a text no path begins in front of the next closing brace. -/
def NoFurtherPath (text : Str) : Prop :=
  ∀ skipped rest, text = skipped ++ rest → skipped ≠ [] → .char '\x7d' ∉ skipped →
    ¬BeginsPath rest

structure Visible (dependency : Dependency) (behind : Str) : Prop where
  label : PlainLabel dependency.label
  gap : AllSpace (tokensText dependency.gap)
  unclosed : .char '\x7d' ∉ dependency.inside
  nameGap : AllSpace (tokensText dependency.nameGap)
  valueGap : AllSpace (tokensText dependency.valueGap)
  nonempty : lettersText dependency.path ≠ []
  noQuote : quote ∉ lettersText dependency.path
  last : NoFurtherPath (dependency.assignment ++ behind)
  reached : dependencyConfigPathRe.ComesTo dependency.front dependency.whole behind

end Visible

section Parts

variable {passed text rest : Str} {groups after : List (Nat × Str)}

theorem reads_pathPart : (Pattern.sequence pathPart).Reads passed text rest groups after ↔
    ∃ nameGap valueGap value, text = pathText nameGap valueGap value ∧ AllSpace nameGap ∧
      AllSpace valueGap ∧ value ≠ [] ∧ quote ∉ value ∧ after = (1, value) :: groups := by
  rw [pathPart, reads_append]
  simp only [reads_cons, reads_nil, reads_word, reads_spaces, reads_quotedText]
  constructor
  · rintro ⟨_, _, _, rfl, ⟨_, _, _, rfl, ⟨rfl, rfl⟩, nameGap, _, _, rfl, ⟨nameSpace, rfl⟩, _, _, _,
      rfl, ⟨rfl, rfl⟩, rfl, rfl⟩, valueGap, value, rfl, valueSpace, nonempty, noQuote, rfl⟩
    exact ⟨nameGap, valueGap, value, by simp [pathText], nameSpace, valueSpace, nonempty, noQuote,
      rfl⟩
  · rintro ⟨nameGap, valueGap, value, rfl, nameSpace, valueSpace, nonempty, noQuote, rfl⟩
    exact ⟨str "config_path" ++ (nameGap ++ str "="), _, _, by simp [pathText],
      ⟨str "config_path", _, _, rfl, ⟨rfl, rfl⟩, nameGap, _, _, rfl, ⟨nameSpace, rfl⟩, str "=", [],
        _, by simp, ⟨rfl, rfl⟩, rfl, rfl⟩,
      valueGap, value, rfl, valueSpace, nonempty, noQuote, rfl⟩

theorem reads_headerPart : (Pattern.sequence headerPart).Reads passed text rest groups after ↔
    ∃ labelGap label braceGap, text = blockHeader (str "dependency") labelGap label braceGap ∧
      labelGap ≠ [] ∧ AllSpace labelGap ∧ label ≠ [] ∧ quote ∉ label ∧ AllSpace braceGap ∧
        after = groups := by
  simp only [headerPart, reads_cons, reads_nil, reads_word, reads_spaces, reads_oneOrMore_one,
    all_ne_iff]
  constructor
  · rintro ⟨_, _, _, rfl, ⟨rfl, rfl⟩, labelGap, _, _, rfl, ⟨someGap, labelSpace, rfl⟩, _, _, _, rfl,
      ⟨rfl, rfl⟩, label, _, _, rfl, ⟨someLabel, noQuote, rfl⟩, _, _, _, rfl, ⟨rfl, rfl⟩, braceGap,
      _, _, rfl, ⟨braceSpace, rfl⟩, _, _, _, rfl, ⟨rfl, rfl⟩, rfl, rfl⟩
    exact ⟨labelGap, label, braceGap, by simp [blockHeader], someGap, labelSpace,
      someLabel, noQuote, braceSpace, rfl⟩
  · rintro ⟨labelGap, label, braceGap, rfl, someGap, labelSpace, someLabel, noQuote, braceSpace,
      rfl⟩
    exact ⟨str "dependency", _, _, rfl, ⟨rfl, rfl⟩, labelGap, _, _, rfl, ⟨someGap, labelSpace, rfl⟩,
      [quote], _, _, rfl, ⟨rfl, rfl⟩, label, _, _, rfl, ⟨someLabel, noQuote, rfl⟩, [quote], _, _,
      rfl, ⟨rfl, rfl⟩, braceGap, _, _, rfl, ⟨braceSpace, rfl⟩, str "\x7b", [], _, by simp,
      ⟨rfl, rfl⟩, rfl, rfl⟩

/-- A text begins with one path at most. -/
theorem pathText_unique {nameGap valueGap value nameGap' valueGap' value' back back' : Str}
    (nameSpace : AllSpace nameGap) (nameSpace' : AllSpace nameGap') (valueSpace : AllSpace valueGap)
    (valueSpace' : AllSpace valueGap') (noQuote : quote ∉ value) (noQuote' : quote ∉ value')
    (same : pathText nameGap valueGap value ++ back = pathText nameGap' valueGap' value' ++ back') :
    back = back' := by
  simp only [pathText, List.append_assoc, List.cons_append] at same
  have solidQuote : isSpace quote = false := by decide
  have solidEquals : isSpace (.char '=') = false := by decide
  have names : nameGap ++ .char '=' :: (valueGap ++ quote :: (value ++ quote :: back)) =
      nameGap' ++ .char '=' :: (valueGap' ++ quote :: (value' ++ quote :: back')) :=
    List.append_cancel_left same
  rcases span_cons_unique nameSpace nameSpace' solidEquals solidEquals names with ⟨rfl, -, values⟩
  rcases span_cons_unique valueSpace valueSpace' solidQuote solidQuote values with ⟨rfl, -, texts⟩
  rcases span_cons_unique (ne_quote_of_plain noQuote) (ne_quote_of_plain noQuote') (by simp)
    (by simp) texts with ⟨rfl, -, backs⟩
  exact backs

end Parts

section Found

variable {passed : Str} {dependency : Dependency} {behind : Str} {found : Match}

theorem exists_blockHeader (visible : Visible dependency behind) :
    ∃ labelGap label braceGap,
      dependency.header = blockHeader (str "dependency") labelGap label braceGap ∧
        labelGap ≠ [] ∧ AllSpace labelGap ∧ label ≠ [] ∧ quote ∉ label ∧ AllSpace braceGap := by
  rcases visible.label with ⟨gap, content, isLabel, someGap, gapSpace, someLabel, noQuote⟩
  refine ⟨tokensText gap, lettersText content, tokensText dependency.gap, ?_, someGap, gapSpace,
    someLabel, noQuote, visible.gap⟩
  rw [Dependency.header, isLabel]
  simp [blockHeader, Label.tokens, Token.text]

theorem reads_assignment_of_visible (visible : Visible dependency behind) {rest : Str} :
    (Pattern.sequence pathPart).Reads passed dependency.assignment rest []
      [(1, lettersText dependency.path)] :=
  reads_pathPart.mpr ⟨_, _, _, rfl, visible.nameGap, visible.valueGap, visible.nonempty,
    visible.noQuote, rfl⟩

/-- What the repetition of the pattern takes is the text in front of the path. -/
theorem taken_eq_inside (visible : Visible dependency behind) {later : Cursor} {taken rest : Str}
    (longest : Longest inBlock (.sequence pathPart) passed
      (dependency.inside ++ (dependency.assignment ++ behind)) [] later taken rest) :
    taken = dependency.inside ∧ rest = dependency.assignment ++ behind := by
  rcases List.append_eq_append_iff.mp longest.split with
    ⟨more, rfl, assignment_eq⟩ | ⟨more, inside_eq, rfl⟩
  · rcases more with _ | ⟨c, more⟩
    · exact ⟨List.append_nil _, assignment_eq.symm⟩
    -- a path that is found later would follow the block's own
    · exfalso
      have isLater := List.mem_of_mem_head? longest.first
      rw [Pattern.mem_ends] at isLater
      rcases isLater with ⟨text, ahead, -, reads⟩
      rcases reads_pathPart.mp reads with
        ⟨nameGap, valueGap, value, rfl, nameSpace, valueSpace, nonempty, noQuote, -⟩
      apply visible.last (c :: more) rest assignment_eq (List.cons_ne_nil c more)
      · exact all_ne_iff.mp fun d dMem => longest.accepted d (List.mem_append_right _ dMem)
      · exact ⟨nameGap, valueGap, value, later.ahead, ahead, nameSpace, valueSpace, nonempty,
          noQuote⟩
  · rcases more with _ | ⟨c, more⟩
    · rw [List.append_nil] at inside_eq
      exact ⟨inside_eq.symm, rfl⟩
    -- the block's own path would be found later
    · exfalso
      have nothing := longest.maximal (c :: more) (dependency.assignment ++ behind) rfl
        (List.cons_ne_nil c more) (all_ne_iff.mpr fun inside => visible.unclosed (by
          rw [inside_eq]
          exact List.mem_append_right _ inside))
      rw [List.eq_nil_iff_forall_not_mem] at nothing
      apply nothing ⟨dependency.assignment.reverse ++ ((c :: more).reverse ++
        (taken.reverse ++ passed)), behind, [(1, lettersText dependency.path)]⟩
      rw [Pattern.mem_ends]
      exact ⟨dependency.assignment, rfl, rfl, reads_assignment_of_visible visible⟩

/-- From the header of a visible block on the pattern matches up to the path. -/
theorem exists_matchAt_header (visible : Visible dependency behind) :
    ∃ found, dependencyConfigPathRe.matchAt passed (dependency.whole ++ behind) = some found ∧
      found.text = dependency.whole := by
  rcases exists_blockHeader visible with
    ⟨labelGap, label, braceGap, header_eq, someGap, labelSpace, someLabel, noQuote, braceSpace⟩
  have isFound : (dependencyConfigPathRe.matchAt passed (dependency.whole ++
      behind)).isSome = true := by
    apply matchAt_isSome.mpr
    refine ⟨dependency.whole, behind, [(1, lettersText dependency.path)], rfl,
        reads_append.mpr ⟨dependency.header, dependency.inside ++ dependency.assignment, [], rfl,
          ?_, reads_cons.mpr ⟨dependency.inside, dependency.assignment, [], rfl,
            reads_many_one.mpr ⟨all_ne_iff.mpr visible.unclosed, rfl⟩,
            reads_assignment_of_visible visible⟩⟩⟩
    exact reads_headerPart.mpr ⟨labelGap, label, braceGap, header_eq, someGap, labelSpace,
      someLabel, noQuote, braceSpace, rfl⟩
  rcases Option.isSome_iff_exists.mp isFound with ⟨found, matched⟩
  refine ⟨found, matched, ?_⟩
  rcases Option.map_eq_some_iff.mp matched with ⟨later, first, rfl⟩
  rcases exists_head?_append first with ⟨between, ⟨text, ahead, passed_eq, reads⟩, last⟩
  rcases reads_headerPart.mp reads with
    ⟨labelGap', label', braceGap', rfl, -, labelSpace', -, noQuote', braceSpace', groups⟩
  have atHeader : blockHeader (str "dependency") labelGap label braceGap ++
      (dependency.inside ++ (dependency.assignment ++ behind)) =
        blockHeader (str "dependency") labelGap' label' braceGap' ++ between.ahead := by
    rw [← header_eq, ← ahead]
    simp [Dependency.whole]
  rcases blockHeader_unique labelSpace labelSpace' noQuote noQuote' braceSpace braceSpace' atHeader
    with ⟨-, -, -, ahead_eq⟩
  rcases between with ⟨passed', _, _⟩
  cases ahead_eq
  cases groups
  rcases exists_longest last with ⟨taken, rest, longest⟩
  rcases taken_eq_inside visible longest with ⟨rfl, rfl⟩
  have isLater := List.mem_of_mem_head? longest.first
  rw [Pattern.mem_ends] at isLater
  rcases isLater with ⟨text, assigned, -, reads⟩
  rcases reads_pathPart.mp reads with
    ⟨nameGap, valueGap, value, rfl, nameSpace, valueSpace, -, noQuote'', -⟩
  have behind_eq := pathText_unique visible.nameGap nameSpace visible.valueGap valueSpace
    visible.noQuote noQuote'' assigned
  apply Cursor.upTo_eq
  change dependency.whole ++ behind = dependency.whole ++ later.ahead
  rw [behind_eq]

/-- A path is what stands behind the last quotation mark but one. -/
theorem pathText_eq (nameGap valueGap value : Str) : pathText nameGap valueGap value =
    (str "config_path" ++ (nameGap ++ (str "=" ++ valueGap)) ++ [quote]) ++ (value ++ [quote]) := by
  simp [pathText]

/-- A match that ends with the path of a block has that path. -/
theorem group_of_text_eq (visible : Visible dependency behind) {ahead front : Str}
    (matched : dependencyConfigPathRe.matchAt passed ahead = some found)
    (text_eq : found.text = front ++ dependency.whole) :
    found.group 1 = some (lettersText dependency.path) := by
  rcases reads_of_matchAt matched with ⟨-, -, -, reads⟩
  rcases reads_append.mp reads with ⟨header, others, groups, whole, readsHeader, readsOthers⟩
  rcases reads_headerPart.mp readsHeader with ⟨_, _, _, -, -, -, -, -, -, rfl⟩
  rcases reads_cons.mp readsOthers with ⟨inside, path, groups', rfl, readsInside, readsPath⟩
  rcases reads_many_one.mp readsInside with ⟨-, rfl⟩
  rcases reads_pathPart.mp readsPath with ⟨nameGap, valueGap, value, rfl, -, -, -, noQuote, after⟩
  rw [text_eq, Dependency.whole, Dependency.assignment, pathText_eq, pathText_eq] at whole
  -- both texts end with a quotation mark, a path and a quotation mark
  simp only [← List.append_assoc] at whole
  have ends := List.append_cancel_right whole
  have values := (span_unique_right (ne_quote_of_plain visible.noQuote) (ne_quote_of_plain noQuote)
    (by simp) (by simp) ends).2
  rw [Match.group, after, values]
  rfl

theorem ne_nil_of_matchAt {earlier ahead : Str}
    (matched : dependencyConfigPathRe.matchAt earlier ahead = some found) : found.text ≠ [] := by
  rcases reads_of_matchAt matched with ⟨-, -, -, reads⟩
  rcases reads_append.mp reads with ⟨header, others, groups, whole, readsHeader, -⟩
  rcases reads_headerPart.mp readsHeader with ⟨_, _, _, rfl, -⟩
  rw [whole]
  simp [blockHeader, str]

/-- The path of a visible block is checked. -/
theorem mem_dependencyPaths {idents : WordClass} {document : Document idents}
    (declared : Declares document dependency)
    (visible : Visible dependency (dependency.behind document.tail)) :
    lettersText dependency.path ∈ dependencyPaths document.text := by
  have here : ∃ found, dependencyConfigPathRe.matchAt dependency.front.reverse
      (dependency.whole ++ dependency.behind document.tail) = some found ∧
        found.text = dependency.whole := by
    rcases @exists_matchAt_header dependency.front.reverse _ _ visible with
      ⟨found, matched, text_eq⟩
    exact ⟨found, matched, text_eq⟩
  rcases exists_mem_finditer (fun _ _ _ => ne_nil_of_matchAt) visible.reached here
    (fun _ _ _ => group_of_text_eq visible) with ⟨found, foundMem, isPath⟩
  rw [text_of_declares declared]
  exact List.mem_filterMap.mpr ⟨found, foundMem, isPath⟩

end Found

end DependencyPaths
