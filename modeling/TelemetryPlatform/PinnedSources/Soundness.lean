import TelemetryPlatform.PinnedSources.Sources

/-!
# What the guard of the module sources lets through

A live tree is a set of leaves with one `source` attribute each. `Sound` says that a
clean run of the guard means pinned sources, where the toggle asks for them, and that
a leaf the guard cannot read is reported. The guard reads strings, and choices between
two strings whose condition has no quotation mark, on lines of their own; it passes
over the rest. And its pattern for tags looks at the beginning of a ref only.
-/

namespace PinnedSources

open Python

section Leaves

/-- `condition ? "trueBranch" : "falseBranch"`. -/
structure Ternary where
  condition : Str
  afterMark : Str
  trueBranch : Str
  beforeColon : Str
  afterColon : Str
  falseBranch : Str
  nonempty : condition ≠ []
  space : AllSpace afterMark ∧ AllSpace beforeColon ∧ AllSpace afterColon
  plain : quote ∉ trueBranch ∧ quote ∉ falseBranch

def Ternary.text (choice : Ternary) : Str :=
  choice.condition ++ .char '?' :: (choice.afterMark ++ quote :: (choice.trueBranch ++ quote ::
    (choice.beforeColon ++ .char ':' :: (choice.afterColon ++ quote ::
      (choice.falseBranch ++ [quote])))))

/-- A condition without strings and without another choice. -/
def Ternary.Clean (choice : Ternary) : Prop := ∀ c ∈ choice.condition, inCondition c = true

instance (choice : Ternary) : Decidable choice.Clean := inferInstanceAs (Decidable (∀ c ∈ _, _))

/-- The expression of a `source` attribute. Any other expression comes with its text and with the
source that it is under either toggle. -/
inductive SourceExpr where
  | literal (value : Str) (plain : quote ∉ value)
  | ternary (choice : Ternary)
  | other (text : Str) (value : Bool → Str)

namespace SourceExpr

def text : SourceExpr → Str
  | literal value _ => quote :: (value ++ [quote])
  | ternary choice => choice.text
  | other text _ => text

/-- The source that the toggle selects. -/
def select (expr : SourceExpr) (toggle : Bool) : Str :=
  match expr with
  | literal value _ => value
  | ternary choice => if toggle then choice.trueBranch else choice.falseBranch
  | other _ value => value toggle

end SourceExpr

/-- A `terragrunt.hcl` with one line at most that begins with a `source` attribute, that of its
`terraform` block. -/
structure Leaf where
  path : PurePath
  before : Str
  gap : Str
  afterEquals : Str
  expr : SourceExpr
  after : Str
  space : AllSpace afterEquals
  one : OnlyAssignment (str "source") before gap (afterEquals ++ (expr.text ++ after))

def Leaf.text (leaf : Leaf) : Str :=
  assignmentFront leaf.before (str "source") leaf.gap ++
    (leaf.afterEquals ++ (leaf.expr.text ++ leaf.after))

structure LiveTree where
  fs : FileSystem
  root : PurePath
  leaves : List Leaf
  nodup : (leaves.map Leaf.path).Nodup
  texts : ∀ leaf ∈ leaves, fs.find? leaf.path = some (.text leaf.text)

/-- The leaves that are neither templates nor bootstrap units. -/
def LiveTree.units (tree : LiveTree) : List Leaf := tree.leaves.filter fun leaf => IsUnit leaf.path

end Leaves

section Pins

/-- A version tag. -/
def IsTag (tag : Str) : Prop :=
  ∃ major minor patch : List Char, tag = str "v" ++ major.map .char ++ str "." ++
      minor.map .char ++ str "." ++ patch.map .char ∧
    ∀ number ∈ [major, minor, patch], number ≠ [] ∧ ∀ c ∈ number, c.isDigit = true

/-- The value of the parameter `ref` of a source, from the first question mark on. -/
def refParameter (source : Str) : Option Str :=
  (splitOnce (str "?") source).bind fun parts =>
    (parts.2.splitOn (.char '&')).findSome? (·.dropPrefix? (str "ref="))

/-- The whole ref of a source is a version tag, with a path in front of it or without. -/
def Pinned (source : Str) : Prop :=
  ∃ path tag, refParameter source = some (path ++ tag) ∧
    (path = [] ∨ path.getLast? = some (.char '/')) ∧ IsTag tag

/-- A tag ends with a digit. -/
theorem exists_digit_of_isTag {path tag : Str} (isTag : IsTag tag) :
    ∃ c : Char, (path ++ tag).getLast? = some (.char c) ∧ c.isDigit = true := by
  rcases isTag with ⟨major, minor, patch, rfl, numbers⟩
  rcases numbers patch (by simp) with ⟨nonempty, isDigit⟩
  refine ⟨patch.getLast nonempty, ?_, isDigit _ (List.getLast_mem nonempty)⟩
  rw [List.getLast?_append_of_ne_nil, List.getLast?_append_of_ne_nil, List.getLast?_map,
    List.getLast?_eq_some_getLast nonempty]
  · rfl
  · simpa using nonempty
  · simp [str]

end Pins

section Sound

variable (digits : DigitClass) (rt : Runtime) (tree : LiveTree)

/-- The toggle of the `account.hcl` that governs a leaf. -/
def Toggled (leaf : Leaf) (toggle : Bool) : Prop :=
  ∃ fuel, resolveToggleFromAccountHcl tree.fs rt fuel leaf.path tree.root = some (.ok toggle)

/-- The errors a run over the tree returns. -/
def Returns (errors : List UnpinnedSourceError) : Prop :=
  ∃ fuel, runSourceGuard digits tree.fs rt fuel tree.root (tree.leaves.map Leaf.path) =
    some (.ok errors)

/-- Whether the guard can read the `source` attribute of a leaf. -/
def Readable (leaf : Leaf) : Prop :=
  match leaf.expr with
  | .literal value _ => BeginsLine leaf.before ∧ value ≠ []
  | .ternary choice =>
      if choice.Clean then
        BeginsLine leaf.before ∧ choice.trueBranch ≠ [] ∧ choice.falseBranch ≠ [] ∧
          EndsLine leaf.after
      else (ternarySourceRe.search leaf.text).isSome ∨ (sourceRe.search leaf.text).isSome
  | .other _ _ => (ternarySourceRe.search leaf.text).isSome ∨ (sourceRe.search leaf.text).isSome

def Sound : Prop :=
  ∀ errors, Returns digits rt tree errors →
    (errors = [] → ∀ leaf ∈ tree.units, Toggled rt tree leaf true →
      Pinned (leaf.expr.select true)) ∧
      ∀ leaf ∈ tree.units, ¬Readable leaf → ∃ error ∈ errors, error.filePath = leaf.path

/-- The strings the guard takes for the source of a leaf that it can read. -/
def ReadsAs (leaf : Leaf) (toggle : Bool) (source : Str) : Prop :=
  match leaf.expr with
  | .literal value _ => source = value
  | .ternary choice =>
      if choice.Clean then source = leaf.expr.select toggle
      else ∃ found ∈ leafSources leaf.text, found.effective toggle = source
  | .other _ _ => ∃ found ∈ leafSources leaf.text, found.effective toggle = source

/-- The check objects to what the guard reads in a leaf. -/
def Refused (leaf : Leaf) : Prop :=
  Readable leaf ∧ ∃ toggle source, Toggled rt tree leaf toggle ∧ ReadsAs leaf toggle source ∧
    (objection digits source toggle).isSome

/-- The pattern finds a tag in a ref that is more than a tag; or the guard reads one string where
the source is another one. -/
def Misleading (leaf : Leaf) : Prop :=
  match leaf.expr with
  | .literal value _ => ((validRefRe digits).search value).isSome ∧ ¬Pinned value
  | .ternary choice =>
      (choice.Clean → ((validRefRe digits).search choice.trueBranch).isSome) ∧
        ¬Pinned choice.trueBranch
  | .other _ value => ¬Pinned (value true)

end Sound

section Patterns

variable {leaf : Leaf} {passed text : Str} {groups after : List (Nat × Str)}

theorem inCondition_of_isSpace {c : Chr} (space : isSpace c = true) : inCondition c = true := by
  apply decide_eq_true
  constructor
  · rintro rfl
    exact absurd space (by decide)
  · rintro rfl
    exact absurd space (by decide)

theorem begins_condition {parts : List Pattern} :
    Begins (conditionPart ++ parts) passed text groups after ↔ ∃ gap condition back,
      text = gap ++ (condition ++ Chr.char '?' :: back) ∧ AllSpace gap ∧ condition ≠ [] ∧
        (∀ c ∈ condition, inCondition c = true) ∧
        Begins parts ((gap ++ (condition ++ [Chr.char '?'])).reverse ++ passed) back groups
            after := by
  rw [begins_append]
  simp only [conditionPart, reads_cons, reads_nil, reads_spaces, reads_oneOrMore_one, reads_word]
  constructor
  · rintro ⟨_, back, _, rfl, ⟨gap, _, _, rfl, ⟨gapSpace, rfl⟩, condition, _, _, rfl,
      ⟨nonempty, each, rfl⟩, _, _, _, rfl, ⟨rfl, rfl⟩, rfl, rfl⟩, begins⟩
    exact ⟨gap, condition, back, by simp [str], gapSpace, nonempty,
      each, by simpa [str] using begins⟩
  · rintro ⟨gap, condition, back, rfl, gapSpace, nonempty, each, begins⟩
    exact ⟨gap ++ (condition ++ [.char '?']), back, groups, by simp,
      ⟨gap, _, _, rfl, ⟨gapSpace, rfl⟩, condition, _, _, rfl, ⟨nonempty, each, rfl⟩, [.char '?'],
      [], _, rfl, ⟨rfl, rfl⟩, rfl, rfl⟩,
      begins⟩

theorem begins_lineEnd : Begins [.spaces, .lineEnd] passed text groups after ↔
    EndsLine text ∧ after = groups := by
  rw [begins_spaces]
  simp only [Begins, reads_cons, reads_nil, reads_lineEnd]
  constructor
  · rintro ⟨gap, _, rfl, gapSpace, _, back, rfl, _, _, _, rfl, ⟨rfl, rfl, atEnd⟩, rfl, rfl⟩
    exact ⟨⟨gap, back, rfl, gapSpace, atEnd⟩, rfl⟩
  · rintro ⟨⟨gap, back, rfl, gapSpace, atEnd⟩, rfl⟩
    exact ⟨gap, back, rfl, gapSpace, [], back, rfl, [], [], after, rfl, ⟨rfl, rfl, atEnd⟩, rfl, rfl⟩

/-- The condition of a choice is read as a whole, where it can be. -/
theorem begins_condition_clean {parts : List Pattern} {gap condition back : Str}
    (gapSpace : AllSpace gap) (nonempty : condition ≠ [])
    (clean : ∀ c ∈ condition, inCondition c = true) :
    Begins (conditionPart ++ parts) passed (gap ++ (condition ++ Chr.char '?' :: back))
      groups after ↔
      Begins parts ((gap ++ (condition ++ [Chr.char '?'])).reverse ++ passed) back groups
          after := by
  have all {gap condition : Str} (gapSpace : AllSpace gap)
      (clean : ∀ c ∈ condition, inCondition c = true) :
      ∀ c ∈ gap ++ condition, inCondition c = true :=
    List.forall_mem_append.mpr ⟨fun c cMem => inCondition_of_isSpace (gapSpace c cMem), clean⟩
  rw [begins_condition]
  constructor
  · rintro ⟨gap', condition', back', same, gapSpace', -, clean', begins⟩
    rw [← List.append_assoc, ← List.append_assoc] at same
    rcases span_cons_unique (all gapSpace clean) (all gapSpace' clean') (by decide) (by decide) same
      with ⟨fronts, -, rfl⟩
    rwa [← List.append_assoc, ← fronts, List.append_assoc] at begins
  · intro begins
    exact ⟨gap, condition, back, rfl, gapSpace, nonempty, clean, begins⟩

/-- No condition ends in front of a quotation mark. -/
theorem not_begins_condition {parts : List Pattern} {gap back : Str} (gapSpace : AllSpace gap) :
    ¬Begins (conditionPart ++ parts) passed (gap ++ quote :: back) groups after := by
  rw [begins_condition]
  rintro ⟨gap', condition, back', same, gapSpace', -, clean, -⟩
  have all : ∀ c ∈ gap' ++ condition, inCondition c = true :=
    List.forall_mem_append.mpr ⟨fun c cMem => inCondition_of_isSpace (gapSpace' c cMem), clean⟩
  rw [← List.append_assoc] at same
  have marks := (span_cons_unique (fun c cMem => inCondition_of_isSpace (gapSpace c cMem)) all
    (by decide) (by decide) same).2.1
  exact absurd marks (by decide)

end Patterns

section Reads

variable {leaf : Leaf} {groups : List (Nat × Str)}

theorem finds_source {parts : List Pattern} :
    (Pattern.sequence (Pattern.assignment (str "source") ++ parts)).Finds leaf.text groups ↔
      BeginsLine leaf.before ∧
        Begins parts (assignmentFront leaf.before (str "source") leaf.gap).reverse
          (leaf.afterEquals ++ (leaf.expr.text ++ leaf.after)) [] groups :=
  finds_assignment leaf.one (by decide) (by decide)

section Literal

variable {value : Str} {plain : quote ∉ value}

theorem finds_sourceRe_literal (shape : leaf.expr = .literal value plain) :
    sourceRe.Finds leaf.text groups ↔
      BeginsLine leaf.before ∧ value ≠ [] ∧ groups = [(1, value)] := by
  rw [sourceRe, finds_source, shape, SourceExpr.text, ← List.append_nil (Pattern.quotedText 1),
    List.cons_append, List.append_assoc, List.singleton_append,
    begins_quotedText leaf.space plain, begins_nil]

theorem not_finds_ternary_literal (shape : leaf.expr = .literal value plain) :
    ¬ternarySourceRe.Finds leaf.text groups := by
  rw [ternarySourceRe, finds_source, shape, SourceExpr.text, List.cons_append]
  rintro ⟨-, begins⟩
  exact not_begins_condition leaf.space begins

end Literal

section Choice

variable {choice : Ternary}

theorem finds_ternary_clean (shape : leaf.expr = .ternary choice) (clean : choice.Clean) :
    ternarySourceRe.Finds leaf.text groups ↔ BeginsLine leaf.before ∧ choice.trueBranch ≠ [] ∧
      choice.falseBranch ≠ [] ∧ EndsLine leaf.after ∧
      groups = [(2, choice.falseBranch), (1, choice.trueBranch)] := by
  have colon : isSpace (.char ':') = false := by decide
  rw [ternarySourceRe, finds_source, shape, SourceExpr.text, Ternary.text]
  simp only [List.append_assoc, List.cons_append, List.nil_append]
  rw [begins_condition_clean leaf.space choice.nonempty clean,
    begins_quotedText choice.space.1 choice.plain.1, str]
  change _ ∧ _ ∧ Begins (.spaces :: .word [.char ':'] :: _) _ _ _ _ ↔ _
  rw [begins_spaces_word choice.space.2.1 colon colon,
    begins_quotedText choice.space.2.2 choice.plain.2, begins_lineEnd]
  simp

theorem not_finds_sourceRe_clean (shape : leaf.expr = .ternary choice) (clean : choice.Clean) :
    ¬sourceRe.Finds leaf.text groups := by
  have inSpace {text : Str} (space : AllSpace text) : quote ∉ text := fun quoteMem =>
    absurd (space quote quoteMem) (by decide)
  have plain : quote ∉ leaf.afterEquals ++ (choice.condition ++ .char '?' :: choice.afterMark) := by
    simp only [List.mem_append, List.mem_cons, not_or]
    exact ⟨inSpace leaf.space, fun quoteMem => absurd (clean quote quoteMem) (by decide), by decide,
      inSpace choice.space.1⟩
  have markMem : .char '?' ∈ leaf.afterEquals ++ (choice.condition ++ .char '?' ::
      choice.afterMark) := by
    simp
  have text_eq : leaf.afterEquals ++ (leaf.expr.text ++ leaf.after) =
      leaf.afterEquals ++ (choice.condition ++ .char '?' :: choice.afterMark) ++ quote ::
        (choice.trueBranch ++ quote :: (choice.beforeColon ++ .char ':' :: (choice.afterColon ++
          quote :: (choice.falseBranch ++ quote :: leaf.after)))) := by
    simp [shape, SourceExpr.text, Ternary.text]
  rw [sourceRe, finds_source, ← List.append_nil (Pattern.quotedText 1), text_eq]
  rintro ⟨-, begins⟩
  exact not_begins_quotedText plain markMem (by decide) begins

end Choice

theorem leafSources_ne_nil {content : Str} : leafSources content ≠ [] ↔
    (∃ groups, ternarySourceRe.Finds content groups) ∨ ∃ groups, sourceRe.Finds content groups := by
  rw [leafSources, Ne, List.append_eq_nil_iff, List.map_eq_nil_iff, List.map_eq_nil_iff, not_and_or]
  exact or_congr finditer_ne_nil finditer_ne_nil

theorem mem_leafSources {content : Str} {source : LeafSource}
    (sourceMem : source ∈ leafSources content) :
    (∃ found, ternarySourceRe.Finds content found.stop.groups ∧ source = ternaryOf found) ∨
      ∃ found, sourceRe.Finds content found.stop.groups ∧ source = literalOf found := by
  rcases List.mem_append.mp sourceMem with isTernary | isLiteral
  · rcases List.mem_map.mp isTernary with ⟨found, foundMem, rfl⟩
    exact .inl ⟨found, finds_of_mem_finditer foundMem, rfl⟩
  · rcases List.mem_map.mp isLiteral with ⟨found, foundMem, rfl⟩
    exact .inr ⟨found, finds_of_mem_finditer foundMem, rfl⟩

/-- The guard finds a source in a leaf where it can read the attribute. -/
theorem leafSources_ne_nil_iff (leaf : Leaf) : leafSources leaf.text ≠ [] ↔ Readable leaf := by
  rw [leafSources_ne_nil, Readable]
  cases shape : leaf.expr with
  | literal value plain =>
      simp only [not_finds_ternary_literal shape, finds_sourceRe_literal shape,
        exists_false, false_or]
      simp
  | ternary choice =>
      simp only
      by_cases clean : choice.Clean
      · simp only [if_pos clean, not_finds_sourceRe_clean shape clean,
          finds_ternary_clean shape clean, exists_false, or_false]
        simp
      · rw [if_neg clean, search_isSome, search_isSome]
  | other text value => simp only [search_isSome]

/-- What the guard takes for the source of a leaf. -/
theorem readsAs_iff (readable : Readable leaf) {toggle : Bool} {source : Str} :
    ReadsAs leaf toggle source ↔ ∃ found ∈ leafSources leaf.text,
        found.effective toggle = source := by
  have only {value : Str}
      (each : ∀ found ∈ leafSources leaf.text, found.effective toggle = value) :
      source = value ↔ ∃ found ∈ leafSources leaf.text, found.effective toggle = source := by
    constructor
    · rintro rfl
      rcases List.exists_mem_of_ne_nil _ ((leafSources_ne_nil_iff leaf).mpr readable) with
        ⟨found, foundMem⟩
      exact ⟨found, foundMem, each found foundMem⟩
    · rintro ⟨found, foundMem, rfl⟩
      exact each found foundMem
  rw [ReadsAs]
  cases shape : leaf.expr with
  | literal value plain =>
      apply only
      intro source sourceMem
      rcases mem_leafSources sourceMem with ⟨found, finds, rfl⟩ | ⟨found, finds, rfl⟩
      · exact absurd finds (not_finds_ternary_literal shape)
      · have groups := ((finds_sourceRe_literal shape).mp finds).2.2
        simp [literalOf, Match.group, groups, LeafSource.effective]
  | ternary choice =>
      simp only
      by_cases clean : choice.Clean
      · rw [if_pos clean]
        apply only
        intro source sourceMem
        rcases mem_leafSources sourceMem with ⟨found, finds, rfl⟩ | ⟨found, finds, rfl⟩
        · have groups := ((finds_ternary_clean shape clean).mp finds).2.2.2.2
          rw [ternaryOf, Match.group, Match.group, groups]
          rfl
        · exact absurd finds (not_finds_sourceRe_clean shape clean)
      · rw [if_neg clean]
  | other text value => rfl

end Reads

section Run

variable {digits : DigitClass} {fs : FileSystem} {rt : Runtime} {liveRoot : PurePath}

/-- More steps do not change where the walk comes to. -/
theorem resolveToggle_mono {fuel more : Nat} {leaf : PurePath} {outcome : Except ToggleError Bool}
    (le : fuel ≤ more)
    (ends : resolveToggleFromAccountHcl fs rt fuel leaf liveRoot = some outcome) :
    resolveToggleFromAccountHcl fs rt more leaf liveRoot = some outcome := by
  cases first : leaf.parent.directories.find? (Halts fs liveRoot) with
  | none =>
      have never : ∀ above ∈ leaf.parent.directories, ¬Halts fs liveRoot above := by
        intro above aboveMem halts
        exact List.find?_eq_none.mp first above aboveMem (decide_eq_true halts)
      rw [resolveToggleFromAccountHcl, searchAccount_eq_none never] at ends
      cases ends
  | some stop =>
      rcases searchAccount_eq first with ⟨steps, -, walk⟩
      rw [resolveToggleFromAccountHcl, walk, Option.ite_none_right_eq_some] at ends
      rw [resolveToggleFromAccountHcl, walk, if_pos (Nat.lt_of_lt_of_le ends.1 le)]
      exact ends.2

/-- The error of a source, if the check objects to it. -/
def errorOf (digits : DigitClass) (path : PurePath) (source : LeafSource) (toggle : Bool) :
    Option UnpinnedSourceError :=
  (objection digits (source.effective toggle) toggle).map fun kind =>
    { filePath := path, source := source.effective toggle, kind }

/-- The step of the loop. -/
theorem checkSources_cons {fuel : Nat} {path : PurePath} {source : LeafSource}
    {rest : List (PurePath × LeafSource)} {errors : List UnpinnedSourceError} :
    checkSources digits fs rt fuel liveRoot ((path, source) :: rest) = some (.ok errors) ↔
      ∃ toggle others, resolveToggleFromAccountHcl fs rt fuel path liveRoot = some (.ok toggle) ∧
        checkSources digits fs rt fuel liveRoot rest = some (.ok others) ∧
        errors = (errorOf digits path source toggle).toList ++ others := by
  rw [checkSources]
  cases resolved : resolveToggleFromAccountHcl fs rt fuel path liveRoot with
  | none => simp
  | some outcome =>
      cases outcome with
      | error error => simp
      | ok toggle =>
          simp only [checkSourceString, errorOf]
          cases objected : objection digits (source.effective toggle) toggle with
          | none => simp [objected]
          | some kind =>
              cases checked : checkSources digits fs rt fuel liveRoot rest with
              | none => simp
              | some result =>
                  cases result with
                  | error error => simp [Except.map]
                  | ok others => simp [Except.map, objected, eq_comm]

/-- A run that comes to an end has the toggle of every source, and the errors are those of the
sources the check objects to. -/
theorem errors_of_checkSources {fuel : Nat} {sources : List (PurePath × LeafSource)}
    {errors : List UnpinnedSourceError}
    (ends : checkSources digits fs rt fuel liveRoot sources = some (.ok errors)) :
    (∀ source ∈ sources, ∃ toggle,
        resolveToggleFromAccountHcl fs rt fuel source.1 liveRoot = some (.ok toggle)) ∧
      ∀ error, error ∈ errors ↔ ∃ source ∈ sources, ∃ toggle,
        resolveToggleFromAccountHcl fs rt fuel source.1 liveRoot = some (.ok toggle) ∧
          errorOf digits source.1 source.2 toggle = some error := by
  induction sources generalizing errors with
  | nil =>
      cases ends
      simp
  | cons source rest ih =>
      rcases source with ⟨path, source⟩
      rcases checkSources_cons.mp ends with ⟨toggle, others, resolved, endsRest, rfl⟩
      rcases ih endsRest with ⟨toggles, errorMem⟩
      refine ⟨List.forall_mem_cons.mpr ⟨⟨toggle, resolved⟩, toggles⟩, fun error => ?_⟩
      rw [List.mem_append, Option.mem_toList, errorMem, List.exists_mem_cons_iff]
      simp only [resolved, Option.some.injEq, Except.ok.injEq, exists_eq_left']

theorem exists_fuel {sources : List (PurePath × LeafSource)}
    (each : ∀ source ∈ sources, ∃ fuel toggle,
      resolveToggleFromAccountHcl fs rt fuel source.1 liveRoot = some (.ok toggle)) :
    ∃ fuel, ∀ source ∈ sources, ∃ toggle,
      resolveToggleFromAccountHcl fs rt fuel source.1 liveRoot = some (.ok toggle) := by
  induction sources with
  | nil => exact ⟨0, by simp⟩
  | cons source rest ih =>
      rcases List.forall_mem_cons.mp each with ⟨⟨fuel, toggle, resolved⟩, others⟩
      rcases ih others with ⟨more, eachRest⟩
      refine ⟨max fuel more, List.forall_mem_cons.mpr ⟨?_, ?_⟩⟩
      · exact ⟨toggle, resolveToggle_mono (le_max_left fuel more) resolved⟩
      · intro other otherMem
        rcases eachRest other otherMem with ⟨toggle, resolved⟩
        exact ⟨toggle, resolveToggle_mono (le_max_right fuel more) resolved⟩

theorem exists_checkSources {fuel : Nat} {sources : List (PurePath × LeafSource)}
    (each : ∀ source ∈ sources, ∃ toggle,
      resolveToggleFromAccountHcl fs rt fuel source.1 liveRoot = some (.ok toggle)) :
    ∃ errors, checkSources digits fs rt fuel liveRoot sources = some (.ok errors) := by
  induction sources with
  | nil => exact ⟨[], rfl⟩
  | cons source rest ih =>
      rcases List.forall_mem_cons.mp each with ⟨⟨toggle, resolved⟩, others⟩
      rcases ih others with ⟨errors, ends⟩
      exact ⟨_, checkSources_cons.mpr ⟨toggle, errors, resolved, ends, rfl⟩⟩

end Run

section Tree

variable {digits : DigitClass} {rt : Runtime} {tree : LiveTree}

/-- The sources of the units, with their paths. -/
def unitSources (tree : LiveTree) : List (PurePath × LeafSource) :=
  tree.units.flatMap fun leaf => (leafSources leaf.text).map fun source => (leaf.path, source)

theorem collect_of_texts {fs : FileSystem} {leaves : List Leaf}
    (texts : ∀ leaf ∈ leaves, fs.find? leaf.path = some (.text leaf.text)) :
    ((leaves.map Leaf.path).filter IsUnit).mapM (fun path => do
        return (leafSources (← readText fs path)).map fun source => (path, source)) =
      .ok ((leaves.filter fun leaf => IsUnit leaf.path).map fun leaf =>
        (leafSources leaf.text).map fun source => (leaf.path, source)) := by
  induction leaves with
  | nil => rfl
  | cons leaf leaves ih =>
      rcases List.forall_mem_cons.mp texts with ⟨found, others⟩
      by_cases isUnit : IsUnit leaf.path
      · rw [List.map_cons, List.filter_cons_of_pos (by simpa using isUnit),
          List.filter_cons_of_pos (by simpa using isUnit), List.mapM_cons, ih others,
          readText, found]
        rfl
      · rw [List.map_cons, List.filter_cons_of_neg (by simpa using isUnit),
          List.filter_cons_of_neg (by simpa using isUnit), ih others]

theorem collectLeafSources_eq (tree : LiveTree) :
    collectLeafSources tree.fs (tree.leaves.map Leaf.path) = .ok (unitSources tree) := by
  rw [collectLeafSources, collect_of_texts tree.texts, unitSources, LiveTree.units, List.flatMap]
  rfl

theorem mem_unitSources {path : PurePath} {source : LeafSource} :
    (path, source) ∈ unitSources tree ↔
      ∃ leaf ∈ tree.units, source ∈ leafSources leaf.text ∧ leaf.path = path := by
  simp only [unitSources, List.mem_flatMap, List.mem_map, Prod.mk.injEq]
  constructor
  · rintro ⟨leaf, leafMem, _, sourceMem, rfl, rfl⟩
    exact ⟨leaf, leafMem, sourceMem, rfl⟩
  · rintro ⟨leaf, leafMem, sourceMem, rfl⟩
    exact ⟨leaf, leafMem, source, sourceMem, rfl, rfl⟩

theorem toggled_unique {leaf : Leaf} {toggle other : Bool} (toggled : Toggled rt tree leaf toggle)
    (toggled' : Toggled rt tree leaf other) : toggle = other := by
  rcases toggled with ⟨fuel, resolved⟩
  rcases toggled' with ⟨more, resolved'⟩
  have same := resolveToggle_mono (le_max_left fuel more) resolved
  rw [resolveToggle_mono (le_max_right fuel more) resolved'] at same
  cases same
  rfl

theorem returns_iff {errors : List UnpinnedSourceError} : Returns digits rt tree errors ↔
    ∃ fuel, checkSources digits tree.fs rt fuel tree.root (unitSources tree) = some
        (.ok errors) := by
  simp only [Returns, runSourceGuard, collectLeafSources_eq]

/-- The errors of a run over a tree. -/
theorem mem_errors {errors : List UnpinnedSourceError} (returns : Returns digits rt tree errors)
    (error : UnpinnedSourceError) :
    error ∈ errors ↔ ∃ leaf ∈ tree.units, ∃ source ∈ leafSources leaf.text, ∃ toggle,
      Toggled rt tree leaf toggle ∧ errorOf digits leaf.path source toggle = some error := by
  rcases returns_iff.mp returns with ⟨fuel, ends⟩
  rcases errors_of_checkSources ends with ⟨toggles, errorMem⟩
  rw [errorMem]
  constructor
  · rintro ⟨⟨path, source⟩, sourceMem, toggle, resolved, objected⟩
    rcases mem_unitSources.mp sourceMem with ⟨leaf, leafMem, inLeaf, rfl⟩
    exact ⟨leaf, leafMem, source, inLeaf, toggle, ⟨fuel, resolved⟩, objected⟩
  · rintro ⟨leaf, leafMem, source, inLeaf, toggle, toggled, objected⟩
    have sourceMem := mem_unitSources.mpr ⟨leaf, leafMem, inLeaf, rfl⟩
    rcases toggles _ sourceMem with ⟨other, resolved⟩
    cases toggled_unique toggled ⟨fuel, resolved⟩
    exact ⟨_, sourceMem, toggle, resolved, objected⟩

/-- A run over a tree returns where every leaf that is read has a toggle. -/
theorem exists_returns_iff : (∃ errors, Returns digits rt tree errors) ↔
    ∀ leaf ∈ tree.units, Readable leaf → ∃ toggle, Toggled rt tree leaf toggle := by
  constructor
  · rintro ⟨errors, returns⟩ leaf leafMem readable
    rcases returns_iff.mp returns with ⟨fuel, ends⟩
    rcases List.exists_mem_of_ne_nil _ ((leafSources_ne_nil_iff leaf).mpr readable) with
      ⟨source, sourceMem⟩
    have sourceOf := mem_unitSources.mpr ⟨leaf, leafMem, sourceMem, rfl⟩
    rcases (errors_of_checkSources ends).1 _ sourceOf with ⟨toggle, resolved⟩
    exact ⟨toggle, fuel, resolved⟩
  · intro toggles
    have each : ∀ source ∈ unitSources tree, ∃ fuel toggle,
        resolveToggleFromAccountHcl tree.fs rt fuel source.1 tree.root = some (.ok toggle) := by
      rintro ⟨path, source⟩ sourceMem
      rcases mem_unitSources.mp sourceMem with ⟨leaf, leafMem, inLeaf, rfl⟩
      rcases toggles leaf leafMem ((leafSources_ne_nil_iff leaf).mp (List.ne_nil_of_mem inLeaf))
        with ⟨toggle, fuel, resolved⟩
      exact ⟨fuel, toggle, resolved⟩
    rcases exists_fuel each with ⟨fuel, eachAtOnce⟩
    rcases exists_checkSources eachAtOnce with ⟨errors, ends⟩
    exact ⟨errors, returns_iff.mpr ⟨fuel, ends⟩⟩

theorem errors_eq_nil {errors : List UnpinnedSourceError}
    (returns : Returns digits rt tree errors) :
    errors = [] ↔ ¬∃ leaf ∈ tree.units, Refused digits rt tree leaf := by
  rw [List.eq_nil_iff_forall_not_mem, ← not_exists, not_iff_not]
  constructor
  · rintro ⟨error, errorMem⟩
    rcases (mem_errors returns error).mp errorMem with
      ⟨leaf, leafMem, source, sourceMem, toggle, toggled, objected⟩
    have readable := (leafSources_ne_nil_iff leaf).mp (List.ne_nil_of_mem sourceMem)
    refine ⟨leaf, leafMem, readable, toggle, source.effective toggle, toggled,
      (readsAs_iff readable).mpr ⟨source, sourceMem, rfl⟩, ?_⟩
    rw [← Option.isSome_map]
    exact Option.isSome_of_eq_some objected
  · rintro ⟨leaf, leafMem, readable, toggle, text, toggled, reads, objected⟩
    rcases (readsAs_iff readable).mp reads with ⟨source, sourceMem, rfl⟩
    rcases Option.isSome_iff_exists.mp objected with ⟨kind, isKind⟩
    exact ⟨_, (mem_errors returns _).mpr ⟨leaf, leafMem, source, sourceMem, toggle, toggled,
      Option.map_eq_some_iff.mpr ⟨kind, isKind, rfl⟩⟩⟩

/-- No error is about a leaf that the guard does not read. -/
theorem readable_of_error {errors : List UnpinnedSourceError} {leaf : Leaf}
    (returns : Returns digits rt tree errors) (leafMem : leaf ∈ tree.units)
    {error : UnpinnedSourceError} (errorMem : error ∈ errors) (about : error.filePath = leaf.path) :
    Readable leaf := by
  rcases (mem_errors returns error).mp errorMem with
    ⟨other, otherMem, source, sourceMem, toggle, toggled, objected⟩
  rcases Option.map_eq_some_iff.mp objected with ⟨kind, isKind, rfl⟩
  have same : other = leaf :=
    List.inj_on_of_nodup_map tree.nodup (List.mem_of_mem_filter otherMem)
      (List.mem_of_mem_filter leafMem) about
  rw [← same]
  exact (leafSources_ne_nil_iff other).mp (List.ne_nil_of_mem sourceMem)

end Tree

section Verdict

variable {digits : DigitClass} {rt : Runtime} {tree : LiveTree}

/-- Under a true toggle the check accepts only what has a tag somewhere. -/
theorem search_of_accepted {source : Str} (accepted : objection digits source true = none) :
    ((validRefRe digits).search source).isSome := by
  rw [objection] at accepted
  split at accepted
  · cases accepted
  · split at accepted
    · cases accepted
    · split at accepted
      · cases accepted
      · next found => exact Option.isSome_iff_ne_none.mpr (by simpa using found)

theorem misleading_of_not_pinned {leaf : Leaf}
    (accepted : ∀ source, ReadsAs leaf true source → objection digits source true = none)
    (notPinned : ¬Pinned (leaf.expr.select true)) : Misleading digits leaf := by
  rw [Misleading]
  cases shape : leaf.expr with
  | literal value plain =>
      rw [shape] at notPinned
      refine ⟨search_of_accepted (accepted value ?_), notPinned⟩
      rw [ReadsAs, shape]
  | ternary choice =>
      rw [shape] at notPinned
      refine ⟨fun clean => search_of_accepted (accepted choice.trueBranch ?_), notPinned⟩
      simp only [ReadsAs, shape, if_pos clean]
      rfl
  | other text value =>
      rw [shape] at notPinned
      exact notPinned

theorem not_pinned_of_misleading {leaf : Leaf} (misleading : Misleading digits leaf) :
    ¬Pinned (leaf.expr.select true) := by
  rw [Misleading] at misleading
  cases shape : leaf.expr with
  | literal value plain =>
      rw [shape] at misleading
      exact misleading.2
  | ternary choice =>
      rw [shape] at misleading
      exact misleading.2
  | other text value =>
      rw [shape] at misleading
      exact misleading

/-- When a clean run of the guard means pinned sources. -/
theorem sound_iff : Sound digits rt tree ↔
    (∃ leaf ∈ tree.units, Readable leaf ∧ ∀ toggle, ¬Toggled rt tree leaf toggle) ∨
      (∀ leaf ∈ tree.units, Readable leaf) ∧
        ((∃ leaf ∈ tree.units, Refused digits rt tree leaf) ∨
          ∀ leaf ∈ tree.units, Toggled rt tree leaf true → ¬Misleading digits leaf) := by
  constructor
  · intro sound
    by_cases returns : ∃ errors, Returns digits rt tree errors
    · right
      rcases returns with ⟨errors, returns⟩
      rcases sound errors returns with ⟨clean, reported⟩
      refine ⟨fun leaf leafMem => ?_, or_iff_not_imp_left.mpr fun noneRefused leaf leafMem
        toggled => ?_⟩
      · by_contra unreadable
        rcases reported leaf leafMem unreadable with ⟨error, errorMem, about⟩
        exact unreadable (readable_of_error returns leafMem errorMem about)
      · intro misleading
        apply not_pinned_of_misleading misleading
        exact clean ((errors_eq_nil returns).mpr noneRefused) leaf leafMem toggled
    · left
      rw [exists_returns_iff] at returns
      simpa using returns
  · rintro (⟨leaf, leafMem, readable, untoggled⟩ | ⟨readable, covered⟩) errors returns
    · rcases exists_returns_iff.mp ⟨errors, returns⟩ leaf leafMem readable with ⟨toggle, toggled⟩
      exact absurd toggled (untoggled toggle)
    · refine ⟨fun nothing leaf leafMem toggled => ?_, fun leaf leafMem unreadable =>
        absurd (readable leaf leafMem) unreadable⟩
      have noneRefused := (errors_eq_nil returns).mp nothing
      have notMisleading := (covered.resolve_left noneRefused) leaf leafMem toggled
      by_contra notPinned
      apply notMisleading
      refine misleading_of_not_pinned (fun source reads => ?_) notPinned
      by_contra objected
      exact noneRefused ⟨leaf, leafMem, readable leaf leafMem, true, source, toggled, reads,
        Option.isSome_iff_ne_none.mpr objected⟩

end Verdict

section SuffixedTag

def suffixedSource : Str := str "git::https://example.com/modules.git//bucket?ref=v1.2.3-main"

def suffixedPath : PurePath := ⟨false, [str "live", str "prod", str "bucket", str "terragrunt.hcl"]⟩

/-- A leaf whose ref is a branch with the name of a version in front. -/
def suffixedLeaf : Leaf where
  path := suffixedPath
  before := str "terraform \x7b\n  "
  gap := str " "
  afterEquals := str " "
  expr := .literal suffixedSource (by decide +kernel)
  after := str "\n\x7d\n"
  space := by decide
  one := .of_once (by decide) (by decide +kernel)

def prodAccount : Str := str "locals \x7b\n  use_pinned_module_sources = true\n\x7d\n"

def suffixedFiles (path : Path) : Option Content :=
  if path = str "repo" :: suffixedPath.names then some (.text suffixedLeaf.text)
  else if path = [str "repo", str "live", str "prod", str "account.hcl"] then some
    (.text prodAccount)
  else none

def suffixedTree : LiveTree where
  fs := { cwd := [str "repo"], realpath := id, contents := suffixedFiles }
  root := ⟨false, [str "live"]⟩
  leaves := [suffixedLeaf]
  nodup := by simp
  texts := by
    intro leaf leafMem
    rw [List.mem_singleton] at leafMem
    rw [leafMem]
    change suffixedFiles (str "repo" :: suffixedPath.names) = _
    rw [suffixedFiles, if_pos rfl]

/-- A ref that only begins like a tag passes. -/
theorem not_sound_suffixedTree : ¬Sound .latin .whole suffixedTree := by
  intro sound
  have returns : Returns .latin .whole suffixedTree [] := ⟨3, by decide +kernel⟩
  have toggled : Toggled .whole suffixedTree suffixedLeaf true := ⟨3, by decide +kernel⟩
  have isUnit : suffixedLeaf ∈ suffixedTree.units := by
    simp only [LiveTree.units, suffixedTree, List.mem_filter, List.mem_singleton, true_and]
    decide
  rcases (sound [] returns).1 rfl suffixedLeaf isUnit toggled with
    ⟨path, tag, whole, -, isTag⟩
  have value : refParameter suffixedSource = some (str "v1.2.3-main") := by decide +kernel
  rcases @exists_digit_of_isTag path tag isTag with ⟨c, last, isDigit⟩
  change refParameter suffixedSource = _ at whole
  rw [← Option.some.inj (value.symm.trans whole)] at last
  have letter : c = 'n' := by simpa [str] using last.symm
  rw [letter] at isDigit
  exact absurd isDigit (by decide)

end SuffixedTag

end PinnedSources
