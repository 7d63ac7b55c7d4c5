import TelemetryPlatform.TerratestTags.Blocks

/-!
# The tagging contract

The contract asks for default tags in every provider block, and for declarations of the two
variables with a type and without a default. In a directory that the lint accepts, it
holds if and only if it does of what the lint does not see.
-/

namespace TerratestTags

open Python Hcl Deploy

section Contract

variable (idents : WordClass) (dir : ExampleDir)

/-- A file of the directory has the provider block. -/
structure Provides (name : Part) (document : Document idents) (block : Block) : Prop where
  file : (name, some document.text) ∈ dir.tfFiles
  isBlock : IsBlock document (str "provider") (str "aws") block

/-- The document is that of `variables.tf`. -/
def IsVariables (document : Document idents) : Prop :=
  (variablesTf, some document.text) ∈ dir.entries

/-- The declaration of a variable in `variables.tf`. -/
structure Declares (document : Document idents) (block : Block) : Prop where
  file : IsVariables idents dir document
  body : document.body = block.body (str "variable")
  isName : labelText block.label ∈ variableNames

structure Contract : Prop where
  tagged : ∀ name document block, Provides idents dir name document block →
    Tagged idents block.inner
  present : ∃ content, (variablesTf, some content) ∈ dir.entries
  declared : ∀ document, IsVariables idents dir document → ∀ name ∈ variableNames,
    ∃ block, IsBlock document (str "variable") name block
  typed : ∀ document block, Declares idents dir document block → HasType block.inner
  noDefault : ∀ document block, Declares idents dir document block → ¬HasDefault block.inner

end Contract

section Condition

variable (idents words : WordClass) (dir : ExampleDir)

/-- The file is the first one in which the pattern finds a provider block. -/
structure IsFirst (name : Part) (content : Str) : Prop where
  found : ((providerRe words).search content).isSome = true
  first : ∀ other text, (other, some text) ∈ dir.tfFiles →
    ((providerRe words).search text).isSome = true → strLe name.val other.val = true

variable {idents} in
/-- The lint sees the default tags of the block. -/
def Checked (name : Part) (document : Document idents) (block : Block) : Prop :=
  IsFirst words dir name document.text ∧
    ∃ tags : InnerBlock, block.inner = tags.body (str "default_tags") ∧
      Seen words document block tags

variable {idents} in
/-- The match begins where a declaration of the variable does. -/
def IsDeclaration (document : Document idents) (found : Match) : Prop :=
  ∃ block : Block, document.body = block.body (str "variable") ∧
    found.offset = block.front.length ∧ found.group 1 = some (labelText block.label)

/-- The contract holds of what the lint does not see. -/
structure Covered : Prop where
  unchecked : ∀ name document block, Provides idents dir name document block →
    ¬Checked words dir name document block → Tagged idents block.inner
  undeclared : ∀ document, IsVariables idents dir document →
    ¬(∀ found ∈ variableBlockRe.finditer document.text, IsDeclaration document found) →
      ∀ name ∈ variableNames, ∃ block, IsBlock document (str "variable") name block
  typed : ∀ document block, Declares idents dir document block → HasType block.inner
  shown : ∀ document block, Declares idents dir document block → ∀ assignment : Assignment,
    block.inner = assignment.body (str "default") → Shown words document block assignment

end Condition

section Files

variable {words : WordClass} {dir : ExampleDir} {name first : Part} {text content : Str}

theorem mem_sortedTfFiles {entry : Part × Option Str} :
    entry ∈ dir.sortedTfFiles ↔ entry ∈ dir.tfFiles :=
  (List.mergeSort_perm _ _).mem_iff

theorem pairwise_sortedTfFiles :
    dir.sortedTfFiles.Pairwise fun left right => strLe left.1.val right.1.val = true := by
  apply List.pairwise_mergeSort
  · intro left middle right
    exact strLe_trans _ _ _
  · intro left right
    exact strLe_total _ _

/-- A directory has one file of a name. -/
theorem content_unique (file : (name, some text) ∈ dir.entries)
    (file' : (name, some content) ∈ dir.entries) : text = content := by
  have found := (dictGet?_eq_some_iff dir.once).mpr file
  rw [(dictGet?_eq_some_iff dir.once).mpr file'] at found
  cases found
  rfl

/-- The lint reads the first file with a provider block. -/
theorem eq_of_isFirst (isFirst : IsFirst words dir name text)
    (file : (name, some text) ∈ dir.tfFiles)
    (found : findProviderFile words dir dir.sortedTfFiles = .ok (some (first, content))) :
    text = content := by
  rcases split_of_findProviderFile found with ⟨before, after, split, isProvider, none⟩
  have sorted := @pairwise_sortedTfFiles dir
  rw [split, List.pairwise_append] at sorted
  have firstMem : (first, some content) ∈ dir.tfFiles := by
    rw [← mem_sortedTfFiles, split]
    exact List.mem_append_right _ List.mem_cons_self
  have nameMem := mem_sortedTfFiles.mpr file
  rw [split, List.mem_append, List.mem_cons] at nameMem
  rcases nameMem with earlier | same | later
  · have notProvider := none _ earlier text rfl
    rw [isFirst.found] at notProvider
    cases notProvider
  · cases same
    rfl
  · have below := (List.pairwise_cons.mp sorted.2.1).1 _ later
    have same : name = first :=
      Subtype.ext (strLe_antisymm (isFirst.first first content firstMem isProvider) below)
    rw [← same] at firstMem
    exact content_unique (List.mem_of_mem_filter file) (List.mem_of_mem_filter firstMem)

end Files

section Acceptance

variable {idents words : WordClass} {dir : ExampleDir} {name : Part} {document : Document idents}
  {block : Block}

theorem lexed_of_tags {tags : InnerBlock} (isBlock : document.body = block.body (str "provider"))
    (isTags : block.inner = tags.body (str "default_tags")) :
    Lexed idents (tags.own ++ .code (.char '\x7d') :: tagsBehind block tags document.tail) := by
  have lexed := document.lexed
  rw [tokens_of_tags isBlock isTags] at lexed
  exact lexed_append lexed

/-- The default tags that the lint sees refer to the variables. -/
theorem tagged_of_checked (accepted : checkProvider words dir = .ok [])
    (provides : Provides idents dir name document block)
    (checked : Checked words dir name document block) : Tagged idents block.inner := by
  rcases checked with ⟨isFirst, tags, isTags, seen⟩
  rcases wired_of_checkProvider accepted with ⟨first, content, found, isFound, searched, wired⟩
  have same := eq_of_isFirst isFirst provides.file isFound
  rw [← same] at searched wired
  refine ⟨tags, isTags, ?_⟩
  intro variableName isName
  have mentions := wired variableName isName
  rw [stop_of_seen provides.isBlock.1 isTags seen searched] at mentions
  have plain : ∀ name ∈ variableNames, (∀ c ∈ refText name, Solid c) ∧
      .char '\x7d' ∉ refText name := by decide
  have wordly : variableName.getLast?.any words.holds = true := by
    rcases List.mem_pair.mp isName with rfl | rfl
    · exact (words.ascii (.char 'g') (by decide)).trans (by decide)
    · exact (words.ascii (.char 'd') (by decide)).trans (by decide)
  exact references_of_mentions (lexed_of_tags provides.isBlock.1 isTags)
    (plain variableName isName).1 (plain variableName isName).2 (seen.only variableName isName)
    (mentions_of_search wordly mentions)

/-- In a directory that the lint accepts, exactly what it does not see has to meet the contract by
itself. -/
theorem accepted_contract_iff (accepted : checkExampleDir words dir = .ok []) :
    Contract idents dir ↔ Covered idents words dir := by
  rcases checkExampleDir_eq_nil.mp accepted with ⟨provider, declarations, -⟩
  rcases declared_of_checkVariables declarations with ⟨content, isFile, noDefault, eachFound⟩
  have isContent := (dictGet?_eq_some_iff dir.once).mp isFile
  constructor
  · intro contract
    refine ⟨?_, ?_, contract.typed, ?_⟩
    · intro name document block provides _
      exact contract.tagged name document block provides
    · intro document isVariables _
      exact contract.declared document isVariables
    · intro document block declares assignment isDefault
      exact absurd ⟨assignment, isDefault⟩ (contract.noDefault document block declares)
  · rintro ⟨unchecked, undeclared, typed, shown⟩
    refine ⟨?_, ⟨content, isContent⟩, ?_, typed, ?_⟩
    · intro name document block provides
      by_cases checked : Checked words dir name document block
      · exact tagged_of_checked provider provides checked
      · exact unchecked name document block provides checked
    · intro document isVariables name isName
      by_cases all : ∀ found ∈ variableBlockRe.finditer document.text,
          IsDeclaration document found
      · rcases eachFound name isName with ⟨found, foundMem, isGroup⟩
        rw [← content_unique isVariables isContent] at foundMem
        rcases all found foundMem with ⟨block, isBlock, -, label⟩
        rw [isGroup] at label
        exact ⟨block, isBlock, (Option.some.inj label).symm⟩
      · exact undeclared document isVariables all name isName
    · rintro document block declares ⟨assignment, isDefault⟩
      rcases exists_found_of_shown declares.body declares.isName isDefault
        (shown document block declares assignment isDefault) with ⟨found, foundMem, hasDefault⟩
      rw [content_unique declares.file isContent] at foundMem
      rw [noDefault found foundMem] at hasDefault
      cases hasDefault

end Acceptance

section Samples

def blank : List Token := [.code (.char ' ')]

def aws : Label := .quoted blank ((str "aws").map .chr)

/-- A provider with default tags, in front of others. -/
def taggedProvider (others : Body) : Body :=
  .block [] (str "provider") [aws] blank
    (.block (codeOf (str "\n  ")) (str "default_tags") [] blank
      (.attr (codeOf (str "\n    ")) (str "tags") blank (codeOf (str (" \x7b Project = " ++
        "var.project_tag, terratest-run = var.terratest_run_id \x7d"))) .nil)
      (codeOf (str "\n  ")) .nil)
    (codeOf (str "\n")) others

/-- A provider without default tags behind the other one. -/
def aliased : Block where
  earlier := taggedProvider .nil
  indent := codeOf (str "\n\n")
  label := aws
  gap := blank
  inner := .attr (codeOf (str "\n  ")) (str "alias") blank
    (blank ++ [.string ((str "west").map .chr)]) .nil
  close := codeOf (str "\n")
  later := .nil

def aliasedDocument : Document .latin where
  body := aliased.body (str "provider")
  tail := codeOf (str "\n")
  wellFormed := by decide +kernel
  tailWhite := allWhite_newline
  lexed := by decide +kernel

def aliasedDir : ExampleDir where
  path := ⟨true, [⟨str "basic", by decide⟩]⟩
  entries := [
    (terraformTfvars, some (str ("project_tag = \"telemetry-platform\"\n" ++
      "terratest_run_id = \"offline-validate\"\n"))),
    (variablesTf, some (str ("variable \"project_tag\" \x7b\n  type = string\n\x7d\n" ++
      "variable \"terratest_run_id\" \x7b\n  type = string\n\x7d\n"))),
    (versionsTf, some aliasedDocument.text)]
  once := by decide

theorem accepted_aliasedDir : checkExampleDir .latin aliasedDir = .ok [] := by
  rw [checkExampleDir_eq_nil]
  refine ⟨?_, ?_, ?_⟩
  · have sorted : aliasedDir.sortedTfFiles = aliasedDir.tfFiles :=
      List.mergeSort_of_pairwise (by decide +kernel)
    rw [checkProvider, sorted]
    decide +kernel
  · decide +kernel
  · decide +kernel

/-- Everything in the directory is seen but the second provider. -/
theorem accepted_contract_aliased : checkExampleDir .latin aliasedDir = .ok [] ∧
    (Contract .latin aliasedDir ↔ Covered .latin .latin aliasedDir) :=
  ⟨accepted_aliasedDir, accepted_contract_iff accepted_aliasedDir⟩

/-- A provider without default tags is accepted behind one that has them. -/
theorem accepted_untagged : checkExampleDir .latin aliasedDir = .ok [] ∧
    ¬Contract .latin aliasedDir := by
  refine ⟨accepted_aliasedDir, ?_⟩
  intro contract
  have provides : Provides .latin aliasedDir versionsTf aliasedDocument aliased := by
    refine ⟨?_, rfl, by decide⟩
    apply List.mem_filter.mpr
    exact ⟨by simp [aliasedDir], by decide⟩
  rcases contract.tagged versionsTf aliasedDocument aliased provides with ⟨tags, isTags, -⟩
  rw [InnerBlock.body] at isTags
  cases before : tags.before with
  | nil =>
      rw [before] at isTags
      cases isTags
  | block _ _ _ _ _ _ _ =>
      rw [before] at isTags
      cases isTags
  | attr _ _ _ _ others =>
      rw [before] at isTags
      cases others <;> cases isTags

end Samples

end TerratestTags
