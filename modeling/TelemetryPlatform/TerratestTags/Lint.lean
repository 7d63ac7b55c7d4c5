import TelemetryPlatform.Deploy.Partition
import TelemetryPlatform.Library.Dict
import TelemetryPlatform.Library.Greedy
import TelemetryPlatform.Library.Numeral
import TelemetryPlatform.Library.PosixPath

/-!
# The lint of the tagging contract

`check_example_dir` of `scripts/check_terratest_tags.py` reports what an example directory
lacks: tags that are wired to two variables in a provider block, declarations of these
variables without defaults, and their values for offline validation. It looks at the text of
the first file with a provider block, of `variables.tf` and of `terraform.tfvars`.
-/

namespace TerratestTags

open Python Deploy

section Patterns

def projectTag : Str := str "project_tag"
def terratestRunId : Str := str "terratest_run_id"

def inBlock (c : Chr) : Bool := c ≠ .char '\x7d'

def defaultTagsRe : Pattern :=
  .sequence [.word (str "default_tags"), .spaces, .word (str "\x7b")]

variable (words : WordClass)

/-- `var\.name\b`, for `_PROJECT_TAG_REF_RE` and `_RUN_ID_REF_RE`. -/
def refRe (name : Str) : Pattern := .sequence [.word (str "var." ++ name), .wordEdge words.holds]

def projectTagRefRe : Pattern := refRe words projectTag
def runIdRefRe : Pattern := refRe words terratestRunId

def variableHeaderPart : List Pattern :=
  [.word (str "variable"), .oneOrMore (.one isSpace), .word [quote],
    .group 1 (.either (.word projectTag) (.word terratestRunId)), .word [quote], .spaces,
    .word (str "\x7b")]

def variableBlockRe : Pattern :=
  .sequence (variableHeaderPart ++ [.group 2 (.many (.one inBlock)), .word (str "\x7d")])

def defaultAssignmentRe : Pattern :=
  .sequence [.wordEdge words.holds, .word (str "default"), .spaces, .word (str "=")]

/-- `^\s*name\s*=\s*"([^"]*)"`. -/
def tfvarsRe (name : Str) : Pattern :=
  .sequence (Pattern.assignment name ++ [.spaces, .word [quote],
    .group 1 (.many (.one (· ≠ quote))), .word [quote]])

def tfvarsProjectTagRe : Pattern := tfvarsRe projectTag
def tfvarsRunIdRe : Pattern := tfvarsRe terratestRunId

def providerRe : Pattern :=
  .sequence [.wordEdge words.holds, .word (str "provider"), .oneOrMore (.one isSpace),
    .word (str "\"aws\""), .spaces, .word (str "\x7b")]

end Patterns

section Files

/-- An example directory, as it is listed; a file of text is there with its text. -/
structure ExampleDir where
  path : PosixPath
  entries : List (Part × Option Str)
  once : (entries.map Prod.fst).Nodup

structure TagsContractViolation where
  filePath : PosixPath
  line : Nat
  element : Str
  remediation : Str
deriving DecidableEq

/-- `str(violation)`. -/
def TagsContractViolation.text (violation : TagsContractViolation) : Str :=
  violation.filePath.text ++ str ":" ++ numeral violation.line ++ str ": VIOLATION: " ++
    violation.element ++ str "\n  Remedy: " ++ violation.remediation

/-- A path that is not read as text. -/
structure Unreadable where
  path : PosixPath
deriving DecidableEq

def variablesTf : Part := ⟨str "variables.tf", by decide⟩
def versionsTf : Part := ⟨str "versions.tf", by decide⟩
def terraformTfvars : Part := ⟨str "terraform.tfvars", by decide⟩

namespace ExampleDir

variable (dir : ExampleDir)

/-- `ex_dir.glob("*.tf")`. -/
def tfFiles : List (Part × Option Str) :=
  dir.entries.filter fun entry => (str ".tf").isSuffixOf entry.1.val

/-- `sorted(ex_dir.glob("*.tf"))`. -/
def sortedTfFiles : List (Part × Option Str) :=
  dir.tfFiles.mergeSort fun left right => strLe left.1.val right.1.val

end ExampleDir

/-- `_line_number`. -/
def lineNumber (content : Str) (offset : Nat) : Nat := (content.take offset).count newline + 1

end Files

section Wiring

variable (words : WordClass)

def checkDefaultTagsWiring (providerFile : PosixPath) (content : Str) :
    List TagsContractViolation :=
  match defaultTagsRe.search content with
  | none => [{
      filePath := providerFile
      line := 1
      element := str "default_tags block is absent from the provider block"
      remediation := str ("Add a default_tags block to the provider \"aws\" block: " ++
        "default_tags \x7b tags = \x7b Project = var.project_tag, " ++
        "terratest-run = var.terratest_run_id \x7d \x7d") }]
  | some tagsMatch =>
      let blockContent := content.drop tagsMatch.stopOffset
      let line := lineNumber content tagsMatch.offset
      (if ((projectTagRefRe words).search blockContent).isSome then []
        else [{
          filePath := providerFile
          line := line
          element := str "default_tags is not wired to var.project_tag"
          remediation := str "Add Project = var.project_tag to the default_tags.tags map." }]) ++
      (if ((runIdRefRe words).search blockContent).isSome then []
        else [{
          filePath := providerFile
          line := line
          element := str "default_tags is not wired to var.terratest_run_id"
          remediation := str ("Add \"terratest-run\" = var.terratest_run_id " ++
            "to the default_tags.tags map.") }])

/-- The violation of a declaration with a default. -/
def defaultViolation (variablesFile : PosixPath) (content : Str) (found : Match) :
    Option TagsContractViolation :=
  let varName := (found.group 1).getD []
  if ((defaultAssignmentRe words).search ((found.group 2).getD [])).isSome then
    some {
      filePath := variablesFile
      line := lineNumber content found.offset
      element := str "variable \"" ++ varName ++
        str "\" must not have a default (a default would mask an unset run id)"
      remediation := str "Remove the default = ... assignment from variable \"" ++ varName ++
        str "\"." }
  else none

def absentViolation (variablesFile : PosixPath) (missingVar : Str) : TagsContractViolation where
  filePath := variablesFile
  line := 1
  element := str "variable \"" ++ missingVar ++ str "\" is absent"
  remediation := str "Declare variable \"" ++ missingVar ++
    str "\" \x7b type = string \x7d in variables.tf with no default."

def checkVariableDeclarations (variablesFile : PosixPath) (content : Str) :
    List TagsContractViolation :=
  let matches_ := variableBlockRe.finditer content
  let foundVars := matches_.filterMap fun found => found.group 1
  matches_.filterMap (defaultViolation words variablesFile content) ++
    ([projectTag, terratestRunId].filter (· ∉ foundVars)).map (absentViolation variablesFile)

end Wiring

section Tfvars

def checkTfvarsKey (tfvarsPath : PosixPath) (content key : Str) (pattern : Pattern)
    (expectedValue : Str) : List TagsContractViolation :=
  match pattern.search content with
  | none => [{
      filePath := tfvarsPath
      line := 1
      element := str "terraform.tfvars is missing " ++ key
      remediation := str "Add " ++ key ++ str " = \"" ++ expectedValue ++
        str "\" to terraform.tfvars." }]
  | some found =>
      let value := (found.group 1).getD []
      if value ≠ expectedValue then [{
        filePath := tfvarsPath
        line := lineNumber content found.offset
        element := key ++ str " = \"" ++ value ++ str "\" must be \"" ++ expectedValue ++ str "\""
        remediation := str "Change " ++ key ++ str " to \"" ++ expectedValue ++
          str "\" in terraform.tfvars." }]
      else []

def expectedProjectTag : Str := str "telemetry-platform"
def expectedTerratestRunId : Str := str "offline-validate"

def checkTfvarsOfflineValues (dir : ExampleDir) :
    Except Unreadable (List TagsContractViolation) :=
  let tfvarsPath := dir.path.child terraformTfvars
  match dictGet? dir.entries terraformTfvars with
  | none => .ok [{
      filePath := tfvarsPath
      line := 1
      element := str "terraform.tfvars is absent"
      remediation := str "Create terraform.tfvars with:\n  project_tag      = \"" ++
        expectedProjectTag ++ str "\"\n  terratest_run_id = \"" ++ expectedTerratestRunId ++
        str "\"" }]
  | some none => .error ⟨tfvarsPath⟩
  | some (some content) =>
      .ok (checkTfvarsKey tfvarsPath content projectTag tfvarsProjectTagRe expectedProjectTag ++
        checkTfvarsKey tfvarsPath content terratestRunId tfvarsRunIdRe expectedTerratestRunId)

end Tfvars

section Directory

variable (words : WordClass) (dir : ExampleDir)

/-- The first of some files with a provider block, with its text. -/
def findProviderFile : List (Part × Option Str) → Except Unreadable (Option (Part × Str))
  | [] => .ok none
  | (name, none) :: _ => .error ⟨dir.path.child name⟩
  | (name, some content) :: files =>
      if ((providerRe words).search content).isSome then .ok (some (name, content))
      else findProviderFile files

def absentProvider : TagsContractViolation where
  filePath := dir.path.child ((dir.tfFiles.head?.map Prod.fst).getD versionsTf)
  line := 1
  element := str "provider \"aws\" block is absent in example directory"
  remediation := str ("Add a provider \"aws\" block with default_tags \x7b tags = \x7b " ++
    "Project = var.project_tag, " ++
    "\"terratest-run\" = var.terratest_run_id \x7d \x7d to versions.tf or main.tf.")

/-- Part 1: the wiring of the tags. -/
def checkProvider : Except Unreadable (List TagsContractViolation) := do
  match ← findProviderFile words dir dir.sortedTfFiles with
  | some (name, content) => return checkDefaultTagsWiring words (dir.path.child name) content
  | none => return [absentProvider dir]

/-- Part 2: the declarations of the variables. -/
def checkVariables : Except Unreadable (List TagsContractViolation) :=
  let variablesFile := dir.path.child variablesTf
  match dictGet? dir.entries variablesTf with
  | some (some content) => .ok (checkVariableDeclarations words variablesFile content)
  | some none => .error ⟨variablesFile⟩
  | none => .ok [{
      filePath := variablesFile
      line := 1
      element := str "variables.tf is absent"
      remediation := str ("Create variables.tf declaring variable \"project_tag\" " ++
        "\x7b type = string \x7d and variable \"terratest_run_id\" " ++
        "\x7b type = string \x7d with no defaults.") }]

def checkExampleDir : Except Unreadable (List TagsContractViolation) := do
  return (← checkProvider words dir) ++ (← checkVariables words dir) ++
    (← checkTfvarsOfflineValues dir)

end Directory

section Accepted

variable {words : WordClass} {dir : ExampleDir} {files : List (Part × Option Str)} {name : Part}
  {content : Str}

theorem checkExampleDir_eq_nil : checkExampleDir words dir = .ok [] ↔
    checkProvider words dir = .ok [] ∧ checkVariables words dir = .ok [] ∧
      checkTfvarsOfflineValues dir = .ok [] := by
  rw [checkExampleDir]
  rcases checkProvider words dir with error | first
  · exact iff_of_false nofun fun each => nomatch each.1
  rcases checkVariables words dir with error | second
  · exact iff_of_false nofun fun each => nomatch each.2.1
  rcases checkTfvarsOfflineValues dir with error | third
  · exact iff_of_false nofun fun each => nomatch each.2.2
  change Except.ok (first ++ second ++ third) = Except.ok [] ↔ _
  simp only [Except.ok.injEq, List.append_eq_nil_iff, and_assoc]

theorem split_of_findProviderFile
    (found : findProviderFile words dir files = .ok (some (name, content))) :
    ∃ before after, files = before ++ (name, some content) :: after ∧
      ((providerRe words).search content).isSome = true ∧
        ∀ file ∈ before, ∀ text, file.2 = some text →
          ((providerRe words).search text).isSome = false := by
  induction files with
  | nil => cases found
  | cons file files ih =>
      rcases file with ⟨other, _ | text⟩
      · cases found
      rw [findProviderFile] at found
      split_ifs at found with isProvider
      · cases found
        exact ⟨[], files, rfl, isProvider, nofun⟩
      · rcases ih found with ⟨before, after, rfl, isFound, none⟩
        refine ⟨(other, some text) :: before, after, rfl, isFound, ?_⟩
        rw [List.forall_mem_cons]
        refine ⟨?_, none⟩
        rintro _ ⟨⟩
        exact eq_false_of_ne_true isProvider

/-- The wiring that the lint has found when it reports nothing. -/
theorem wired_of_checkProvider (accepted : checkProvider words dir = .ok []) :
    ∃ name content tagsMatch,
      findProviderFile words dir dir.sortedTfFiles = .ok (some (name, content)) ∧
        defaultTagsRe.search content = some tagsMatch ∧
          ∀ variableName ∈ [projectTag, terratestRunId],
            ((refRe words variableName).search (content.drop tagsMatch.stopOffset)).isSome =
              true := by
  rw [checkProvider] at accepted
  rcases found : findProviderFile words dir dir.sortedTfFiles with error | _ | ⟨name, content⟩
  · rw [found] at accepted
    cases accepted
  · rw [found] at accepted
    cases accepted
  · rw [found] at accepted
    have wired : checkDefaultTagsWiring words (dir.path.child name) content = [] :=
      Except.ok.inj accepted
    rw [checkDefaultTagsWiring] at wired
    cases searched : defaultTagsRe.search content with
    | none =>
        rw [searched] at wired
        cases wired
    | some tagsMatch =>
        rw [searched] at wired
        dsimp only at wired
        rw [List.append_eq_nil_iff] at wired
        refine ⟨name, content, tagsMatch, rfl, searched, ?_⟩
        rw [List.forall_mem_cons, List.forall_mem_singleton]
        constructor
        · by_contra unwired
          rw [projectTagRefRe, if_neg unwired] at wired
          cases wired.1
        · by_contra unwired
          rw [runIdRefRe, if_neg unwired] at wired
          cases wired.2

/-- The declarations that the lint has found when it reports nothing. -/
theorem declared_of_checkVariables (accepted : checkVariables words dir = .ok []) :
    ∃ content, dictGet? dir.entries variablesTf = some (some content) ∧
      (∀ found ∈ variableBlockRe.finditer content,
        ((defaultAssignmentRe words).search ((found.group 2).getD [])).isSome = false) ∧
      ∀ variableName ∈ [projectTag, terratestRunId],
        ∃ found ∈ variableBlockRe.finditer content, found.group 1 = some variableName := by
  rw [checkVariables] at accepted
  rcases isFile : dictGet? dir.entries variablesTf with _ | _ | content
  · rw [isFile] at accepted
    cases accepted
  · rw [isFile] at accepted
    cases accepted
  · rw [isFile] at accepted
    have declared := Except.ok.inj accepted
    rw [checkVariableDeclarations, List.append_eq_nil_iff, List.filterMap_eq_nil_iff,
      List.map_eq_nil_iff, List.filter_eq_nil_iff] at declared
    refine ⟨content, rfl, ?_, ?_⟩
    · intro found foundMem
      have noViolation := declared.1 found foundMem
      rw [defaultViolation] at noViolation
      split_ifs at noViolation with hasDefault
      exact eq_false_of_ne_true hasDefault
    · intro variableName nameMem
      have present := declared.2 variableName nameMem
      rw [decide_eq_true_eq, not_not, List.mem_filterMap] at present
      exact present

end Accepted

end TerratestTags
