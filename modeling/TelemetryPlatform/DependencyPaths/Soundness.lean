import TelemetryPlatform.DependencyPaths.Blocks

/-!
# What the validator accepts

In a tree that the validator accepts, the path of every dependency matches a directory
if and only if this holds of those that are not checked as they are meant, and no path
that is checked without a glob pattern leads to a file.
-/

namespace DependencyPaths

open Python Hcl

section Condition

variable (idents : WordClass) (tree : LiveTree) (root : List Part)

/-- The dependency stands in a file below the root. -/
structure Stands (hclFile : List Part) (document : Document idents) (dependency : Dependency) :
    Prop where
  listed : hclFile ∈ tree.rglob root Copyability.terragruntHcl
  content : tree.entry? hclFile = some (.file (some document.text))
  declared : Declares document dependency

/-- The path of every dependency matches a directory. -/
def AllMatch : Prop :=
  ∀ hclFile document dependency, Stands idents tree root hclFile document dependency →
    Matches tree hclFile.tail dependency.path

/-- The pattern finds the path of the block, and the check reads it as it is meant. -/
def Checked {idents : WordClass} (document : Document idents) (dependency : Dependency) : Prop :=
  Visible dependency (dependency.behind document.tail) ∧ Plain dependency.path

/-- A path without interpolations leads to a file. -/
def LeadsToFile (unitDir : List Part) (path : List Letter) : Prop :=
  path.any isInterpolation = false ∧
    ∃ content, tree.entry? ((PosixPath.ofText (lettersText path)).place unitDir) =
      some (.file content)

/-- The paths that are not checked match, and those that are checked lead to no file. -/
structure Covered : Prop where
  unchecked : ∀ hclFile document dependency,
    Stands idents tree root hclFile document dependency → ¬Checked document dependency →
      Matches tree hclFile.tail dependency.path
  noFile : ∀ hclFile document dependency,
    Stands idents tree root hclFile document dependency → Checked document dependency →
      ¬LeadsToFile tree hclFile.tail dependency.path

end Condition

section Soundness

variable {idents : WordClass} {tree : LiveTree} {root hclFile : List Part}
  {document : Document idents} {dependency : Dependency}

theorem fits_of_declares (declared : Declares document dependency) :
    ∃ rest, LettersFit idents dependency.path (quote :: rest) := by
  have split : ∃ front back, document.body.tokens ++ document.tail =
      front ++ .string dependency.path :: back := by
    refine ⟨dependency.earlier.tokens ++ (dependency.indent ++ (headTokens (str "dependency")
      [dependency.label] dependency.gap ++ (dependency.before.tokens ++ (dependency.nameIndent ++
        (codeOf (str "config_path") ++ (dependency.nameGap ++ .code (.char '=') ::
          dependency.valueGap)))))),
      dependency.trail ++ (dependency.others.tokens ++ (dependency.close ++
        .code (.char '\x7d') :: (dependency.later.tokens ++ document.tail))), ?_⟩
    simp [declared.1, Dependency.body, Body.tokens, attributeTokens]
  rcases split with ⟨front, back, split⟩
  have lexed := document.lexed
  rw [split] at lexed
  exact ⟨tokensText back, fits_of_lexed lexed⟩

/-- A path that is checked as it is meant matches, unless it leads to a file. -/
theorem matches_of_checked (accepted : validateAllDependencies tree root = .ok ())
    (stands : Stands idents tree root hclFile document dependency)
    (checked : Checked document dependency)
    (noFile : ¬LeadsToFile tree hclFile.tail dependency.path) :
    Matches tree hclFile.tail dependency.path := by
  rcases validateAllDependencies_eq_ok.mp accepted hclFile stands.listed with
    ⟨content, isContent, each⟩
  have same : content = document.text := by
    rw [stands.content] at isContent
    cases isContent
    rfl
  rw [same] at each
  rcases fits_of_declares stands.declared with ⟨rest, fits⟩
  apply matches_of_accepted fits checked.2
    (each _ (mem_dependencyPaths stands.declared checked.1))
  intro own found
  rcases Option.isSome_iff_exists.mp found with ⟨entry, isEntry⟩
  cases entry with
  | dir => simp [DirTree.IsDir, isEntry, Entry.isDir]
  | file content => exact absurd ⟨own, content, isEntry⟩ noFile

/-- In a tree that is accepted, exactly what is not checked has to match by itself. -/
theorem accepted_paths_match_iff (accepted : validateAllDependencies tree root = .ok ()) :
    AllMatch idents tree root ↔ Covered idents tree root := by
  constructor
  · intro allMatch
    refine ⟨fun hclFile document dependency stands _ => allMatch _ _ _ stands, ?_⟩
    rintro hclFile document dependency stands checked ⟨own, content, isFile⟩
    have isDir := (matches_own checked.2 own).mp (allMatch hclFile document dependency stands)
    rw [DirTree.IsDir, isFile] at isDir
    cases isDir
  · rintro ⟨unchecked, noFile⟩ hclFile document dependency stands
    by_cases checked : Checked document dependency
    · exact matches_of_checked accepted stands checked
        (noFile hclFile document dependency stands checked)
    · exact unchecked hclFile document dependency stands checked

end Soundness

section Samples

theorem isPart_live : IsPart (str "live") := by decide
theorem isPart_app : IsPart (str "app") := by decide

def live : Part := ⟨str "live", isPart_live⟩
def app : Part := ⟨str "app", isPart_app⟩
def vpc : Part := ⟨str "vpc", by decide⟩

def appHcl : List Part := [Copyability.terragruntHcl, app, live]

def visibleText : Str := str "dependency \"vpc\" \x7b\n  config_path = \"../vpc\"\n\x7d\n"

def visibleTree : LiveTree where
  entries := [([], .dir), ([live], .dir), ([app, live], .dir), ([vpc, live], .dir),
    (appHcl, .file (some visibleText))]
  once := by decide
  rooted := by simp
  parents := by simp [appHcl]
  proper := by decide

/-- An accepted tree, in which the pattern finds the path. -/
theorem accepted_paths_match_visible :
    validateAllDependencies visibleTree [live] = .ok () ∧
      (AllMatch .latin visibleTree [live] ↔ Covered .latin visibleTree [live]) := by
  have accepted : validateAllDependencies visibleTree [live] = .ok () := by
    rw [validateAllDependencies_eq_ok]
    have listed : visibleTree.rglob [live] Copyability.terragruntHcl = [appHcl] := by
      decide +kernel
    have found : dependencyPaths visibleText = [str "../vpc"] := by decide +kernel
    rw [listed, List.forall_mem_singleton]
    refine ⟨visibleText, by decide +kernel, ?_⟩
    rw [found, List.forall_mem_singleton]
    unfold validateDependencyPath
    rw [if_neg (by decide +kernel), if_pos (by decide +kernel)]
  exact ⟨accepted, accepted_paths_match_iff accepted⟩

/-- A block where a map stands in front of the path. -/
def hiddenDependency : Dependency where
  earlier := .nil
  indent := []
  label := .quoted [.code (.char ' ')] ((str "vpc").map .chr)
  gap := [.code (.char ' ')]
  before := .attr (codeOf (str "\n  ")) (str "mock_outputs") [.code (.char ' ')]
    (codeOf (str " \x7b\x7d")) .nil
  nameIndent := codeOf (str "\n  ")
  nameGap := [.code (.char ' ')]
  valueGap := [.code (.char ' ')]
  path := (str "../vpc").map .chr
  trail := []
  others := .nil
  close := codeOf (str "\n")
  later := .nil

def hiddenDocument : Document .latin where
  body := hiddenDependency.body
  tail := codeOf (str "\n")
  wellFormed := by decide +kernel
  tailWhite := by decide
  lexed := by decide +kernel

def hiddenTree : LiveTree where
  entries := [([], .dir), ([live], .dir), ([app, live], .dir),
    (appHcl, .file (some hiddenDocument.text))]
  once := by decide
  rooted := by simp
  parents := by simp [appHcl]
  proper := by decide

/-- The path of a dependency leads nowhere and is not looked at, as a brace is closed before. -/
theorem accepted_hidden :
    validateAllDependencies hiddenTree [live] = .ok () ∧ ¬AllMatch .latin hiddenTree [live] := by
  have listed : hiddenTree.rglob [live] Copyability.terragruntHcl = [appHcl] := by
    decide +kernel
  have content : hiddenTree.entry? appHcl = some (.file (some hiddenDocument.text)) := by
    decide +kernel
  constructor
  · rw [validateAllDependencies_eq_ok, listed, List.forall_mem_singleton]
    have found : dependencyPaths hiddenDocument.text = [] := by decide +kernel
    refine ⟨hiddenDocument.text, content, ?_⟩
    rw [found]
    simp
  · intro allMatch
    have declared : Declares hiddenDocument hiddenDependency :=
      ⟨rfl, by decide, by decide⟩
    have matches_ := allMatch appHcl hiddenDocument hiddenDependency
      ⟨by rw [listed]; exact List.mem_singleton_self _, content, declared⟩
    have literal : ∀ body, .interpolation body ∉ hiddenDependency.path := by
      simp [hiddenDependency]
    have plain : Plain hiddenDependency.path := {
      noEscape := by simp [hiddenDependency]
      closes := fun body inside => absurd inside (literal body)
      noMagic := fun some => absurd some (by decide)
      apart := fun first second inside =>
        literal first (not_of_mem_splitOnP inside List.mem_cons_self).2 }
    rw [matches_own plain (by decide)] at matches_
    exact absurd matches_ (by decide +kernel)

end Samples

end DependencyPaths
