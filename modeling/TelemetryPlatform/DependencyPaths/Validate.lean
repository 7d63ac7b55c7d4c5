import TelemetryPlatform.Copyability.Closure
import TelemetryPlatform.Library.DirTree
import TelemetryPlatform.Library.Greedy

/-!
# The validator of the dependency paths

`scripts/tf_validate_dependency_paths.py` looks in the text of each `terragrunt.hcl` for
the paths of its dependencies with one pattern, and checks that each of them leads
somewhere. A path with an interpolation is checked with a glob pattern that has a star for
each interpolation.
-/

namespace DependencyPaths

open Python

section Patterns

def headerPart : List Pattern :=
  [.word (str "dependency"), .oneOrMore (.one isSpace), .word [quote],
    .oneOrMore (.one (· ≠ quote)), .word [quote], .spaces, .word (str "\x7b")]

def inBlock (c : Chr) : Bool := c ≠ .char '\x7d'

def pathPart : List Pattern :=
  [.word (str "config_path"), .spaces, .word (str "=")] ++ Pattern.quotedText 1

def dependencyConfigPathRe : Pattern :=
  .sequence (headerPart ++ .many (.one inBlock) :: pathPart)

def interpolationRe : Pattern :=
  .sequence [.word (str "$\x7b"), .oneOrMore (.one inBlock), .word (str "\x7d")]

end Patterns

section Check

/-- The live tree, where the content of a file is its text if it has one. -/
abbrev LiveTree := DirTree (Option Str)

/-- A place as an absolute path. -/
def pathOf (place : List Part) : PosixPath := ⟨true, place.reverse⟩

/-- Where a path was looked for in vain. -/
inductive LookedFor where
  | globPattern (pattern : Str)
  | resolved (place : List Part)

structure UnresolvableDependencyError where
  hclFile : List Part
  rawConfigPath : Str
  lookedFor : LookedFor

/-- `str(exc)`. -/
def UnresolvableDependencyError.text (error : UnresolvableDependencyError) : Str :=
  let unitDir := pathOf error.hclFile.tail
  let detail :=
    match error.lookedFor with
    | .globPattern pattern =>
        str "  Glob pattern: " ++ (unitDir.join (.ofText pattern)).text ++
          str "\n  No sibling instance directory matches the interpolated path.\n"
    | .resolved place =>
        str "  Resolved to: " ++ (pathOf place).text ++
          str "\n  The resolved path does not exist.\n"
  str "ERROR: Unresolvable dependency path in " ++ (pathOf error.hclFile).text ++
    str "\n  config_path = \"" ++ error.rawConfigPath ++ str "\"\n" ++ detail ++
    str "  Remedy: verify the dependency path is correct relative to " ++ unitDir.text ++ str "."

/-- What `validate_all_dependencies` raises: its own error, that of a file that is not read as text,
or that of an absolute glob pattern. -/
inductive ValidationError where
  | unresolvable (error : UnresolvableDependencyError)
  | unreadable (hclFile : List Part)
  | notImplemented

variable (tree : LiveTree)

def validateDependencyPath (hclFile : List Part) (rawConfigPath : Str) :
    Except ValidationError Unit :=
  let unitDir := hclFile.tail
  if (interpolationRe.search rawConfigPath).isSome then
    let globPattern := interpolationRe.sub (str "*") rawConfigPath
    let pattern := PosixPath.ofText globPattern
    if pattern.absolute then .error .notImplemented
    else if ∃ found ∈ tree.glob pattern.parts unitDir, tree.IsDir found then .ok ()
    else .error (.unresolvable ⟨hclFile, rawConfigPath, .globPattern globPattern⟩)
  else
    let resolved := (PosixPath.ofText rawConfigPath).place unitDir
    if tree.Exists resolved then .ok ()
    else .error (.unresolvable ⟨hclFile, rawConfigPath, .resolved resolved⟩)

/-- `DEPENDENCY_CONFIG_PATH_RE.findall(content)`. -/
def dependencyPaths (content : Str) : List Str :=
  (dependencyConfigPathRe.finditer content).filterMap fun found => found.group 1

def readText (hclFile : List Part) : Except ValidationError Str :=
  match tree.entry? hclFile with
  | some (.file (some content)) => .ok content
  | _ => .error (.unreadable hclFile)

/-- A turn of the loop over the files. -/
def validateFile (hclFile : List Part) : Except ValidationError Unit := do
  let content ← readText tree hclFile
  (dependencyPaths content).forM (validateDependencyPath tree hclFile)

/-- `sorted(terragrunt_root.rglob("terragrunt.hcl"))`. -/
def hclFiles (root : List Part) : List (List Part) :=
  (tree.rglob root Copyability.terragruntHcl).mergeSort fun left right =>
    Copyability.partsLe left.reverse right.reverse

def validateAllDependencies (root : List Part) : Except ValidationError Unit :=
  (hclFiles tree root).forM (validateFile tree)

end Check

section Outcome

variable {tree : LiveTree} {root hclFile : List Part} {rawConfigPath content : Str}

theorem forM_eq_ok {α ε : Type} {check : α → Except ε Unit} {items : List α} :
    items.forM check = .ok () ↔ ∀ item ∈ items, check item = .ok () := by
  induction items with
  | nil => simp [pure, Except.pure]
  | cons item items ih =>
      rw [List.forall_mem_cons, ← ih]
      change (check item).bind (fun _ => items.forM check) = .ok () ↔ _
      cases check item with
      | ok _ => exact (and_iff_right rfl).symm
      | error _ => exact iff_of_false nofun fun both => nomatch both.1

/-- The validator accepts a tree if it accepts each path that the pattern finds in a file. -/
theorem validateAllDependencies_eq_ok : validateAllDependencies tree root = .ok () ↔
    ∀ hclFile ∈ tree.rglob root Copyability.terragruntHcl, ∃ content,
      tree.entry? hclFile = some (.file (some content)) ∧
        ∀ raw ∈ dependencyPaths content, validateDependencyPath tree hclFile raw = .ok () := by
  rw [validateAllDependencies, forM_eq_ok]
  simp only [hclFiles, List.mem_mergeSort]
  apply forall₂_congr
  intro hclFile _
  rw [validateFile, readText]
  constructor
  · intro accepted
    split at accepted
    · next content found => exact ⟨content, found, forM_eq_ok.mp accepted⟩
    · cases accepted
  · rintro ⟨content, found, each⟩
    rw [found]
    exact forM_eq_ok.mpr each

end Outcome

end DependencyPaths
