import TelemetryPlatform.Library.Hcl
import TelemetryPlatform.PinnedSources.Toggle

/-!
# The guard of the module sources

`run_source_guard` looks in every leaf for `source` attributes with two patterns, one
for a string and one for a choice between two strings, and checks the string that
the toggle of the leaf selects. What neither pattern reads is not looked at.
-/

namespace PinnedSources

open Python

section Patterns

variable (digits : DigitClass)

def sourceRe : Pattern := .sequence (Pattern.assignment (str "source") ++ Pattern.quotedText 1)

/-- The characters of a condition, as `TERNARY_SOURCE_RE` has it. -/
def inCondition (c : Chr) : Bool := c ≠ quote ∧ c ≠ .char '?'

def conditionPart : List Pattern := [.spaces, .oneOrMore (.one inCondition), .word (str "?")]

def ternarySourceRe : Pattern :=
  .sequence (Pattern.assignment (str "source") ++ (conditionPart ++ (Pattern.quotedText 1 ++
    ([.spaces, .word (str ":")] ++ (Pattern.quotedText 2 ++ [.spaces, .lineEnd])))))

def numberPart : Pattern := .oneOrMore (.one digits.holds)

/-- `\?ref=(?:[^/]*/)*v\d+\.\d+\.\d+`. -/
def validRefRe : Pattern :=
  .sequence [.word (str "?ref="), .many (.seq (.many (.one (· ≠ .char '/')))
    (.one (· = .char '/'))), .word (str "v"), numberPart digits, .word (str "."), numberPart digits,
    .word (str "."),
    numberPart digits]

/-- `\?ref=([^&\s]+)`. -/
def refValueRe : Pattern :=
  .sequence [.word (str "?ref="), .group 1 (.oneOrMore (.one fun c => c ≠ .char '&' && !isSpace c))]

def localRepoRoot : Str := str "${get_repo_root()}"

end Patterns

section Check

variable (digits : DigitClass)

inductive UnpinnedKind where
  | localSource
  | noRef
  | notSemver (refValue : Str)
  deriving DecidableEq

structure UnpinnedSourceError where
  filePath : PurePath
  source : Str
  kind : UnpinnedKind
  deriving DecidableEq

/-- `str(exc)`. -/
def UnpinnedSourceError.text (error : UnpinnedSourceError) : Str :=
  match error.kind with
  | .localSource =>
      str "ERROR: Unpinned local source in " ++ error.filePath.text ++
        str ("\n  Source contains '${get_repo_root()}' which is a local reference.\n" ++
          "  This leaf's account.hcl declares use_pinned_module_sources=true\n" ++
          "  (prod context), so all sources must be pinned git refs.\n  Source: ") ++
          error.source ++
        str "\n  Remedy: replace the local path with a pinned ?ref=.../v<semver> git source."
  | .noRef =>
      str "ERROR: Source has no ?ref= parameter in " ++ error.filePath.text ++
        str ("\n  All merged leaf sources must be pinned to a semver git ref " ++
          "(docs/release-pipeline.md).\n  Source: ") ++ error.source ++
        str "\n  Remedy: add ?ref=v<major>.<minor>.<patch> to the source URL."
  | .notSemver refValue =>
      str "ERROR: Source ref '" ++ refValue ++ str "' is not a semver tag in " ++
      error.filePath.text ++
        str ("\n  The ref must match ?ref=.../v<major>.<minor>.<patch> (docs/release-pipeline.md).\n" ++
          "  Floating branch refs (main, develop), plain SHAs, and non-versioned refs\n" ++
          "  are rejected.\n  Source: ") ++ error.source ++
        str "\n  Remedy: pin to an immutable semver tag, e.g. ?ref=v1.2.3."

/-- What `check_source_string` objects to in a source. -/
def objection (source : Str) (pinnedRequired : Bool) : Option UnpinnedKind :=
  if Contains localRepoRoot source then
    if pinnedRequired then some .localSource else none
  else if ¬Contains (str "?ref=") source then some .noRef
  else if ((validRefRe digits).search source).isNone then
    some (.notSemver (((refValueRe.search source).bind (·.group 1)).getD (str "<unknown>")))
  else none

def checkSourceString (source : Str) (filePath : PurePath) (pinnedRequired : Bool) :
    Except UnpinnedSourceError Unit :=
  match objection digits source pinnedRequired with
  | some kind => .error { filePath, source, kind }
  | none => .ok ()

end Check

section Guard

variable (digits : DigitClass) (fs : FileSystem) (rt : Runtime)

inductive LeafSource where
  | literal (value : Str)
  | ternary (trueBranch falseBranch : Str)
  deriving DecidableEq

/-- The source that the toggle selects. -/
def LeafSource.effective (pinnedRequired : Bool) : LeafSource → Str
  | .literal value => value
  | .ternary trueBranch falseBranch => if pinnedRequired then trueBranch else falseBranch

def ternaryOf (found : Match) : LeafSource :=
  .ternary ((found.group 1).getD []) ((found.group 2).getD [])

def literalOf (found : Match) : LeafSource := .literal ((found.group 1).getD [])

/-- The sources in the text of a leaf. -/
def leafSources (content : Str) : List LeafSource :=
  (ternarySourceRe.finditer content).map ternaryOf ++ (sourceRe.finditer content).map literalOf

/-- Whether the guard looks into a file. -/
def IsUnit (path : PurePath) : Prop := str "_envcommon" ∉ path.names ∧ str "bootstrap" ∉ path.names

instance (path : PurePath) : Decidable (IsUnit path) := inferInstanceAs (Decidable (_ ∧ _))

/-- The sources in the files that `rglob` lists. -/
def collectLeafSources (listed : List PurePath) :
    Except ToggleError (List (PurePath × LeafSource)) := do
  let found ← (listed.filter IsUnit).mapM fun path => do
    return (leafSources (← readText fs path)).map fun source => (path, source)
  return found.flatten

/-- The loop over the sources, with so many directories for every toggle. -/
def checkSources (fuel : Nat) (liveRoot : PurePath) :
    List (PurePath × LeafSource) → Option (Except ToggleError (List UnpinnedSourceError))
  | [] => some (.ok [])
  | (path, source) :: rest =>
      match resolveToggleFromAccountHcl fs rt fuel path liveRoot with
      | none => none
      | some (.error error) => some (.error error)
      | some (.ok pinnedRequired) =>
          match checkSourceString digits (source.effective pinnedRequired) path pinnedRequired with
          | .ok () => checkSources fuel liveRoot rest
          | .error error => (checkSources fuel liveRoot rest).map (·.map (error :: ·))

def runSourceGuard (fuel : Nat) (liveRoot : PurePath) (listed : List PurePath) :
    Option (Except ToggleError (List UnpinnedSourceError)) :=
  match collectLeafSources fs listed with
  | .error error => some (.error error)
  | .ok collected => checkSources digits fs rt fuel liveRoot collected

end Guard

end PinnedSources
