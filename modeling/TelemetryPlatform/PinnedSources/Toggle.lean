import TelemetryPlatform.Library.FileTree
import TelemetryPlatform.Library.Json
import TelemetryPlatform.Library.Regex
import TelemetryPlatform.Library.WholeRuntime

/-!
# The toggle of a leaf

`scripts/tf_guard_pinned_sources.py` asks the nearest `account.hcl` above a leaf
whether module sources have to be pinned. The walk goes from a directory to its
parent until it finds the file or leaves the live tree. The parent of `.` is `.` and
that of `/` is `/`, and so it goes on forever where neither happens on the way.
`Stops` is the condition under which it does not.
-/

namespace PinnedSources

open Python

section Files

/-- A `pathlib.Path`. -/
structure PurePath where
  absolute : Bool
  names : Path
  deriving DecidableEq

namespace PurePath

/-- `path.parent`. -/
def parent (path : PurePath) : PurePath := { path with names := path.names.dropLast }

/-- `path / name`. -/
def child (path : PurePath) (name : Str) : PurePath := { path with names := path.names ++ [name] }

/-- `str(path)`. -/
def text (path : PurePath) : Str :=
  if path.absolute then str "/" ++ (str "/").intercalate path.names
  else if path.names = [] then str "."
  else (str "/").intercalate path.names

/-- A directory and the directories its parents are, the nearest first. -/
def directories (path : PurePath) : List PurePath :=
  (selfAndAncestors path.names).map fun names => { path with names }

end PurePath

/-- What `read_text` finds: a text, or a directory or bytes that are no text in UTF-8. -/
inductive Content where
  | text (content : Str)
  | unreadable

/-- The files as the process sees them. Symbolic links are for `realpath` to follow. -/
structure FileSystem where
  cwd : Path
  realpath : Path → Path
  contents : Path → Option Content

namespace FileSystem

variable (fs : FileSystem)

def absolute (path : PurePath) : Path := if path.absolute then path.names else fs.cwd ++ path.names

/-- `path.resolve()`. -/
def resolve (path : PurePath) : Path := fs.realpath (fs.absolute path)

/-- The content of a path that exists. -/
def find? (path : PurePath) : Option Content := fs.contents (fs.absolute path)

end FileSystem

inductive ToggleError where
  | missingToggle (text : Str)
  | unreadable
  | raised (exc : Exc)
  deriving DecidableEq

end Files

section Toggle

variable (fs : FileSystem) (rt : Runtime)

def toggleKey : Str := str "use_pinned_module_sources"

/-- A letter under `re.IGNORECASE`. Two letters of ASCII have a third form, and `i` a fourth. -/
def ignoringCase (letter : Char) : Pattern :=
  .one fun c => lowerChr c = .char letter ||
    (letter = 'i' && (c = .char 'İ' || c = .char 'ı')) || (letter = 's' && c = .char 'ſ')

def wordIgnoringCase (word : String) : Pattern := .sequence (word.toList.map ignoringCase)

/-- `use_pinned_module_sources\s*=\s*(true|false)`, ignoring case. -/
def toggleRe : Pattern := .sequence [wordIgnoringCase "use_pinned_module_sources", .spaces,
  .word (str "="), .spaces, .group 1 (.either (wordIgnoringCase "true") (wordIgnoringCase "false"))]

def accountHcl : Str := str "account.hcl"

def noEnvironmentText (accountFile : PurePath) : Str :=
  str "ERROR: no environment.hcl found in any parent of " ++ accountFile.text ++
    str " to resolve the env-class for the env_accounts.json toggle lookup."

/-- The name of the nearest directory that holds an `environment.hcl`. -/
def resolveEnvClass (accountFile : PurePath) : Except ToggleError Str :=
  match accountFile.parent.directories.find?
      fun dir => (fs.find? (dir.child (str "environment.hcl"))).isSome with
  | some dir => .ok (basename dir.names)
  | none => .error (.missingToggle (noEnvironmentText accountFile))

def envAccountsOf (dir : PurePath) : PurePath :=
  ((dir.child (str "terragrunt")).child (str "common")).child (str "env_accounts.json")

def noEnvAccountsText (start : PurePath) : Str :=
  str "ERROR: could not locate terragrunt/common/env_accounts.json above " ++ start.text ++ str "."

def findEnvAccountsJson (start : PurePath) : Except ToggleError PurePath :=
  match start.parent.directories.find? fun dir => (fs.find? (envAccountsOf dir)).isSome with
  | some dir => .ok (envAccountsOf dir)
  | none => .error (.missingToggle (noEnvAccountsText start))

def unknownEnvClassText (envClass : Str) (accountFile envAccounts : PurePath) : Str :=
  str "ERROR: env-class '" ++ envClass ++ str "' (from " ++ accountFile.text ++
    str ") is not present in " ++ envAccounts.text ++ str
      " under 'envs'.\n  Remedy: add an 'envs." ++
    envClass ++ str "' row with use_pinned_module_sources before deploying this env."

def noEntryToggleText (envClass : Str) (envAccounts : PurePath) : Str :=
  str "ERROR: 'use_pinned_module_sources' missing for env-class '" ++ envClass ++ str "' in " ++
    envAccounts.text ++ str ".\n  Remedy: set envs." ++ envClass ++
    str ".use_pinned_module_sources to true (prod) or false (dev/sandbox)."

def raising {α : Type} (result : Except Exc α) : Except ToggleError α := result.mapError .raised

def readText (path : PurePath) : Except ToggleError Str :=
  match fs.find? path with
  | some (.text content) => .ok content
  | _ => .error .unreadable

def resolveToggleFromEnvAccounts (accountFile : PurePath) : Except ToggleError Bool := do
  let envClass ← resolveEnvClass fs accountFile
  let envAccounts ← findEnvAccountsJson fs accountFile
  let data ← raising (rt.loads (← readText fs envAccounts))
  let envs ← raising (data.getD (str "envs") (.obj []))
  if !(← raising (envs.contains envClass)) then
    throw (.missingToggle (unknownEnvClassText envClass accountFile envAccounts))
  else
    let entry ← raising (envs.subscript envClass)
    if !(← raising (entry.contains toggleKey)) then
      throw (.missingToggle (noEntryToggleText envClass envAccounts))
    else
      return rt.truth (← raising (entry.subscript toggleKey))

def noToggleText (accountFile : PurePath) : Str :=
  str "ERROR: 'use_pinned_module_sources' key not found in " ++ accountFile.text ++
    str ("\n  Every account.hcl must declare this key with no default (spec Section 4.3),\n" ++
      "  either as a literal (use_pinned_module_sources = true|false) or by resolving it\n" ++
      "  from common/env_accounts.json (env-keyed layout).\n" ++
      "  A missing key is treated as a configuration error and aborts the guard.\n" ++
      "  Remedy: add 'use_pinned_module_sources = true' (prod) or\n" ++
      "  'use_pinned_module_sources = false' (dev/sandbox) to ") ++ accountFile.text ++
    str ", or wire it to\n  env_accounts.json."

/-- Whether an `account.hcl` without a literal toggle takes it from `env_accounts.json`. -/
def EnvKeyed (content : Str) : Prop :=
  Contains toggleKey content ∧ Contains (str "env_accounts") content

instance (content : Str) : Decidable (EnvKeyed content) := inferInstanceAs (Decidable (_ ∧ _))

def extractToggleFromFile (accountFile : PurePath) : Except ToggleError Bool := do
  let content ← readText fs accountFile
  match toggleRe.search content with
  | some found => return (found.group 1).map lower = some (str "true")
  | none =>
      if EnvKeyed content then resolveToggleFromEnvAccounts fs rt accountFile
      else throw (.missingToggle (noToggleText accountFile))

def noAccountText (leaf liveRoot : PurePath) : Str :=
  str "ERROR: No account.hcl found in any parent directory of " ++ leaf.text ++
    str "\n  Searched from " ++ leaf.parent.text ++ str " up to " ++ liveRoot.text ++
    str (".\n  Every leaf unit must have a governing account.hcl that declares\n" ++
      "  'use_pinned_module_sources' (spec Section 4.3).\n" ++
      "  Remedy: add account.hcl with 'use_pinned_module_sources = true|false'\n" ++
      "  to the account-level directory under the live tree.")

/-- `candidate.resolve().relative_to(live_root.resolve())` does not raise. -/
def Within (liveRoot candidate : PurePath) : Prop := fs.resolve liveRoot <+: fs.resolve candidate

instance (liveRoot candidate : PurePath) : Decidable (Within fs liveRoot candidate) :=
  inferInstanceAs (Decidable (_ <+: _))

/-- The loop from a directory on, for at most so many directories. -/
def searchAccount (leaf liveRoot : PurePath) : Nat → PurePath → Option (Except ToggleError Bool)
  | 0, _ => none
  | fuel + 1, candidate =>
      if ¬Within fs liveRoot candidate then
        some (.error (.missingToggle (noAccountText leaf liveRoot)))
      else if (fs.find? (candidate.child accountHcl)).isSome then
        some (extractToggleFromFile fs rt (candidate.child accountHcl))
      else searchAccount leaf liveRoot fuel candidate.parent

/-- What the walk comes to within so many directories, if it ends. -/
def resolveToggleFromAccountHcl (fuel : Nat) (leaf liveRoot : PurePath) :
    Option (Except ToggleError Bool) :=
  searchAccount fs rt leaf liveRoot fuel leaf.parent

end Toggle

section Termination

variable (fs : FileSystem) (rt : Runtime)

/-- Whether the walk ends at a directory. -/
def Halts (liveRoot dir : PurePath) : Prop :=
  ¬Within fs liveRoot dir ∨ (fs.find? (dir.child accountHcl)).isSome

instance (liveRoot dir : PurePath) : Decidable (Halts fs liveRoot dir) :=
  inferInstanceAs (Decidable (_ ∨ _))

/-- Some directory on the way from a leaf to where the parents stay the same is outside the live
tree or holds an `account.hcl`. -/
def Stops (liveRoot leaf : PurePath) : Prop :=
  ∃ dir ∈ leaf.parent.directories, Halts fs liveRoot dir

instance (liveRoot leaf : PurePath) : Decidable (Stops fs liveRoot leaf) :=
  inferInstanceAs (Decidable (∃ dir ∈ _, _))

/-- The `account.hcl` of the nearest directory that holds one, with all directories up to it inside
the live tree. -/
def Governs (liveRoot leaf file : PurePath) : Prop :=
  ∃ dir, leaf.parent.directories.find? (Halts fs liveRoot) = some dir ∧ Within fs liveRoot dir ∧
    file = dir.child accountHcl

/-- The walk ends, with the toggle of the governing `account.hcl` or with `MissingToggleError`. -/
def Resolves (liveRoot leaf : PurePath) : Prop :=
  ∃ fuel outcome, resolveToggleFromAccountHcl fs rt fuel leaf liveRoot = some outcome ∧
    ((∃ file toggle, Governs fs liveRoot leaf file ∧
        extractToggleFromFile fs rt file = .ok toggle ∧ outcome = .ok toggle) ∨
      ∃ text, outcome = .error (.missingToggle text))

/-- A document can be asked for a key and, if it has it, for the value. -/
def Answers (document : rt.Value) (key : Str) : Prop :=
  document.entries?.isSome ∨ document.contains key = .ok false

/-- `env_accounts.json` has the shape the script relies on, as far as it looks into it. -/
def WellShaped (text envClass : Str) : Prop :=
  ∃ entries, rt.loads text = .ok (.obj entries) ∧
    ∀ envs, dictGet? entries (str "envs") = some envs → Answers rt envs envClass ∧
      ∀ rows, envs = .obj rows → ∀ entry, dictGet? rows envClass = some entry →
        Answers rt entry toggleKey

/-- An `account.hcl` states the toggle, or lacks it, or refers to an `env_accounts.json` that does
or that is missing. -/
def Legible (file : PurePath) : Prop :=
  ∃ content, fs.find? file = some (.text content) ∧
    ((toggleRe.search content).isSome ∨ ¬EnvKeyed content ∨
      ∀ envClass, resolveEnvClass fs file = .ok envClass →
        ∀ path, findEnvAccountsJson fs file = .ok path →
          ∃ text, fs.find? path = some (.text text) ∧ WellShaped rt text envClass)

variable {fs rt} {leaf liveRoot : PurePath}

/-- What the walk comes to at a directory that halts it. -/
def outcomeAt (fs : FileSystem) (rt : Runtime) (leaf liveRoot dir : PurePath) :
    Except ToggleError Bool :=
  if Within fs liveRoot dir then extractToggleFromFile fs rt (dir.child accountHcl)
  else .error (.missingToggle (noAccountText leaf liveRoot))

theorem directories_concat {absolute : Bool} {names : Path} {name : Str} :
    (PurePath.mk absolute (names ++ [name])).directories =
      ⟨absolute, names ++ [name]⟩ :: (PurePath.mk absolute names).directories := by
  simp [PurePath.directories]

theorem searchAccount_of_not_halts {dir : PurePath} (goesOn : ¬Halts fs liveRoot dir) (fuel : Nat) :
    searchAccount fs rt leaf liveRoot (fuel + 1) dir =
      searchAccount fs rt leaf liveRoot fuel dir.parent := by
  simp only [Halts, not_or, not_not] at goesOn
  rw [searchAccount, if_neg (not_not.mpr goesOn.1), if_neg goesOn.2]

theorem searchAccount_of_halts {dir : PurePath} (halts : Halts fs liveRoot dir) (fuel : Nat) :
    searchAccount fs rt leaf liveRoot (fuel + 1) dir =
      some (outcomeAt fs rt leaf liveRoot dir) := by
  rw [searchAccount, outcomeAt]
  by_cases within : Within fs liveRoot dir
  · rw [if_neg (not_not.mpr within), if_pos within, if_pos]
    exact halts.resolve_left (not_not.mpr within)
  · rw [if_pos within, if_neg within]

/-- The walk ends at the first directory that halts it. -/
theorem searchAccount_eq {dir stop : PurePath}
    (first : dir.directories.find? (Halts fs liveRoot) = some stop) :
    ∃ steps ≤ dir.names.length, ∀ fuel, searchAccount fs rt leaf liveRoot fuel dir =
      if steps < fuel then some (outcomeAt fs rt leaf liveRoot stop) else none := by
  rcases dir with ⟨absolute, names⟩
  induction names using List.reverseRecOn with
  | nil =>
      change List.find? _ [_] = _ at first
      rw [List.find?_singleton, Option.ite_none_right_eq_some] at first
      rcases first with ⟨halts, same⟩
      cases same
      refine ⟨0, le_rfl, fun fuel => ?_⟩
      cases fuel with
      | zero => rfl
      | succ fuel => exact searchAccount_of_halts (of_decide_eq_true halts) fuel
  | append_singleton names name ih =>
      rw [directories_concat, List.find?_cons] at first
      by_cases halts : Halts fs liveRoot ⟨absolute, names ++ [name]⟩
      · rw [decide_eq_true halts] at first
        cases first
        refine ⟨0, Nat.zero_le _, fun fuel => ?_⟩
        cases fuel with
        | zero => rfl
        | succ fuel => exact searchAccount_of_halts halts fuel
      · rw [decide_eq_false halts] at first
        rcases ih first with ⟨steps, few, ends⟩
        refine ⟨steps + 1, ?_, fun fuel => ?_⟩
        · rw [List.length_append]
          exact Nat.succ_le_succ few
        · cases fuel with
          | zero => rfl
          | succ fuel =>
              rw [searchAccount_of_not_halts halts, PurePath.parent,
                List.dropLast_concat, ends fuel]
              simp only [Nat.add_lt_add_iff_right]

/-- The walk goes on where no directory halts it, at the top by staying there. -/
theorem searchAccount_eq_none {dir : PurePath}
    (never : ∀ above ∈ dir.directories, ¬Halts fs liveRoot above) (fuel : Nat) :
    searchAccount fs rt leaf liveRoot fuel dir = none := by
  induction fuel generalizing dir with
  | zero => rfl
  | succ fuel ih =>
      rcases dir with ⟨absolute, names⟩
      induction names using List.reverseRecOn with
      | nil =>
          rw [searchAccount_of_not_halts (never _ (by simp [PurePath.directories,
            selfAndAncestors]))]
          exact ih never
      | append_singleton names name _ =>
          rw [directories_concat, List.forall_mem_cons] at never
          rw [searchAccount_of_not_halts never.1, PurePath.parent, List.dropLast_concat]
          exact ih never.2

end Termination

section Reading

variable {fs : FileSystem} {rt : Runtime}

/-- A value, or `MissingToggleError`. -/
def EndsWell {α : Type} (result : Except ToggleError α) : Prop :=
  (∃ value, result = .ok value) ∨ ∃ text, result = .error (.missingToggle text)

section EndsWell

variable {α β : Type}

@[simp]
theorem endsWell_ok {value : α} : EndsWell (.ok value : Except ToggleError α) := .inl ⟨value, rfl⟩

@[simp]
theorem endsWell_missing {text : Str} :
    EndsWell (.error (.missingToggle text) : Except ToggleError α) := .inr ⟨text, rfl⟩

@[simp]
theorem not_endsWell_unreadable : ¬EndsWell (.error .unreadable : Except ToggleError α) := by
  rintro (⟨value, same⟩ | ⟨text, same⟩)
  · cases same
  · cases same

@[simp]
theorem not_endsWell_raised {exc : Exc} : ¬EndsWell
    (.error (.raised exc) : Except ToggleError α) := by
  rintro (⟨value, same⟩ | ⟨text, same⟩)
  · cases same
  · cases same

theorem endsWell_raising {first : Except Exc α} {next : α → Except ToggleError β} :
    EndsWell (raising first >>= next) ↔ ∃ value, first = .ok value ∧ EndsWell (next value) := by
  cases first with
  | error exc =>
      change EndsWell (.error (.raised exc)) ↔ _
      simp
  | ok value =>
      change EndsWell (next value) ↔ _
      simp

end EndsWell

/-- The steps in which a document is asked for a key and its value is taken. -/
theorem endsWell_lookup {β : Type} {document : rt.Value} {key text : Str}
    {next : rt.Value → Except ToggleError β} :
    EndsWell (do
      if !(← raising (document.contains key)) then throw (.missingToggle text)
      else
        let value ← raising (document.subscript key)
        next value) ↔
      Answers rt document key ∧ ∀ entries, document = .obj entries →
        ∀ value, dictGet? entries key = some value → EndsWell (next value) := by
  rw [endsWell_raising]
  by_cases isObject : ∃ entries, document = .obj entries
  · rcases isObject with ⟨entries, rfl⟩
    simp only [Answers, Json.contains, Json.entries?, Json.subscript, Option.isSome_some, true_or,
      true_and, Except.ok.injEq, exists_eq_left', Json.obj.injEq, forall_eq']
    cases dictGet? entries key with
    | none => exact iff_of_true endsWell_missing (by simp)
    | some value =>
        simp only [Option.isSome_some, Bool.not_true, Bool.false_eq_true, if_false,
          endsWell_raising, Except.ok.injEq, exists_eq_left', Option.some.injEq, forall_eq']
  · have noEntries : document.entries? = none := by
      cases document with
      | obj entries => exact absurd ⟨entries, rfl⟩ isObject
      | _ => rfl
    have noSubscript : document.subscript key = .error .typeError := by
      cases document with
      | obj entries => exact absurd ⟨entries, rfl⟩ isObject
      | _ => rfl
    rw [Answers, noEntries]
    constructor
    · rintro ⟨present, contains, ends⟩
      cases present with
      | true =>
          rw [Bool.not_true, if_neg Bool.false_ne_true, noSubscript] at ends
          exact absurd ends not_endsWell_raised
      | false => exact ⟨.inr contains, fun entries same => absurd ⟨entries, same⟩ isObject⟩
    · rintro ⟨answers, -⟩
      exact ⟨false, answers.resolve_left (by simp), endsWell_missing⟩

theorem resolveEnvClass_of_error {file : PurePath} {error : ToggleError}
    (failed : resolveEnvClass fs file = .error error) : ∃ text, error = .missingToggle text := by
  rw [resolveEnvClass] at failed
  split at failed
  · cases failed
  · cases failed
    exact ⟨_, rfl⟩

theorem findEnvAccountsJson_of_error {file : PurePath} {error : ToggleError}
    (failed : findEnvAccountsJson fs file = .error error) :
    ∃ text, error = .missingToggle text := by
  rw [findEnvAccountsJson] at failed
  split at failed
  · cases failed
  · cases failed
    exact ⟨_, rfl⟩

/-- The part of the document below the key `envs`. -/
theorem endsWell_envs {data : rt.Value} {envClass unknown noToggle : Str} :
    EndsWell (do
      let envs ← raising (data.getD (str "envs") (.obj []))
      if !(← raising (envs.contains envClass)) then throw (.missingToggle unknown)
      else
        let entry ← raising (envs.subscript envClass)
        if !(← raising (entry.contains toggleKey)) then throw (.missingToggle noToggle)
        else return rt.truth (← raising (entry.subscript toggleKey))) ↔
      ∃ entries, data = .obj entries ∧ ∀ envs, dictGet? entries (str "envs") = some envs →
        Answers rt envs envClass ∧ ∀ rows, envs = .obj rows →
          ∀ entry, dictGet? rows envClass = some entry → Answers rt entry toggleKey := by
  have plain (value : rt.Value) : EndsWell (pure (rt.truth value)) := endsWell_ok
  rw [endsWell_raising]
  simp only [endsWell_lookup, plain, implies_true, and_true]
  constructor
  · rintro ⟨envs, taken, answers, below⟩
    cases data with
    | obj entries =>
        refine ⟨entries, rfl, fun found present => ?_⟩
        rw [Json.getD, present, Option.getD_some, Except.ok.injEq] at taken
        rw [taken]
        exact ⟨answers, below⟩
    | _ => cases taken
  · rintro ⟨entries, rfl, shaped⟩
    rw [Json.getD]
    cases found : dictGet? entries (str "envs") with
    | none => exact ⟨.obj [], rfl, .inl rfl, by rintro rows ⟨⟩ entry ⟨⟩⟩
    | some envs => exact ⟨envs, rfl, shaped envs found⟩

theorem endsWell_resolveToggleFromEnvAccounts {file : PurePath} :
    EndsWell (resolveToggleFromEnvAccounts fs rt file) ↔
      ∀ envClass, resolveEnvClass fs file = .ok envClass →
        ∀ path, findEnvAccountsJson fs file = .ok path →
          ∃ text, fs.find? path = some (.text text) ∧ WellShaped rt text envClass := by
  rw [resolveToggleFromEnvAccounts]
  cases resolved : resolveEnvClass fs file with
  | error error =>
      rcases resolveEnvClass_of_error resolved with ⟨text, rfl⟩
      exact iff_of_true endsWell_missing (by simp)
  | ok envClass =>
    cases located : findEnvAccountsJson fs file with
    | error error =>
        rcases findEnvAccountsJson_of_error located with ⟨text, rfl⟩
        exact iff_of_true endsWell_missing (by simp)
    | ok path =>
      simp only [ok_bind, Except.ok.injEq, forall_eq']
      rw [readText]
      split
      · next content found =>
        rw [ok_bind, endsWell_raising]
        simp only [found, Option.some.injEq, Content.text.injEq, exists_eq_left']
        simp only [endsWell_envs, WellShaped]
        constructor
        · rintro ⟨data, loaded, entries, rfl, shaped⟩
          exact ⟨entries, loaded, shaped⟩
        · rintro ⟨entries, loaded, shaped⟩
          exact ⟨_, loaded, entries, rfl, shaped⟩
      · next notText =>
        refine iff_of_false not_endsWell_unreadable ?_
        rintro ⟨text, found, -⟩
        exact notText text found

theorem endsWell_extractToggleFromFile {file : PurePath} :
    EndsWell (extractToggleFromFile fs rt file) ↔ Legible fs rt file := by
  rw [extractToggleFromFile, readText, Legible]
  split
  · next content found =>
    simp only [found, ok_bind, Option.some.injEq, Content.text.injEq, exists_eq_left']
    cases matched : toggleRe.search content with
    | some found => exact iff_of_true endsWell_ok (.inl rfl)
    | none =>
        simp only [Option.isSome_none, Bool.false_eq_true, false_or]
        by_cases keyed : EnvKeyed content
        · rw [if_pos keyed, or_iff_right (not_not.mpr keyed)]
          exact endsWell_resolveToggleFromEnvAccounts
        · rw [if_neg keyed]
          exact iff_of_true endsWell_missing (.inl keyed)
  · next notText =>
    refine iff_of_false not_endsWell_unreadable ?_
    rintro ⟨content, found, -⟩
    exact notText content found

end Reading

section Resolution

variable {fs : FileSystem} {rt : Runtime} {liveRoot leaf : PurePath}

theorem exists_first_of_stops (stops : Stops fs liveRoot leaf) :
    ∃ dir, leaf.parent.directories.find? (Halts fs liveRoot) = some dir := by
  rcases stops with ⟨dir, dirMem, halts⟩
  apply Option.isSome_iff_exists.mp
  rw [List.find?_isSome]
  exact ⟨dir, dirMem, decide_eq_true halts⟩

/-- When the resolution of the toggle ends well. -/
theorem resolves_iff : Resolves fs rt liveRoot leaf ↔
    Stops fs liveRoot leaf ∧ ∀ file, Governs fs liveRoot leaf file → Legible fs rt file := by
  constructor
  · rintro ⟨fuel, outcome, ends, right⟩
    have stops : Stops fs liveRoot leaf := by
      by_contra goesOn
      simp only [Stops, not_exists, not_and] at goesOn
      rw [resolveToggleFromAccountHcl, searchAccount_eq_none goesOn] at ends
      cases ends
    refine ⟨stops, ?_⟩
    rintro file ⟨dir, first, within, rfl⟩
    rcases searchAccount_eq first with ⟨steps, -, walk⟩
    rw [resolveToggleFromAccountHcl, walk, Option.ite_none_right_eq_some, outcomeAt,
      if_pos within] at ends
    apply endsWell_extractToggleFromFile.mp
    rw [Option.some.inj ends.2]
    rcases right with ⟨-, toggle, -, -, rfl⟩ | ⟨text, rfl⟩
    · exact endsWell_ok
    · exact endsWell_missing
  · rintro ⟨stops, legible⟩
    rcases exists_first_of_stops stops with ⟨dir, first⟩
    rcases searchAccount_eq first with ⟨steps, -, walk⟩
    refine ⟨steps + 1, outcomeAt fs rt leaf liveRoot dir, ?_, ?_⟩
    · rw [resolveToggleFromAccountHcl, walk, if_pos (Nat.lt_succ_self steps)]
    · by_cases within : Within fs liveRoot dir
      · have governs : Governs fs liveRoot leaf (dir.child accountHcl) :=
          ⟨dir, first, within, rfl⟩
        rw [outcomeAt, if_pos within]
        rcases endsWell_extractToggleFromFile.mpr (legible _ governs) with
          ⟨toggle, same⟩ | ⟨text, same⟩
        · exact .inl ⟨_, toggle, governs, same, same⟩
        · exact .inr ⟨text, same⟩
      · rw [outcomeAt, if_neg within]
        exact .inr ⟨_, rfl⟩

end Resolution

section CurrentDirectory

/-- A tree that the process looks at from its root, with one leaf and no `account.hcl`. -/
def bareTree : FileSystem where
  cwd := [str "live"]
  realpath path := path
  contents path := if path = [str "live", str "unit", str "terragrunt.hcl"] then some
    (.text []) else none

def currentDirectory : PurePath := ⟨false, []⟩

def bareLeaf : PurePath := ⟨false, [str "unit", str "terragrunt.hcl"]⟩

/-- Seen from its root, a tree without an `account.hcl` is walked forever. -/
theorem not_resolves_currentDirectory :
    Within bareTree currentDirectory bareLeaf ∧
      ¬Resolves bareTree .whole currentDirectory bareLeaf := by
  refine ⟨by decide, ?_⟩
  rintro ⟨fuel, outcome, ends, -⟩
  have never : ∀ above ∈ bareLeaf.parent.directories, ¬Halts bareTree currentDirectory above := by
    decide
  rw [resolveToggleFromAccountHcl, searchAccount_eq_none never] at ends
  cases ends

end CurrentDirectory

end PinnedSources
