import TelemetryPlatform.Library.Program
import TelemetryPlatform.Library.WholeRuntime
import TelemetryPlatform.Release.PrTitle

/-!
# Who authorises a release

`scripts/ci_calculate_version.py` derives the bump of a release from the title of a pull
request that it looks up by the merge commit, and refuses a commit whose subject says
another bump, so that nobody forges a bump by editing the message of the merge.

The lookup takes the first of the pull requests that contain the commit, whichever of them
was merged as it. `Speaks` says that this makes no difference for a list of pull requests,
and `authorised_iff` that nothing else does.
-/

namespace Release

open Python Interaction

section Calls

/-- `subprocess.CompletedProcess`. -/
structure CompletedProcess where
  returncode : Int
  stdout : Str
  stderr : Str

inductive CiCall where
  | run (argv : List Str)
  /-- One call of `write_output`. -/
  | append (path text : Str)

/-- What a call returns, or the text of what it raises. -/
@[reducible]
def CiCall.Reply : CiCall → Type
  | .run _ => Except Str CompletedProcess
  | .append _ _ => Except Str Unit

/-- The end of the script before its own: `sys.exit`, or an exception nothing catches. -/
inductive CiStop where
  | exit (status : Nat) (stderr : Str)
  | raised (text : Str)

/-- The exit status of the process. -/
def CiStop.status : CiStop → Nat
  | .exit status _ => status
  | .raised _ => 1

abbrev Ci := Program CiCall CiCall.Reply CiStop

abbrev CiEvent := Event CiCall CiCall.Reply

end Calls

section Script

/-- What reading `monorepo-config.json` comes to. -/
inductive ConfigFile (Float : Type) where
  | missing
  | raises (text : Str)
  | malformed (text : Str)
  | loaded (config : Json Float)

variable {Float : Type} (rt : Runtime) (digits : DecimalTable)

def ghErrorPrefix : Str := str "::error::"

/-- `sys.exit(1)` behind a message. -/
def failure (message : Str) : CiStop := .exit 1 (ghErrorPrefix ++ message)

def envOf (environ : List (Str × Str)) (name : Str) : Str :=
  strip ((dictGet? environ name).getD [])

/-- `_require_env`. -/
def requireEnv (environ : List (Str × Str)) (name : Str) : Except CiStop Str :=
  if envOf environ name = [] then
    .error (failure (str "ERROR: Required environment variable " ++ rt.reprStr name ++
      str (" is not set.\n" ++
        "Ensure the workflow passes all required environment variables to this step.")))
  else .ok (envOf environ name)

/-- `_load_config_tag_prefix`. -/
def loadConfigTagPrefix : ConfigFile Float → Except CiStop Str
  | .missing =>
      .error (failure (str ("ERROR: monorepo-config.json not found in the working directory.\n" ++
        "Ensure the repository has been checked out before running this script.")))
  | .raises text => .error (.raised text)
  | .malformed text =>
      .error (failure (str "ERROR: Failed to parse monorepo-config.json: " ++ text ++
        str "\nEnsure monorepo-config.json is valid JSON."))
  | .loaded config =>
      match config.get (str "config_tag_prefix") with
      | .error _ => .error (.raised (str "AttributeError"))
      | .ok (.str (c :: rest)) => .ok (c :: rest)
      | .ok _ =>
          .error (failure (str ("ERROR: 'config_tag_prefix' missing or empty " ++
            "in monorepo-config.json.\n" ++
            "Add a 'config_tag_prefix' key (e.g. 'monorepo-config').")))

/-- What `main` reads before it asks GitHub. -/
structure Inputs where
  scope : Str
  outputPath : Str
  commitSha : Str
  commitMsg : Str
  repo : Str
  modulePath : Str
  configTagPrefix : Str

def readInputs (environ : List (Str × Str)) (config : ConfigFile Float) :
    Except CiStop Inputs := do
  let scope ← requireEnv rt environ (str "SCOPE")
  let outputPath ← requireEnv rt environ (str "OUTPUT")
  -- this scope has no tag of a module
  if scope = str "terragrunt" then
    throw (.exit 0 [])
  let commitSha ← requireEnv rt environ (str "COMMIT_SHA")
  let commitMsg ← requireEnv rt environ (str "COMMIT_MSG")
  let repo ← requireEnv rt environ (str "REPO")
  let configTagPrefix ← loadConfigTagPrefix config
  return ⟨scope, outputPath, commitSha, commitMsg, repo, envOf environ (str "MODULE_PATH"),
    configTagPrefix⟩

/-- `subprocess.run`. -/
def runProcess (argv : List Str) : Ci CompletedProcess := do
  match ← Program.perform (CiCall.run argv) with
  | .ok process => return process
  | .error text => throw (.raised text)

def pullsCommand (repo commitSha : Str) : List Str :=
  [str "gh", str "api", str "repos/" ++ repo ++ str "/commits/" ++ commitSha ++ str "/pulls",
    str "--jq", str ".[0].title"]

/-- The title in the output of `gh`, if there is one. -/
def readTitle (repo commitSha : Str) (result : CompletedProcess) : Except CiStop (Option Str) :=
  if result.returncode ≠ 0 then
    .error (failure (str "ERROR: gh api call failed for commit " ++ rt.reprStr commitSha ++
      str " in repo " ++ rt.reprStr repo ++ str ".\nstderr: " ++ strip result.stderr ++
      str "\nEnsure GH_TOKEN is set and has 'pull-requests: read' permission."))
  else
    let title := strip result.stdout
    if title = [] ∨ title = str "null" then .ok none else .ok (some title)

/-- `_fetch_pr_title_from_api`. -/
def fetchPrTitleFromApi (repo commitSha : Str) : Ci (Option Str) := do
  Program.ofExcept (readTitle rt repo commitSha (← runProcess (pullsCommand repo commitSha)))

/-- `derive_bump_from_api_result`. -/
def deriveBumpFromApiResult (apiPrTitle : Option Str) : Except CiStop BumpType :=
  match apiPrTitle with
  | none =>
      .error (failure
        (str ("ERROR: No pull request found associated with this commit via the GitHub API.\n" ++
          "D17: the bump type is derived from the API-fetched PR title. " ++
          "A commit with no associated PR cannot have its bump type validated.\n" ++
          "Ensure the commit was merged via a pull request.")))
  | some title =>
      match parsePrTitle title with
      | .error error => .error (failure (error.message rt))
      | .ok parsed => .ok parsed.bump

def BumpType.value : BumpType → Str
  | .major => str "major"
  | .minor => str "minor"
  | .patch => str "patch"

/-- `validate_bump_agreement`. -/
def validateBumpAgreement (apiBump squashBump : BumpType) : Except CiStop Unit :=
  if apiBump ≠ squashBump then
    .error (failure
      (str "ERROR: Bump type mismatch between the API PR title and the squash subject.\n" ++
        str "API PR title bump: " ++ rt.reprStr apiBump.value ++
        str "\nSquash subject bump: " ++ rt.reprStr squashBump.value ++
        str ("\nD17: the bump type is derived from the API-fetched PR title only. " ++
          "A hand-edited squash subject that disagrees with the PR title is rejected.\n" ++
          "Fix: update the squash subject to match the PR title's commit type, " ++
          "or update the PR title before merging.")))
  else .ok ()

/-- The check of `main` on the subject of the message. -/
def validateSquash (apiBump : BumpType) (commitMsg : Str) : Except CiStop Unit :=
  match parsePrTitle ((solidLines commitMsg).headD commitMsg) with
  | .error error => .error (failure (error.message rt))
  | .ok squashParsed => validateBumpAgreement rt apiBump squashParsed.bump

/-- The tags in the output of `git tag -l`. -/
def readTags (result : CompletedProcess) : Except CiStop (List Str) :=
  if result.returncode ≠ 0 then
    .error (failure (str "ERROR: git tag -l failed.\nstderr: " ++ strip result.stderr ++
      str ("\nEnsure the repository has been cloned with full tag history " ++
        "(fetch-depth: 0).")))
  else .ok ((solidLines result.stdout).map strip)

/-- `_fetch_git_tags`. -/
def fetchGitTags : Ci (List Str) := do
  Program.ofExcept (readTags (← runProcess [str "git", str "tag", str "-l"]))

/-- The lines of the outputs. -/
def outputLines (result : VersionResult) : List Str :=
  [(str "next_version", result.nextVersion), (str "bump_type", result.bump.value),
    (str "tag_prefix", result.tagPrefix), (str "full_tag", result.fullTag),
    (str "is_initial", if result.isInitial then str "true" else str "false")].map
      fun output => output.1 ++ str "=" ++ output.2 ++ str "\n"

def appendLine (path text : Str) : Ci Unit := do
  match ← Program.perform (CiCall.append path text) with
  | .ok () => return ()
  | .error text => throw (.raised text)

/-- A `ValueError` of the version, which `main` catches; others it does not. -/
def versionFailure (error : VersionError) : CiStop := failure (error.message rt)

/-- `main`; what it prints in the end is left out. -/
def main (environ : List (Str × Str)) (config : ConfigFile Float) : Ci Unit := do
  let inputs ← Program.ofExcept (readInputs rt environ config)
  let apiPrTitle ← fetchPrTitleFromApi rt inputs.repo inputs.commitSha
  let apiBump ← Program.ofExcept (deriveBumpFromApiResult rt apiPrTitle)
  Program.ofExcept (validateSquash rt apiBump inputs.commitMsg)
  let tagPrefix ← Program.ofExcept
    ((buildTagPrefix inputs.scope inputs.modulePath inputs.configTagPrefix).mapError
      (versionFailure rt))
  let existingTags ← fetchGitTags
  let result ← Program.ofExcept
    ((calculateNextVersion digits existingTags tagPrefix apiBump).mapError (versionFailure rt))
  (outputLines result).forM (appendLine inputs.outputPath)

end Script

section Property

variable {Float : Type} (digits : DecimalTable)

/-- An entry of the list of pull requests that contain a commit. -/
structure Pull where
  title : Str

/-- What `gh` prints for `.[0].title`. -/
def printedTitle : List Pull → Str
  | [] => str "null\n"
  | first :: _ => first.title ++ str "\n"

/-- Wherever `gh` succeeds it prints the title of the first pull request. -/
def Lists (pulls : List Pull) (log : List CiEvent) : Prop :=
  ∀ repo commitSha result, ⟨.run (pullsCommand repo commitSha), .ok result⟩ ∈ log →
    result.returncode = 0 → result.stdout = printedTitle pulls

/-- The texts that a log writes to the outputs. -/
def written (log : List CiEvent) : List Str :=
  log.filterMap fun event => match event.request with
    | .append _ text => some text
    | .run _ => none

/-- The title of the merged pull request and the first line of the message that is not blank say
the same bump. -/
def Agree (merged : Pull) (message : Str) (bump : BumpType) : Prop :=
  bumpOf merged.title = some bump ∧ (solidLines message).head?.bind bumpOf = some bump

/-- The result is the next version of the tags that `git` lists. -/
def Derived (environ : List (Str × Str)) (config : ConfigFile Float) (log : List CiEvent)
    (result : VersionResult) : Prop :=
  ∃ configTagPrefix tagPrefix tags listed,
    loadConfigTagPrefix config = .ok configTagPrefix ∧
    buildTagPrefix (envOf environ (str "SCOPE")) (envOf environ (str "MODULE_PATH"))
      configTagPrefix = .ok tagPrefix ∧
    ⟨.run [str "git", str "tag", str "-l"], .ok listed⟩ ∈ log ∧ readTags listed = .ok tags ∧
    calculateNextVersion digits tags tagPrefix result.bump = .ok result

/-- A release has the outputs of the bump that the merged pull request and the message agree on.
Otherwise the script fails and has written no output, or stopped while it wrote them. -/
inductive Authorised (merged : Pull) (environ : List (Str × Str)) (config : ConfigFile Float)
    (log : List CiEvent) (outcome : Except CiStop Unit) : Prop
  | released (result : VersionResult)
      (agree : Agree merged ((dictGet? environ (str "COMMIT_MSG")).getD []) result.bump)
      (derived : Derived digits environ config log result)
      (outputs : written log = outputLines result) (returned : outcome = .ok ())
  | interrupted (result : VersionResult)
      (agree : Agree merged ((dictGet? environ (str "COMMIT_MSG")).getD []) result.bump)
      (derived : Derived digits environ config log result)
      (outputs : written log <+: outputLines result) (text : Str)
      (stopped : outcome = .error (.raised text))
  | refused (outputs : written log = []) (stop : CiStop) (stopped : outcome = .error stop)
      (nonzero : stop.status ≠ 0)

/-- The title of the first pull request has no bump, or that of the merged one. -/
def Speaks (pulls : List Pull) (merged : Pull) : Prop :=
  ∀ first others, pulls = first :: others →
    ∀ bump, bumpOf first.title = some bump → bumpOf merged.title = some bump

end Property

section Runs

variable {Float : Type} {rt : Runtime} {digits : DecimalTable} {environ : List (Str × Str)}
  {config : ConfigFile Float} {log : List CiEvent} {pulls : List Pull} {merged : Pull}

/-- A process that is run, and what is read from it. -/
theorem runs_runProcess {α : Type} {argv : List Str} {read : CompletedProcess → Except CiStop α}
    {outcome : Except CiStop α}
    (ran : (runProcess argv >>= fun result => Program.ofExcept (read result)).Runs log outcome) :
    (∃ text, log = [⟨.run argv, .error text⟩] ∧ outcome = .error (.raised text)) ∨
      ∃ result, log = [⟨.run argv, .ok result⟩] ∧ outcome = read result := by
  simp only [runProcess, Program.perform_bind, Program.call_bind, Program.runs_call] at ran
  rcases ran with ⟨reply, rest, rfl, ran⟩
  cases reply with
  | error text =>
      rcases ran with ⟨rfl, rfl⟩
      exact Or.inl ⟨text, rfl, rfl⟩
  | ok result =>
      rcases Program.runs_ofExcept.mp ran with ⟨rfl, rfl⟩
      exact Or.inr ⟨result, rfl, rfl⟩

/-- The outputs are appended one after the other, until one of the appends raises. -/
theorem runs_outputs {path : Str} {lines : List Str} {outcome : Except CiStop Unit}
    (ran : (lines.forM (appendLine path)).Runs log outcome) :
    (written log = lines ∧ outcome = .ok ()) ∨
      (written log <+: lines ∧ ∃ text, outcome = .error (.raised text)) := by
  induction lines generalizing log with
  | nil =>
      rcases ran with ⟨rfl, rfl⟩
      exact Or.inl ⟨rfl, rfl⟩
  | cons line lines ih =>
      change (appendLine path line >>= fun _ => lines.forM (appendLine path)).Runs _ _ at ran
      rw [appendLine, bind_assoc, Program.perform_bind, Program.runs_call] at ran
      rcases ran with ⟨reply, rest, rfl, ran⟩
      cases reply with
      | error text =>
          rcases ran with ⟨rfl, rfl⟩
          exact Or.inr ⟨⟨lines, rfl⟩, text, rfl⟩
      | ok done =>
          rcases ih ran with ⟨rest_eq, rfl⟩ | ⟨begins, text, rfl⟩
          · left
            exact ⟨congrArg (line :: ·) rest_eq, rfl⟩
          · right
            exact ⟨List.cons_prefix_cons.mpr ⟨rfl, begins⟩, text, rfl⟩

theorem written_append (before after : List CiEvent) :
    written (before ++ after) = written before ++ written after :=
  List.filterMap_append ..

theorem written_run {argv : List Str} {reply : Except Str CompletedProcess} :
    written [⟨.run argv, reply⟩] = [] := rfl

/-- If the computation stops the script, then with a failure. -/
def FailsOnly {α : Type} (computation : Except CiStop α) : Prop :=
  ∀ stop, computation = .error stop → stop.status ≠ 0

theorem failsOnly_ok {α : Type} (value : α) : FailsOnly (.ok value : Except CiStop α) := nofun

theorem failsOnly_failure {α : Type} (message : Str) :
    FailsOnly (.error (failure message) : Except CiStop α) := by
  rintro _ ⟨⟩
  exact Nat.one_ne_zero

theorem failsOnly_raised {α : Type} (text : Str) :
    FailsOnly (.error (.raised text) : Except CiStop α) := by
  rintro _ ⟨⟩
  exact Nat.one_ne_zero

theorem FailsOnly.bind {α β : Type} {first : Except CiStop α} {next : α → Except CiStop β}
    (fails : FailsOnly first) (rest : ∀ value, first = .ok value → FailsOnly (next value)) :
    FailsOnly (first >>= next) := by
  cases result : first with
  | error stop =>
      rintro _ ⟨⟩
      exact fails stop result
  | ok value => exact rest value result

theorem failsOnly_requireEnv (name : Str) : FailsOnly (requireEnv rt environ name) := by
  unfold requireEnv
  split
  · exact failsOnly_failure _
  · exact failsOnly_ok _

theorem failsOnly_loadConfigTagPrefix : FailsOnly (loadConfigTagPrefix config) := by
  unfold loadConfigTagPrefix
  split
  · exact failsOnly_failure _
  · exact failsOnly_raised _
  · exact failsOnly_failure _
  · split
    · exact failsOnly_raised _
    · exact failsOnly_ok _
    · exact failsOnly_failure _

theorem requireEnv_eq_ok {name value : Str} (found : requireEnv rt environ name = .ok value) :
    value = envOf environ name ∧ value ≠ [] := by
  unfold requireEnv at found
  split at found
  · cases found
  · next nonempty =>
      cases found
      exact ⟨rfl, nonempty⟩

/-- The scope of a tree of units ends the script before it reads anything else; every other end
is a failure. -/
theorem failsOnly_readInputs (notTerragrunt : envOf environ (str "SCOPE") ≠ str "terragrunt") :
    FailsOnly (readInputs rt environ config) := by
  apply (failsOnly_requireEnv _).bind
  intro scope scopeFound
  apply (failsOnly_requireEnv _).bind
  intro outputPath _
  rw [(requireEnv_eq_ok scopeFound).1, if_neg notTerragrunt]
  apply (failsOnly_requireEnv _).bind
  intro commitSha _
  apply (failsOnly_requireEnv _).bind
  intro commitMsg _
  apply (failsOnly_requireEnv _).bind
  intro repo _
  apply failsOnly_loadConfigTagPrefix.bind
  intro configTagPrefix _
  exact failsOnly_ok _

/-- What is read before the lookup is in the environment and in the configuration. -/
theorem readInputs_eq_ok {inputs : Inputs} (found : readInputs rt environ config = .ok inputs) :
    inputs.scope = envOf environ (str "SCOPE") ∧
      inputs.commitMsg = envOf environ (str "COMMIT_MSG") ∧ inputs.commitMsg ≠ [] ∧
      inputs.modulePath = envOf environ (str "MODULE_PATH") ∧
      loadConfigTagPrefix config = .ok inputs.configTagPrefix := by
  unfold readInputs at found
  rcases bind_eq_ok.mp found with ⟨scope, scopeFound, found⟩
  rcases bind_eq_ok.mp found with ⟨outputPath, _, found⟩
  split at found
  · cases found
  · rcases bind_eq_ok.mp found with ⟨commitSha, _, found⟩
    rcases bind_eq_ok.mp found with ⟨commitMsg, messageFound, found⟩
    rcases bind_eq_ok.mp found with ⟨repo, _, found⟩
    rcases bind_eq_ok.mp found with ⟨configTagPrefix, loaded, same⟩
    cases same
    rcases requireEnv_eq_ok messageFound with ⟨message_eq, nonempty⟩
    exact ⟨(requireEnv_eq_ok scopeFound).1, message_eq, nonempty, rfl, loaded⟩

/-- The title that is read and the subject say the bump, and the outputs are derived for it. -/
structure Granted (digits : DecimalTable) (environ : List (Str × Str))
    (config : ConfigFile Float) (log : List CiEvent) (title : Str) (result : VersionResult) :
    Prop where
  looked : ∃ repo commitSha process, ⟨.run (pullsCommand repo commitSha), .ok process⟩ ∈ log ∧
    process.returncode = 0 ∧ strip process.stdout = title
  titled : bumpOf title = some result.bump
  subject : (solidLines ((dictGet? environ (str "COMMIT_MSG")).getD [])).head?.bind bumpOf =
    some result.bump
  derived : Derived digits environ config log result

theorem readTitle_eq_ok {repo commitSha title : Str} {result : CompletedProcess}
    (read : readTitle rt repo commitSha result = .ok (some title)) :
    result.returncode = 0 ∧ strip result.stdout = title := by
  unfold readTitle at read
  split at read
  · cases read
  · next succeeded =>
      dsimp only at read
      split at read
      · cases read
      · cases read
        exact ⟨not_not.mp succeeded, rfl⟩

theorem deriveBump_eq_ok {apiPrTitle : Option Str} {bump : BumpType} :
    deriveBumpFromApiResult rt apiPrTitle = .ok bump ↔
      ∃ title, apiPrTitle = some title ∧ bumpOf title = some bump := by
  unfold deriveBumpFromApiResult
  cases apiPrTitle with
  | none => simp
  | some title =>
      cases parsed : parsePrTitle title with
      | error error => simp [bumpOf, parsed, Except.toOption]
      | ok accepted => simp [bumpOf, parsed, Except.toOption]

theorem validateSquash_eq_ok {apiBump : BumpType} {commitMsg : Str} :
    validateSquash rt apiBump commitMsg = .ok () ↔
      bumpOf ((solidLines commitMsg).headD commitMsg) = some apiBump := by
  rw [validateSquash, bumpOf]
  cases parsePrTitle ((solidLines commitMsg).headD commitMsg) with
  | error error => simp [Except.toOption]
  | ok parsed =>
      simp only [Except.toOption, Option.map_some, Option.some.injEq, validateBumpAgreement]
      split
      · next different => simp [Ne.symm different]
      · next same => simp [not_not.mp same]

theorem failsOnly_readTitle {repo commitSha : Str} {result : CompletedProcess} :
    FailsOnly (readTitle rt repo commitSha result) := by
  unfold readTitle
  split
  · exact failsOnly_failure _
  · dsimp only
    split
    · exact failsOnly_ok _
    · exact failsOnly_ok _

theorem failsOnly_deriveBump {apiPrTitle : Option Str} :
    FailsOnly (deriveBumpFromApiResult rt apiPrTitle) := by
  unfold deriveBumpFromApiResult
  split
  · exact failsOnly_failure _
  · split
    · exact failsOnly_failure _
    · exact failsOnly_ok _

theorem failsOnly_validateSquash {apiBump : BumpType} {commitMsg : Str} :
    FailsOnly (validateSquash rt apiBump commitMsg) := by
  unfold validateSquash
  split
  · exact failsOnly_failure _
  · unfold validateBumpAgreement
    split
    · exact failsOnly_failure _
    · exact failsOnly_ok _

theorem failsOnly_readTags {result : CompletedProcess} : FailsOnly (readTags result) := by
  unfold readTags
  split
  · exact failsOnly_failure _
  · exact failsOnly_ok _

theorem failsOnly_versionFailure {α : Type} {computation : Except VersionError α} :
    FailsOnly (computation.mapError (versionFailure rt)) := by
  cases computation with
  | error error => exact failsOnly_failure _
  | ok value => exact failsOnly_ok _

theorem mapError_eq_ok {α : Type} {computation : Except VersionError α} {value : α}
    (found : computation.mapError (versionFailure rt) = .ok value) :
    computation = .ok value := by
  cases computation with
  | error error => cases found
  | ok same =>
      cases found
      rfl

theorem bump_of_calculate {tags : List Str} {tagPrefix : Str} {bump : BumpType}
    {result : VersionResult}
    (calculated : calculateNextVersion digits tags tagPrefix bump = .ok result) :
    result.bump = bump := by
  rw [calculateNextVersion_eq, tagNext_eq_ok] at calculated
  rw [calculated.2.2]

/-- The script is granted a release or fails before it writes an output. -/
theorem runs_main (notTerragrunt : envOf environ (str "SCOPE") ≠ str "terragrunt")
    {outcome : Except CiStop Unit} (ran : (main rt digits environ config).Runs log outcome) :
    (written log = [] ∧ ∃ stop, outcome = .error stop ∧ stop.status ≠ 0) ∨
      ∃ title result, Granted digits environ config log title result ∧
        (written log = outputLines result ∧ outcome = .ok () ∨
          written log <+: outputLines result ∧ ∃ text, outcome = .error (.raised text)) := by
  unfold main at ran
  rcases Program.runs_ofExcept_bind.mp ran with
    ⟨stop, failed, rfl, rfl⟩ | ⟨inputs, found, afterInputs⟩
  · exact Or.inl ⟨rfl, stop, rfl, failsOnly_readInputs notTerragrunt stop failed⟩
  rcases readInputs_eq_ok found with ⟨scope, message, solid, modulePath, loaded⟩
  rcases Program.runs_bind.mp afterInputs with
    ⟨stop, rfl, stopped⟩ | ⟨apiPrTitle, first, second, rfl, looked, afterTitle⟩
  · rcases runs_runProcess stopped with ⟨text, rfl, same⟩ | ⟨result, rfl, same⟩
    · cases same
      exact Or.inl ⟨written_run, _, rfl, Nat.one_ne_zero⟩
    · exact Or.inl ⟨written_run, stop, rfl, failsOnly_readTitle stop same.symm⟩
  rcases runs_runProcess looked with ⟨text, _, impossible⟩ | ⟨process, rfl, read⟩
  · cases impossible
  rcases Program.runs_ofExcept_bind.mp afterTitle with
    ⟨stop, failed, rfl, rfl⟩ | ⟨apiBump, derived, afterBump⟩
  · exact Or.inl ⟨written_run, stop, rfl, failsOnly_deriveBump stop failed⟩
  rcases deriveBump_eq_ok.mp derived with ⟨title, rfl, titled⟩
  rcases Program.runs_ofExcept_bind.mp afterBump with
    ⟨stop, failed, rfl, rfl⟩ | ⟨_, agreed, afterSquash⟩
  · exact Or.inl ⟨written_run, stop, rfl, failsOnly_validateSquash stop failed⟩
  rcases Program.runs_ofExcept_bind.mp afterSquash with
    ⟨stop, failed, rfl, rfl⟩ | ⟨tagPrefix, built, afterPrefix⟩
  · exact Or.inl ⟨written_run, stop, rfl, failsOnly_versionFailure stop failed⟩
  rcases Program.runs_bind.mp afterPrefix with
    ⟨stop, rfl, stopped⟩ | ⟨tags, third, rest, rfl, listing, afterTags⟩
  · rcases runs_runProcess stopped with ⟨text, rfl, same⟩ | ⟨result, rfl, same⟩
    · cases same
      exact Or.inl ⟨rfl, _, rfl, Nat.one_ne_zero⟩
    · exact Or.inl ⟨rfl, stop, rfl, failsOnly_readTags stop same.symm⟩
  rcases runs_runProcess listing with ⟨text, _, impossible⟩ | ⟨listed, rfl, tags_eq⟩
  · cases impossible
  rcases Program.runs_ofExcept_bind.mp afterTags with
    ⟨stop, failed, rfl, rfl⟩ | ⟨result, calculated, writing⟩
  · exact Or.inl ⟨rfl, stop, rfl, failsOnly_versionFailure stop failed⟩
  right
  have calculated := mapError_eq_ok calculated
  have bump_eq := bump_of_calculate calculated
  refine ⟨title, result, ⟨?_, ?_, ?_, ?_⟩, ?_⟩
  · exact ⟨inputs.repo, inputs.commitSha, process, List.mem_append_left _ List.mem_cons_self,
      readTitle_eq_ok read.symm⟩
  · rw [titled, bump_eq]
  · have bump := validateSquash_eq_ok.mp agreed
    rw [message, envOf, bumpOf_headD (by rw [← envOf, ← message]; exact solid)] at bump
    rw [bump, bump_eq]
  · refine ⟨inputs.configTagPrefix, tagPrefix, tags, listed, loaded, ?_, by simp, tags_eq.symm, ?_⟩
    · rw [← scope, ← modulePath]
      exact mapError_eq_ok built
    · rw [bump_eq]
      exact calculated
  · rw [written_append, written_run, List.nil_append, written_append, written_run, List.nil_append]
    exact runs_outputs writing

end Runs

section Authorised

variable {Float : Type} {rt : Runtime} {digits : DecimalTable} {pulls : List Pull} {merged : Pull}

theorem bumpOf_strip (text : Str) : bumpOf (strip text) = bumpOf text :=
  bumpOf_congr (strip_strip text)

theorem bumpOf_newline (text : Str) : bumpOf (text ++ str "\n") = bumpOf text := by
  apply bumpOf_congr
  exact strip_append (by decide) text

/-- The title that is read from the first pull request has its bump. -/
theorem Granted.exists_first {environ : List (Str × Str)} {config : ConfigFile Float}
    {log : List CiEvent} {title : Str} {result : VersionResult}
    (granted : Granted digits environ config log title result) (lists : Lists pulls log) :
    ∃ first others, pulls = first :: others ∧ bumpOf first.title = some result.bump := by
  rcases granted.looked with ⟨repo, commitSha, process, event, succeeded, stripped⟩
  have printed := lists repo commitSha process event succeeded
  have titled := granted.titled
  rw [← stripped, bumpOf_strip, printed] at titled
  cases pulls with
  | nil =>
      have none : bumpOf (str "null\n") = none := by decide +kernel
      rw [printedTitle, none] at titled
      cases titled
  | cons first others =>
      rw [printedTitle, bumpOf_newline] at titled
      exact ⟨first, others, rfl, titled⟩

/-- A run in which the merged pull request speaks for the release is authorised. -/
theorem Speaks.authorised (speaks : Speaks pulls merged) {environ : List (Str × Str)}
    {config : ConfigFile Float} {log : List CiEvent} {outcome : Except CiStop Unit}
    (notTerragrunt : envOf environ (str "SCOPE") ≠ str "terragrunt") (lists : Lists pulls log)
    (ran : (main rt digits environ config).Runs log outcome) :
    Authorised digits merged environ config log outcome := by
  rcases runs_main notTerragrunt ran with
    ⟨outputs, stop, stopped, nonzero⟩ | ⟨title, result, granted, ended⟩
  · exact .refused outputs stop stopped nonzero
  rcases granted.exists_first lists with ⟨first, others, pulls_eq, titled⟩
  have agree : Agree merged ((dictGet? environ (str "COMMIT_MSG")).getD []) result.bump :=
    ⟨speaks first others pulls_eq _ titled, granted.subject⟩
  rcases ended with ⟨outputs, returned⟩ | ⟨outputs, text, stopped⟩
  · exact .released result agree granted.derived outputs returned
  · exact .interrupted result agree granted.derived outputs text stopped

end Authorised

section Forgery

variable {Float : Type} {rt : Runtime} {digits : DecimalTable} {pulls : List Pull} {merged : Pull}

/-- A message whose subject says the bump. -/
def messageOf : BumpType → Str
  | .major => str "feat!: x"
  | .minor => str "feat: x"
  | .patch => str "fix: x"

/-- The environment of a release of the configuration. -/
def environOf (bump : BumpType) : List (Str × Str) :=
  [(str "SCOPE", str "config"), (str "OUTPUT", str "out"), (str "COMMIT_SHA", str "c0ffee"),
    (str "COMMIT_MSG", messageOf bump), (str "REPO", str "o/r")]

def configOf : ConfigFile Float :=
  .loaded (.obj [(str "config_tag_prefix", .str (str "monorepo-config"))])

/-- The result of a release without earlier tags. -/
def initialResult (bump : BumpType) : VersionResult :=
  let version := (applyBump ⟨0, 0, 0⟩ bump).text
  ⟨version, str "monorepo-config/v" ++ version, str "monorepo-config/v", bump, true⟩

def inputsOf (bump : BumpType) : Inputs where
  scope := str "config"
  outputPath := str "out"
  commitSha := str "c0ffee"
  commitMsg := messageOf bump
  repo := str "o/r"
  modulePath := []
  configTagPrefix := str "monorepo-config"

theorem readInputs_environOf (bump : BumpType) :
    readInputs rt (environOf bump) (configOf : ConfigFile Float) = .ok (inputsOf bump) := by
  cases bump <;> rfl

theorem calculate_initial (bump : BumpType) :
    calculateNextVersion digits [] (str "monorepo-config/v") bump = .ok (initialResult bump) := by
  cases bump <;> rfl

theorem head_messageOf (bump : BumpType) :
    (solidLines (messageOf bump)).head?.bind bumpOf = some bump := by
  cases bump <;> decide +kernel

theorem subject_messageOf (bump : BumpType) :
    bumpOf ((solidLines (messageOf bump)).headD (messageOf bump)) = some bump := by
  have first := head_messageOf bump
  cases lines : solidLines (messageOf bump) with
  | nil =>
      rw [lines] at first
      cases first
  | cons line others =>
      rw [lines] at first
      exact first

theorem readTitle_of_bump {repo commitSha stdout stderr : Str} {bump : BumpType}
    (titled : bumpOf stdout = some bump) :
    readTitle rt repo commitSha ⟨0, stdout, stderr⟩ = .ok (some (strip stdout)) := by
  have shown : ¬(strip stdout = [] ∨ strip stdout = str "null") := by
    rw [← bumpOf_strip] at titled
    rintro (same | same)
    · rw [same] at titled
      cases titled
    · have none : bumpOf (str "null") = none := by decide +kernel
      rw [same, none] at titled
      cases titled
  rw [readTitle, if_neg (by simp)]
  exact if_neg shown

theorem runs_process_ok {α : Type} {argv : List Str}
    {read : CompletedProcess → Except CiStop α} {result : CompletedProcess} {value : α}
    (found : read result = .ok value) :
    (runProcess argv >>= fun result => Program.ofExcept (read result)).Runs
      [⟨.run argv, .ok result⟩] (.ok value) := by
  refine ⟨.ok result, [], rfl, ?_⟩
  exact Program.runs_ofExcept.mpr ⟨rfl, found.symm⟩

/-- The replies to a run that appends every line. -/
def appendLog (path : Str) (lines : List Str) : List CiEvent :=
  lines.map fun line => ⟨.append path line, .ok ()⟩

theorem runs_appendLog {path : Str} {lines : List Str} :
    (lines.forM (appendLine path)).Runs (appendLog path lines) (.ok ()) := by
  induction lines with
  | nil => exact ⟨rfl, rfl⟩
  | cons line lines ih => exact ⟨.ok (), _, rfl, ih⟩

/-- Whatever pull request comes first: if its title has a bump, there is a message with which
the script releases. -/
theorem exists_release (rt : Runtime) (digits : DecimalTable) (Float : Type) {first : Pull}
    (others : List Pull) {bump : BumpType}
    (titled : bumpOf first.title = some bump) :
    ∃ log, (main rt digits (environOf bump) (configOf : ConfigFile Float)).Runs log (.ok ()) ∧
      Lists (first :: others) log := by
  let pullsEvent : CiEvent := ⟨.run (pullsCommand (str "o/r") (str "c0ffee")),
    .ok ⟨0, printedTitle (first :: others), []⟩⟩
  let tagsEvent : CiEvent := ⟨.run [str "git", str "tag", str "-l"], .ok ⟨0, [], []⟩⟩
  refine ⟨[pullsEvent] ++ ([tagsEvent] ++ appendLog (str "out") (outputLines (initialResult bump))),
    ?_, ?_⟩
  · unfold main
    apply Program.runs_ofExcept_bind.mpr
    refine Or.inr ⟨inputsOf bump, readInputs_environOf bump, ?_⟩
    apply Program.runs_bind_ok.mpr
    have printed : bumpOf (first.title ++ str "\n") = some bump := by rw [bumpOf_newline, titled]
    refine ⟨some (strip (first.title ++ str "\n")), _, _, rfl,
      runs_process_ok (readTitle_of_bump printed), ?_⟩
    apply Program.runs_ofExcept_bind.mpr
    refine Or.inr ⟨bump, deriveBump_eq_ok.mpr ⟨_, rfl, by rw [bumpOf_strip, printed]⟩, ?_⟩
    apply Program.runs_ofExcept_bind.mpr
    refine Or.inr ⟨(), validateSquash_eq_ok.mpr (subject_messageOf bump), ?_⟩
    apply Program.runs_ofExcept_bind.mpr
    refine Or.inr ⟨str "monorepo-config/v", rfl, ?_⟩
    apply Program.runs_bind_ok.mpr
    refine ⟨[], _, _, rfl, runs_process_ok rfl, ?_⟩
    apply Program.runs_ofExcept_bind.mpr
    exact Or.inr ⟨initialResult bump, by rw [calculate_initial]; rfl, runs_appendLog⟩
  · intro repo commitSha result event _
    rcases List.mem_cons.mp event with same | later
    · have replies : Except.ok result = Except.ok _ := eq_of_heq (Event.mk.inj same).2
      rw [Except.ok.inj replies]
    · rcases List.mem_cons.mp later with same | appended
      · -- this is another command
        exact absurd (Event.mk.inj same).1 (by simp [pullsCommand, str])
      · rcases List.mem_map.mp appended with ⟨line, _, same⟩
        cases same

/--
Whatever the message, the scope, the tags and the replies: a release has the outputs of the bump
that the title of the merged pull request and the subject of the message agree on, and otherwise
the script fails without an output, exactly when the first pull request has no title with a bump
or the merged one has the same bump.
-/
theorem authorised_iff (rt : Runtime) (digits : DecimalTable) (Float : Type) (pulls : List Pull)
    (merged : Pull) :
    (∀ (environ : List (Str × Str)) (config : ConfigFile Float) (log : List CiEvent)
      (outcome : Except CiStop Unit),
      envOf environ (str "SCOPE") ≠ str "terragrunt" → Lists pulls log →
      (main rt digits environ config).Runs log outcome →
      Authorised digits merged environ config log outcome) ↔ Speaks pulls merged := by
  constructor
  · rintro authorised first others rfl bump titled
    rcases exists_release rt digits Float others titled with ⟨log, ran, lists⟩
    have notTerragrunt : envOf (environOf bump) (str "SCOPE") ≠ str "terragrunt" := by
      cases bump <;> decide
    cases authorised _ _ _ _ notTerragrunt lists ran with
    | released result agree derived outputs returned =>
        have said : bump = result.bump := by
          have subject := agree.2
          change (solidLines (messageOf bump)).head?.bind bumpOf = _ at subject
          rw [head_messageOf, Option.some.injEq] at subject
          exact subject
        rw [said]
        exact agree.1
    | interrupted _ _ _ _ _ stopped => cases stopped
    | refused _ _ stopped => cases stopped
  · intro speaks environ config log outcome notTerragrunt lists ran
    exact speaks.authorised notTerragrunt lists ran

/-- A pull request in front of the merged one, with another bump, authorises a release. -/
theorem not_authorised_second : ∃ log outcome,
    (main Runtime.whole DecimalTable.latin (environOf .major) (configOf : ConfigFile Int)).Runs log
      outcome ∧
    Lists [⟨str "feat!: other"⟩, ⟨str "fix: merged"⟩] log ∧
    ¬Authorised DecimalTable.latin ⟨str "fix: merged"⟩ (environOf .major)
      (configOf : ConfigFile Int) log outcome := by
  have titled : bumpOf (Pull.mk (str "feat!: other")).title = some .major := by decide +kernel
  rcases exists_release Runtime.whole DecimalTable.latin Int [⟨str "fix: merged"⟩] titled with
    ⟨log, ran, lists⟩
  refine ⟨log, _, ran, lists, fun authorised => ?_⟩
  have patch : bumpOf (str "fix: merged") = some .patch := by decide +kernel
  cases authorised with
  | released result agree derived outputs returned =>
      have merged := agree.1
      have subject := agree.2
      rw [patch, Option.some.injEq] at merged
      change (solidLines (messageOf .major)).head?.bind bumpOf = _ at subject
      rw [head_messageOf, ← merged] at subject
      cases subject
  | interrupted _ _ _ _ _ stopped => cases stopped
  | refused _ _ stopped => cases stopped

end Forgery

end Release
