import Mathlib.Data.List.Dedup
import Mathlib.Data.List.Lex
import Mathlib.Data.List.Sort
import TelemetryPlatform.Library.Dict
import TelemetryPlatform.Library.Text
import TelemetryPlatform.Terratest.Suite

/-!
# The terratest of one module

`main` of `scripts/run_terratest.py` in its single-module mode. Before the tests come the
checks of the module directory, of `test.config` and of the account; after them, whatever
they end in, the destroy of working directories that are left with resources, the cleaning of
the caches and the sweep of what has the tag of the run.

What other programs do to the files below `examples/` is not known. The calls that run
them answer with the files there are then: the regular files, by their paths from
`examples/`. Empty directories are left out. The removal of a directory ignores errors, and
answers with the files that it leaves behind.
-/

namespace Terratest

open Python Interaction

section Calls

/-- What `read_text` of a file comes to. -/
inductive Reading where
  | osError (text : Str)
  | undecodable (text : Str)
  | text (content : Str)
deriving DecidableEq

abbrev Dir := List Str

/-- The files below `examples/`. -/
abbrev Examples := List (Dir × Reading)

abbrev Environ := List (Str × Str)

inductive SweepMode where
  | check
  | delete
deriving DecidableEq

inductive ModuleCall where
  | getCallerIdentity
  | newRunId
  | writeRunId (path text : Str)
  | makeDir (path : Str)
  | killStaleProviders (cacheDir : Str)
  | listExamples
  | terraform (args : List Str) (dir : Dir) (env : Environ)
  | goTest (timeout : Str) (env : Environ)
  | rmtree (dir : Dir)
  | unlink (path : Dir)
  | sweep (mode : SweepMode) (runId : Str)
  | eprint (line : Str)

/-- What a call answers; `.error` is the text of what it raises. -/
@[reducible]
def ModuleCall.Reply : ModuleCall → Type
  | .getCallerIdentity => Except Str Str
  | .newRunId => Str × Str
  | .writeRunId _ _ => Except Str Unit
  | .makeDir _ => Except Str Unit
  | .killStaleProviders _ => Unit
  | .listExamples => List Dir
  | .terraform _ _ _ => Except Str Int × Examples
  | .goTest _ _ => Except Str Int × Examples
  | .rmtree _ => List Dir
  | .unlink _ => Except Str Unit
  | .sweep _ _ => Ending
  | .eprint _ => Unit

/-- `sys.exit` after a text on the standard error, or another exception. -/
inductive ModuleError where
  | exit (code : Int) (stderr : Str)
  | python (exc : Exc)
  | raised (text : Str)

abbrev ModuleEvent := Event ModuleCall ModuleCall.Reply

abbrev Module := Program ModuleCall ModuleCall.Reply ModuleError

/-- What a module's run looks like to the suite. -/
def ModuleError.raisedAs : ModuleError → Raised
  | .exit code _ => .systemExit (.int code)
  | .python _ => .other []
  | .raised text => .other text

/-- What a shell observes of a module's run. -/
def moduleStatus (outcome : Except ModuleError Unit) : Nat :=
  shellStatus (outcome.mapError ModuleError.raisedAs)

def eprint (line : Str) : Module Unit := Program.perform (ModuleCall.eprint line)

end Calls

section Checks

/-- What a run finds: the directory of the module, the file of the accounts and the process. -/
structure Setup where
  modulePath : Str
  accountsJson : Str
  /-- The absolute path of `examples/`. -/
  examplesPath : Str
  home : Str
  environ : Environ
  moduleExists : Bool
  testsExists : Bool
  goMod : Option Reading
  testConfig : Option Reading
  accounts : Option Reading

/-- `path.read_text()`. -/
def Reading.content : Reading → Except ModuleError Str
  | .osError reason => .error (.raised reason)
  | .undecodable reason => .error (.raised reason)
  | .text content => .ok content

def requiredGoModule : Str := str "github.com/caylent-solutions/terraform-terratest-framework"

variable (rt : Runtime) (setup : Setup)

def invalidText (rest : Str) : Str :=
  str "ERROR: MODULE_PATH " ++ rt.reprStr setup.modulePath ++
    str " does not exist or has no tests/ + go.mod" ++ rest

/-- `_validate_module_path`. -/
def validateModulePath : Except ModuleError Unit :=
  if !setup.moduleExists then .error (.exit 1 (invalidText rt setup []))
  else if !setup.testsExists then
    .error (.exit 1 (invalidText rt setup (str ". Missing: tests/ directory.")))
  else
    match setup.goMod with
    | none => .error (.exit 1 (invalidText rt setup (str ". Missing: go.mod file.")))
    | some goMod => do
        let content ← goMod.content
        if Contains requiredGoModule content then return ()
        else .error (.exit 1 (invalidText rt setup
          (str ". go.mod does not require " ++ requiredGoModule ++ str ".")))

def idempotencyVar : Str := str "TERRATEST_IDEMPOTENCY"
def goTestTimeoutVar : Str := str "GO_TEST_TIMEOUT"
def runIdVar : Str := str "TERRATEST_RUN_ID"
def pluginCacheDirVar : Str := str "TF_PLUGIN_CACHE_DIR"

/-- The setting of a line of `test.config`. -/
def configLine (line : Str) : Option (Str × Str) :=
  let stripped := strip line
  if stripped = [] ∨ str "#" <+: stripped then none
  else
    match splitOnce (str "=") stripped with
    | none => none
    | some (key, value) => if strip key = [] then none else some (strip key, strip value)

/-- `str(pathlib.Path(module_path) / name)`. -/
def moduleFile (name : Str) : Str :=
  ((PosixPath.ofText setup.modulePath).join (PosixPath.ofText name)).text

/-- `_parse_test_config`. -/
def parseTestConfig : Except ModuleError (List (Str × Str)) :=
  match setup.testConfig with
  | none => .error (.exit 1 (str "ERROR: test.config not found at " ++
      moduleFile setup (str "test.config") ++ str ". Every module must declare a test.config."))
  | some reading => do
      let content ← reading.content
      let config := dictWrites [] ((splitlines content).filterMap configLine)
      -- the environment wins
      return dictWrites config ([idempotencyVar, goTestTimeoutVar].filterMap fun key =>
        (dictGet? setup.environ key).map fun value => (key, value))

def deniedRoles : List Str := [str "prod-infra", str "dns-owner"]

/-- The role that `accounts.json` has for an account, as far as it matters. -/
def accountRole (accounts : rt.Value) (account : Str) : Except Exc rt.Value := do
  let row ← accounts.getD account (.obj [])
  row.getD (str "account_role") (.str [])

/-- `role in _DENIED_ROLES`, which wants something hashable. -/
def isDenied : rt.Value → Except Exc Bool
  | .str role => .ok (decide (role ∈ deniedRoles))
  | .arr _ => .error .typeError
  | .obj _ => .error .typeError
  | _ => .ok false

def liftExc {α : Type} (result : Except Exc α) : Module α :=
  Program.ofExcept (result.mapError .python)

/-- The accounts that `_check_deny_set` reads. -/
def readAccounts : Except ModuleError rt.Value :=
  match setup.accounts with
  | none =>
      .error (.exit 1 (str "ERROR: accounts.json not found at " ++ setup.accountsJson ++ str "."))
  | some reading => do
      let content ← reading.content
      match rt.loads content with
      | .ok accounts => .ok accounts
      | .error .jsonDecodeError => .error (.exit 1 (str "ERROR: Failed to parse " ++
          setup.accountsJson ++ str ": " ++ rt.decodeErrorText content))
      | .error exc => .error (.python exc)

/-- The account of the caller, unless its role is denied. -/
def refuseDenied (accounts : rt.Value) (caller : Str) : Module Str := do
  let role ← liftExc (accountRole rt accounts caller)
  let denied ← liftExc (isDenied rt role)
  if denied then
    let text ← liftExc (rt.strOf role)
    throw (.exit 1 (str "ERROR: terratest is forbidden in account " ++ caller ++ str " (" ++
      text ++ str "); use sandbox or qa credentials"))
  else return caller

/-- `_check_deny_set`. -/
def checkDenySet : Module Str := do
  let accounts ← Program.ofExcept (readAccounts rt setup)
  match ← Program.perform ModuleCall.getCallerIdentity with
  | .error text => throw (.raised text)
  | .ok caller => refuseDenied rt accounts caller

/-- A variable of the environment that is set to a text. -/
def setText? (name : Str) : Option Str := (dictGet? setup.environ name).filter (· ≠ [])

/-- `_generate_run_id`, with the time and the letters of a new one. -/
def generateRunId : Module Str := do
  match setText? setup runIdVar with
  | some given => return given
  | none =>
      let fresh ← Program.perform ModuleCall.newRunId
      return str "tt-" ++ fresh.1 ++ str "-" ++ fresh.2

/-- `_write_run_id_file`. -/
def writeRunIdFile (runId : Str) : Module Unit := do
  let path := moduleFile setup (str ".terratest-run-id")
  match ← Program.perform (ModuleCall.writeRunId path (runId ++ str "\n")) with
  | .ok () => return ()
  | .error text =>
      throw (.exit 1 (str "ERROR: failed to write run-id file " ++ path ++ str ": " ++ text ++
        str (". The per-module zero-orphan proof (terratest-sweep-module) requires this file; " ++
          "resolve the filesystem error and re-run.")))

/-- The place of the plugin cache. -/
def pluginCacheDir : Str :=
  match setText? setup pluginCacheDirVar with
  | some given => (PosixPath.ofText given).text
  | none => ((PosixPath.ofText setup.home).join (PosixPath.ofText (str ".tf-plugin-cache"))).text

/-- `_get_or_create_plugin_cache_dir`. -/
def getOrCreatePluginCacheDir : Module Str := do
  match ← Program.perform (ModuleCall.makeDir (pluginCacheDir setup)) with
  | .ok () => return pluginCacheDir setup
  | .error text => throw (.raised text)

/-- The environment of the tests. -/
def goEnv (config : List (Str × Str)) (runId cacheDir caller : Str) : Environ :=
  dictWrites setup.environ ([
    (runIdVar, runId), (str "TF_VAR_terratest_run_id", runId),
    (str "PROJECT_TAG", str "telemetry-platform"),
    (str "TF_VAR_project_tag", str "telemetry-platform"),
    (pluginCacheDirVar, cacheDir), (str "AWS_ACCOUNT_ID", caller)] ++
    ((dictGet? config idempotencyVar).map fun value => (idempotencyVar, value)).toList)

/-- A binary that is run; one that cannot be run raises. -/
def invokeTerraform (args : List Str) (dir : Dir) (env : Environ) : Module (Int × Examples) := do
  match ← Program.perform (ModuleCall.terraform args dir env) with
  | (.ok code, files) => return (code, files)
  | (.error text, _) => throw (.raised text)

def initArgs : List Str := [str "init", str "-upgrade=false"]
def destroyArgs : List Str := [str "destroy", str "-auto-approve"]

/-- `terraform init` in one directory after the other. -/
def initAll (env : Environ) : List Dir → Module Unit
  | [] => return ()
  | dir :: dirs => do
      let _ ← invokeTerraform initArgs dir env
      initAll env dirs

/-- `_prewarm_provider_cache`, over the examples that have Terraform files. -/
def prewarmProviderCache (cacheDir : Str) : Module Unit := do
  let dirs ← Program.perform ModuleCall.listExamples
  initAll (dictSet setup.environ pluginCacheDirVar cacheDir) dirs

end Checks

section Destroy

variable (rt : Runtime) (setup : Setup)

def stateFile : Str := str "terraform.tfstate"

/-- `_state_has_resources`. -/
def stateHasResources : Reading → Except ModuleError Bool
  | .osError _ => .ok false
  | .undecodable text => .error (.raised text)
  | .text raw =>
      if strip raw = [] then .ok false
      else
        match rt.loads raw with
        | .error .jsonDecodeError => .ok false
        | .error exc => .error (.python exc)
        | .ok parsed =>
            match parsed.getD (str "resources") (.arr []) with
            | .ok resources => .ok (rt.truth resources)
            | .error exc => .error (.python exc)

/-- The directories of the states with resources. -/
def liveDirs : Examples → Except ModuleError (List Dir)
  | [] => .ok []
  | (path, reading) :: rest =>
      if path.getLast? = some stateFile then do
        let live ← stateHasResources rt reading
        let others ← liveDirs rest
        return if live then path.dropLast :: others else others
      else liveDirs rest

/-- The path of a directory below `examples/`. -/
def dirText (dir : Dir) : Str := setup.examplesPath ++ dir.flatMap fun name => str "/" ++ name

/-- The order of the paths of directories as texts. -/
def dirLe (left right : Dir) : Prop :=
  (dirText setup left).map Chr.code ≤ (dirText setup right).map Chr.code

instance : DecidableRel (dirLe setup) := fun _ _ => inferInstanceAs (Decidable (_ ≤ _))

/-- `_find_leaked_terraform_dirs`. -/
def findLeakedTerraformDirs (files : Examples) : Except ModuleError (List Dir) := do
  return (← liveDirs rt files).dedup.insertionSort (dirLe setup)

/-- Whether the state of a directory is there and has resources. -/
def stillLive (dir : Dir) (files : Examples) : Except ModuleError Bool :=
  match dictGet? files (dir ++ [stateFile]) with
  | none => .ok false
  | some reading => stateHasResources rt reading

/-- The line about a destroy that was tried again. -/
def retriedText (dir : Dir) (code : Int) (live : Bool) : Str :=
  if live then
    str "ERROR: terraform destroy retry FAILED in " ++ dirText setup dir ++ str " (exit code " ++
      numeral code ++ str "); live state remains."
  else
    str "INFO: terraform destroy retry succeeded in " ++ dirText setup dir ++
      str "; no resources remain in local state."

/-- The destroy of one directory: whether it is left with resources. -/
def retryDir (env : Environ) (dir : Dir) : Module (Bool × Examples) := do
  eprint (str "INFO: retrying terraform destroy in leaked working dir " ++ dirText setup dir)
  let _ ← invokeTerraform initArgs dir env
  let (code, files) ← invokeTerraform destroyArgs dir env
  let live ← Program.ofExcept (stillLive rt dir files)
  eprint (retriedText setup dir code live)
  return (live, files)

/-- The loop over the directories, with the number of those left with resources so far. -/
def retryDirs (env : Environ) : List Dir → Nat → Examples → Module (Nat × Examples)
  | [], leaks, files => return (leaks, files)
  | dir :: dirs, leaks, _ => do
      let (live, files) ← retryDir rt setup env dir
      retryDirs env dirs (if live then leaks + 1 else leaks) files

/-- `_retry_terraform_destroy`. -/
def retryTerraformDestroy (env : Environ) (files : Examples) : Module (Nat × Examples) := do
  let dirs ← Program.ofExcept (findLeakedTerraformDirs rt setup files)
  if dirs = [] then return (0, files)
  eprint (str "WARNING: terratest destroy left " ++ numeral dirs.length ++
    str " terraform working director(y/ies) with live state under " ++ setup.modulePath ++
    str "/examples/; retrying 'terraform destroy -auto-approve' in each.")
  retryDirs rt setup env dirs 0 files

end Destroy

section Cleaning

def terraformDir : Str := str ".terraform"

/-- The directories named `.terraform` that a path is below. -/
def terraformDirsOf (path : Dir) : List Dir :=
  path.dropLast.inits.filter fun dir => dir.getLast? = some terraformDir

/-- A file is below a directory. -/
def below (dir path : Dir) : Bool := dir.isPrefixOf path.dropLast

/-- Remove the `.terraform` directories that are still there, which may leave files behind. -/
def removeTerraformDirs : List Dir → Examples → Module Examples
  | [], files => return files
  | dir :: dirs, files =>
      if files.any fun file => below dir file.1 then do
        let left ← Program.perform (ModuleCall.rmtree dir)
        removeTerraformDirs dirs (files.filter fun file => !below dir file.1 || file.1 ∈ left)
      else removeTerraformDirs dirs files

/-- Remove files one by one. -/
def unlinkAll : List Dir → Module Unit
  | [] => return ()
  | path :: paths => do
      match ← Program.perform (ModuleCall.unlink path) with
      | .ok () => unlinkAll paths
      | .error text => throw (.raised text)

/-- The files whose names meet a condition. -/
def filesNamed (meets : Str → Bool) (files : Examples) : List Dir :=
  (files.map Prod.fst).filter fun path => path.getLast?.any meets

/-- `_clean_example_caches`. -/
def cleanExampleCaches (files : Examples) : Module Unit := do
  let dirs := (files.flatMap fun file => terraformDirsOf file.1).dedup
  let files ← removeTerraformDirs dirs files
  unlinkAll (filesNamed (stateFile.isPrefixOf ·) files)
  unlinkAll (filesNamed (· = str ".terraform.lock.hcl") files)

end Cleaning

section Main

/-- `_sweep_check` and `_sweep_delete`. -/
def runSweep (mode : SweepMode) (runId : Str) : Module Int := do
  match ← Program.perform (ModuleCall.sweep mode runId) with
  | .ok () => return 0
  | .error (.systemExit code) => return code.caught
  | .error (.other text) => throw (.raised text)

/-- The sweep: a check, and after residue a deletion and another check. -/
def sweepResidue (runId : Str) : Module Int := do
  let check ← runSweep .check runId
  if check = 0 then return check
  let _ ← runSweep .delete runId
  runSweep .check runId

/-- The lines about what is left. -/
def residueLines (runId : Str) (residue : Int) (leaks : Nat) : List Str :=
  (if residue = 0 then [] else [str "ERROR: " ++ numeral residue ++
    str " resources tagged terratest-run=" ++ runId ++
    str " remain after cleanup; see sweep report under .sweep-reports/"]) ++
  (if leaks = 0 then [] else [str "ERROR: " ++ numeral leaks ++
    str (" terraform working director(y/ies) still hold live state after the destroy retry; " ++
      "manual cleanup required.")])

def eprintAll : List Str → Module Unit
  | [] => return ()
  | line :: lines => do
      eprint line
      eprintAll lines

variable (rt : Runtime) (setup : Setup)

/-- The destroys, after tests that have failed. -/
def retryAfter (env : Environ) (goExit : Int) (files : Examples) : Module (Nat × Examples) :=
  if goExit ≠ 0 then retryTerraformDestroy rt setup env files else pure (0, files)

/-- The phases after the tests: the residue, and the number of directories left with resources. -/
def postRun (runId : Str) (env : Environ) (goExit : Int) (files : Examples) :
    Module (Int × Nat) := do
  let (leaks, files) ← retryAfter rt setup env goExit files
  cleanExampleCaches files
  let residue ← sweepResidue runId
  eprintAll (residueLines runId residue leaks)
  return (residue, leaks)

/-- The code of the last phase. -/
def exitCode (goExit residue : Int) (leaks : Nat) : Int :=
  if goExit ≠ 0 ∨ residue ≠ 0 ∨ leaks ≠ 0 then max (max (max goExit residue) leaks) 1 else 0

/-- The tests and the phases after them, which an exception of the tests does not skip. -/
def runTests (timeout runId : Str) (env : Environ) : Module Unit := do
  match ← Program.perform (ModuleCall.goTest timeout env) with
  | (.ok goExit, files) =>
      let (residue, leaks) ← postRun rt setup runId env goExit files
      throw (.exit (exitCode goExit residue leaks) [])
  | (.error text, files) =>
      let _ ← postRun rt setup runId env 0 files
      throw (.raised text)

/-- What the tests are run with. -/
structure TestRun where
  timeout : Str
  runId : Str
  env : Environ

/-- The phases before the tests. -/
def prepare : Module TestRun := do
  Program.ofExcept (validateModulePath rt setup)
  let config ← Program.ofExcept (parseTestConfig setup)
  let caller ← checkDenySet rt setup
  let runId ← generateRunId setup
  writeRunIdFile setup runId
  let cacheDir ← getOrCreatePluginCacheDir setup
  Program.perform (ModuleCall.killStaleProviders cacheDir)
  prewarmProviderCache setup cacheDir
  return {
    timeout := (dictGet? config goTestTimeoutVar).getD (str "20m")
    runId := runId
    env := goEnv setup config runId cacheDir caller }

/-- `main` with one module. -/
def runModuleMain : Module Unit := do
  let run ← prepare rt setup
  runTests rt setup run.timeout run.runId run.env

end Main

end Terratest
