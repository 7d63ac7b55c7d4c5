import Mathlib.Algebra.Order.Field.Rat
import Mathlib.Tactic.NormNum
import TelemetryPlatform.Deploy.Partition
import TelemetryPlatform.Library.PosixPath
import TelemetryPlatform.Library.Program
import TelemetryPlatform.Library.WholeRuntime

/-!
# The Go quality gates

`run_go_command` of `scripts/run_go.py` runs a pinned binary in the directory of every Go
module under `providers/`. The coverage gates leave out a module that `go list` shows to
have no package in the default build.

The gate with a threshold reads its arguments nowhere and looks for no coverage, and a listing
that prints a package is taken for a success. What a run of `go test` reports as the
coverage of a module is the parameter `coverageOf`.
-/

namespace GoGates

open Python Interaction

section Calls

/-- `subprocess.CompletedProcess`. -/
structure CompletedProcess where
  returncode : Int
  stdout : Str
  stderr : Str

/-- A command and the directory it runs in. -/
structure Call where
  argv : List Str
  cwd : Str

/-- A process, or the exception of a binary that cannot be started. -/
abbrev Call.Reply (_ : Call) : Type := Except Str CompletedProcess

/-- What `run_go_command` raises: its own errors, and what the start of a process raised. -/
inductive GoError where
  | goCommand (subcommand : Str) (argv : List Str) (exitCode : Int) (stderrOutput : Str)
  | valueError (text : Str)
  | raised (text : Str)

abbrev GoEvent := Event Call Call.Reply

abbrev Go := Program Call Call.Reply GoError

inductive Subcommand where
  | fmt
  | lint
  | vuln
  | unitTestCoverage
  | unitTestCoverageJson
deriving DecidableEq

end Calls

section Commands

def Subcommand.text : Subcommand → Str
  | .fmt => str "fmt"
  | .lint => str "lint"
  | .vuln => str "vuln"
  | .unitTestCoverage => str "unit-test-coverage"
  | .unitTestCoverageJson => str "unit-test-coverage-json"

def supportedSubcommands : List Subcommand :=
  [.fmt, .lint, .unitTestCoverage, .unitTestCoverageJson, .vuln]

def coverageSubcommands : List Subcommand := [.unitTestCoverage, .unitTestCoverageJson]

def terratestBuildTag : Str := str "terratest"

/-- `invoke_pinned_binary` with `capture_output`. -/
def invokePinnedBinary (binary : Str) (args : List Str) (cwd : Str) : Go CompletedProcess := do
  match ← Program.perform (⟨binary :: args, cwd⟩ : Call) with
  | .ok process => return process
  | .error text => throw (.raised text)

def listArgs : List Str := [str "list", str "./..."]

def noPackages : Str := str "matched no packages"

/-- `_has_default_build_packages`. -/
def hasDefaultBuildPackages (goBinary moduleDir : Str) : Go Bool := do
  let result ← invokePinnedBinary goBinary listArgs moduleDir
  if strip result.stdout ≠ [] then
    return true
  if result.returncode = 0 ∨ Contains noPackages result.stderr then
    return false
  throw (.goCommand (str "list") (goBinary :: listArgs) result.returncode result.stderr)

/-- The binary and the arguments of a subcommand. -/
def Subcommand.command (goBinary govulncheckBinary : Str) : Subcommand → Str × List Str
  | .fmt => (goBinary, [str "fmt", str "."])
  | .lint => (goBinary, [str "vet", str "-tags", terratestBuildTag, str "./..."])
  | .vuln => (govulncheckBinary, [str "-tags", terratestBuildTag, str "./..."])
  | .unitTestCoverage =>
      (goBinary, [str "test", str "-v", str "-coverprofile=coverage.out", str "./..."])
  | .unitTestCoverageJson =>
      (goBinary, [str "test", str "-v", str "-coverprofile=coverage.out", str "-json",
        str "./..."])

variable (goBinary govulncheckBinary : Str)

/-- What is run in the directory of a module that is not left out. -/
def runBinary (subcommand : Subcommand) (moduleDir : Str) : Go Unit := do
  let (activeBinary, binaryArgs) := subcommand.command goBinary govulncheckBinary
  let result ← invokePinnedBinary activeBinary binaryArgs moduleDir
  if result.returncode ≠ 0 then
    throw (.goCommand subcommand.text (activeBinary :: binaryArgs) result.returncode
      result.stderr)

/-- The body of the loop over the modules. -/
def runModule (subcommand : Subcommand) (moduleDir : Str) : Go Unit := do
  if subcommand ∈ coverageSubcommands then
    if !(← hasDefaultBuildPackages goBinary moduleDir) then
      return ()
  runBinary goBinary govulncheckBinary subcommand moduleDir

def runModules (subcommand : Subcommand) : List Str → Go Unit
  | [] => return ()
  | moduleDir :: rest => do
      runModule goBinary govulncheckBinary subcommand moduleDir
      runModules subcommand rest

/-- `_discover_gomod_dirs`, given the `go.mod` files under the root. -/
def discoverGomodDirs (rt : Runtime) (providersRoot : Str) (gomods : List PosixPath) :
    Except GoError (List Str) :=
  let sources := gomods.filter fun p => str ".terraform" ∉ p.parts.map Subtype.val
  let gomodDirs := (sources.map fun p => p.parent.text).mergeSort Deploy.strLe
  if gomodDirs = [] then
    .error (.goCommand (str "discovery") [] 1
      (str "ERROR: no go.mod files found under " ++ rt.reprStr providersRoot ++
        str (". At least one Go module must exist under providers/ for the " ++
          "go quality gates to have a non-empty scope. " ++
          "Remediation: ensure providers/ contains at least one Go module " ++
          "with a go.mod file.")))
  else .ok gomodDirs

/-- `run_go_command`. The extra arguments are read nowhere. -/
def runGoCommand (rt : Runtime) (subcommand : Str) (_extraArgs : List Str) (providersRoot : Str)
    (gomods : List PosixPath) : Go Unit := do
  match supportedSubcommands.find? fun supported => supported.text = subcommand with
  | none =>
      throw (.valueError (str "Unsupported subcommand " ++ rt.reprStr subcommand ++
        str ". Supported: [" ++ (str ", ").intercalate (supportedSubcommands.map fun supported =>
          rt.reprStr supported.text) ++ str "]"))
  | some subcommand =>
      let gomodDirs ← Program.ofExcept (discoverGomodDirs rt providersRoot gomods)
      runModules goBinary govulncheckBinary subcommand gomodDirs

end Commands

section Gate

variable (goBinary govulncheckBinary : Str) (coverageOf : Str → Option ℚ) (threshold : ℚ)

def listCall (moduleDir : Str) : Call := ⟨goBinary :: listArgs, moduleDir⟩

def testArgs : List Str := [str "test", str "-v", str "-coverprofile=coverage.out", str "./..."]

def testCall (moduleDir : Str) : Call := ⟨goBinary :: testArgs, moduleDir⟩

/-- The listing shows that there is no package in the default build. -/
def ShowsNone (listed : CompletedProcess) : Prop :=
  strip listed.stdout = [] ∧ (listed.returncode = 0 ∨ Contains noPackages listed.stderr)

/-- The listing failed, for another reason than that there is no package. -/
def ListingFailed (listed : CompletedProcess) : Prop :=
  listed.returncode ≠ 0 ∧ ¬ShowsNone listed

/-- The tests reported a coverage that reaches the threshold. -/
def Reaches (tested : CompletedProcess) : Prop :=
  ∃ percent, coverageOf tested.stdout = some percent ∧ threshold ≤ percent

/-- What the log has of a module that may pass the gate: it is left out, or it passes its tests
with enough coverage. -/
inductive Passed (moduleDir : Str) : List GoEvent → Prop where
  | skipped (listed : CompletedProcess) (none : ShowsNone listed) :
      Passed moduleDir [⟨listCall goBinary moduleDir, .ok listed⟩]
  | covered (listed tested : CompletedProcess) (passed : tested.returncode = 0)
      (reaches : Reaches coverageOf threshold tested) :
      Passed moduleDir [⟨listCall goBinary moduleDir, .ok listed⟩,
        ⟨testCall goBinary moduleDir, .ok tested⟩]

/-- The error of a listing that failed. -/
def listError (listed : CompletedProcess) : GoError :=
  .goCommand (str "list") (goBinary :: listArgs) listed.returncode listed.stderr

/-- The gate returns only when every module passes it, and a listing that failed is raised. -/
structure FailClosed (gomodDirs : List Str) (log : List GoEvent)
    (outcome : Except GoError Unit) : Prop where
  passes : outcome = .ok () → ∃ parts, log = parts.flatten ∧
    List.Forall₂ (Passed goBinary coverageOf threshold) gomodDirs parts
  raises : ∀ before moduleDir listed after,
    log = before ++ ⟨listCall goBinary moduleDir, .ok listed⟩ :: after → ListingFailed listed →
      after = [] ∧ outcome = .error (listError goBinary listed)

/-- A failed listing that prints a package all the same. -/
def FailedWithPackages (event : GoEvent) : Prop :=
  event.request.argv = goBinary :: listArgs ∧ ∃ listed, event.reply = .ok listed ∧
    listed.returncode ≠ 0 ∧ strip listed.stdout ≠ []

/-- The reply ends the gate: a binary does not start, a listing fails and prints nothing, or the
tests fail. -/
def Stops (event : GoEvent) : Prop :=
  match event.reply with
  | .error _ => True
  | .ok process =>
      event.request.argv = goBinary :: listArgs ∧ strip process.stdout = [] ∧
          ListingFailed process ∨
        event.request.argv = goBinary :: testArgs ∧ process.returncode ≠ 0

/-- If the reply is that of the tests, it has enough coverage. -/
def Covers (event : GoEvent) : Prop :=
  event.request.argv = goBinary :: testArgs → ∀ tested, event.reply = .ok tested →
    Reaches coverageOf threshold tested

end Gate

section Modules

variable {goBinary govulncheckBinary : Str} {coverageOf : Str → Option ℚ} {threshold : ℚ}
  {moduleDir : Str} {log : List GoEvent} {outcome : Except GoError Unit}

theorem listArgs_ne_testArgs : goBinary :: listArgs ≠ goBinary :: testArgs := by
  intro same
  have args := (List.cons.inj same).2
  revert args
  decide

/-- A binary answers, or the exception of its start is passed on. -/
theorem runs_invoke_bind {α : Type} {binary : Str} {args : List Str}
    {next : CompletedProcess → Go α} {outcome : Except GoError α}
    (ran : (invokePinnedBinary binary args moduleDir >>= next).Runs log outcome) :
    (∃ text, log = [⟨⟨binary :: args, moduleDir⟩, .error text⟩] ∧
      outcome = .error (.raised text)) ∨
    ∃ process rest, log = ⟨⟨binary :: args, moduleDir⟩, .ok process⟩ :: rest ∧
      (next process).Runs rest outcome := by
  rcases ran with ⟨reply, rest, rfl, ran⟩
  cases reply with
  | error text =>
      rcases ran with ⟨rfl, rfl⟩
      exact Or.inl ⟨text, rfl, rfl⟩
  | ok process => exact Or.inr ⟨process, rest, rfl, ran⟩

/-- The tests pass, or something is raised. -/
theorem runs_tests (ran : (runBinary goBinary govulncheckBinary .unitTestCoverage moduleDir).Runs
      log outcome) :
    ∃ reply, log = [⟨testCall goBinary moduleDir, reply⟩] ∧
      ((∃ text, reply = .error text ∧ outcome = .error (.raised text)) ∨
        ∃ tested, reply = .ok tested ∧
          (tested.returncode = 0 ∧ outcome = .ok () ∨
            tested.returncode ≠ 0 ∧ ∃ error, outcome = .error error)) := by
  rcases runs_invoke_bind ran with ⟨text, rfl, rfl⟩ | ⟨tested, rest, rfl, answered⟩
  · exact ⟨.error text, rfl, Or.inl ⟨text, rfl, rfl⟩⟩
  · refine ⟨.ok tested, ?_⟩
    by_cases passed : tested.returncode = 0
    · rw [if_neg (not_not.mpr passed)] at answered
      rcases answered with ⟨rfl, rfl⟩
      exact ⟨rfl, Or.inr ⟨tested, rfl, Or.inl ⟨passed, rfl⟩⟩⟩
    · rw [if_pos passed] at answered
      rcases answered with ⟨rfl, rfl⟩
      exact ⟨rfl, Or.inr ⟨tested, rfl, Or.inr ⟨passed, _, rfl⟩⟩⟩

/-- What the runs of a module come to. -/
inductive ModuleRun (goBinary moduleDir : Str) : List GoEvent → Except GoError Unit → Prop where
  | noListing (text : Str) : ModuleRun goBinary moduleDir
      [⟨listCall goBinary moduleDir, .error text⟩] (.error (.raised text))
  | skipped (listed : CompletedProcess) (none : ShowsNone listed) :
      ModuleRun goBinary moduleDir [⟨listCall goBinary moduleDir, .ok listed⟩] (.ok ())
  | listingFailed (listed : CompletedProcess) (blank : strip listed.stdout = [])
      (failed : ListingFailed listed) :
      ModuleRun goBinary moduleDir [⟨listCall goBinary moduleDir, .ok listed⟩]
        (.error (listError goBinary listed))
  | noTests (listed : CompletedProcess) (printed : strip listed.stdout ≠ []) (text : Str) :
      ModuleRun goBinary moduleDir [⟨listCall goBinary moduleDir, .ok listed⟩,
        ⟨testCall goBinary moduleDir, .error text⟩] (.error (.raised text))
  | testsPassed (listed tested : CompletedProcess) (printed : strip listed.stdout ≠ [])
      (passed : tested.returncode = 0) :
      ModuleRun goBinary moduleDir [⟨listCall goBinary moduleDir, .ok listed⟩,
        ⟨testCall goBinary moduleDir, .ok tested⟩] (.ok ())
  | testsFailed (listed tested : CompletedProcess) (printed : strip listed.stdout ≠ [])
      (failed : tested.returncode ≠ 0) (error : GoError) :
      ModuleRun goBinary moduleDir [⟨listCall goBinary moduleDir, .ok listed⟩,
        ⟨testCall goBinary moduleDir, .ok tested⟩] (.error error)

theorem runs_runModule
    (ran : (runModule goBinary govulncheckBinary .unitTestCoverage moduleDir).Runs log outcome) :
    ModuleRun goBinary moduleDir log outcome := by
  rw [runModule, if_pos (by decide), hasDefaultBuildPackages, bind_assoc] at ran
  rcases runs_invoke_bind ran with ⟨text, rfl, rfl⟩ | ⟨listed, rest, rfl, answered⟩
  · exact .noListing text
  by_cases printed : strip listed.stdout = []
  · rw [if_neg (not_not.mpr printed)] at answered
    by_cases benign : listed.returncode = 0 ∨ Contains noPackages listed.stderr
    · rw [if_pos benign] at answered
      rcases answered with ⟨rfl, rfl⟩
      exact .skipped listed ⟨printed, benign⟩
    · rw [if_neg benign] at answered
      rcases answered with ⟨rfl, rfl⟩
      apply ModuleRun.listingFailed listed printed
      exact ⟨fun zero => benign (Or.inl zero), fun none => benign none.2⟩
  · rw [if_pos printed] at answered
    change (runBinary goBinary govulncheckBinary .unitTestCoverage moduleDir).Runs rest outcome
      at answered
    rcases runs_tests answered with ⟨reply, rfl, ⟨text, rfl, rfl⟩ | ⟨tested, rfl, ended⟩⟩
    · exact .noTests listed printed text
    · rcases ended with ⟨passed, rfl⟩ | ⟨failed, error, rfl⟩
      · exact .testsPassed listed tested printed passed
      · exact .testsFailed listed tested printed failed error

/-- A loop ends with the module that raises, or goes on. -/
theorem runs_runModules_cons {rest : List Str}
    (ran : (runModules goBinary govulncheckBinary .unitTestCoverage (moduleDir :: rest)).Runs
      log outcome) :
    (∃ error, outcome = .error error ∧ ModuleRun goBinary moduleDir log outcome) ∨
      ∃ part later, log = part ++ later ∧ ModuleRun goBinary moduleDir part (.ok ()) ∧
        (runModules goBinary govulncheckBinary .unitTestCoverage rest).Runs later outcome := by
  rcases Program.runs_bind.mp ran with ⟨error, rfl, stopped⟩ | ⟨_, part, later, rfl, one, others⟩
  · exact Or.inl ⟨error, rfl, runs_runModule stopped⟩
  · exact Or.inr ⟨part, later, rfl, runs_runModule one, others⟩

theorem not_stops_of_ok {part : List GoEvent} (ran : ModuleRun goBinary moduleDir part (.ok ())) :
    ∀ event ∈ part, ¬Stops goBinary event := by
  cases ran with
  | skipped listed none =>
      intro event eventMem
      cases List.mem_singleton.mp eventMem
      rintro (⟨_, _, failed⟩ | ⟨same, _⟩)
      · exact failed.2 none
      · exact listArgs_ne_testArgs same
  | testsPassed listed tested printed passed =>
      intro event eventMem
      rcases List.mem_cons.mp eventMem with rfl | eventMem
      · rintro (⟨_, blank, _⟩ | ⟨same, _⟩)
        · exact printed blank
        · exact listArgs_ne_testArgs same
      · cases List.mem_singleton.mp eventMem
        rintro (⟨same, _⟩ | ⟨_, failed⟩)
        · exact listArgs_ne_testArgs same.symm
        · exact failed passed

theorem stops_of_error {part : List GoEvent} {error : GoError}
    (ran : ModuleRun goBinary moduleDir part (.error error)) :
    ∃ event ∈ part, Stops goBinary event := by
  cases ran with
  | noListing text => exact ⟨_, List.mem_singleton_self _, trivial⟩
  | listingFailed listed blank failed =>
      exact ⟨_, List.mem_singleton_self _, Or.inl ⟨rfl, blank, failed⟩⟩
  | noTests listed printed text =>
      exact ⟨_, List.mem_cons_of_mem _ (List.mem_singleton_self _), trivial⟩
  | testsFailed listed tested printed failed =>
      exact ⟨_, List.mem_cons_of_mem _ (List.mem_singleton_self _), Or.inr ⟨rfl, failed⟩⟩

/-- A module that goes on passes the gate when its tests have enough coverage. -/
theorem passed_of_covers {part : List GoEvent} (ran : ModuleRun goBinary moduleDir part (.ok ()))
    (covers : ∀ event ∈ part, Covers goBinary coverageOf threshold event) :
    Passed goBinary coverageOf threshold moduleDir part := by
  cases ran with
  | skipped listed none => exact .skipped listed none
  | testsPassed listed tested printed passed =>
      apply Passed.covered listed tested passed
      exact covers _ (List.mem_cons_of_mem _ (List.mem_singleton_self _)) rfl tested rfl

/-- The tests of a module that passes the gate have enough coverage. -/
theorem Passed.covers {part : List GoEvent}
    (passed : Passed goBinary coverageOf threshold moduleDir part) :
    ∀ event ∈ part, Covers goBinary coverageOf threshold event := by
  have listing (listed : CompletedProcess) :
      Covers goBinary coverageOf threshold ⟨listCall goBinary moduleDir, .ok listed⟩ :=
    fun same => absurd same listArgs_ne_testArgs
  cases passed with
  | skipped listed none =>
      intro event eventMem
      cases List.mem_singleton.mp eventMem
      exact listing listed
  | covered listed tested passed reaches =>
      intro event eventMem
      rcases List.mem_cons.mp eventMem with rfl | eventMem
      · exact listing listed
      · cases List.mem_singleton.mp eventMem
        rintro - _ ⟨⟩
        exact reaches

section Positions

variable {before after : List GoEvent} {dir : Str} {listed : CompletedProcess}

theorem listing_of_single {reply : Except Str CompletedProcess}
    (split : [⟨listCall goBinary moduleDir, reply⟩] =
      before ++ ⟨listCall goBinary dir, .ok listed⟩ :: after) :
    reply = .ok listed ∧ after = [] := by
  rcases before with _ | ⟨first, before⟩
  · cases split
    exact ⟨rfl, rfl⟩
  · have others := (List.cons.inj split).2
    exact absurd others.symm (List.append_ne_nil_of_right_ne_nil _ (List.cons_ne_nil _ _))

theorem listing_of_pair {own : CompletedProcess} {tests : Except Str CompletedProcess}
    (split : [⟨listCall goBinary moduleDir, .ok own⟩, ⟨testCall goBinary moduleDir, tests⟩] =
      before ++ ⟨listCall goBinary dir, .ok listed⟩ :: after) :
    own = listed ∧ after ≠ [] := by
  rcases before with _ | ⟨first, _ | ⟨second, before⟩⟩
  · cases split
    exact ⟨rfl, List.cons_ne_nil _ _⟩
  · have tested := congrArg (fun event => event.request.argv)
      (List.cons.inj (List.cons.inj split).2).1
    exact absurd tested.symm listArgs_ne_testArgs
  · have others := (List.cons.inj (List.cons.inj split).2).2
    exact absurd others.symm (List.append_ne_nil_of_right_ne_nil _ (List.cons_ne_nil _ _))

/-- After a listing that prints a package there are the tests; one that prints nothing and failed
is the last event, and raised. -/
def ListingsDecide (goBinary : Str) (log : List GoEvent) (outcome : Except GoError Unit) : Prop :=
  ∀ before dir listed after, log = before ++ ⟨listCall goBinary dir, .ok listed⟩ :: after →
    (strip listed.stdout ≠ [] → after ≠ []) ∧
      (strip listed.stdout = [] → ListingFailed listed →
        after = [] ∧ outcome = .error (listError goBinary listed))

theorem ModuleRun.listingsDecide (ran : ModuleRun goBinary moduleDir log outcome) :
    ListingsDecide goBinary log outcome := by
  intro before dir listed after split
  cases ran with
  | noListing text => cases (listing_of_single split).1
  | skipped own none =>
      cases (listing_of_single split).1
      exact ⟨fun printed => absurd none.1 printed, fun _ failed => absurd none failed.2⟩
  | listingFailed own blank failed =>
      rcases listing_of_single split with ⟨⟨⟩, last⟩
      exact ⟨fun printed => absurd blank printed, fun _ _ => ⟨last, rfl⟩⟩
  | noTests own printed text =>
      rcases listing_of_pair split with ⟨rfl, more⟩
      exact ⟨fun _ => more, fun blank => absurd blank printed⟩
  | testsPassed own tested printed passed =>
      rcases listing_of_pair split with ⟨rfl, more⟩
      exact ⟨fun _ => more, fun blank => absurd blank printed⟩
  | testsFailed own tested printed failed error =>
      rcases listing_of_pair split with ⟨rfl, more⟩
      exact ⟨fun _ => more, fun blank => absurd blank printed⟩

end Positions

end Modules

section Loop

variable {goBinary govulncheckBinary : Str} {coverageOf : Str → Option ℚ} {threshold : ℚ}
  {gomodDirs : List Str} {log : List GoEvent} {outcome : Except GoError Unit}

theorem listingsDecide_runModules
    (ran : (runModules goBinary govulncheckBinary .unitTestCoverage gomodDirs).Runs log outcome) :
    ListingsDecide goBinary log outcome := by
  induction gomodDirs generalizing log with
  | nil =>
      rcases ran with ⟨rfl, rfl⟩
      intro before dir listed after split
      exact absurd split.symm (List.append_ne_nil_of_right_ne_nil _ (List.cons_ne_nil _ _))
  | cons moduleDir rest ih =>
      rcases runs_runModules_cons ran with ⟨error, rfl, one⟩ | ⟨part, later, rfl, one, others⟩
      · exact one.listingsDecide
      · intro before dir listed after split
        rcases List.append_eq_append_iff.mp split with
          ⟨between, rfl, inLater⟩ | ⟨between, inPart, inAfter⟩
        · exact ih others between dir listed after inLater
        · rcases between with _ | ⟨event, between⟩
          · exact ih others [] dir listed after inAfter.symm
          · cases inAfter
            have decided := one.listingsDecide before dir listed between inPart
            constructor
            · intro printed
              exact List.append_ne_nil_of_left_ne_nil (decided.1 printed) _
            · intro blank failed
              cases (decided.2 blank failed).2

/-- The loop returns exactly when no reply stops it. -/
theorem ok_iff_runModules
    (ran : (runModules goBinary govulncheckBinary .unitTestCoverage gomodDirs).Runs log outcome) :
    outcome = .ok () ↔ ∀ event ∈ log, ¬Stops goBinary event := by
  induction gomodDirs generalizing log with
  | nil =>
      rcases ran with ⟨rfl, rfl⟩
      exact iff_of_true rfl nofun
  | cons moduleDir rest ih =>
      rcases runs_runModules_cons ran with ⟨error, rfl, one⟩ | ⟨part, later, rfl, one, others⟩
      · apply iff_of_false nofun
        intro none
        rcases stops_of_error one with ⟨event, eventMem, stops⟩
        exact none event eventMem stops
      · rw [List.forall_mem_append, ih others, and_iff_right (not_stops_of_ok one)]

/-- A loop that returns passes every module when all tests have enough coverage. -/
theorem passed_runModules
    (ran : (runModules goBinary govulncheckBinary .unitTestCoverage gomodDirs).Runs log (.ok ()))
    (covers : ∀ event ∈ log, Covers goBinary coverageOf threshold event) :
    ∃ parts, log = parts.flatten ∧
      List.Forall₂ (Passed goBinary coverageOf threshold) gomodDirs parts := by
  induction gomodDirs generalizing log with
  | nil =>
      rcases ran with ⟨rfl, -⟩
      exact ⟨[], rfl, .nil⟩
  | cons moduleDir rest ih =>
      rcases runs_runModules_cons ran with ⟨error, impossible, _⟩ | ⟨part, later, rfl, one, others⟩
      · cases impossible
      · rw [List.forall_mem_append] at covers
        rcases ih others covers.2 with ⟨parts, rfl, all⟩
        exact ⟨part :: parts, rfl, .cons (passed_of_covers one covers.1) all⟩

/-- All tests of modules that pass the gate have enough coverage. -/
theorem covers_of_passed {parts : List (List GoEvent)}
    (passed : List.Forall₂ (Passed goBinary coverageOf threshold) gomodDirs parts) :
    ∀ event ∈ parts.flatten, Covers goBinary coverageOf threshold event := by
  induction passed with
  | nil => exact nofun
  | cons one _ ih => exact List.forall_mem_append.mpr ⟨one.covers, ih⟩

/-- The gate is closed over these modules when no listing fails that prints a package, and a reply
stops it or all tests have enough coverage. -/
theorem failClosed_runModules
    (ran : (runModules goBinary govulncheckBinary .unitTestCoverage gomodDirs).Runs log outcome) :
    FailClosed goBinary coverageOf threshold gomodDirs log outcome ↔
      (∀ event ∈ log, ¬FailedWithPackages goBinary event) ∧
        ((∃ event ∈ log, Stops goBinary event) ∨
          ∀ event ∈ log, Covers goBinary coverageOf threshold event) := by
  have decides := listingsDecide_runModules ran
  have returns := ok_iff_runModules ran
  constructor
  · rintro ⟨passes, raises⟩
    constructor
    · rintro ⟨⟨argv, dir⟩, reply⟩ eventMem ⟨rfl, listed, rfl, failed, printed⟩
      rcases List.append_of_mem eventMem with ⟨before, after, split⟩
      have last := raises before dir listed after split ⟨failed, fun none => printed none.1⟩
      exact (decides before dir listed after split).1 printed last.1
    · by_cases stopped : ∃ event ∈ log, Stops goBinary event
      · exact Or.inl stopped
      · have returned : outcome = .ok () := by
          rw [returns]
          intro event eventMem stops
          exact stopped ⟨event, eventMem, stops⟩
        rcases passes returned with ⟨parts, rfl, passed⟩
        exact Or.inr (covers_of_passed passed)
  · rintro ⟨safe, decided⟩
    constructor
    · intro returned
      rcases decided with ⟨event, eventMem, stops⟩ | covers
      · exact absurd stops (returns.mp returned event eventMem)
      · rw [returned] at ran
        exact passed_runModules ran covers
    · intro before dir listed after split failed
      apply (decides before dir listed after split).2 _ failed
      by_contra printed
      have eventMem : ⟨listCall goBinary dir, .ok listed⟩ ∈ log := by
        rw [split]
        exact List.mem_append_right _ List.mem_cons_self
      exact safe _ eventMem ⟨rfl, listed, rfl, failed.1, printed⟩

end Loop

/-- The gate is closed: over the modules it finds, and when it finds none. -/
def GateClosed (goBinary : Str) (coverageOf : Str → Option ℚ) (threshold : ℚ) (rt : Runtime)
    (providersRoot : Str) (gomods : List PosixPath) (log : List GoEvent)
    (outcome : Except GoError Unit) : Prop :=
  match discoverGomodDirs rt providersRoot gomods with
  | .ok gomodDirs => FailClosed goBinary coverageOf threshold gomodDirs log outcome
  | .error error => outcome = .error error

theorem runs_unitTestCoverage {goBinary govulncheckBinary : Str} {rt : Runtime}
    {extraArgs : List Str} {providersRoot : Str} {gomods : List PosixPath} {log : List GoEvent}
    {outcome : Except GoError Unit} :
    (runGoCommand goBinary govulncheckBinary rt (str "unit-test-coverage") extraArgs providersRoot
      gomods).Runs log outcome ↔
    (Program.ofExcept (discoverGomodDirs rt providersRoot gomods) >>=
      runModules goBinary govulncheckBinary .unitTestCoverage).Runs log outcome := by
  have found : (supportedSubcommands.find? fun supported =>
      supported.text = str "unit-test-coverage") = some .unitTestCoverage := by decide
  rw [runGoCommand, found]

/-- The coverage gate is fail-closed exactly when no listing fails that prints a package, and a
reply stops it or all tests that were run have enough coverage. -/
theorem gateClosed_iff {goBinary govulncheckBinary : Str} (coverageOf : Str → Option ℚ)
    (threshold : ℚ) {rt : Runtime} {extraArgs : List Str} {providersRoot : Str}
    {gomods : List PosixPath} {log : List GoEvent} {outcome : Except GoError Unit}
    (ran : (runGoCommand goBinary govulncheckBinary rt (str "unit-test-coverage") extraArgs
      providersRoot gomods).Runs log outcome) :
    GateClosed goBinary coverageOf threshold rt providersRoot gomods log outcome ↔
      (∀ event ∈ log, ¬FailedWithPackages goBinary event) ∧
        ((∃ event ∈ log, Stops goBinary event) ∨
          ∀ event ∈ log, Covers goBinary coverageOf threshold event) := by
  rw [runs_unitTestCoverage] at ran
  rw [GateClosed]
  cases found : discoverGomodDirs rt providersRoot gomods with
  | error error =>
      rw [found] at ran
      rcases ran with ⟨rfl, rfl⟩
      exact iff_of_true rfl ⟨nofun, Or.inr nofun⟩
  | ok gomodDirs =>
      rw [found] at ran
      exact failClosed_runModules ran

namespace Sample

def gomods : List PosixPath := [.ofText (str "providers/kms-key/go.mod")]

/-- The coverage that the last line of some outputs of `go test` reports. -/
def coverageOf (stdout : Str) : Option ℚ :=
  if Contains (str "coverage: 40.0% of statements") stdout then some 40
  else if Contains (str "coverage: 92.5% of statements") stdout then some (185 / 2)
  else none

def moduleDir : Str := str "providers/kms-key"

def listed : CompletedProcess := ⟨0, str "example.com/kms-key\n", []⟩

def tested (percent : String) : CompletedProcess :=
  ⟨0, str "ok  \texample.com/kms-key\t0.01s\tcoverage: " ++ str percent ++
    str "% of statements\n", []⟩

def log (percent : String) : List GoEvent :=
  [⟨listCall (str "go") moduleDir, .ok listed⟩,
    ⟨testCall (str "go") moduleDir, .ok (tested percent)⟩]

theorem discovered :
    discoverGomodDirs Runtime.whole (str "providers") gomods = .ok [moduleDir] := by
  have sources : (gomods.filter fun p => str ".terraform" ∉ p.parts.map Subtype.val).map
      (fun p => p.parent.text) = [moduleDir] := by decide +kernel
  rw [discoverGomodDirs, sources, List.mergeSort_singleton]
  rfl

theorem runs (percent : String) :
    (runGoCommand (str "go") (str "govulncheck") Runtime.whole (str "unit-test-coverage")
      [str "--threshold", str "80"] (str "providers") gomods).Runs (log percent) (.ok ()) := by
  rw [runs_unitTestCoverage, discovered]
  exact ⟨_, _, rfl, _, _, rfl, rfl, rfl⟩

/-- Three modules, of which the second has no package in the default build, and a copy that
Terraform has made of one. -/
def manyGomods : List PosixPath :=
  [str "providers/kms-key/go.mod", str "providers/kms-key/.terraform/modules/kms-key/go.mod",
    str "providers/s3-bucket/go.mod", str "providers/sns-topic/go.mod"].map .ofText

def manyDirs : List Str :=
  [str "providers/kms-key", str "providers/s3-bucket", str "providers/sns-topic"]

def manyLog : List GoEvent :=
  [⟨listCall (str "go") (str "providers/kms-key"), .ok listed⟩,
    ⟨testCall (str "go") (str "providers/kms-key"), .ok (tested "92.5")⟩,
    ⟨listCall (str "go") (str "providers/s3-bucket"), .ok ⟨0, [], []⟩⟩,
    ⟨listCall (str "go") (str "providers/sns-topic"), .ok listed⟩,
    ⟨testCall (str "go") (str "providers/sns-topic"), .ok (tested "92.5")⟩]

theorem discovered_manyGomods :
    discoverGomodDirs Runtime.whole (str "providers") manyGomods = .ok manyDirs := by
  have sources : (manyGomods.filter fun p => str ".terraform" ∉ p.parts.map Subtype.val).map
      (fun p => p.parent.text) = manyDirs := by decide +kernel
  have sorted : manyDirs.Pairwise fun first second => Deploy.strLe first second := by
    decide +kernel
  rw [discoverGomodDirs, sources, List.mergeSort_of_pairwise sorted]
  rfl

theorem runs_manyLog :
    (runGoCommand (str "go") (str "govulncheck") Runtime.whole (str "unit-test-coverage")
      [str "--threshold", str "80"] (str "providers") manyGomods).Runs manyLog (.ok ()) := by
  rw [runs_unitTestCoverage, discovered_manyGomods]
  exact ⟨_, _, rfl, _, _, rfl, _, _, rfl, _, _, rfl, _, _, rfl, rfl, rfl⟩

theorem not_failedWithPackages {call : Call} {stdout stderr : Str} :
    ¬FailedWithPackages (str "go") ⟨call, .ok ⟨0, stdout, stderr⟩⟩ := by
  rintro ⟨-, _, ⟨⟩, failed, -⟩
  exact failed rfl

theorem covers_listCall {moduleDir : Str} {reply : Call.Reply (listCall (str "go") moduleDir)} :
    Covers (str "go") coverageOf 80 ⟨listCall (str "go") moduleDir, reply⟩ :=
  fun same => absurd same listArgs_ne_testArgs

theorem covers_testCall {moduleDir : Str} :
    Covers (str "go") coverageOf 80 ⟨testCall (str "go") moduleDir, .ok (tested "92.5")⟩ := by
  rintro - _ ⟨⟩
  exact ⟨185 / 2, by decide +kernel, by norm_num⟩

end Sample

theorem gateClosed_covered : GateClosed (str "go") Sample.coverageOf 80 Runtime.whole
    (str "providers") Sample.manyGomods Sample.manyLog (.ok ()) := by
  apply (gateClosed_iff Sample.coverageOf 80 Sample.runs_manyLog).mpr
  constructor
  · simp only [Sample.manyLog, Sample.listed, Sample.tested, List.forall_mem_cons,
      Sample.not_failedWithPackages, not_false_eq_true, List.not_mem_nil, false_implies,
      implies_true, and_self]
  · right
    simp only [Sample.manyLog, List.forall_mem_cons, Sample.covers_listCall,
      Sample.covers_testCall, List.not_mem_nil, false_implies, implies_true, and_self]

/-- A module with a coverage of 40 percent passes the gate at 80. -/
theorem not_gateClosed_uncovered :
    (runGoCommand (str "go") (str "govulncheck") Runtime.whole (str "unit-test-coverage")
        [str "--threshold", str "80"] (str "providers") Sample.gomods).Runs (Sample.log "40.0")
        (.ok ()) ∧
      ¬GateClosed (str "go") Sample.coverageOf 80 Runtime.whole (str "providers") Sample.gomods
        (Sample.log "40.0") (.ok ()) := by
  refine ⟨Sample.runs "40.0", ?_⟩
  rw [GateClosed, Sample.discovered]
  intro closed
  rcases closed.passes rfl with ⟨parts, split, passed⟩
  have testsMem : ⟨testCall (str "go") Sample.moduleDir, .ok (Sample.tested "40.0")⟩ ∈
      parts.flatten := by
    rw [← split]
    exact List.mem_cons_of_mem _ (List.mem_singleton_self _)
  rcases covers_of_passed passed _ testsMem rfl _ rfl with ⟨percent, reported, reaches⟩
  have forty : Sample.coverageOf (Sample.tested "40.0").stdout = some 40 := by decide +kernel
  rw [forty, Option.some.injEq] at reported
  rw [← reported] at reaches
  exact absurd reaches (by norm_num)

end GoGates
