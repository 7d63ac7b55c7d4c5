import TelemetryPlatform.Terratest.PostRun

/-!
# The verdict of a terratest run

The status of a run of a module says whether its tests, the last check of the sweep and the
destroys have passed, but for counts that are multiples of 256 (`moduleStatus_eq_zero_iff`).
Each working directory that the tests left with resources is destroyed before a file is
removed, if the tests have failed; if they have passed or could not be run, its state is removed
without that (`spared_iff`). Whatever the tests end in, the account is swept, unless a call or
the reading of a state raises on the way (`swept_iff`). No test runs in an account with a
denied role, and one run id names the resources, the sweeps and the file of the module
(`allowed_of_tests`).
-/

namespace Terratest

open Python Interaction

section Preparation

variable {rt : Runtime} {setup : Setup} {seen : Seen}

/-- An exception that a shell sees. -/
def Fails : ModuleError → Prop
  | .exit code _ => code = 1
  | _ => True

theorem Fails.of_uncaught {error : ModuleError} (uncaught : Uncaught error) : Fails error := by
  cases error with
  | exit code stderr => exact False.elim uncaught
  | python exc => trivial
  | raised text => trivial

theorem moduleStatus_of_fails {error : ModuleError} (fails : Fails error) :
    moduleStatus (.error error) ≠ 0 := by
  cases error with
  | exit code stderr =>
      rw [show code = 1 from fails]
      change (ExitCode.int 1).status ≠ 0
      decide
  | python exc => exact Nat.one_ne_zero
  | raised text => exact Nat.one_ne_zero

theorem fails_content {reading : Reading} {error : ModuleError}
    (raised : reading.content = .error error) : Fails error := by
  cases reading with
  | osError reason =>
      cases raised
      trivial
  | undecodable reason =>
      cases raised
      trivial
  | text content => cases raised

theorem fails_validateModulePath {error : ModuleError}
    (raised : validateModulePath rt setup = .error error) : Fails error := by
  rw [validateModulePath] at raised
  split_ifs at raised
  · cases raised
    rfl
  · cases raised
    rfl
  · split at raised
    · cases raised
      rfl
    · next goMod _ =>
        cases read : goMod.content with
        | error other =>
            rw [read] at raised
            cases raised
            exact fails_content read
        | ok content =>
            rw [read] at raised
            change (if Contains requiredGoModule content then _ else _) = _ at raised
            split_ifs at raised
            · cases raised
            · cases raised
              rfl

theorem fails_readAccounts {error : ModuleError}
    (raised : readAccounts rt setup = .error error) : Fails error := by
  rw [readAccounts] at raised
  split at raised
  · cases raised
    rfl
  · next reading _ =>
      cases read : reading.content with
      | error other =>
          rw [read] at raised
          cases raised
          exact fails_content read
      | ok content =>
          simp only [read, ok_bind] at raised
          split at raised <;> cases raised
          · rfl
          · trivial

theorem fails_parseTestConfig {error : ModuleError}
    (raised : parseTestConfig setup = .error error) : Fails error := by
  rw [parseTestConfig] at raised
  cases found : setup.testConfig with
  | none =>
      rw [found] at raised
      cases raised
      rfl
  | some reading =>
      rw [found] at raised
      cases read : reading.content with
      | error other =>
          simp only [read] at raised
          cases raised
          exact fails_content read
      | ok content =>
          simp only [read] at raised
          cases raised

/-- A phase before the tests. -/
def Prepared {α : Type} (seen : Seen) : Except ModuleError α → Seen → Prop
  | .ok _, seen' => Retried [] 0 seen seen'
  | .error error, seen' => Fails error ∧ Retrying seen seen'

theorem Retried.none (seen : Seen) : Retried [] 0 seen seen := ⟨.refl seen, rfl, rfl, Iff.rfl⟩

theorem watched_checkDenySet :
    (checkDenySet rt setup).Watched (Seen.watch rt) (Prepared seen) seen := by
  have lifted {α : Type} (result : Except Exc α) : (liftExc result).Watched (Seen.watch rt)
      (Prepared seen) seen := by
    cases result with
    | error exc => exact ⟨trivial, .refl seen⟩
    | ok value => exact .none seen
  have denies {α : Type} (result : Except Exc α) (next : α → Module Str)
      (rest : ∀ value, (next value).Watched (Seen.watch rt) (Prepared seen) seen) :
      (liftExc result >>= next).Watched (Seen.watch rt) (Prepared seen) seen := by
    cases result with
    | error exc => exact ⟨trivial, .refl seen⟩
    | ok value => exact rest value
  unfold checkDenySet
  cases read : readAccounts rt setup with
  | error error => exact ⟨fails_readAccounts read, .refl seen⟩
  | ok accounts =>
      rintro (text | caller)
      · exact ⟨trivial, .refl seen⟩
      · apply denies
        intro role
        apply denies
        intro denied
        split_ifs
        · apply denies
          exact fun text => ⟨rfl, .refl seen⟩
        · exact .none seen

theorem watched_generateRunId :
    (generateRunId setup).Watched (Seen.watch rt) (Prepared seen) seen := by
  unfold generateRunId
  cases setText? setup runIdVar with
  | some given => exact .none seen
  | none => exact fun _ => .none seen

theorem watched_writeRunIdFile (runId : Str) :
    (writeRunIdFile setup runId).Watched (Seen.watch rt) (Prepared seen) seen := by
  rintro (text | ⟨⟩)
  · exact ⟨rfl, .refl seen⟩
  · exact .none seen

theorem watched_getOrCreatePluginCacheDir :
    (getOrCreatePluginCacheDir setup).Watched (Seen.watch rt) (Prepared seen) seen := by
  rintro (text | ⟨⟩)
  · exact ⟨trivial, .refl seen⟩
  · exact .none seen

theorem watched_initAll (env : Environ) (dirs : List Dir) :
    (initAll env dirs).Watched (Seen.watch rt) (Prepared seen) seen := by
  induction dirs generalizing seen with
  | nil => exact .none seen
  | cons dir dirs ih =>
      refine (watched_invokeTerraform initArgs dir (by decide)).bind ?_ ?_
      · rintro result seen₁ ready
        refine ih.mono ?_
        rintro (error | ⟨⟩) seen₂ ended
        · exact ⟨ended.1, ready.retrying.trans ended.2⟩
        · exact ready.trans ended
      · rintro error seen₁ ⟨stuck, text, rfl⟩
        exact ⟨trivial, stuck.retrying⟩

/-- What a run has done by its end. -/
structure Verdict (rt : Runtime) (seen : Seen) (ended : Except Str Int) (files : Examples)
    (outcome : Except ModuleError Unit) (seen' : Seen) : Prop where
  after : After rt (ended.toOption.getD 0) files { seen with tests := some (ended, files) } seen'
  exit : ∀ goExit residue, ended = .ok goExit → residue? seen'.checks = some residue →
    outcome = .error (.exit (exitCode goExit residue seen'.leaks) [])
  uncaught : (∀ goExit, ended ≠ .ok goExit) ∨ residue? seen'.checks = none →
    ∃ error, outcome = .error error ∧ Uncaught error

theorem watched_runTests (timeout runId : Str) (env : Environ) (fresh : Fresh seen) :
    (runTests rt setup timeout runId env).Watched (Seen.watch rt) (fun outcome seen' =>
      ∃ ended files, seen'.tests = some (ended, files) ∧
        Verdict rt seen ended files outcome seen') seen := by
  rintro ⟨text | goExit, files⟩
  · have started : Fresh { seen with tests := some (.error text, files) } :=
      ⟨fresh.checks, fresh.destroyed, fresh.leaks, fresh.removed, fresh.open_, fresh.unswept⟩
    refine (watched_postRun runId started).bind ?_ ?_
    · rintro ⟨residue, leaks⟩ seen₁ ⟨after, -⟩
      refine ⟨.error text, files, after.tests, after, ?_, ?_⟩
      · rintro goExit residue ⟨⟩
      · exact fun _ => ⟨.raised text, rfl, trivial⟩
    · rintro error seen₁ ⟨after, uncaught, -⟩
      refine ⟨.error text, files, after.tests, after, ?_, ?_⟩
      · rintro goExit residue ⟨⟩
      · exact fun _ => ⟨error, rfl, uncaught⟩
  · have started : Fresh { seen with tests := some (.ok goExit, files) } :=
      ⟨fresh.checks, fresh.destroyed, fresh.leaks, fresh.removed, fresh.open_, fresh.unswept⟩
    refine (watched_postRun runId started).bind ?_ ?_
    · rintro ⟨residue, leaks⟩ seen₁ ⟨after, decided, rfl⟩
      refine ⟨.ok goExit, files, after.tests, after, ?_, ?_⟩
      · rintro _ other ⟨⟩ otherDecided
        rw [decided] at otherDecided
        cases otherDecided
        rfl
      · rintro (other | undecided)
        · exact absurd rfl (other goExit)
        · rw [decided] at undecided
          cases undecided
    · rintro error seen₁ ⟨after, uncaught, undecided⟩
      refine ⟨.ok goExit, files, after.tests, after, ?_, ?_⟩
      · rintro _ residue ⟨⟩ decided
        rw [undecided] at decided
        cases decided
      · exact fun _ => ⟨error, rfl, uncaught⟩

variable (rt setup) in
theorem watched_prepare :
    (prepare rt setup).Watched (Seen.watch rt) (Prepared .nothing) .nothing := by
  have stopped {α β : Type} {seen : Seen} (ready : Retried [] 0 .nothing seen) (error : ModuleError)
      (seen' : Seen) (ended : Prepared seen (.error error : Except ModuleError α) seen') :
      Prepared .nothing (.error error : Except ModuleError β) seen' :=
    ⟨ended.1, ready.retrying.trans ended.2⟩
  have start : Retried [] 0 .nothing .nothing := .none .nothing
  unfold prepare
  cases validated : validateModulePath rt setup with
  | error error => exact ⟨fails_validateModulePath validated, .refl _⟩
  | ok _ =>
  cases parsed : parseTestConfig setup with
  | error error => exact ⟨fails_parseTestConfig parsed, .refl _⟩
  | ok config =>
  refine watched_checkDenySet.bind ?_ (stopped start)
  intro caller seen₁ first
  refine watched_generateRunId.bind ?_ (stopped first)
  intro runId seen₂ second
  have upTo₂ : Retried [] 0 .nothing seen₂ := first.trans second
  refine (watched_writeRunIdFile runId).bind ?_ (stopped upTo₂)
  intro _ seen₃ third
  have upTo₃ : Retried [] 0 .nothing seen₃ := upTo₂.trans third
  refine watched_getOrCreatePluginCacheDir.bind ?_ (stopped upTo₃)
  intro cacheDir seen₄ fourth
  have upTo₄ : Retried [] 0 .nothing seen₄ := upTo₃.trans fourth
  intro _ dirs
  refine (watched_initAll _ dirs).bind ?_ (stopped upTo₄)
  intro _ seen₅ fifth
  exact upTo₄.trans fifth

variable (rt setup) in
/-- A run of `main` raises before the tests, or ends in a verdict. -/
theorem watched_runModuleMain :
    (runModuleMain rt setup).Watched (Seen.watch rt) (fun outcome seen' =>
      (seen'.tests = none ∧ ∃ error, outcome = .error error ∧ Fails error) ∨
      ∃ ended files before, Fresh before ∧ seen'.tests = some (ended, files) ∧
        Verdict rt before ended files outcome seen') .nothing := by
  refine (watched_prepare rt setup).bind ?_ ?_
  · intro run seen ready
    have fresh : Fresh seen :=
      ⟨ready.retrying.checks, ready.destroyed, ready.leaks_eq, ready.retrying.removed,
        fun blocked => Bool.false_ne_true (ready.open_.mp blocked), fun swept => by
          rw [ready.retrying.swept] at swept
          cases swept⟩
    refine (watched_runTests run.timeout run.runId run.env fresh).mono ?_
    rintro outcome seen' ⟨ended, files, tests, verdict⟩
    exact Or.inr ⟨ended, files, seen, fresh, tests, verdict⟩
  · intro error seen ended
    exact Or.inl ⟨ended.2.tests, error, rfl, ended.1⟩

end Preparation

section Results

variable {rt : Runtime} {setup : Setup} {log : List ModuleEvent}
  {outcome : Except ModuleError Unit}

/-- A count that a shell takes for success. -/
def Wraps (count : Int) : Prop := 0 < count ∧ count < 2 ^ 63 ∧ (256 : Int) ∣ count

theorem status_exitCode (goExit residue : Int) (leaks : Nat) :
    (ExitCode.int (exitCode goExit residue leaks)).status = 0 ↔
      goExit = 0 ∧ residue = 0 ∧ leaks = 0 ∨ Wraps (max (max goExit residue) leaks) := by
  unfold exitCode
  split_ifs with failed
  · have some : ¬(goExit = 0 ∧ residue = 0 ∧ leaks = 0) := by tauto
    rw [or_iff_right some, status_int, Wraps]
    generalize max (max goExit residue) (leaks : Int) = count
    omega
  · have all : goExit = 0 ∧ residue = 0 ∧ leaks = 0 := by tauto
    exact ⟨fun _ => Or.inl all, fun _ => rfl⟩

/-- The tests have passed, nothing is left, or the counts look like that to a shell. -/
def Seen.Passed (seen : Seen) : Prop :=
  ∃ goExit files residue, seen.tests = some (.ok goExit, files) ∧
    residue? seen.checks = some residue ∧
    (goExit = 0 ∧ residue = 0 ∧ seen.leaks = 0 ∨ Wraps (max (max goExit residue) seen.leaks))

/-- When the run of a module has status 0. -/
theorem moduleStatus_eq_zero_iff (ran : (runModuleMain rt setup).Runs log outcome) :
    moduleStatus outcome = 0 ↔ (seenIn rt log).Passed := by
  have watched := Program.watched_iff.mp (watched_runModuleMain rt setup) log outcome ran
  change (seenIn rt log).tests = none ∧ _ ∨ ∃ ended files before, Fresh before ∧
    (seenIn rt log).tests = some (ended, files) ∧ Verdict rt before ended files outcome
      (seenIn rt log) at watched
  rcases watched with ⟨untested, error, rfl, fails⟩ | ⟨ended, files, before, -, tests, verdict⟩
  · constructor
    · exact fun passed => absurd passed (moduleStatus_of_fails fails)
    · rintro ⟨goExit, files, residue, tests, -⟩
      rw [untested] at tests
      cases tests
  · by_cases decided : ∃ goExit residue, ended = .ok goExit ∧
        residue? (seenIn rt log).checks = some residue
    · rcases decided with ⟨goExit, residue, rfl, found⟩
      rw [verdict.exit goExit residue rfl found]
      change (ExitCode.int (exitCode goExit residue (seenIn rt log).leaks)).status = 0 ↔ _
      rw [status_exitCode]
      constructor
      · exact fun passed => ⟨goExit, files, residue, tests, found, passed⟩
      · rintro ⟨otherExit, otherFiles, otherResidue, otherTests, otherFound, passed⟩
        rw [tests] at otherTests
        rw [found] at otherFound
        cases otherTests
        cases otherFound
        exact passed
    · have undecided : (∀ goExit, ended ≠ .ok goExit) ∨
          residue? (seenIn rt log).checks = none := by
        rcases ended with text | goExit
        · left
          rintro goExit ⟨⟩
        · right
          by_contra some
          rcases Option.ne_none_iff_exists'.mp some with ⟨residue, found⟩
          exact decided ⟨goExit, residue, rfl, found⟩
      rcases verdict.uncaught undecided with ⟨error, rfl, uncaught⟩
      constructor
      · exact fun passed => absurd passed (moduleStatus_of_fails (.of_uncaught uncaught))
      · rintro ⟨goExit, otherFiles, residue, otherTests, found, -⟩
        rw [tests] at otherTests
        cases otherTests
        exact absurd ⟨goExit, residue, rfl, found⟩ decided

/-- A run that has reached the tests. -/
theorem after_of_tests (ran : (runModuleMain rt setup).Runs log outcome)
    {ended : Except Str Int} {files : Examples}
    (tests : (seenIn rt log).tests = some (ended, files)) : ∃ before : Seen,
      After rt (ended.toOption.getD 0) files { before with tests := some (ended, files) }
        (seenIn rt log) := by
  have watched := Program.watched_iff.mp (watched_runModuleMain rt setup) log outcome ran
  change (seenIn rt log).tests = none ∧ _ ∨ ∃ ended files before, Fresh before ∧
    (seenIn rt log).tests = some (ended, files) ∧ Verdict rt before ended files outcome
      (seenIn rt log) at watched
  rcases watched with ⟨untested, -⟩ | ⟨other, otherFiles, before, -, otherTests, verdict⟩
  · rw [untested] at tests
    cases tests
  · rw [otherTests] at tests
    cases tests
    exact ⟨before, verdict.after⟩

/--
Once the tests have run, whatever they ended in, the account is swept if and only if no call
raises on the way and, after tests that have failed, the states can be read.
-/
theorem swept_iff (ran : (runModuleMain rt setup).Runs log outcome) {ended : Except Str Int}
    {files : Examples} (tests : (seenIn rt log).tests = some (ended, files)) :
    (seenIn rt log).swept ↔ ¬(seenIn rt log).blocked ∧
      ((∃ code, code ≠ 0 ∧ ended = .ok code) → ∃ live, liveDirs rt files = .ok live) := by
  rcases after_of_tests ran tests with ⟨before, after⟩
  rw [after.swept]
  apply and_congr_right
  intro _
  constructor
  · rintro scans ⟨code, failed, rfl⟩
    exact scans failed
  · intro scans failed
    rcases ended with text | code
    · exact absurd rfl failed
    · exact scans ⟨code, failed, rfl⟩

/-- A state with resources. -/
def Live (rt : Runtime) (file : Dir × Reading) : Prop :=
  file.1.getLast? = some stateFile ∧ (stateHasResources rt file.2).toOption = some true

theorem stateHasResources_of_live {file : Dir × Reading} (isLive : Live rt file) :
    stateHasResources rt file.2 = .ok true := by
  cases read : stateHasResources rt file.2 with
  | error error =>
      have live := isLive.2
      rw [read] at live
      cases live
  | ok live =>
      have isTrue := isLive.2
      rw [read] at isTrue
      cases isTrue
      rfl

/-- No state with resources is removed before a destroy was attempted in its directory. -/
def Seen.Spares (rt : Runtime) (seen : Seen) (files : Examples) : Prop :=
  ∀ file ∈ files, Live rt file → ∀ entry ∈ seen.removed,
    entry.1 = file.1 ∨ below entry.1 file.1 → file.1.dropLast ∈ entry.2

theorem mem_liveDirs {files : Examples} {live : List Dir} (scans : liveDirs rt files = .ok live)
    {file : Dir × Reading} (fileMem : file ∈ files) (isLive : Live rt file) :
    file.1.dropLast ∈ live := by
  induction files generalizing live with
  | nil => exact absurd fileMem List.not_mem_nil
  | cons first files ih =>
      rw [liveDirs] at scans
      rcases List.mem_cons.mp fileMem with rfl | later
      · rw [if_pos isLive.1, stateHasResources_of_live isLive] at scans
        cases found : liveDirs rt files with
        | error error =>
            rw [found] at scans
            cases scans
        | ok others =>
            rw [found] at scans
            cases scans
            exact List.mem_cons_self
      · split_ifs at scans
        · cases read : stateHasResources rt first.2 with
          | error error =>
              rw [read] at scans
              cases scans
          | ok isFirst =>
              cases found : liveDirs rt files with
              | error error =>
                  rw [read, found] at scans
                  cases scans
              | ok others =>
                  rw [read, found] at scans
                  cases scans
                  have mem := ih found later
                  cases isFirst with
                  | true => exact List.mem_cons_of_mem _ mem
                  | false => exact mem
        · exact ih scans later

/--
In a run that sweeps the account, the states of the tests are removed after a destroy in their
directories if and only if the tests have failed, or have left no resources.
-/
theorem spared_iff (ran : (runModuleMain rt setup).Runs log outcome) {ended : Except Str Int}
    {files : Examples} (tests : (seenIn rt log).tests = some (ended, files))
    (swept : (seenIn rt log).swept) :
    (seenIn rt log).Spares rt files ↔
      (∃ code, code ≠ 0 ∧ ended = .ok code) ∨ ∀ file ∈ files, ¬Live rt file := by
  rcases after_of_tests ran tests with ⟨before, after⟩
  constructor
  · intro spares
    by_contra neither
    rcases not_or.mp neither with ⟨unfailed, some⟩
    simp only [not_forall, not_not, exists_prop] at some
    rcases some with ⟨file, fileMem, isLive⟩
    have passed : ended.toOption.getD 0 = 0 := by
      rcases ended with text | code
      · rfl
      · by_contra failed
        exact unfailed ⟨code, failed, rfl⟩
    rcases after.gone passed swept file fileMem isLive.1 with ⟨path, pathMem, isGone⟩
    rcases List.mem_map.mp pathMem with ⟨entry, entryMem, rfl⟩
    have destroyed := spares file fileMem isLive entry entryMem isGone
    rw [after.undestroyed passed entry entryMem] at destroyed
    exact List.not_mem_nil destroyed
  · rintro (⟨code, failed, rfl⟩ | none)
    · intro file fileMem isLive entry entryMem _
      rcases after.late failed entry entryMem with ⟨live, scans, within⟩
      exact within _ (mem_liveDirs scans fileMem isLive)
    · intro file fileMem isLive
      exact absurd isLive (none file fileMem)

/-- The calls before the tests. -/
def BeforeTests : ModuleCall → Prop
  | .goTest _ _ => False
  | .sweep _ _ => False
  | _ => True

/-- The calls from the tests on, with one environment and one run id. -/
def FromTests (env : Environ) (runId : Str) : ModuleCall → Prop
  | .goTest _ given => given = env
  | .sweep _ given => given = runId
  | _ => True

theorem issuesOnly_liftExc {α : Type} {allowed : ModuleCall → Prop} (result : Except Exc α) :
    (liftExc result).IssuesOnly allowed := Program.issuesOnly_ofExcept

theorem issuesOnly_checkDenySet : (checkDenySet rt setup).IssuesOnly BeforeTests := by
  refine Program.issuesOnly_ofExcept.bind fun accounts => ⟨trivial, ?_⟩
  rintro (text | caller)
  · trivial
  · refine (issuesOnly_liftExc _).bind fun role => (issuesOnly_liftExc _).bind fun denied => ?_
    split_ifs
    · exact (issuesOnly_liftExc _).bind fun text => trivial
    · trivial

theorem issuesOnly_generateRunId : (generateRunId setup).IssuesOnly BeforeTests := by
  unfold generateRunId
  cases setText? setup runIdVar with
  | some given => trivial
  | none => exact ⟨trivial, fun _ => trivial⟩

theorem issuesOnly_writeRunIdFile (runId : Str) :
    (writeRunIdFile setup runId).IssuesOnly BeforeTests := by
  refine ⟨trivial, ?_⟩
  rintro (text | ⟨⟩) <;> trivial

theorem issuesOnly_getOrCreatePluginCacheDir :
    (getOrCreatePluginCacheDir setup).IssuesOnly BeforeTests := by
  refine ⟨trivial, ?_⟩
  rintro (text | ⟨⟩) <;> trivial

theorem issuesOnly_invokeTerraform {allowed : ModuleCall → Prop} {args : List Str} {dir : Dir}
    {env : Environ} (isAllowed : allowed (.terraform args dir env)) :
    (invokeTerraform args dir env).IssuesOnly allowed := by
  refine ⟨isAllowed, ?_⟩
  rintro ⟨text | code, files⟩ <;> trivial

theorem issuesOnly_prewarm (cacheDir : Str) :
    (prewarmProviderCache setup cacheDir).IssuesOnly BeforeTests := by
  refine ⟨trivial, fun dirs => ?_⟩
  have each (dirs : List Dir) (env : Environ) : (initAll env dirs).IssuesOnly BeforeTests := by
    induction dirs with
    | nil => trivial
    | cons dir dirs ih => exact (issuesOnly_invokeTerraform trivial).bind fun _ => ih
  exact each dirs _

theorem issuesOnly_runTests (timeout runId : Str) (env : Environ) :
    (runTests rt setup timeout runId env).IssuesOnly (FromTests env runId) := by
  have prints (lines : List Str) : (eprintAll lines).IssuesOnly (FromTests env runId) := by
    induction lines with
    | nil => trivial
    | cons line lines ih => exact ⟨trivial, fun _ => ih⟩
  have sweeps (mode : SweepMode) : (runSweep mode runId).IssuesOnly (FromTests env runId) := by
    refine ⟨rfl, ?_⟩
    rintro ((code | text) | ⟨⟩) <;> trivial
  have unlinks (paths : List Dir) : (unlinkAll paths).IssuesOnly (FromTests env runId) := by
    induction paths with
    | nil => trivial
    | cons path paths ih =>
        refine ⟨trivial, ?_⟩
        rintro (text | ⟨⟩)
        · trivial
        · exact ih
  have removes (dirs : List Dir) (files : Examples) :
      (removeTerraformDirs dirs files).IssuesOnly (FromTests env runId) := by
    induction dirs generalizing files with
    | nil => trivial
    | cons dir dirs ih =>
        rw [removeTerraformDirs]
        split_ifs
        · exact ⟨trivial, fun _ => ih _⟩
        · exact ih files
  have retries (dirs : List Dir) (leaks : Nat) (files : Examples) :
      (retryDirs rt setup env dirs leaks files).IssuesOnly (FromTests env runId) := by
    induction dirs generalizing leaks files with
    | nil => trivial
    | cons dir dirs ih =>
        refine Program.IssuesOnly.bind ⟨trivial, fun _ => ?_⟩ fun _ => ih _ _
        refine (issuesOnly_invokeTerraform trivial).bind fun _ =>
          (issuesOnly_invokeTerraform trivial).bind fun _ =>
            Program.issuesOnly_ofExcept.bind fun _ => ⟨trivial, fun _ => trivial⟩
  have after (goExit : Int) (files : Examples) :
      (postRun rt setup runId env goExit files).IssuesOnly (FromTests env runId) := by
    refine Program.IssuesOnly.bind ?_ fun _ => ?_
    · unfold retryAfter
      split_ifs
      · refine Program.issuesOnly_ofExcept.bind fun _ => ?_
        split_ifs
        · trivial
        · exact ⟨trivial, fun _ => retries _ _ _⟩
      · trivial
    · refine Program.IssuesOnly.bind ?_ fun _ => Program.IssuesOnly.bind ?_ fun _ =>
        (prints _).bind fun _ => trivial
      · exact (removes _ _).bind fun _ => (unlinks _).bind fun _ => unlinks _
      · refine (sweeps .check).bind fun _ => ?_
        split_ifs
        · trivial
        · exact (sweeps .delete).bind fun _ => sweeps .check
  refine ⟨rfl, ?_⟩
  rintro ⟨text | goExit, files⟩
  · exact (after 0 files).bind fun _ => trivial
  · exact (after goExit files).bind fun _ => trivial

/-- What is seen of the tests is the reply that they have given. -/
theorem exists_goTest_of_tests {reply : Except Str Int × Examples}
    (tests : (seenIn rt log).tests = some reply) :
    ∃ timeout env, (⟨.goTest timeout env, reply⟩ : ModuleEvent) ∈ log := by
  suffices given : ∀ seen : Seen, (log.foldl (Seen.watch rt) seen).tests = some reply →
      seen.tests = some reply ∨ ∃ timeout env, (⟨.goTest timeout env, reply⟩ : ModuleEvent) ∈ log by
    rcases given .nothing tests with none | found
    · cases none
    · exact found
  clear tests
  induction log with
  | nil => exact fun _ same => .inl same
  | cons event log ih =>
      intro seen same
      rcases ih (seen.watch rt event) same with early | ⟨timeout, env, mem⟩
      · unfold Seen.watch at early
        split at early
        · cases early
          exact .inr ⟨_, _, List.mem_cons_self⟩
        all_goals first
          | exact .inl early
          | (split_ifs at early <;> exact .inl early)
      · exact .inr ⟨timeout, env, List.mem_cons_of_mem _ mem⟩

/-- What the tests are told about the run. -/
theorem get_goEnv (config : List (Str × Str)) (runId cacheDir caller : Str) :
    dictGet? (goEnv setup config runId cacheDir caller) (str "AWS_ACCOUNT_ID") = some caller ∧
      dictGet? (goEnv setup config runId cacheDir caller) runIdVar = some runId ∧
      dictGet? (goEnv setup config runId cacheDir caller) (str "TF_VAR_terratest_run_id") =
        some runId := by
  have idempotent (key : Str) (other : key ≠ idempotencyVar) :
      dictGet? (((dictGet? config idempotencyVar).map fun value =>
        (idempotencyVar, value)).toList.reverse) key = none := by
    cases dictGet? config idempotencyVar with
    | none => rfl
    | some value => exact if_neg (Ne.symm other)
  unfold goEnv
  refine ⟨?_, ?_, ?_⟩
  · rw [dictGet?_dictWrites, List.reverse_append, dictGet?_append, idempotent _ (by decide)]
    rfl
  · rw [dictGet?_dictWrites, List.reverse_append, dictGet?_append, idempotent _ (by decide)]
    rfl
  · rw [dictGet?_dictWrites, List.reverse_append, dictGet?_append, idempotent _ (by decide)]
    rfl

theorem ok_of_mapError {α : Type} {result : Except Exc α} {value : α}
    (same : result.mapError ModuleError.python = .ok value) : result = .ok value := by
  cases result with
  | error exc => cases same
  | ok other =>
      cases same
      rfl

/-- A run of the deny check that returns has an account without a denied role. -/
theorem allowed_of_checkDenySet {caller : Str}
    (ran : (checkDenySet rt setup).Runs log (.ok caller)) :
    ⟨.getCallerIdentity, .ok caller⟩ ∈ log ∧ ∃ accounts role, readAccounts rt setup = .ok accounts ∧
      accountRole rt accounts caller = .ok role ∧ isDenied rt role = .ok false := by
  rcases Program.runs_bind_ok.mp ran with ⟨accounts, first, second, log_eq, read, asked⟩
  rcases Program.runs_ofExcept.mp read with ⟨rfl, accounts_eq⟩
  rcases asked with ⟨text | identity, later, rfl, checks⟩
  · cases checks.2
  · change (refuseDenied rt accounts identity).Runs later (.ok caller) at checks
    rcases Program.runs_bind_ok.mp checks with ⟨role, third, fourth, later_eq, found, denies⟩
    rcases Program.runs_ofExcept.mp found with ⟨rfl, role_eq⟩
    rcases Program.runs_bind_ok.mp denies with ⟨denied, fifth, sixth, fourth_eq, checked, ends⟩
    rcases Program.runs_ofExcept.mp checked with ⟨rfl, denied_eq⟩
    cases denied with
    | true =>
        rcases Program.runs_bind_ok.mp ends with ⟨text, _, _, _, _, raises⟩
        cases raises.2
    | false =>
        cases ends.2
        refine ⟨?_, accounts, role, accounts_eq.symm, ?_, ?_⟩
        · rw [log_eq]
          exact List.mem_cons_self
        · exact ok_of_mapError role_eq.symm
        · exact ok_of_mapError denied_eq.symm

theorem issuesOnly_prepare : (prepare rt setup).IssuesOnly BeforeTests :=
  Program.issuesOnly_ofExcept.bind fun _ => Program.issuesOnly_ofExcept.bind fun _ =>
    issuesOnly_checkDenySet.bind fun _ => issuesOnly_generateRunId.bind fun runId =>
      (issuesOnly_writeRunIdFile runId).bind fun _ =>
        issuesOnly_getOrCreatePluginCacheDir.bind fun cacheDir =>
          ⟨trivial, fun _ => (issuesOnly_prewarm cacheDir).bind fun _ => trivial⟩

/-- What the phases before the tests have established when they return. -/
theorem allowed_of_prepare {run : TestRun} (ran : (prepare rt setup).Runs log (.ok run)) :
    ∃ caller accounts role config cacheDir, ⟨.getCallerIdentity, .ok caller⟩ ∈ log ∧
      readAccounts rt setup = .ok accounts ∧ accountRole rt accounts caller = .ok role ∧
      isDenied rt role = .ok false ∧ run.env = goEnv setup config run.runId cacheDir caller ∧
      ⟨.writeRunId (moduleFile setup (str ".terratest-run-id")) (run.runId ++ str "\n"), .ok ()⟩ ∈
        log := by
  rcases Program.runs_bind_ok.mp ran with ⟨_, log₁, rest₁, rfl, _, ran₁⟩
  rcases Program.runs_bind_ok.mp ran₁ with ⟨config, log₂, rest₂, rfl, _, ran₂⟩
  rcases Program.runs_bind_ok.mp ran₂ with ⟨caller, log₃, rest₃, rfl, denied, ran₃⟩
  rcases Program.runs_bind_ok.mp ran₃ with ⟨runId, log₄, rest₄, rfl, _, ran₄⟩
  rcases Program.runs_bind_ok.mp ran₄ with ⟨_, log₅, rest₅, rfl, written, ran₅⟩
  rcases Program.runs_bind_ok.mp ran₅ with ⟨cacheDir, log₆, rest₆, rfl, _, ran₆⟩
  rcases Program.runs_bind_ok.mp ran₆ with ⟨_, log₇, rest₇, rfl, _, ran₇⟩
  rcases Program.runs_bind_ok.mp ran₇ with ⟨_, log₈, rest₈, rfl, _, ran₈⟩
  cases ran₈.2
  rcases allowed_of_checkDenySet denied with ⟨asked, accounts, role, accounts_eq, role_eq, fine⟩
  refine ⟨caller, accounts, role, config, cacheDir, ?_, accounts_eq, role_eq, fine, rfl, ?_⟩
  · simp only [List.mem_append]
    tauto
  · rcases written with ⟨text | ⟨⟩, later, rfl, ended⟩
    · cases ended.2
    · simp only [List.mem_append, List.mem_cons]
      tauto

/--
Tests run only in an account without a denied role, and one run id names what they create,
the file of the module and every sweep.
-/
theorem allowed_of_tests (ran : (runModuleMain rt setup).Runs log outcome) {timeout : Str}
    {env : Environ} {reply : Except Str Int × Examples}
    (tested : (⟨.goTest timeout env, reply⟩ : ModuleEvent) ∈ log) :
    ∃ caller accounts role runId, ⟨.getCallerIdentity, .ok caller⟩ ∈ log ∧
      readAccounts rt setup = .ok accounts ∧ accountRole rt accounts caller = .ok role ∧
      isDenied rt role = .ok false ∧
      dictGet? env (str "AWS_ACCOUNT_ID") = some caller ∧
      dictGet? env runIdVar = some runId ∧
      dictGet? env (str "TF_VAR_terratest_run_id") = some runId ∧
      ⟨.writeRunId (moduleFile setup (str ".terratest-run-id")) (runId ++ str "\n"), .ok ()⟩ ∈ log ∧
      ∀ event ∈ log, ∀ mode given, event.request = .sweep mode given → given = runId := by
  have early : ¬BeforeTests (.goTest timeout env) := id
  rcases Program.runs_bind_of_mem issuesOnly_prepare ran tested early with
    ⟨run, first, second, rfl, prepared, rest, testedLater⟩
  rcases allowed_of_prepare prepared with
    ⟨caller, accounts, role, config, cacheDir, asked, accounts_eq, role_eq, fine, env_eq, wrote⟩
  have late := (issuesOnly_runTests run.timeout run.runId run.env).allowed_of_runs rest
  have own : env = run.env := late _ testedLater
  have told := @get_goEnv setup config run.runId cacheDir caller
  rw [← env_eq, ← own] at told
  refine ⟨caller, accounts, role, run.runId, List.mem_append_left _ asked, accounts_eq, role_eq,
    fine, told.1, told.2.1, told.2.2, List.mem_append_left _ wrote, ?_⟩
  intro event eventMem mode given isSweep
  rcases List.mem_append.mp eventMem with before | after
  · have impossible := issuesOnly_prepare.allowed_of_runs prepared event before
    rw [isSweep] at impossible
    exact False.elim impossible
  · have same := late event after
    rw [isSweep] at same
    exact same

end Results

namespace Sample

/-- A module in a sandbox account. -/
def setup : Setup where
  modulePath := str "m"
  accountsJson := str "accounts.json"
  examplesPath := str "/m/examples"
  home := str "/root"
  environ := [(runIdVar, str "tt-1")]
  moduleExists := true
  testsExists := true
  goMod := some (.text requiredGoModule)
  testConfig := some (.text [])
  accounts := some (.text (str "{}"))

/-- An example that the tests have left with a resource. -/
def left : Examples := [([str "basic", stateFile], .text (str "\x7b\"resources\":[1]\x7d"))]

/-- The replies to a run whose tests end with a code, and whose sweep finds some residue. -/
def reply (goExit residue : Int) : (call : ModuleCall) → call.Reply
  | .getCallerIdentity => .ok (str "111122223333")
  | .newRunId => ([], [])
  | .writeRunId _ _ => .ok ()
  | .makeDir _ => .ok ()
  | .killStaleProviders _ => ()
  | .listExamples => []
  | .terraform _ _ _ => (.ok 0, [])
  | .goTest _ _ => (.ok goExit, left)
  | .rmtree _ => []
  | .unlink _ => .ok ()
  | .sweep _ _ => .error (.systemExit (.int residue))
  | .eprint _ => ()

/-- A run with these replies. -/
def run (goExit residue : Int) : List ModuleEvent × Except ModuleError Unit :=
  (runModuleMain Runtime.whole setup).answer (reply goExit residue)

end Sample

/-- A residue of 256 passes. -/
theorem passed_256 : (seenIn Runtime.whole (Sample.run 0 256).1).Passed :=
  (moduleStatus_eq_zero_iff (Program.runs_answer _ _)).mp (by decide +kernel)

/-- After tests that have failed the account is swept. -/
theorem swept_failed : ¬(seenIn Runtime.whole (Sample.run 1 0).1).blocked ∧
    ((∃ code : Int, code ≠ 0 ∧ (.ok 1 : Except Str Int) = .ok code) →
      ∃ live, liveDirs Runtime.whole Sample.left = .ok live) :=
  (swept_iff (Program.runs_answer _ _) (by decide +kernel)).mp (by decide +kernel)

/-- The tests of the sample run in an account without a denied role. -/
theorem allowed_sample : ∃ caller accounts role runId,
    ⟨.getCallerIdentity, .ok caller⟩ ∈ (Sample.run 0 0).1 ∧
      readAccounts Runtime.whole Sample.setup = .ok accounts ∧
      accountRole Runtime.whole accounts caller = .ok role ∧
      isDenied Runtime.whole role = .ok false ∧
      ⟨.writeRunId (moduleFile Sample.setup (str ".terratest-run-id")) (runId ++ str "\n"),
        .ok ()⟩ ∈
        (Sample.run 0 0).1 ∧
      ∀ event ∈ (Sample.run 0 0).1, ∀ mode given, event.request = .sweep mode given →
        given = runId := by
  have tests : (seenIn Runtime.whole (Sample.run 0 0).1).tests = some (.ok 0, Sample.left) := by
    decide +kernel
  rcases exists_goTest_of_tests tests with ⟨timeout, env, mem⟩
  rcases allowed_of_tests (Program.runs_answer _ _) mem with
    ⟨caller, accounts, role, runId, asked, read, found, fine, -, -, -, wrote, swept⟩
  exact ⟨caller, accounts, role, runId, asked, read, found, fine, wrote, swept⟩

/-- Tests that pass and leave a resource lose its state. -/
theorem not_spared_passed : ¬(seenIn Runtime.whole (Sample.run 0 0).1).Spares Runtime.whole
    Sample.left := by
  intro spares
  have tests : (seenIn Runtime.whole (Sample.run 0 0).1).tests = some (.ok 0, Sample.left) := by
    decide +kernel
  rcases (spared_iff (Program.runs_answer _ _) tests (by decide +kernel)).mp spares with
    ⟨code, failed, same⟩ | none
  · cases same
    exact failed rfl
  · exact none _ List.mem_cons_self ⟨by decide +kernel, by decide +kernel⟩

end Terratest
