import TelemetryPlatform.BranchLock.Operations
import TelemetryPlatform.Library.WholeRuntime

/-!
# Recovering the branch

A branch is recoverable when its lock flag is set only together with a marker:
`unlock_branch` without a marker does nothing, so a flag without a marker stays
set. Histories are sequences of complete or aborted operations, in which any
call may fail; they start from an unlocked branch.

Both releasing operations can break this. `unlock_branch` deletes the marker
before it clears the flag, and takes a marker it failed to read for an absent
one; the watchdog deletes the marker and never touches the flag.
`recovers_iff_uninterrupted` says exactly when a history avoids all three.
-/

namespace BranchLock

open Python Interaction Transition

variable (rt : Runtime) (repo branch : Str)

/-- An environment that points the watchdog at a branch. -/
structure SafetyNet.Config where
  environ : SafetyNet.Environ
  repo_eq : SafetyNet.requireEnv rt environ (str "REPO") = .ok repo
  branch_eq : SafetyNet.requireEnv rt environ (str "BRANCH") = .ok branch

inductive Operation where
  | lockBranch (runId : Str)
  | unlockBranch
  | safetyNet (config : SafetyNet.Config rt repo branch)

/-- The program of an operation; only the watchdog has a result. -/
def Operation.program : Operation rt repo branch → Gh rt (Option SafetyNet.UnlockDecision)
  | .lockBranch runId => do
      BranchLock.lockBranch rt repo branch runId
      return none
  | .unlockBranch => do
      BranchLock.unlockBranch rt repo branch
      return none
  | .safetyNet config => do
      let decision ← SafetyNet.main rt config.environ
      return some decision

/-- One operation of a history: its calls with their replies, and how it ended. -/
structure Record where
  operation : Operation rt repo branch
  log : List (GhEvent rt)
  outcome : Except Exc (Option SafetyNet.UnlockDecision)

def Performs (before : Repo) (record : Record rt repo branch) (after : Repo) : Prop :=
  record.operation.program.Runs record.log record.outcome ∧
    Path (Exchange rt) before record.log after

namespace Repo

/-- No marker, and the flag is clear. -/
def unlocked : Repo := ⟨none, false⟩

def Recoverable (repo : Repo) : Prop := repo.lockBranch = true → repo.marker ≠ none

end Repo

variable {rt repo branch}

/-- An operation that reported the branch released left the flag clear. -/
def Released (step : Step Repo (Record rt repo branch)) : Prop :=
  match step.label.operation with
  | .lockBranch _ => True
  | .unlockBranch => step.label.outcome = .ok none → step.after.lockBranch = false
  | .safetyNet _ => step.label.outcome = .ok (some .doUnlock) → step.after.lockBranch = false

/--
The calls that must not fail while the flag is set. `unlock_branch` has to see
the marker, and once it has deleted it has to reach the end; the watchdog must
not get its delete through.
-/
def Uninterrupted (step : Step Repo (Record rt repo branch)) : Prop :=
  step.before.lockBranch = true →
    match step.label.operation with
    | .lockBranch _ => True
    | .unlockBranch =>
        (∀ read : CompletedProcess,
            ⟨.run (.getVariable repo (varName rt branch)), read⟩ ∈ step.label.log →
              read.returncode = 0) ∧
          ∀ deleted : CompletedProcess,
            ⟨.run (.deleteVariable repo (varName rt branch)), deleted⟩ ∈ step.label.log →
              deleted.returncode = 0 →
                (∀ read : CompletedProcess,
                  ⟨.run (.getProtection repo branch), read⟩ ∈ step.label.log →
                    Rewritable rt false read) ∧
                ∀ (body : rt.Value) (result : CompletedProcess),
                  ⟨.run (.putProtection repo branch body), result⟩ ∈ step.label.log →
                    result.returncode = 0
    | .safetyNet _ =>
        ∀ deleted : CompletedProcess,
          ⟨.run (.deleteVariable repo (varName rt branch)), deleted⟩ ∈ step.label.log →
            deleted.returncode ≠ 0

/-- What an operation leaves behind when its calls are not interrupted. -/
structure Sound (repo : Repo) : Prop where
  recoverable : repo.Recoverable
  markerShown : ∀ value, repo.marker = some value → showsValue (value ++ str "\n")

theorem sound_unlocked : Sound Repo.unlocked :=
  ⟨by simp [Repo.Recoverable, Repo.unlocked], by simp [Repo.unlocked]⟩

/-- A marker the scripts wrote is printed as a value. -/
theorem showsValue_of_writtenBy {runId value : Str} (written : WrittenBy rt runId value) :
    showsValue (value ++ str "\n") := by
  rcases written with ⟨epoch, dumped⟩
  simp only [Runtime.dumps] at dumped
  split at dumped
  · injection dumped with rendered
    have braced : ∃ middle, value = .char '{' :: middle ++ [.char '}'] := by
      rw [← rendered, marker, Runtime.render]
      exact ⟨_, by simp only [List.cons_append, ← List.append_assoc]; rfl⟩
    rcases braced with ⟨middle, rfl⟩
    rw [showsValue, strip_append_newline (by decide) (by decide)]
    exact ⟨by simp, by simp [str]⟩
  · cases dumped

section Effects

variable {before after : Repo} {log : List (GhEvent rt)}

theorem eq_of_reads (reads : ∀ event ∈ log, event.request.IsRead)
    (path : Path (Exchange rt) before log after) : after = before := by
  refine Path.invariant (fun repo => repo = before) (fun event => event.request.IsRead) ?_ reads
    path rfl
  rintro middle ⟨request, reply⟩ last isRead rfl exchanged
  cases request with
  | time => exact exchanged
  | run command =>
      cases command with
      | getVariable repo name => exact exchanged.2
      | getProtection repo branch => exact exchanged
      | workflowRuns repo workflow branch => exact exchanged
      | patchVariable repo name value => exact absurd isRead id
      | postVariable repo name value => exact absurd isRead id
      | deleteVariable repo name => exact absurd isRead id
      | putProtection repo branch body => exact absurd isRead id

theorem MarkerWritten.effect {name value : Str} {outcome : Except Exc Unit}
    (written : MarkerWritten repo name value log outcome)
    (path : Path (Exchange rt) before log after) :
    outcome = .ok () ∧ after = { before with marker := some value } ∨
      (∃ error, outcome = .error error) ∧ after = before := by
  cases written with
  | updated result done =>
      simp only [path_cons, path_nil, Exchange, done, if_true] at path
      rcases path with ⟨middle, ⟨_, rfl⟩, rfl⟩
      exact Or.inl ⟨rfl, rfl⟩
  | created result result2 absent done =>
      simp only [path_cons, path_nil, Exchange, absent, done, if_true, if_false] at path
      rcases path with ⟨middle, rfl, last, ⟨_, rfl⟩, rfl⟩
      exact Or.inl ⟨rfl, rfl⟩
  | refused result result2 error absent refused =>
      simp only [path_cons, path_nil, Exchange, absent, refused, if_false] at path
      rcases path with ⟨middle, rfl, last, rfl, rfl⟩
      exact Or.inr ⟨⟨error, rfl⟩, rfl⟩

theorem LockBranchPut.effect {lock : Bool} {outcome : Except Exc Unit}
    (put : LockBranchPut rt lock repo branch log outcome)
    (path : Path (Exchange rt) before log after) :
    outcome = .ok () ∧ after = { before with lockBranch := lock } ∨
      (∃ error, outcome = .error error) ∧ after = before := by
  cases put with
  | notRead read error failed =>
      simp only [path_cons, path_nil, Exchange] at path
      rcases path with ⟨middle, rfl, rfl⟩
      exact Or.inr ⟨⟨error, rfl⟩, rfl⟩
  | written read result body requested rewritable done =>
      simp only [path_cons, path_nil, Exchange, done, if_true, requested] at path
      rcases path with ⟨middle, rfl, last, rfl, rfl⟩
      exact Or.inl ⟨rfl, rfl⟩
  | refused read result body error rewritable failed =>
      simp only [path_cons, path_nil, Exchange, failed, if_false] at path
      rcases path with ⟨middle, rfl, last, rfl, rfl⟩
      exact Or.inr ⟨⟨error, rfl⟩, rfl⟩

theorem writeLockMarker_effect {runId : Str} {outcome : Except Exc Unit}
    (ran : (writeLockMarker rt repo branch runId).Runs log outcome)
    (path : Path (Exchange rt) before log after) :
    (∃ value, outcome = .ok () ∧ WrittenBy rt runId value ∧
        after = { before with marker := some value }) ∨
      (∃ error, outcome = .error error) ∧ after = before := by
  rcases writeLockMarker_cases ran with ⟨epoch, ⟨rfl, failed⟩ | ⟨value, rest, rfl, text, did⟩⟩
  · simp only [path_cons, path_nil, Exchange] at path
    rcases path with ⟨last, rfl, rfl⟩
    exact Or.inr ⟨failed, rfl⟩
  · rcases path_cons.mp path with ⟨middle, timed, restPath⟩
    have same : middle = before := timed
    subst same
    rcases did.effect restPath with ⟨rfl, rfl⟩ | ⟨failed, rfl⟩
    · exact Or.inl ⟨value, rfl, text, rfl⟩
    · exact Or.inr ⟨failed, rfl⟩

/-- `lock_branch` sets the flag only after its marker is in place. -/
theorem sound_of_lockBranch {runId : Str} {outcome : Except Exc Unit} (sound : Sound before)
    (ran : (lockBranch rt repo branch runId).Runs log outcome)
    (path : Path (Exchange rt) before log after) : Sound after := by
  rw [lockBranch, Program.runs_bind] at ran
  rcases ran with ⟨error, rfl, writing⟩ | ⟨_, first, second, rfl, writing, enabling⟩
  · rcases writeLockMarker_effect writing path with ⟨_, impossible, _⟩ | ⟨_, rfl⟩
    · cases impossible
    · exact sound
  · rcases path_append.mp path with ⟨middle, firstPath, secondPath⟩
    rcases writeLockMarker_effect writing firstPath with
      ⟨value, _, text, rfl⟩ | ⟨⟨_, impossible⟩, _⟩
    · have shown := showsValue_of_writtenBy text
      rcases (putLockBranch_cases enabling).effect secondPath with ⟨_, rfl⟩ | ⟨_, rfl⟩
      · exact ⟨fun _ => by simp, by rintro _ ⟨⟩; exact shown⟩
      · exact ⟨fun _ => by simp, by rintro _ ⟨⟩; exact shown⟩
    · cases impossible

theorem delete_effect {name : Str} {deleted : CompletedProcess} {rest : List (GhEvent rt)}
    (path : Path (Exchange rt) before (⟨.run (.deleteVariable repo name), deleted⟩ :: rest) after) :
    deleted.returncode = 0 ∧ Path (Exchange rt) { before with marker := none } rest after ∨
      deleted.returncode ≠ 0 ∧ Path (Exchange rt) before rest after := by
  rcases path_cons.mp path with ⟨middle, exchanged, restPath⟩
  by_cases done : deleted.returncode = 0
  · simp only [Exchange, done, if_true] at exchanged
    rcases exchanged with ⟨_, rfl⟩
    exact Or.inl ⟨done, restPath⟩
  · simp only [Exchange, done, if_false] at exchanged
    subst exchanged
    exact Or.inr ⟨done, restPath⟩

end Effects

section Unlocking

variable {step : Step Repo (Record rt repo branch)}

/-- The decomposition of a step that runs `unlock_branch`. -/
theorem unlocked_of_performs (isUnlock : step.label.operation = .unlockBranch)
    (performed : Performs rt repo branch step.before step.label step.after) :
    ∃ outcome, Unlocked rt repo branch step.label.log outcome ∧
      step.label.outcome = outcome.map fun _ => none := by
  have ran := performed.1
  rw [isUnlock] at ran
  simp only [Operation.program, Program.runs_bind] at ran
  rcases ran with ⟨error, failed, ran⟩ | ⟨_, first, second, log_eq, ran, rfl, returned⟩
  · exact ⟨_, unlockBranch_cases ran, failed⟩
  · rw [log_eq, List.append_nil]
    exact ⟨_, unlockBranch_cases ran, returned⟩

theorem watched_of_performs {config : SafetyNet.Config rt repo branch}
    (isWatch : step.label.operation = .safetyNet config)
    (performed : Performs rt repo branch step.before step.label step.after) :
    ∃ outcome, SafetyNet.Watched rt repo branch step.label.log outcome ∧
      step.label.outcome = outcome.map some := by
  have ran := performed.1
  rw [isWatch] at ran
  simp only [Operation.program, Program.runs_bind] at ran
  rcases ran with ⟨error, failed, ran⟩ | ⟨_, first, second, log_eq, ran, rfl, returned⟩
  · exact ⟨_, SafetyNet.main_cases config.repo_eq config.branch_eq ran, failed⟩
  · rw [log_eq, List.append_nil]
    exact ⟨_, SafetyNet.main_cases config.repo_eq config.branch_eq ran, returned⟩

/-- `unlock_branch`, uninterrupted: the marker never goes without the flag. -/
theorem sound_of_unlocked (sound : Sound step.before)
    (isUnlock : step.label.operation = .unlockBranch)
    (performed : Performs rt repo branch step.before step.label step.after)
    (uninterrupted : Uninterrupted step) : Sound step.after ∧ Released step := by
  rcases unlocked_of_performs isUnlock performed with ⟨outcome, unlocked, outcome_eq⟩
  have path := performed.2
  simp only [Uninterrupted, isUnlock] at uninterrupted
  simp only [Released, isUnlock, outcome_eq]
  generalize step.label.log = log at unlocked path uninterrupted
  cases unlocked with
  | noMarker read hidden =>
      simp only [path_cons, path_nil, Exchange] at path
      rcases path with ⟨middle, ⟨answered, same⟩, last⟩
      rw [same] at last
      rw [last]
      refine ⟨sound, fun _ => ?_⟩
      by_contra flag
      have flagSet : step.before.lockBranch = true := by simpa using flag
      have served := (uninterrupted flagSet).1 read List.mem_cons_self
      rcases answered served with ⟨value, marker_eq, stdout_eq⟩
      refine hidden ⟨served, ?_⟩
      rw [stdout_eq]
      exact sound.markerShown value marker_eq
  | notDeleted read deleted error shown failed =>
      rcases path_cons.mp path with ⟨middle, ⟨_, same⟩, deletion⟩
      rw [same] at deletion
      rcases delete_effect deletion with ⟨done, _⟩ | ⟨_, last⟩
      · exact absurd done failed
      · rw [path_nil] at last
        rw [last]
        refine ⟨sound, ?_⟩
        rintro ⟨⟩
  | deleted read deleted shown disabled =>
      rcases path_cons.mp path with ⟨middle, ⟨_, same⟩, deletion⟩
      rw [same] at deletion
      rcases delete_effect deletion with ⟨done, rest⟩ | ⟨_, rest⟩
      · rcases disabled.effect rest with ⟨_, after_eq⟩ | ⟨⟨error, rfl⟩, after_eq⟩
        · rw [after_eq]
          refine ⟨⟨?_, ?_⟩, fun _ => rfl⟩
          · rintro ⟨⟩
          · rintro _ ⟨⟩
        · rw [after_eq]
          refine ⟨⟨fun flag => ?_, ?_⟩, ?_⟩
          · have finishes := (uninterrupted flag).2 deleted (by simp) done
            cases disabled with
            | notRead read error failed => exact absurd (finishes.1 read (by simp)) failed
            | refused read result body error rewritable failed =>
                exact absurd (finishes.2 body result (by simp)) failed
          · rintro _ ⟨⟩
          · rintro ⟨⟩
      · rcases disabled.effect rest with ⟨_, after_eq⟩ | ⟨⟨error, rfl⟩, after_eq⟩
        · rw [after_eq]
          refine ⟨⟨?_, sound.markerShown⟩, fun _ => rfl⟩
          rintro ⟨⟩
        · rw [after_eq]
          refine ⟨sound, ?_⟩
          rintro ⟨⟩

theorem sound_of_watched (sound : Sound step.before) {config : SafetyNet.Config rt repo branch}
    (isWatch : step.label.operation = .safetyNet config)
    (performed : Performs rt repo branch step.before step.label step.after)
    (uninterrupted : Uninterrupted step) : Sound step.after ∧ Released step := by
  rcases watched_of_performs isWatch performed with ⟨outcome, watched, outcome_eq⟩
  have path := performed.2
  simp only [Uninterrupted, isWatch] at uninterrupted
  simp only [Released, isWatch, outcome_eq]
  generalize step.label.log = log at watched path uninterrupted
  cases watched with
  | retained log outcome reads kept =>
      rw [eq_of_reads reads path]
      refine ⟨sound, fun released => absurd ?_ kept⟩
      cases outcome with
      | error error => cases released
      | ok decision =>
          injection released with same
          injection same with same
          rw [same]
  | released reading deleted outcome reads decided =>
      rcases path_append.mp path with ⟨middle, readingPath, deletion⟩
      rw [eq_of_reads reads readingPath] at deletion
      rcases delete_effect deletion with ⟨done, last⟩ | ⟨failed, last⟩
      · rw [path_nil] at last
        have flagClear : step.before.lockBranch = false := by
          by_contra flag
          have flagSet : step.before.lockBranch = true := by simpa using flag
          exact uninterrupted flagSet deleted (by simp) done
        rw [last]
        exact ⟨⟨fun flag => by simp [flagClear] at flag, nofun⟩, fun _ => flagClear⟩
      · rw [path_nil] at last
        rw [last]
        rcases decided with ⟨_, done⟩ | ⟨⟨error, rfl⟩, _⟩
        · exact absurd done failed
        · exact ⟨sound, nofun⟩

theorem sound_of_performs (sound : Sound step.before)
    (performed : Performs rt repo branch step.before step.label step.after)
    (uninterrupted : Uninterrupted step) : Sound step.after ∧ Released step := by
  cases isOperation : step.label.operation with
  | unlockBranch => exact sound_of_unlocked sound isOperation performed uninterrupted
  | safetyNet config => exact sound_of_watched sound isOperation performed uninterrupted
  | lockBranch runId =>
      refine ⟨?_, by simp [Released, isOperation]⟩
      rcases performed with ⟨ran, path⟩
      rw [isOperation] at ran
      simp only [Operation.program, Program.runs_bind] at ran
      rcases ran with ⟨error, _, ran⟩ | ⟨_, first, second, log_eq, ran, rfl, _⟩
      · exact sound_of_lockBranch sound ran path
      · rw [log_eq, List.append_nil] at path
        exact sound_of_lockBranch sound ran path

/-- A step that leaves the branch recoverable and released what it said was not interrupted. -/
theorem uninterrupted_of_recoverable
    (performed : Performs rt repo branch step.before step.label step.after)
    (recoverable : step.after.Recoverable) (released : Released step) : Uninterrupted step := by
  intro flagSet
  have path := performed.2
  cases isOperation : step.label.operation with
  | lockBranch runId => trivial
  | unlockBranch =>
      rcases unlocked_of_performs isOperation performed with ⟨outcome, unlocked, outcome_eq⟩
      simp only [Released, isOperation, outcome_eq] at released
      simp only
      generalize step.label.log = log at unlocked path
      cases unlocked with
      | noMarker read hidden =>
          simp only [path_cons, path_nil, Exchange] at path
          rcases path with ⟨middle, ⟨_, same⟩, last⟩
          rw [same] at last
          have flagClear := released rfl
          rw [last, flagSet] at flagClear
          cases flagClear
      | notDeleted read deleted error shown failed =>
          constructor
          · intro read' readMem
            have same : read' = read := by simpa using readMem
            rw [same]
            exact shown.1
          · intro deleted' deletedMem done
            have same : deleted' = deleted := by simpa using deletedMem
            rw [same] at done
            exact absurd done failed
      | deleted read deleted shown disabled =>
          rcases path_cons.mp path with ⟨middle, ⟨_, same⟩, deletion⟩
          rw [same] at deletion
          have notGone (done : deleted.returncode = 0) : outcome = .ok () := by
            rcases delete_effect deletion with ⟨_, rest⟩ | ⟨failed, _⟩
            · rcases disabled.effect rest with ⟨finished, _⟩ | ⟨_, after_eq⟩
              · exact finished
              · rw [after_eq] at recoverable
                exact absurd rfl (recoverable flagSet)
            · exact absurd done failed
          cases disabled with
          | notRead read' error failed =>
              constructor
              · intro read'' readMem
                have same : read'' = read := by simpa using readMem
                rw [same]
                exact shown.1
              · intro deleted' deletedMem done
                have same : deleted' = deleted := by simpa using deletedMem
                rw [same] at done
                cases notGone done
          | refused read' result body error rewritable failed =>
              constructor
              · intro read'' readMem
                have same : read'' = read := by simpa using readMem
                rw [same]
                exact shown.1
              · intro deleted' deletedMem done
                have same : deleted' = deleted := by simpa using deletedMem
                rw [same] at done
                cases notGone done
          | written read' result body requested rewritable done =>
              constructor
              · intro read'' readMem
                have same : read'' = read := by simpa using readMem
                rw [same]
                exact shown.1
              · intro deleted' deletedMem _
                constructor
                · intro read'' readMem
                  have same : read'' = read' := by simpa using readMem
                  rw [same]
                  exact rewritable
                · intro body' result' putMem
                  have same : body' = body ∧ result' = result := by simpa using putMem
                  rw [same.2]
                  exact done
  | safetyNet config =>
      rcases watched_of_performs isOperation performed with ⟨outcome, watched, outcome_eq⟩
      simp only
      generalize step.label.log = log at watched path
      intro deleted deletedMem done
      cases watched with
      | retained log outcome reads kept => exact reads _ deletedMem
      | released reading gone outcome reads decided =>
          rcases path_append.mp path with ⟨middle, readingPath, deletion⟩
          rw [eq_of_reads reads readingPath] at deletion
          rcases List.mem_append.mp deletedMem with deletedMem | deletedMem
          · exact reads _ deletedMem
          · simp at deletedMem
            rw [deletedMem] at done
            rcases delete_effect deletion with ⟨_, last⟩ | ⟨failed, _⟩
            · rw [path_nil] at last
              rw [last] at recoverable
              exact absurd rfl (recoverable flagSet)
            · exact absurd done failed

end Unlocking

/--
A history from an unlocked branch keeps it recoverable, and releases it whenever
an operation says so, exactly when no operation is interrupted while the flag is
set.
-/
theorem recovers_iff_uninterrupted {steps : List (Step Repo (Record rt repo branch))}
    (history : Trace (Performs rt repo branch) Repo.unlocked steps) :
    (∀ step ∈ steps, step.after.Recoverable ∧ Released step) ↔
      ∀ step ∈ steps, Uninterrupted step := by
  constructor
  · intro recovers step stepMem
    rcases recovers step stepMem with ⟨recoverable, released⟩
    exact uninterrupted_of_recoverable (history.rel_of_mem stepMem) recoverable released
  · intro uninterrupted step stepMem
    have sound := history.invariant Sound
      (fun step allowed sound performed => (sound_of_performs sound performed allowed).1)
      sound_unlocked uninterrupted step stepMem
    have performed := history.rel_of_mem stepMem
    have finished := sound_of_performs sound.1 performed (uninterrupted step stepMem)
    exact ⟨finished.1.recoverable, finished.2⟩

namespace Sample

/-- A command GitHub carried out. -/
def served (stdout : Str) : CompletedProcess := ⟨0, stdout, []⟩

def notFound : CompletedProcess := ⟨1, [], str "gh: Not Found (HTTP 404)"⟩

def badGateway : CompletedProcess := ⟨1, [], str "gh: Bad Gateway (HTTP 502)"⟩

def platform : Str := str "example-org/telemetry-platform"

def trunk : Str := str "main"

def protectionText : Str :=
  str "\x7b\"enforce_admins\": \x7b\"enabled\": false\x7d, " ++
    str "\"lock_branch\": \x7b\"enabled\": false\x7d\x7d"

theorem rewritable_protectionText (lock : Bool) :
    Rewritable Runtime.whole lock (served protectionText) := by
  have evaluated : ((Runtime.whole.loads protectionText).bind fun protection =>
      protectionPutBody Runtime.whole protection lock).isOk = true := by
    cases lock <;> decide +kernel
  refine ⟨rfl, ?_⟩
  have stdout_eq : (served protectionText).stdout = protectionText := rfl
  rw [stdout_eq]
  cases loaded : Runtime.whole.loads protectionText with
  | error error => simp [loaded, Except.bind, Except.isOk, Except.toBool] at evaluated
  | ok protection =>
      cases built : protectionPutBody Runtime.whole protection lock with
      | error error => simp [loaded, built, Except.bind, Except.isOk, Except.toBool] at evaluated
      | ok body => exact ⟨protection, body, rfl, built⟩

/-- The marker a run writes at time zero. -/
def markerText (runId : Str) : Str :=
  Runtime.whole.render .standard (marker Runtime.whole runId (0 : Int))

theorem dumps_marker (runId : Str) :
    Runtime.whole.dumps .standard (marker Runtime.whole runId (0 : Int)) =
      .ok (markerText runId) :=
  if_pos (show 1 ≤ 1000 by omega)

theorem writtenBy_markerText (runId : Str) :
    WrittenBy Runtime.whole runId (markerText runId) :=
  ⟨(0 : Int), dumps_marker runId⟩

/-- `lock_branch` on an unlocked branch when every call is carried out. -/
theorem exists_lockRun (runId : Str) : ∃ log : List (GhEvent Runtime.whole),
    (lockBranch Runtime.whole platform trunk runId).Runs log (.ok ()) ∧
      Path (Exchange Runtime.whole) Repo.unlocked log ⟨some (markerText runId), true⟩ := by
  rcases rewritable_protectionText true with ⟨_, protection, body, loaded, built⟩
  have ran := runs_lockBranch platform trunk notFound (served []) (served protectionText)
    (served []) (dumps_marker runId) (by decide) rfl rfl loaded built rfl
  refine ⟨_, ran, ?_⟩
  simp [Exchange, Repo.unlocked, notFound, served, requestsLock_of_protectionPutBody built]

/-- The same on a branch that another run has locked. -/
theorem exists_lockRun_over (runId owner : Str) : ∃ log : List (GhEvent Runtime.whole),
    (lockBranch Runtime.whole platform trunk runId).Runs log (.ok ()) ∧
      Path (Exchange Runtime.whole) ⟨some owner, true⟩ log ⟨some (markerText runId), true⟩ := by
  rcases rewritable_protectionText true with ⟨_, protection, body, loaded, built⟩
  have ran := runs_lockBranch_over platform trunk (served []) (served protectionText)
    (served []) (dumps_marker runId) rfl rfl loaded built rfl
  refine ⟨_, ran, ?_⟩
  simp [Exchange, served, requestsLock_of_protectionPutBody built]

/-- Run 42 locks the branch. -/
theorem exists_locking : ∃ record : Record Runtime.whole platform trunk,
    record.operation = .lockBranch (str "42") ∧
      Performs Runtime.whole platform trunk Repo.unlocked record
        ⟨some (markerText (str "42")), true⟩ := by
  rcases exists_lockRun (str "42") with ⟨log, ran, path⟩
  exact ⟨⟨.lockBranch (str "42"), _, .ok none⟩, rfl,
    Program.runs_bind_ok.mpr ⟨(), log, [], (List.append_nil _).symm, ran, rfl, rfl⟩, path⟩

/-- The release of that lock when every call is carried out. -/
theorem exists_unlocking : ∃ record : Record Runtime.whole platform trunk,
    record.operation = .unlockBranch ∧
      Performs Runtime.whole platform trunk ⟨some (markerText (str "42")),
          true⟩ record Repo.unlocked := by
  rcases rewritable_protectionText false with ⟨_, protection, body, loaded, built⟩
  have disabling := runs_disableBranchLock platform trunk (served protectionText) (served []) rfl
    loaded built rfl
  have ran := runs_unlockBranch platform trunk (served (markerText (str "42") ++ str "\n"))
    (served []) rfl (showsValue_of_writtenBy (writtenBy_markerText _)) rfl disabling
  refine ⟨⟨.unlockBranch, _, .ok none⟩, rfl,
    Program.runs_bind_ok.mpr ⟨(), _, [], (List.append_nil _).symm, ran, rfl, rfl⟩, ?_⟩
  simp [Exchange, Repo.unlocked, served, requestsLock_of_protectionPutBody built]

/-- The release of that lock when GitHub fails between the two parts. -/
theorem exists_halfUnlocking : ∃ record : Record Runtime.whole platform trunk,
    record.operation = .unlockBranch ∧
      Performs Runtime.whole platform trunk ⟨some (markerText (str "42")), true⟩ record ⟨none,
          true⟩ := by
  rcases runs_disableBranchLock_notRead platform trunk Runtime.whole badGateway (by decide) with
    ⟨error, disabling⟩
  have ran := runs_unlockBranch platform trunk (served (markerText (str "42") ++ str "\n"))
    (served []) rfl (showsValue_of_writtenBy (writtenBy_markerText _)) rfl disabling
  refine ⟨⟨.unlockBranch, _, .error error⟩, rfl,
    Program.runs_bind.mpr (Or.inl ⟨error, rfl, ran⟩), ?_⟩
  simp [Exchange, served, badGateway]

/-- A history that locks and releases the branch. -/
theorem exists_history : ∃ steps : List (Step Repo (Record Runtime.whole platform trunk)),
    steps.length = 2 ∧ Trace (Performs Runtime.whole platform trunk) Repo.unlocked steps := by
  rcases exists_locking with ⟨locking, _, locked⟩
  rcases exists_unlocking with ⟨unlocking, _, released⟩
  exact ⟨[⟨_, locking, _⟩, ⟨_, unlocking, _⟩], rfl, rfl, locked, rfl, released, trivial⟩

end Sample

theorem recovers_iff_uninterrupted_history :
    ∃ steps : List (Step Repo (Record Runtime.whole Sample.platform Sample.trunk)),
      steps.length = 2 ∧
        ((∀ step ∈ steps, step.after.Recoverable ∧ Released step) ↔
          ∀ step ∈ steps, Uninterrupted step) := by
  rcases Sample.exists_history with ⟨steps, long, history⟩
  exact ⟨steps, long, recovers_iff_uninterrupted history⟩

/-- `unlock_branch` deletes the marker, fails to read the rule, and leaves the flag set. -/
theorem halfUnlocked_not_recoverable :
    ¬∀ (rt : Runtime) (repo branch : Str) (steps : List (Step Repo (Record rt repo branch))),
      Trace (Performs rt repo branch) Repo.unlocked steps →
        ∀ step ∈ steps, step.after.Recoverable ∧ Released step := by
  intro recovers
  rcases Sample.exists_locking with ⟨locking, _, locked⟩
  rcases Sample.exists_halfUnlocking with ⟨unlocking, _, released⟩
  have claimed := recovers _ Sample.platform Sample.trunk
    [⟨Repo.unlocked, locking, ⟨some (Sample.markerText (str "42")), true⟩⟩,
      ⟨⟨some (Sample.markerText (str "42")), true⟩, unlocking, ⟨none, true⟩⟩]
    ⟨rfl, locked, rfl, released, trivial⟩ ⟨_, unlocking, _⟩
    (List.mem_cons_of_mem _ List.mem_cons_self)
  exact claimed.1 rfl rfl

end BranchLock
