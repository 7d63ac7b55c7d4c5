import Mathlib.Data.Set.Card
import Mathlib.Logic.Function.Basic
import TelemetryPlatform.BranchLock.Recovery

/-!
# Mutual exclusion of releases

Any number of release runs and watchdogs share the lock of one branch. Every
action of the system is one call of one program, or a run entering or leaving
`lock_branch` and `unlock_branch`; runs may end at any point.

The marker names its owner, but neither script compares that name with anything
before it writes or deletes the marker. The lock therefore excludes nobody by
itself: it protects a run only while the callers are serialised. `Serialised`
states what that takes, and `exclusive_of_serialised` that it is enough. Nothing
is assumed about the order of a watchdog's reads and the runs' calls beyond it:
that a watchdog never deletes the marker of a run it did not see follows from
the count it makes before it deletes.

Two fields of the state are not part of the program: `engaged` records that a
run's marker write was carried out and that the run has neither called
`unlock_branch` nor failed nor ended since, and a watchdog remembers whether it
has `counted` no run in progress and whether a marker write came after that.
-/

namespace BranchLock

open Python Interaction Transition

variable (rt : Runtime) (repo branch : Str) (ι κ : Type)

inductive Phase where
  | idle
  | locking (rest : Gh rt Unit)
  | holding
  | failed
  | unlocking (rest : Gh rt Unit)
  | finished

/-- The phases in which GitHub counts the run as in progress for certain. -/
def Phase.InProgress {rt : Runtime} : Phase rt → Prop
  | .idle | .finished => False
  | .locking _ | .holding | .failed | .unlocking _ => True

structure ReleaseRun where
  phase : Phase rt
  engaged : Bool

structure Watchdog where
  rest : Gh rt SafetyNet.UnlockDecision
  counted : Bool
  overtaken : Bool

structure System where
  repo : Repo
  run : ι → ReleaseRun rt
  watchdog : κ → Option (Watchdog rt)

inductive Action where
  | lockCalled (i : ι)
  | unlockCalled (i : ι)
  | runCall (i : ι) (event : GhEvent rt)
  | runReturned (i : ι)
  | runEnded (i : ι)
  | watchStarted (k : κ) (config : SafetyNet.Config rt repo branch)
  | watchCall (k : κ) (event : GhEvent rt)
  | watchEnded (k : κ)

variable {rt repo branch ι κ}

/-- A marker write that was carried out. -/
def LandedWrite (event : GhEvent rt) : Prop :=
  match event with
  | ⟨.run (.patchVariable _ _ _), result⟩ | ⟨.run (.postVariable _ _ _), result⟩ =>
      result.returncode = 0
  | _ => False

/-- A marker delete that was carried out. -/
def LandedDelete (event : GhEvent rt) : Prop :=
  match event with
  | ⟨.run (.deleteVariable _ _), result⟩ => result.returncode = 0
  | _ => False

/-- A reply to the count of in-progress release runs that counted none. -/
def CountsNone (event : GhEvent rt) : Prop :=
  match event with
  | ⟨.run (.workflowRuns _ _ _), result⟩ =>
      result.returncode = 0 ∧ ∃ count : Int, count ≤ 0 ∧
        rt.intOfStr (strip result.stdout) = .ok count
  | _ => False

namespace System

/-- The count of in-progress runs that GitHub reports is no smaller than the true one. -/
def CountsAll (system : System rt ι κ) (event : GhEvent rt) : Prop :=
  match event with
  | ⟨.run (.workflowRuns _ _ _), result⟩ =>
      result.returncode = 0 → ∀ count : Int, rt.intOfStr (strip result.stdout) = .ok count →
        Set.encard {i | (system.run i).phase.InProgress} ≤ count.toNat
  | _ => True

variable [DecidableEq ι] [DecidableEq κ]

def setRun (system : System rt ι κ) (i : ι) (run : ReleaseRun rt) : System rt ι κ :=
  { system with run := Function.update system.run i run }

def setWatchdog (system : System rt ι κ) (k : κ) (watchdog : Option (Watchdog rt)) :
    System rt ι κ :=
  { system with watchdog := Function.update system.watchdog k watchdog }

/-- Every watchdog has been overtaken by a marker write. -/
def overtakeWatchdogs (system : System rt ι κ) : System rt ι κ :=
  { system with watchdog := fun k => (system.watchdog k).map ({ · with overtaken := true }) }

end System

/-- The phase after the reply to the next call of a phase's program. -/
def Advances (before : Phase rt) (event : GhEvent rt) (after : Phase rt) : Prop :=
  ∃ next : GhCall.Reply rt event.request → Gh rt Unit,
    before = .locking (.call event.request next) ∧ after = .locking (next event.reply) ∨
      before = .unlocking (.call event.request next) ∧ after = .unlocking (next event.reply)

/-- The run after the program of its phase has ended. -/
def Returns (before after : ReleaseRun rt) : Prop :=
  match before.phase with
  | .locking (.ret _) => after = ⟨.holding, before.engaged⟩
  | .locking (.raise _) => after = ⟨.failed, false⟩
  | .unlocking (.ret _) => after = ⟨.finished, false⟩
  | .unlocking (.raise _) => after = ⟨.failed, false⟩
  | _ => False

open Classical in
/-- What an action does, for runs with the given run ids. -/
def Acts [DecidableEq ι] [DecidableEq κ] (runId : ι → Str) (before : System rt ι κ)
    (action : Action rt repo branch ι κ) (after : System rt ι κ) : Prop :=
  match action with
  | .lockCalled i =>
      (before.run i).phase = .idle ∧
        after = before.setRun i ⟨.locking (lockBranch rt repo branch (runId i)), false⟩
  | .unlockCalled i =>
      ((before.run i).phase = .idle ∨ (before.run i).phase = .holding ∨
          (before.run i).phase = .failed) ∧
        after = before.setRun i ⟨.unlocking (unlockBranch rt repo branch), false⟩
  | .runCall i event =>
      ∃ phase github, Advances (before.run i).phase event phase ∧
        Exchange rt before.repo event github ∧
        after =
          if LandedWrite event then
            { (before.setRun i ⟨phase, true⟩).overtakeWatchdogs with repo := github }
          else { before.setRun i ⟨phase, (before.run i).engaged⟩ with repo := github }
  | .runReturned i => ∃ run, Returns (before.run i) run ∧ after = before.setRun i run
  | .runEnded i => after = before.setRun i ⟨.finished, false⟩
  | .watchStarted k config =>
      after = before.setWatchdog k (some ⟨SafetyNet.main rt config.environ, false, false⟩)
  | .watchCall k event =>
      ∃ watchdog next github, before.watchdog k = some watchdog ∧
        watchdog.rest = .call event.request next ∧ Exchange rt before.repo event github ∧
        before.CountsAll event ∧
        after =
          { before.setWatchdog k (some (
              if CountsNone event then ⟨next event.reply, true, false⟩
              else ⟨next event.reply, watchdog.counted, watchdog.overtaken⟩)) with
            repo := github }
  | .watchEnded k => after = before.setWatchdog k none

/-- No run has done anything, and the branch is unlocked. -/
def System.initial : System rt ι κ :=
  ⟨Repo.unlocked, fun _ => ⟨.idle, false⟩, fun _ => none⟩

/--
The callers are serialised. A run's write or delete of the marker is carried out
only while no other run is between its own marker write and its call of
`unlock_branch`; a watchdog's delete is carried out only if no marker write came
after its count of the runs in progress.
-/
def Serialised (step : Step (System rt ι κ) (Action rt repo branch ι κ)) : Prop :=
  match step.label with
  | .runCall i event =>
      LandedWrite event ∨ LandedDelete event →
        ∀ j, j ≠ i → (step.before.run j).engaged = false
  | .watchCall k event =>
      LandedDelete event →
        ∀ watchdog, step.before.watchdog k = some watchdog → watchdog.overtaken = false
  | _ => True

/-- At most one run has returned from `lock_branch` and not called `unlock_branch`. -/
def System.Exclusive (system : System rt ι κ) : Prop :=
  ∀ i j, (system.run i).phase = .holding → (system.run j).phase = .holding → i = j

/-- The marker names the run. -/
def Repo.Names (rt : Runtime) (github : Repo) (runId : Str) : Prop :=
  ∃ value, github.marker = some value ∧ WrittenBy rt runId value

/-- The step keeps the marker of every run that holds the lock. -/
def KeepsMarker (runId : ι → Str)
    (step : Step (System rt ι κ) (Action rt repo branch ι κ)) : Prop :=
  ∀ i, (step.before.run i).phase = .holding → step.before.repo.Names rt (runId i) →
    step.after.repo.marker = step.before.repo.marker

section Programs

/-- The calls of `lock_branch` for a run: the markers it writes are its own. -/
def LockCall (rt : Runtime) (runId : Str) : GhCall rt → Prop
  | .run (.patchVariable _ _ value) | .run (.postVariable _ _ value) =>
      WrittenBy rt runId value
  | .run (.deleteVariable _ _) => False
  | _ => True

/-- The calls of `unlock_branch` and the watchdog: no marker is written. -/
def ReleaseCall : GhCall rt → Prop
  | .run (.patchVariable _ _ _) | .run (.postVariable _ _ _) => False
  | _ => True

def IsDelete : GhCall rt → Prop
  | .run (.deleteVariable _ _) => True
  | _ => False

theorem ReleaseCall.of_isRead {request : GhCall rt} (isRead : request.IsRead) :
    ReleaseCall request := by
  cases request with
  | time => trivial
  | run command => cases command <;> trivial

theorem not_isDelete_of_isRead {request : GhCall rt} (isRead : request.IsRead) :
    ¬IsDelete request := by
  cases request with
  | time => exact not_false
  | run command => cases command <;> first | exact not_false | exact absurd isRead not_false

theorem getBranchProtection_issuesOnly {allowed : GhCall rt → Prop}
    (get : allowed (.run (.getProtection repo branch))) :
    (getBranchProtection rt repo branch).IssuesOnly allowed := by
  simp only [getBranchProtection, run_bind, Program.issuesOnly_call, Program.throw_eq_raise,
    Program.pure_eq_ret, Program.raise_bind, Program.issuesOnly_ite]
  refine ⟨get, fun read => ⟨fun _ => ⟨fun _ => trivial, fun _ => trivial⟩, fun _ => ?_⟩⟩
  cases rt.loads read.stdout with
  | ok protection => trivial
  | error error => cases error <;> trivial

theorem putLockBranch_issuesOnly {allowed : GhCall rt → Prop} {lock : Bool} {failure : String}
    (get : allowed (.run (.getProtection repo branch)))
    (put : ∀ body, allowed (.run (.putProtection repo branch body))) :
    (putLockBranch rt lock failure repo branch).IssuesOnly allowed := by
  refine (getBranchProtection_issuesOnly get).bind fun protection => ?_
  simp [put]

theorem lockBranch_issuesOnly {runId : Str} :
    (lockBranch rt repo branch runId).IssuesOnly (LockCall rt runId) := by
  refine Program.IssuesOnly.bind ?_ fun _ => putLockBranch_issuesOnly trivial fun _ => trivial
  simp only [writeLockMarker, time_bind, run_bind, Program.issuesOnly_call,
    Program.issuesOnly_ofExcept_bind, Program.issuesOnly_ite]
  refine ⟨trivial, fun epoch value dumped => ⟨⟨epoch, dumped⟩, fun patched =>
    ⟨fun _ => ⟨⟨epoch, dumped⟩, fun created => ⟨fun _ => trivial, fun _ => trivial⟩⟩,
      fun _ => trivial⟩⟩⟩

theorem lockBranch_ensures {runId : Str} :
    (lockBranch rt repo branch runId).Ensures LandedWrite := by
  apply Program.Ensures.bind
  simp only [writeLockMarker, time_bind, run_bind, Program.Ensures]
  intro epoch
  refine Or.inr ?_
  cases rt.dumps .standard (marker rt runId epoch) with
  | error error => trivial
  | ok value =>
      intro patched
      by_cases absent : patched.returncode = 0
      · exact Or.inl absent
      · refine Or.inr ?_
        simp only [absent, ne_eq, not_false_eq_true, if_true]
        intro created
        by_cases refused : created.returncode = 0
        · exact Or.inl refused
        · refine Or.inr ?_
          simp only [refused, not_false_eq_true, if_true]
          trivial

theorem unlockBranch_issuesOnly : (unlockBranch rt repo branch).IssuesOnly ReleaseCall := by
  refine Program.IssuesOnly.bind (by simp [isBranchLocked, ReleaseCall]) fun locked => ?_
  cases locked with
  | false => trivial
  | true =>
      refine Program.IssuesOnly.bind (by simp [deleteLockMarker, ReleaseCall]) fun _ => ?_
      exact putLockBranch_issuesOnly trivial fun _ => trivial

namespace SafetyNet

variable {environ : Environ}

theorem count_of_decideUnlock {info : LockInfo rt} {count maxAge : Int}
    (decided : decideUnlock rt (some info) count maxAge = .doUnlock) : count ≤ 0 := by
  by_contra positive
  have counted : count > 0 := by omega
  simp [decideUnlock, counted] at decided

theorem intOfStr_of_parseInt {text failure : Str} {value : Int}
    (parsed : parseInt rt text failure = .ok value) : rt.intOfStr text = .ok value := by
  rw [parseInt] at parsed
  split at parsed
  · next found read =>
      cases parsed
      exact read
  · cases parsed

theorem main_issuesOnly : (main rt environ).IssuesOnly ReleaseCall := by
  simp only [main, Program.issuesOnly_ofExcept_bind]
  intro repo _ branch _ maxAgeRaw _ maxAge _
  refine Program.IssuesOnly.bind (readLockInfo_issuesOnly.mono fun _ => ReleaseCall.of_isRead) ?_
  intro lockInfo
  cases lockInfo with
  | none => simp [decideUnlock]
  | some info =>
      simp only [Option.isSome_some, if_true]
      refine Program.IssuesOnly.bind
        (checkInProgressReleaseRuns_issuesOnly.mono fun _ => ReleaseCall.of_isRead) fun count => ?_
      rw [Program.issuesOnly_ite]
      exact ⟨fun _ => Program.IssuesOnly.bind (by simp [performUnlock, ReleaseCall])
        fun _ => trivial, fun _ => trivial⟩

/-- The watchdog deletes only after GitHub has counted no release run in progress. -/
theorem main_guarded : (main rt environ).Guarded IsDelete CountsNone := by
  simp only [main, Program.guarded_ofExcept_bind]
  intro repo _ branch _ maxAgeRaw _ maxAge _
  refine readLockInfo_issuesOnly.guarded_bind (fun _ => not_isDelete_of_isRead) fun lockInfo => ?_
  cases lockInfo with
  | none => simp [decideUnlock, Program.Guarded]
  | some info =>
      simp only [Option.isSome_some, if_true, checkInProgressReleaseRuns, bind_assoc,
        Program.guarded_ofExcept_bind, run_bind, Program.call_bind, Program.Guarded]
      intro workflowFile _
      refine ⟨not_false, fun result => ?_⟩
      by_cases none : CountsNone ⟨.run (.workflowRuns repo workflowFile branch), result⟩
      · exact Or.inl none
      refine Or.inr ?_
      by_cases served : result.returncode = 0
      · simp only [served, ne_eq, not_true_eq_false, if_false, Program.guarded_ofExcept_bind]
        intro count parsed
        have retained : decideUnlock rt (some info) count maxAge ≠ .doUnlock := by
          intro decided
          exact none ⟨served, count, count_of_decideUnlock decided, intOfStr_of_parseInt parsed⟩
        simp only [retained, if_false]
        trivial
      · simp only [served, ne_eq, not_false_eq_true, if_true, Program.throw_eq_raise,
          Program.raise_bind]
        trivial

end SafetyNet

end Programs

section Invariant

/-- What the programs guarantee about one run. -/
structure ReleaseRun.Ok (runId : Str) (run : ReleaseRun rt) : Prop where
  engagedPhase : run.engaged = true → (∃ rest, run.phase = .locking rest) ∨ run.phase = .holding
  holdingEngaged : run.phase = .holding → run.engaged = true
  lockingIssues : ∀ rest, run.phase = .locking rest → rest.IssuesOnly (LockCall rt runId)
  lockingEnsures : ∀ rest, run.phase = .locking rest → run.engaged = false →
    rest.Ensures LandedWrite
  unlockingIssues : ∀ rest, run.phase = .unlocking rest → rest.IssuesOnly ReleaseCall

structure Watchdog.Ok (watchdog : Watchdog rt) : Prop where
  issues : watchdog.rest.IssuesOnly ReleaseCall
  guarded : watchdog.counted = false → watchdog.rest.Guarded IsDelete CountsNone

/-- At most one run is engaged, the marker names it, and no watchdog is about to delete it. -/
structure System.Protected (runId : ι → Str) (system : System rt ι κ) : Prop where
  unique : ∀ i j, (system.run i).engaged = true → (system.run j).engaged = true → i = j
  named : ∀ i, (system.run i).engaged = true → system.repo.Names rt (runId i)
  cleared : ∀ k watchdog, system.watchdog k = some watchdog → watchdog.counted = true →
    watchdog.overtaken = false → ∀ i, (system.run i).engaged = false

structure System.Ok (runId : ι → Str) (system : System rt ι κ) : Prop where
  runs : ∀ i, (system.run i).Ok (runId i)
  watchdogs : ∀ k watchdog, system.watchdog k = some watchdog → watchdog.Ok
  guarded : system.Protected runId

variable {runId : ι → Str}

theorem ok_initial : (System.initial : System rt ι κ).Ok runId where
  runs _ := ⟨nofun, nofun, nofun, nofun, nofun⟩
  watchdogs := nofun
  guarded := ⟨nofun, nofun, nofun⟩

theorem ReleaseRun.Ok.afterCall {i : Str} {run : ReleaseRun rt} {event : GhEvent rt}
    {phase : Phase rt} (ok : run.Ok i) (advances : Advances run.phase event phase) :
    (⟨phase, run.engaged⟩ : ReleaseRun rt).Ok i ∨ LandedWrite event := by
  rcases advances with ⟨next, ⟨before, rfl⟩ | ⟨before, rfl⟩⟩
  · have issues := ok.lockingIssues _ before
    by_cases engaged : run.engaged = true
    · refine Or.inl ⟨fun _ => Or.inl ⟨_, rfl⟩, nofun, ?_, ?_, nofun⟩
      · rintro rest ⟨⟩
        exact issues.2 event.reply
      · intro rest _ notEngaged
        rw [engaged] at notEngaged
        cases notEngaged
    · have notEngaged : run.engaged = false := by simpa using engaged
      rcases ok.lockingEnsures _ before notEngaged event.reply with landed | ensures
      · exact Or.inr landed
      · refine Or.inl ⟨fun _ => Or.inl ⟨_, rfl⟩, nofun, ?_, ?_, nofun⟩
        · rintro rest ⟨⟩
          exact issues.2 event.reply
        · rintro rest ⟨⟩ _
          exact ensures
  · have issues := ok.unlockingIssues _ before
    have notEngaged : run.engaged ≠ true := by
      intro engaged
      rcases ok.engagedPhase engaged with ⟨rest, same⟩ | same <;>
        exact absurd (before.symm.trans same) nofun
    refine Or.inl ⟨fun engaged => absurd engaged notEngaged, nofun, nofun, nofun, ?_⟩
    rintro rest ⟨⟩
    exact issues.2 event.reply

/-- Only `lock_branch` writes markers, and it writes the marker of its own run. -/
theorem locking_of_landedWrite {i : Str} {run : ReleaseRun rt} {event : GhEvent rt}
    {phase : Phase rt} {before after : Repo} (ok : run.Ok i)
    (advances : Advances run.phase event phase) (landed : LandedWrite event)
    (exchanged : Exchange rt before event after) :
    (⟨phase, true⟩ : ReleaseRun rt).Ok i ∧ after.Names rt i := by
  rcases event with ⟨request, reply⟩
  rcases advances with ⟨next, ⟨phase_eq, rfl⟩ | ⟨phase_eq, rfl⟩⟩
  · have issues := ok.lockingIssues _ phase_eq
    refine ⟨⟨fun _ => Or.inl ⟨_, rfl⟩, nofun, ?_, nofun, nofun⟩, ?_⟩
    · rintro rest ⟨⟩
      exact issues.2 reply
    · cases request with
      | time => exact False.elim landed
      | run command =>
          cases command with
          | patchVariable repo name value =>
              have done : reply.returncode = 0 := landed
              simp only [Exchange, done, if_true] at exchanged
              exact ⟨value, by rw [exchanged.2], issues.1⟩
          | postVariable repo name value =>
              have done : reply.returncode = 0 := landed
              simp only [Exchange, done, if_true] at exchanged
              exact ⟨value, by rw [exchanged.2], issues.1⟩
          | getVariable repo name => exact False.elim landed
          | deleteVariable repo name => exact False.elim landed
          | getProtection repo branch => exact False.elim landed
          | putProtection repo branch body => exact False.elim landed
          | workflowRuns repo workflow branch => exact False.elim landed
  · have issues := ok.unlockingIssues _ phase_eq
    cases request with
    | time => exact False.elim landed
    | run command =>
        cases command <;> first | exact False.elim landed | exact False.elim issues.1

theorem isDelete_of_landedDelete {event : GhEvent rt} (deleted : LandedDelete event) :
    IsDelete event.request := by
  rcases event with ⟨request, reply⟩
  cases request with
  | time => exact False.elim deleted
  | run command => cases command <;> trivial

theorem not_landedWrite_of_releaseCall {event : GhEvent rt}
    (release : ReleaseCall event.request) : ¬LandedWrite event := by
  rcases event with ⟨request, reply⟩
  cases request with
  | time => exact not_false
  | run command => cases command <;> first | exact not_false | exact False.elim release

/-- A call that neither writes nor deletes a marker leaves it alone. -/
theorem marker_of_exchange {event : GhEvent rt} {before after : Repo}
    (exchanged : Exchange rt before event after) (notWritten : ¬LandedWrite event)
    (notDeleted : ¬LandedDelete event) : after.marker = before.marker := by
  rcases event with ⟨request, reply⟩
  cases request with
  | time => rw [show after = before from exchanged]
  | run command =>
      cases command with
      | patchVariable repo name value =>
          have failed : ¬reply.returncode = 0 := notWritten
          simp only [Exchange, failed, if_false] at exchanged
          rw [exchanged]
      | postVariable repo name value =>
          have failed : ¬reply.returncode = 0 := notWritten
          simp only [Exchange, failed, if_false] at exchanged
          rw [exchanged]
      | deleteVariable repo name =>
          have failed : ¬reply.returncode = 0 := notDeleted
          simp only [Exchange, failed, if_false] at exchanged
          rw [exchanged]
      | getVariable repo name => rw [exchanged.2]
      | getProtection repo branch => rw [show after = before from exchanged]
      | workflowRuns repo workflow branch => rw [show after = before from exchanged]
      | putProtection repo branch body =>
          simp only [Exchange] at exchanged
          split at exchanged <;> rw [exchanged]

/-- Fewer engaged runs, the same marker and no new finding of a watchdog. -/
theorem System.Protected.mono {before after : System rt ι κ} (guarded : before.Protected runId)
    (engaged : ∀ i, (after.run i).engaged = true → (before.run i).engaged = true)
    (marker : after.repo.marker = before.repo.marker)
    (watched : ∀ k watchdog, after.watchdog k = some watchdog → watchdog.counted = true →
      watchdog.overtaken = false → ∃ earlier, before.watchdog k = some earlier ∧
        earlier.counted = true ∧ earlier.overtaken = false) : after.Protected runId where
  unique i j engagedI engagedJ := guarded.unique i j (engaged i engagedI) (engaged j engagedJ)
  named i engagedI := by
    rcases guarded.named i (engaged i engagedI) with ⟨value, marker_eq, written⟩
    exact ⟨value, marker.trans marker_eq, written⟩
  cleared k watchdog found counted overtaken i := by
    rcases watched k watchdog found counted overtaken with ⟨earlier, was, counted, overtaken⟩
    have notEngaged := guarded.cleared k earlier was counted overtaken i
    by_contra engagedI
    have still := engaged i (by simpa using engagedI)
    rw [notEngaged] at still
    cases still

/-- Nobody is engaged, so there is nothing to protect. -/
theorem System.Protected.of_none {system : System rt ι κ}
    (none : ∀ i, (system.run i).engaged = false) : system.Protected runId where
  unique i j engaged := by simp [none i] at engaged
  named i engaged := by simp [none i] at engaged
  cleared _ _ _ _ _ := none

/-- GitHub counted no run in progress, so no run is engaged. -/
theorem not_engaged_of_countsNone {event : GhEvent rt} {before : System rt ι κ}
    (ok : before.Ok runId)
    (truthful : before.CountsAll event) (none : CountsNone event) (i : ι) :
    (before.run i).engaged = false := by
  rcases event with ⟨request, reply⟩
  cases request with
  | time => exact False.elim none
  | run command =>
      cases command with
      | workflowRuns repo workflow branch =>
          rcases none with ⟨served, count, notPositive, parsed⟩
          have bound := truthful served count parsed
          have zero : count.toNat = 0 := by omega
          rw [zero, Nat.cast_zero, nonpos_iff_eq_zero, Set.encard_eq_zero] at bound
          by_contra engaged
          have inProgress : (before.run i).phase.InProgress := by
            rcases (ok.runs i).engagedPhase (by simpa using engaged) with ⟨rest,
              phase_eq⟩ | phase_eq
            · rw [phase_eq]
              trivial
            · rw [phase_eq]
              trivial
          exact Set.eq_empty_iff_forall_notMem.mp bound i inProgress
      | patchVariable repo name value => exact False.elim none
      | postVariable repo name value => exact False.elim none
      | getVariable repo name => exact False.elim none
      | deleteVariable repo name => exact False.elim none
      | getProtection repo branch => exact False.elim none
      | putProtection repo branch body => exact False.elim none

/-- A watchdog that deletes has counted no run, and none has locked since. -/
theorem not_engaged_of_watchDelete {before : System rt ι κ} {k : κ} {event : GhEvent rt}
    {watchdog : Watchdog rt}
    {next : GhCall.Reply rt event.request → Gh rt SafetyNet.UnlockDecision}
    (ok : before.Ok runId) (found : before.watchdog k = some watchdog)
    (rest_eq : watchdog.rest = .call event.request next) (deleted : LandedDelete event)
    (notOvertaken : watchdog.overtaken = false) (i : ι) : (before.run i).engaged = false := by
  have counted : watchdog.counted = true := by
    by_contra notCounted
    have guarded := (ok.watchdogs k watchdog found).guarded (by simpa using notCounted)
    rw [rest_eq] at guarded
    exact guarded.1 (isDelete_of_landedDelete deleted)
  exact ok.guarded.cleared k watchdog found counted notOvertaken i

section Watchdogs

variable [DecidableEq κ] {before : System rt ι κ}

theorem watchdogs_setWatchdog {k : κ} {watchdog : Watchdog rt} (ok : before.Ok runId)
    (okWatchdog : watchdog.Ok) (l : κ) (other : Watchdog rt)
    (found : (before.setWatchdog k (some watchdog)).watchdog l = some other) : other.Ok := by
  by_cases same : l = k
  · subst same
    simp only [System.setWatchdog, Function.update_self, Option.some.injEq] at found
    rw [← found]
    exact okWatchdog
  · simp only [System.setWatchdog, Function.update_of_ne same] at found
    exact ok.watchdogs l other found

/-- The findings of the watchdogs after one of them has changed. -/
theorem watched_setWatchdog {k : κ} {watchdog : Option (Watchdog rt)}
    (kept : ∀ changed, watchdog = some changed → changed.counted = true →
      changed.overtaken = false → ∃ earlier, before.watchdog k = some earlier ∧
        earlier.counted = true ∧ earlier.overtaken = false) (l : κ) (other : Watchdog rt)
    (found : (before.setWatchdog k watchdog).watchdog l = some other)
    (counted : other.counted = true) (overtaken : other.overtaken = false) :
    ∃ earlier, before.watchdog l = some earlier ∧ earlier.counted = true ∧
      earlier.overtaken = false := by
  by_cases same : l = k
  · subst same
    simp only [System.setWatchdog, Function.update_self] at found
    exact kept other found counted overtaken
  · simp only [System.setWatchdog, Function.update_of_ne same] at found
    exact ⟨other, found, counted, overtaken⟩

end Watchdogs

section Steps

variable [DecidableEq ι] {before after : System rt ι κ}

theorem runs_setRun {i : ι} {run : ReleaseRun rt} (runs : ∀ j, (before.run j).Ok (runId j))
    (ok : run.Ok (runId i)) (j : ι) : ((before.setRun i run).run j).Ok (runId j) := by
  by_cases same : j = i
  · subst same
    simpa [System.setRun] using ok
  · simpa [System.setRun, same] using runs j

theorem engaged_setRun {i : ι} (run : ReleaseRun rt)
    (fewer : run.engaged = true → (before.run i).engaged = true) (j : ι)
    (engaged : ((before.setRun i run).run j).engaged = true) :
    (before.run j).engaged = true := by
  by_cases same : j = i
  · subst same
    exact fewer (by simpa [System.setRun] using engaged)
  · simpa [System.setRun, same] using engaged

/-- A run that changes its phase without a call, and is engaged only if it was. -/
theorem ok_setRun {i : ι} {run : ReleaseRun rt} (ok : before.Ok runId) (okRun : run.Ok (runId i))
    (fewer : run.engaged = true → (before.run i).engaged = true) :
    (before.setRun i run).Ok runId where
  runs := runs_setRun ok.runs okRun
  watchdogs := ok.watchdogs
  guarded := ok.guarded.mono (engaged_setRun _ fewer) rfl
    fun _ watchdog found counted overtaken => ⟨watchdog, found, counted, overtaken⟩

theorem ReleaseRun.Ok.afterReturn {i : Str} {run returned : ReleaseRun rt} (ok : run.Ok i)
    (returns : Returns run returned) :
    returned.Ok i ∧ (returned.engaged = true → run.engaged = true) := by
  rcases run with ⟨phase, engaged⟩
  cases phase with
  | idle => exact False.elim returns
  | holding => exact False.elim returns
  | failed => exact False.elim returns
  | finished => exact False.elim returns
  | locking rest =>
      cases rest with
      | call request next => exact False.elim returns
      | raise error =>
          rw [show returned = ⟨.failed, false⟩ from returns]
          exact ⟨⟨nofun, nofun, nofun, nofun, nofun⟩, nofun⟩
      | ret value =>
          have holds : engaged = true := by
            by_contra notEngaged
            exact ok.lockingEnsures _ rfl (by simpa using notEngaged)
          rw [show returned = ⟨.holding, engaged⟩ from returns]
          exact ⟨⟨fun _ => Or.inr rfl, fun _ => holds, nofun, nofun, nofun⟩, id⟩
  | unlocking rest =>
      cases rest with
      | call request next => exact False.elim returns
      | raise error =>
          rw [show returned = ⟨.failed, false⟩ from returns]
          exact ⟨⟨nofun, nofun, nofun, nofun, nofun⟩, nofun⟩
      | ret value =>
          rw [show returned = ⟨.finished, false⟩ from returns]
          exact ⟨⟨nofun, nofun, nofun, nofun, nofun⟩, nofun⟩

/-- A run whose marker is in place does not delete one. -/
theorem not_engaged_of_landedDelete {i : Str} {run : ReleaseRun rt} {event : GhEvent rt}
    {phase : Phase rt} (ok : run.Ok i) (advances : Advances run.phase event phase)
    (deleted : LandedDelete event) : run.engaged = false := by
  by_contra engaged
  have engaged : run.engaged = true := by simpa using engaged
  rcases event with ⟨request, reply⟩
  rcases advances with ⟨next, ⟨phase_eq, _⟩ | ⟨phase_eq, _⟩⟩
  · have issues := ok.lockingIssues _ phase_eq
    cases request with
    | time => exact deleted
    | run command =>
        cases command <;> first | exact False.elim deleted | exact False.elim issues.1
  · rcases ok.engagedPhase engaged with ⟨rest, same⟩ | same <;>
      exact absurd (phase_eq.symm.trans same) nofun

variable [DecidableEq κ]

theorem ok_runCall {i : ι} {event : GhEvent rt} (ok : before.Ok runId)
    (acts : Acts runId before (.runCall i event : Action rt repo branch ι κ) after)
    (serialised : Serialised (⟨before, .runCall i event, after⟩ :
      Step (System rt ι κ) (Action rt repo branch ι κ))) : after.Ok runId := by
  rcases acts with ⟨phase, github, advances, exchanged, rfl⟩
  by_cases landed : LandedWrite event
  · rw [if_pos landed]
    rcases locking_of_landedWrite (ok.runs i) advances landed exchanged with ⟨okRun, named⟩
    have others := serialised (Or.inl landed)
    have engagedIs (j : ι)
        (engaged : ((before.setRun i ⟨phase, true⟩).run j).engaged = true) : j = i := by
      by_contra other
      simp only [System.setRun, Function.update_of_ne other] at engaged
      rw [others j other] at engaged
      cases engaged
    refine ⟨runs_setRun ok.runs okRun, ?_, ?_, ?_, ?_⟩
    · intro k watchdog found
      rcases Option.map_eq_some_iff.mp found with ⟨earlier, was, rfl⟩
      exact ⟨(ok.watchdogs k earlier was).issues, (ok.watchdogs k earlier was).guarded⟩
    · intro j k engagedJ engagedK
      rw [engagedIs j engagedJ, engagedIs k engagedK]
    · intro j engagedJ
      rw [engagedIs j engagedJ]
      exact named
    · intro k watchdog found _ notOvertaken
      rcases Option.map_eq_some_iff.mp found with ⟨earlier, _, rfl⟩
      cases notOvertaken
  · rw [if_neg landed]
    have okRun : (⟨phase, (before.run i).engaged⟩ : ReleaseRun rt).Ok (runId i) := by
      rcases (ok.runs i).afterCall advances with okRun | written
      · exact okRun
      · exact absurd written landed
    refine ⟨runs_setRun ok.runs okRun, ok.watchdogs, ?_⟩
    by_cases deleted : LandedDelete event
    · have others := serialised (Or.inr deleted)
      have notEngaged := not_engaged_of_landedDelete (ok.runs i) advances deleted
      refine .of_none fun j => ?_
      by_contra engaged
      have was : (before.run j).engaged = true :=
        engaged_setRun ⟨phase, (before.run i).engaged⟩ id j (by simpa using engaged)
      by_cases same : j = i
      · rw [same, notEngaged] at was
        cases was
      · rw [others j same] at was
        cases was
    · exact ok.guarded.mono (engaged_setRun _ id) (marker_of_exchange exchanged landed deleted)
        fun _ watchdog found counted overtaken => ⟨watchdog, found, counted, overtaken⟩

theorem ok_watchCall {k : κ} {event : GhEvent rt} (ok : before.Ok runId)
    (acts : Acts runId before (.watchCall k event : Action rt repo branch ι κ) after)
    (serialised : Serialised (⟨before, .watchCall k event, after⟩ :
      Step (System rt ι κ) (Action rt repo branch ι κ))) : after.Ok runId := by
  rcases acts with ⟨watchdog, next, github, found, rest_eq, exchanged, truthful, rfl⟩
  have okBefore := ok.watchdogs k watchdog found
  have issues := okBefore.issues
  rw [rest_eq] at issues
  by_cases none : CountsNone event
  · have noneEngaged := not_engaged_of_countsNone ok truthful none
    simp only [none, if_true]
    exact ⟨ok.runs, watchdogs_setWatchdog ok ⟨issues.2 event.reply, nofun⟩, .of_none noneEngaged⟩
  · simp only [none, if_false]
    have okWatchdog : (⟨next event.reply, watchdog.counted, watchdog.overtaken⟩ :
        Watchdog rt).Ok := by
      refine ⟨issues.2 event.reply, fun notCounted => ?_⟩
      have guarded := okBefore.guarded notCounted
      rw [rest_eq] at guarded
      rcases guarded.2 event.reply with cleared | guarded
      · exact absurd cleared none
      · exact guarded
    refine ⟨ok.runs, watchdogs_setWatchdog ok okWatchdog, ?_⟩
    by_cases deleted : LandedDelete event
    · have notOvertaken := serialised deleted watchdog found
      exact .of_none fun i => not_engaged_of_watchDelete ok found rest_eq deleted notOvertaken i
    · have notWritten : ¬LandedWrite event := not_landedWrite_of_releaseCall issues.1
      refine ok.guarded.mono (fun _ => id) (marker_of_exchange exchanged notWritten deleted) ?_
      refine watched_setWatchdog ?_
      rintro changed ⟨⟩ counted overtaken
      exact ⟨watchdog, found, counted, overtaken⟩

/-- One action of a serialised system keeps the invariant. -/
theorem ok_of_acts {step : Step (System rt ι κ) (Action rt repo branch ι κ)}
    (serialised : Serialised step) (ok : step.before.Ok runId)
    (acts : Acts runId step.before step.label step.after) : step.after.Ok runId := by
  rcases step with ⟨before, action, after⟩
  simp only at ok acts ⊢
  cases action with
  | lockCalled i =>
      rcases acts with ⟨_, rfl⟩
      refine ok_setRun ok ⟨nofun, nofun, ?_, ?_, nofun⟩ nofun
      · rintro rest ⟨⟩
        exact lockBranch_issuesOnly
      · rintro rest ⟨⟩ _
        exact lockBranch_ensures
  | unlockCalled i =>
      rcases acts with ⟨_, rfl⟩
      refine ok_setRun ok ⟨nofun, nofun, nofun, nofun, ?_⟩ nofun
      rintro rest ⟨⟩
      exact unlockBranch_issuesOnly
  | runCall i event => exact ok_runCall ok acts serialised
  | runReturned i =>
      rcases acts with ⟨run, returns, rfl⟩
      rcases (ok.runs i).afterReturn returns with ⟨okRun, fewer⟩
      exact ok_setRun ok okRun fewer
  | runEnded i =>
      rw [show after = _ from acts]
      exact ok_setRun ok ⟨nofun, nofun, nofun, nofun, nofun⟩ nofun
  | watchStarted k config =>
      rw [show after = _ from acts]
      refine ⟨ok.runs, watchdogs_setWatchdog ok
        ⟨SafetyNet.main_issuesOnly, fun _ => SafetyNet.main_guarded⟩,
        ok.guarded.mono (fun _ => id) rfl (watched_setWatchdog ?_)⟩
      rintro changed ⟨⟩ counted
      cases counted
  | watchCall k event => exact ok_watchCall ok acts serialised
  | watchEnded k =>
      rw [show after = _ from acts]
      refine ⟨ok.runs, ?_, ok.guarded.mono (fun _ => id) rfl (watched_setWatchdog nofun)⟩
      intro l other found
      by_cases same : l = k
      · subst same
        simp [System.setWatchdog] at found
      · simp only [System.setWatchdog, Function.update_of_ne same] at found
        exact ok.watchdogs l other found

/-- One action of a serialised system keeps the marker of the run that holds the lock. -/
theorem keepsMarker_of_acts {step : Step (System rt ι κ) (Action rt repo branch ι κ)}
    (serialised : Serialised step) (ok : step.before.Ok runId)
    (acts : Acts runId step.before step.label step.after) : KeepsMarker runId step := by
  intro i holds _
  have engaged := (ok.runs i).holdingEngaged holds
  rcases step with ⟨before, action, after⟩
  simp only at ok acts holds engaged ⊢
  cases action with
  | lockCalled j => rw [acts.2]; rfl
  | unlockCalled j => rw [acts.2]; rfl
  | runReturned j =>
      rcases acts with ⟨_, _, rfl⟩
      rfl
  | runEnded j => rw [show after = _ from acts]; rfl
  | watchStarted k config => rw [show after = _ from acts]; rfl
  | watchEnded k => rw [show after = _ from acts]; rfl
  | runCall j event =>
      rcases acts with ⟨phase, github, advances, exchanged, rfl⟩
      have other : i ≠ j := by
        rintro rfl
        rcases advances with ⟨_, ⟨phase_eq, _⟩ | ⟨phase_eq, _⟩⟩ <;>
          exact absurd (holds.symm.trans phase_eq) nofun
      have untouched : ¬(LandedWrite event ∨ LandedDelete event) := by
        intro landed
        have notEngaged := serialised landed i other
        simp only [engaged] at notEngaged
        cases notEngaged
      have kept := marker_of_exchange exchanged (fun landed => untouched (Or.inl landed))
        (fun deleted => untouched (Or.inr deleted))
      split <;> exact kept
  | watchCall k event =>
      rcases acts with ⟨watchdog, next, github, found, rest_eq, exchanged, _, rfl⟩
      have issues := (ok.watchdogs k watchdog found).issues
      rw [rest_eq] at issues
      have notDeleted : ¬LandedDelete event := by
        intro deleted
        have notEngaged := not_engaged_of_watchDelete ok found rest_eq deleted
          (serialised deleted watchdog found) i
        rw [engaged] at notEngaged
        cases notEngaged
      exact marker_of_exchange exchanged (not_landedWrite_of_releaseCall issues.1) notDeleted

end Steps

end Invariant

/--
While the callers are serialised, at most one run holds the lock, the marker
names that run, and no action of another run or of a watchdog changes it.
-/
theorem exclusive_of_serialised [DecidableEq ι] [DecidableEq κ] {runId : ι → Str}
    {steps : List (Step (System rt ι κ) (Action rt repo branch ι κ))}
    (trace : Trace (Acts runId) System.initial steps)
    (serialised : ∀ step ∈ steps, Serialised step) :
    ∀ step ∈ steps, step.after.Exclusive ∧ KeepsMarker runId step ∧
      ∀ i, (step.after.run i).phase = .holding → step.after.repo.Names rt (runId i) := by
  intro step stepMem
  rcases trace.invariant (System.Ok runId) (fun _ allowed ok acts =>
    ok_of_acts allowed ok acts) ok_initial serialised step stepMem with ⟨okBefore, okAfter⟩
  have acts := trace.rel_of_mem stepMem
  refine ⟨fun i j holdsI holdsJ => ?_,
    keepsMarker_of_acts (serialised step stepMem) okBefore acts, fun i holds => ?_⟩
  · exact okAfter.guarded.unique i j ((okAfter.runs i).holdingEngaged holdsI)
      ((okAfter.runs j).holdingEngaged holdsJ)
  · exact okAfter.guarded.named i ((okAfter.runs i).holdingEngaged holds)

namespace Sample

variable [DecidableEq ι] [DecidableEq κ]

/-- One call of a run in `lock_branch`. -/
theorem exists_runCall (repo branch : Str) (runId : ι → Str) {i : ι} {request : GhCall rt}
    {next : GhCall.Reply rt request → Gh rt Unit} {reply : GhCall.Reply rt request}
    {github : Repo} {system : System rt ι κ}
    (phase_eq : (system.run i).phase = .locking (.call request next))
    (exchanged : Exchange rt system.repo ⟨request, reply⟩ github) :
    ∃ stepped : System rt ι κ,
      Acts runId system (.runCall i ⟨request, reply⟩ : Action rt repo branch ι κ) stepped ∧
        (stepped.run i).phase = .locking (next reply) ∧ stepped.repo = github ∧
        ∀ j, j ≠ i → stepped.run j = system.run j := by
  refine ⟨_, ⟨.locking (next reply), github, ⟨next, Or.inl ⟨phase_eq, rfl⟩⟩, exchanged, rfl⟩,
    ?_, ?_, ?_⟩
  · split <;> simp [System.setRun, System.overtakeWatchdogs]
  · split <;> rfl
  · intro j other
    split <;> simp [System.setRun, System.overtakeWatchdogs, other]

/-- The program of a run in `lock_branch` can be run to its end while nobody else acts. -/
theorem exists_trace_of_runs (repo branch : Str) (runId : ι → Str) {i : ι} {rest : Gh rt Unit}
    {log : List (GhEvent rt)}
    {outcome : Except Exc Unit} {github : Repo} {system : System rt ι κ}
    (phase_eq : (system.run i).phase = .locking rest) (ran : rest.Runs log outcome)
    (path : Path (Exchange rt) system.repo log github) :
    ∃ steps : List (Step (System rt ι κ) (Action rt repo branch ι κ)),
      Trace (Acts runId) system steps ∧
        ((finish system steps).run i).phase = .locking (.ofExcept outcome) ∧
        (finish system steps).repo = github ∧
        (∀ j, j ≠ i → (finish system steps).run j = system.run j) ∧
        ∀ step ∈ steps, (∃ event, step.label = .runCall i event) ∧
          ∀ j, j ≠ i → step.before.run j = system.run j := by
  induction log generalizing rest system with
  | nil =>
      refine ⟨[], trivial, ?_, path.symm, fun _ _ => rfl, by simp⟩
      cases rest with
      | ret value => simpa [finish, ran.2, Program.ofExcept] using phase_eq
      | raise error => simpa [finish, ran.2, Program.ofExcept] using phase_eq
      | call request next =>
          rcases ran with ⟨_, _, impossible, _⟩
          cases impossible
  | cons event log ih =>
      cases rest with
      | ret value => exact absurd ran.1 (List.cons_ne_nil _ _)
      | raise error => exact absurd ran.1 (List.cons_ne_nil _ _)
      | call request next =>
          rcases ran with ⟨reply, _, ⟨⟩, ran⟩
          rcases path with ⟨middle, exchanged, path⟩
          rcases exists_runCall repo branch runId phase_eq exchanged with
            ⟨stepped, acts, phase_eq', repo_eq, others⟩
          rw [← repo_eq] at path
          rcases ih phase_eq' ran path with ⟨steps, trace, last, github_eq, same, labels⟩
          refine ⟨⟨system, .runCall i ⟨request, reply⟩, stepped⟩ :: steps, ⟨rfl, acts, trace⟩,
            last, github_eq, fun j other => (same j other).trans (others j other), ?_⟩
          intro step stepMem
          rcases List.mem_cons.mp stepMem with rfl | stepMem
          · exact ⟨⟨_, rfl⟩, fun _ _ => rfl⟩
          · rcases labels step stepMem with ⟨label, untouched⟩
            exact ⟨label, fun j other => (untouched j other).trans (others j other)⟩

/-- A run locks the branch while nobody else acts. -/
theorem exists_trace_of_lock (runId : ι → Str) {i : ι} {log : List (GhEvent rt)} {github : Repo}
    {system : System rt ι κ} (idle : (system.run i).phase = .idle)
    (ran : (lockBranch rt repo branch (runId i)).Runs log (.ok ()))
    (path : Path (Exchange rt) system.repo log github) :
    ∃ steps : List (Step (System rt ι κ) (Action rt repo branch ι κ)),
      Trace (Acts runId) system steps ∧
        ((finish system steps).run i).phase = .holding ∧
        (finish system steps).repo = github ∧
        (∀ j, j ≠ i → (finish system steps).run j = system.run j) ∧
        ((∀ j, j ≠ i → (system.run j).engaged = false) → ∀ step ∈ steps, Serialised step) := by
  let called := system.setRun i ⟨.locking (lockBranch rt repo branch (runId i)), false⟩
  have calledPhase : (called.run i).phase = .locking (lockBranch rt repo branch (runId i)) := by
    simp [called, System.setRun]
  have calledOthers (j : ι) (other : j ≠ i) : called.run j = system.run j := by
    simp [called, System.setRun, other]
  rcases exists_trace_of_runs repo branch runId calledPhase ran path with
    ⟨steps, trace, last, github_eq, same, labels⟩
  let returned := (finish called steps).setRun i
    ⟨.holding, ((finish called steps).run i).engaged⟩
  have returns : Acts runId (finish called steps)
      (.runReturned i : Action rt repo branch ι κ) returned := by
    refine ⟨_, ?_, rfl⟩
    simp [Returns, last, Program.ofExcept]
  refine ⟨⟨system, .lockCalled i, called⟩ :: (steps ++
    [⟨finish called steps, .runReturned i, returned⟩]), ⟨rfl, ⟨idle, rfl⟩, ?_⟩, ?_, ?_, ?_, ?_⟩
  · exact trace_append.mpr ⟨trace, rfl, returns, trivial⟩
  · simp [finish, finish_append, returned, System.setRun]
  · simpa [finish, finish_append, returned, System.setRun] using github_eq
  · intro j other
    simp [finish, finish_append, returned, System.setRun, other, same j other,
      calledOthers j other]
  · intro notEngaged step stepMem
    simp only [List.mem_cons, List.mem_append, List.not_mem_nil, or_false] at stepMem
    rcases stepMem with rfl | stepMem | rfl
    · trivial
    · rcases labels step stepMem with ⟨⟨event, label⟩, untouched⟩
      simp only [Serialised, label]
      intro _ j other
      rw [untouched j other, calledOthers j other]
      exact notEngaged j other
    · trivial

/-- The release runs 42 and 43. -/
def runIds (second : Bool) : Str := if second then str "43" else str "42"

/-- Run 42 locks the branch. -/
theorem exists_lockTrace :
    ∃ steps : List (Step (System Runtime.whole Bool Empty)
        (Action Runtime.whole platform trunk Bool Empty)),
      Trace (Acts runIds) System.initial steps ∧
        ((finish System.initial steps).run false).phase = .holding ∧
        (finish System.initial steps).repo = ⟨some (markerText (str "42")), true⟩ ∧
        ((finish System.initial steps).run true).phase = .idle ∧
        ∀ step ∈ steps, Serialised step := by
  rcases exists_lockRun (str "42") with ⟨log, ran, path⟩
  have idle : ((System.initial : System Runtime.whole Bool Empty).run false).phase = .idle := rfl
  rcases exists_trace_of_lock runIds idle ran path with
    ⟨steps, trace, holds, repo_eq, others, serialised⟩
  exact ⟨steps, trace, holds, repo_eq, by rw [others true nofun]; rfl, serialised fun _ _ => rfl⟩

end Sample

theorem exclusive_of_serialised_lockTrace :
    ∃ steps : List (Step (System Runtime.whole Bool Empty)
        (Action Runtime.whole Sample.platform Sample.trunk Bool Empty)),
      ((finish System.initial steps).run false).phase = .holding ∧
        ∀ step ∈ steps, step.after.Exclusive ∧ KeepsMarker Sample.runIds step ∧
          ∀ i, (step.after.run i).phase = .holding →
            step.after.repo.Names Runtime.whole (Sample.runIds i) := by
  rcases Sample.exists_lockTrace with ⟨steps, trace, holds, _, _, serialised⟩
  exact ⟨steps, holds, exclusive_of_serialised trace serialised⟩

/-- Run 43 locks the branch that run 42 holds, and both hold it. -/
theorem locked_twice :
    ¬∀ (rt : Runtime) (repo branch : Str) (ι κ : Type) [DecidableEq ι] [DecidableEq κ]
      (runId : ι → Str) (steps : List (Step (System rt ι κ) (Action rt repo branch ι κ))),
      Function.Injective runId → Trace (Acts runId) System.initial steps →
        ∀ step ∈ steps, step.after.Exclusive ∧ KeepsMarker runId step := by
  intro exclusive
  rcases Sample.exists_lockTrace with ⟨first, firstTrace, holds, repo_eq, idle, _⟩
  rcases Sample.exists_lockRun_over (str "43") (Sample.markerText (str "42")) with ⟨log, ran, path⟩
  rw [← repo_eq] at path
  rcases Sample.exists_trace_of_lock Sample.runIds idle ran path with
    ⟨second, secondTrace, secondHolds, _, others, _⟩
  have distinct : Function.Injective Sample.runIds := by
    intro left right same
    cases left <;> cases right <;> first | rfl | exact absurd same (by decide)
  have trace := trace_append.mpr ⟨firstTrace, secondTrace⟩
  have nonempty : first ++ second ≠ [] := by
    intro empty
    rw [List.append_eq_nil_iff] at empty
    rw [empty.2, finish, idle] at secondHolds
    cases secondHolds
  rcases exists_last_step System.initial nonempty with ⟨step, stepMem, after_eq⟩
  have claimed := (exclusive _ _ _ _ _ _ _ distinct trace step stepMem).1
  rw [after_eq, finish_append] at claimed
  have stillHolds : ((finish (finish System.initial first) second).run false).phase = .holding := by
    rw [others false Bool.false_ne_true]
    exact holds
  cases claimed false true stillHolds secondHolds

end BranchLock
