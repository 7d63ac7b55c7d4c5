import TelemetryPlatform.BranchLock.Model

/-!
# Runs of the lock operations

One lemma per function of the scripts says which calls a run of it makes, in
which order, and how the replies decide its outcome. Everything proved about the
operations later goes through these lemmas.
-/

namespace BranchLock

open Python Interaction

variable {rt : Runtime} {repo branch runId : Str}

@[simp]
theorem time_bind {α : Type} (next : rt.Float → Gh rt α) :
    time rt >>= next = .call .time next := rfl

@[simp]
theorem run_bind {α : Type} (command : GhCommand rt) (next : CompletedProcess → Gh rt α) :
    run rt command >>= next = .call (.run command) next := rfl

/-- The text a run may have left as its marker. -/
def WrittenBy (rt : Runtime) (runId value : Str) : Prop :=
  ∃ epoch : rt.Float, rt.dumps .standard (marker rt runId epoch) = .ok value

/-- What a run of `write_lock_marker` does after it has built the marker. -/
inductive MarkerWritten (repo name value : Str) :
    List (GhEvent rt) → Except Exc Unit → Prop where
  | updated (result : CompletedProcess) (done : result.returncode = 0) :
      MarkerWritten repo name value [⟨.run (.patchVariable repo name value), result⟩] (.ok ())
  | created (result result2 : CompletedProcess) (absent : result.returncode ≠ 0)
      (done : result2.returncode = 0) :
      MarkerWritten repo name value [⟨.run (.patchVariable repo name value), result⟩,
        ⟨.run (.postVariable repo name value), result2⟩] (.ok ())
  | refused (result result2 : CompletedProcess) (error : Exc) (absent : result.returncode ≠ 0)
      (refused : result2.returncode ≠ 0) :
      MarkerWritten repo name value [⟨.run (.patchVariable repo name value), result⟩,
        ⟨.run (.postVariable repo name value), result2⟩] (.error error)

theorem writeLockMarker_cases {log : List (GhEvent rt)} {outcome : Except Exc Unit}
    (ran : (writeLockMarker rt repo branch runId).Runs log outcome) :
    ∃ epoch : rt.Float,
      (log = [⟨.time, epoch⟩] ∧ ∃ error, outcome = .error error) ∨
        ∃ value rest, log = ⟨.time, epoch⟩ :: rest ∧ WrittenBy rt runId value ∧
          MarkerWritten repo (varName rt branch) value rest outcome := by
  simp only [writeLockMarker, time_bind, run_bind, Program.runs_call,
    Program.runs_ofExcept_bind] at ran
  rcases ran with ⟨epoch, rest, rfl, ⟨error, _, rfl, rfl⟩ | ⟨value, built, result, rest, rfl, ran⟩⟩
  · exact ⟨epoch, Or.inl ⟨rfl, error, rfl⟩⟩
  refine ⟨epoch, Or.inr ⟨value, _, rfl, ⟨epoch, built⟩, ?_⟩⟩
  by_cases absent : result.returncode = 0
  · simp only [absent, ne_eq, not_true_eq_false, if_false, Program.pure_eq_ret,
      Program.runs_ret] at ran
    rcases ran with ⟨rfl, rfl⟩
    exact .updated result absent
  · simp only [absent, ne_eq, not_false_eq_true, if_true, Program.runs_call] at ran
    rcases ran with ⟨result2, rest, rfl, ran⟩
    by_cases refused : result2.returncode = 0
    · simp only [refused, not_true_eq_false, if_false, Program.pure_eq_ret,
        Program.runs_ret] at ran
      rcases ran with ⟨rfl, rfl⟩
      exact .created result result2 absent refused
    · simp only [refused, not_false_eq_true, if_true, Program.throw_eq_raise,
        Program.runs_raise] at ran
      rcases ran with ⟨rfl, rfl⟩
      exact .refused result result2 _ absent refused

/-- The protection rule was read and can be re-sent with `lock_branch` set to `lock`. -/
def Rewritable (rt : Runtime) (lock : Bool) (read : CompletedProcess) : Prop :=
  read.returncode = 0 ∧ ∃ protection body, rt.loads read.stdout = .ok protection ∧
    protectionPutBody rt protection lock = .ok body

theorem requestsLock_of_protectionPutBody {protection body : rt.Value} {lock : Bool}
    (built : protectionPutBody rt protection lock = .ok body) : requestsLock body = lock := by
  simp only [protectionPutBody, bind, Except.bind, pure, Except.pure] at built
  repeat' split at built
  all_goals try cases built
  simp [requestsLock, dictGet?, str]

theorem getBranchProtection_cases {log : List (GhEvent rt)} {outcome : Except Exc rt.Value}
    (ran : (getBranchProtection rt repo branch).Runs log outcome) :
    ∃ read : CompletedProcess, log = [⟨.run (.getProtection repo branch), read⟩] ∧
      ((∃ error, outcome = .error error) ∧
          ¬(read.returncode = 0 ∧ ∃ protection, rt.loads read.stdout = .ok protection) ∨
        ∃ protection, outcome = .ok protection ∧ read.returncode = 0 ∧
          rt.loads read.stdout = .ok protection) := by
  simp only [getBranchProtection, run_bind, Program.runs_call, Program.throw_eq_raise,
    Program.raise_bind, Program.pure_eq_ret] at ran
  rcases ran with ⟨read, rest, rfl, ran⟩
  refine ⟨read, ?_⟩
  by_cases served : read.returncode = 0
  · simp only [served, ne_eq, not_true_eq_false, if_false, true_and] at ran ⊢
    cases loaded : rt.loads read.stdout with
    | ok protection =>
        simp only [loaded, Program.runs_ret] at ran
        rcases ran with ⟨rfl, rfl⟩
        exact ⟨rfl, Or.inr ⟨protection, rfl, rfl⟩⟩
    | error error =>
        cases error <;> simp only [loaded, Program.runs_raise] at ran <;>
          rcases ran with ⟨rfl, rfl⟩ <;>
          refine ⟨rfl, Or.inl ⟨⟨_, rfl⟩, ?_⟩⟩ <;>
          rintro ⟨_, impossible⟩ <;>
          cases impossible
  · simp only [served, ne_eq, not_false_eq_true, if_true, false_and] at ran ⊢
    split at ran <;> rcases ran with ⟨rfl, rfl⟩ <;>
      exact ⟨rfl, Or.inl ⟨⟨_, rfl⟩, trivial⟩⟩

/-- What a run of either toggle of `lock_branch` does. -/
inductive LockBranchPut (rt : Runtime) (lock : Bool) (repo branch : Str) :
    List (GhEvent rt) → Except Exc Unit → Prop where
  | notRead (read : CompletedProcess) (error : Exc) (failed : ¬Rewritable rt lock read) :
      LockBranchPut rt lock repo branch [⟨.run (.getProtection repo branch), read⟩]
        (.error error)
  | written (read result : CompletedProcess) (body : rt.Value)
      (requested : requestsLock body = lock) (rewritable : Rewritable rt lock read)
      (done : result.returncode = 0) :
      LockBranchPut rt lock repo branch [⟨.run (.getProtection repo branch), read⟩,
        ⟨.run (.putProtection repo branch body), result⟩] (.ok ())
  | refused (read result : CompletedProcess) (body : rt.Value) (error : Exc)
      (rewritable : Rewritable rt lock read) (failed : result.returncode ≠ 0) :
      LockBranchPut rt lock repo branch [⟨.run (.getProtection repo branch), read⟩,
        ⟨.run (.putProtection repo branch body), result⟩] (.error error)

theorem putLockBranch_cases {lock : Bool} {failure : String} {log : List (GhEvent rt)}
    {outcome : Except Exc Unit}
    (ran : (putLockBranch rt lock failure repo branch).Runs log outcome) :
    LockBranchPut rt lock repo branch log outcome := by
  rw [putLockBranch, Program.runs_bind] at ran
  rcases ran with ⟨error, rfl, ran⟩ | ⟨protection, first, rest, rfl, ran, afterRead⟩
  · rcases getBranchProtection_cases ran with ⟨read, rfl, ⟨_, notLoaded⟩ | ⟨_, impossible, _⟩⟩
    · refine .notRead read error ?_
      rintro ⟨served, protection, _, loaded, _⟩
      exact notLoaded ⟨served, protection, loaded⟩
    · cases impossible
  rcases getBranchProtection_cases ran with
    ⟨read, rfl, ⟨⟨_, impossible⟩, _⟩ | ⟨_, same, served, loaded⟩⟩
  · cases impossible
  cases same
  simp only [Program.runs_ofExcept_bind, run_bind, Program.runs_call] at afterRead
  rcases afterRead with ⟨error, built, rfl, rfl⟩ | ⟨body, built, result, tail, rfl, afterPut⟩
  · refine .notRead read error ?_
    rintro ⟨_, other, body, otherLoaded, otherBuilt⟩
    rw [loaded] at otherLoaded
    cases otherLoaded
    rw [otherBuilt] at built
    cases built
  have rewritable : Rewritable rt lock read := ⟨served, protection, body, loaded, built⟩
  have requested := requestsLock_of_protectionPutBody built
  by_cases done : result.returncode = 0
  · simp only [done, ne_eq, not_true_eq_false, if_false, Program.pure_eq_ret,
      Program.runs_ret] at afterPut
    rcases afterPut with ⟨rfl, rfl⟩
    exact .written read result body requested rewritable done
  · simp only [done, ne_eq, not_false_eq_true, if_true, Program.throw_eq_raise,
      Program.runs_raise] at afterPut
    rcases afterPut with ⟨rfl, rfl⟩
    exact .refused read result body _ rewritable done

theorem isBranchLocked_cases {log : List (GhEvent rt)} {outcome : Except Exc Bool}
    (ran : (isBranchLocked rt repo branch).Runs log outcome) :
    ∃ read : CompletedProcess,
      log = [⟨.run (.getVariable repo (varName rt branch)), read⟩] ∧
        outcome = .ok (decide (read.returncode = 0 ∧ showsValue read.stdout)) := by
  simp only [isBranchLocked, run_bind, Program.runs_call] at ran
  rcases ran with ⟨read, rest, rfl, ran⟩
  refine ⟨read, ?_⟩
  by_cases served : read.returncode = 0
  · simpa [served] using ran
  · simpa [served] using ran

theorem deleteLockMarker_cases {log : List (GhEvent rt)} {outcome : Except Exc Unit}
    (ran : (deleteLockMarker rt repo branch).Runs log outcome) :
    ∃ deleted : CompletedProcess,
      log = [⟨.run (.deleteVariable repo (varName rt branch)), deleted⟩] ∧
        (outcome = .ok () ∨ deleted.returncode ≠ 0 ∧ ∃ error, outcome = .error error) := by
  simp only [deleteLockMarker, run_bind, Program.runs_call, Program.throw_eq_raise,
    Program.pure_eq_ret] at ran
  rcases ran with ⟨deleted, rest, rfl, ran⟩
  refine ⟨deleted, ?_⟩
  by_cases served : deleted.returncode = 0
  · simp only [served, ne_eq, not_true_eq_false, if_false, Program.runs_ret] at ran
    rcases ran with ⟨rfl, rfl⟩
    exact ⟨rfl, Or.inl rfl⟩
  · simp only [served, ne_eq, not_false_eq_true, if_true] at ran
    split at ran <;> rcases ran with ⟨rfl, rfl⟩
    · exact ⟨rfl, Or.inl rfl⟩
    · exact ⟨rfl, Or.inr ⟨served, _, rfl⟩⟩

/-- What a run of `unlock_branch` does. -/
inductive Unlocked (rt : Runtime) (repo branch : Str) :
    List (GhEvent rt) → Except Exc Unit → Prop where
  | noMarker (read : CompletedProcess)
      (hidden : ¬(read.returncode = 0 ∧ showsValue read.stdout)) :
      Unlocked rt repo branch [⟨.run (.getVariable repo (varName rt branch)), read⟩] (.ok ())
  | notDeleted (read deleted : CompletedProcess) (error : Exc)
      (shown : read.returncode = 0 ∧ showsValue read.stdout) (failed : deleted.returncode ≠ 0) :
      Unlocked rt repo branch [⟨.run (.getVariable repo (varName rt branch)), read⟩,
        ⟨.run (.deleteVariable repo (varName rt branch)), deleted⟩] (.error error)
  | deleted (read deleted : CompletedProcess) {rest : List (GhEvent rt)}
      {outcome : Except Exc Unit} (shown : read.returncode = 0 ∧ showsValue read.stdout)
      (disabled : LockBranchPut rt false repo branch rest outcome) :
      Unlocked rt repo branch (⟨.run (.getVariable repo (varName rt branch)), read⟩ ::
        ⟨.run (.deleteVariable repo (varName rt branch)), deleted⟩ :: rest) outcome

theorem unlockBranch_cases {log : List (GhEvent rt)} {outcome : Except Exc Unit}
    (ran : (unlockBranch rt repo branch).Runs log outcome) :
    Unlocked rt repo branch log outcome := by
  simp only [unlockBranch, Program.runs_bind] at ran
  rcases ran with ⟨error, rfl, ran⟩ | ⟨locked, first, rest, rfl, ran, afterRead⟩
  · rcases isBranchLocked_cases ran with ⟨_, _, impossible⟩
    cases impossible
  rcases isBranchLocked_cases ran with ⟨read, rfl, same⟩
  cases same
  by_cases shown : read.returncode = 0 ∧ showsValue read.stdout
  · simp only [shown, and_self, decide_true, Bool.not_true, Bool.false_eq_true, if_false,
      Program.runs_bind] at afterRead
    rcases afterRead with
      ⟨error, rfl, afterRead⟩ | ⟨_, first, second, rfl, deletion, disabling⟩
    · rcases deleteLockMarker_cases afterRead with ⟨deleted, rfl, impossible | ⟨failed, _⟩⟩
      · cases impossible
      · exact .notDeleted read deleted error shown failed
    · rcases deleteLockMarker_cases deletion with ⟨deleted, rfl, _⟩
      exact .deleted read deleted shown (putLockBranch_cases disabling)
  · simp only [shown, decide_false, Bool.not_false, if_true, Program.pure_eq_ret,
      Program.runs_ret] at afterRead
    rcases afterRead with ⟨rfl, rfl⟩
    exact .noMarker read shown

section Served

variable (repo branch) {epoch : rt.Float} {value : Str} {protection body : rt.Value}

/-- The run of `lock_branch` on an unlocked branch when GitHub carries every call out. -/
theorem runs_lockBranch (patched created read put : CompletedProcess)
    (dumped : rt.dumps .standard (marker rt runId epoch) = .ok value)
    (absent : patched.returncode ≠ 0) (posted : created.returncode = 0)
    (served : read.returncode = 0) (loaded : rt.loads read.stdout = .ok protection)
    (built : protectionPutBody rt protection true = .ok body) (done : put.returncode = 0) :
    (lockBranch rt repo branch runId).Runs
      [⟨.time, epoch⟩, ⟨.run (.patchVariable repo (varName rt branch) value), patched⟩,
        ⟨.run (.postVariable repo (varName rt branch) value), created⟩,
        ⟨.run (.getProtection repo branch), read⟩,
        ⟨.run (.putProtection repo branch body), put⟩] (.ok ()) := by
  simp [lockBranch, writeLockMarker, enableBranchProtection, putLockBranch, getBranchProtection,
    dumped, absent, posted, served, loaded, built, done, Program.ofExcept]

/-- The run of `lock_branch` on a branch that has a marker already. -/
theorem runs_lockBranch_over (patched read put : CompletedProcess)
    (dumped : rt.dumps .standard (marker rt runId epoch) = .ok value)
    (updated : patched.returncode = 0) (served : read.returncode = 0)
    (loaded : rt.loads read.stdout = .ok protection)
    (built : protectionPutBody rt protection true = .ok body) (done : put.returncode = 0) :
    (lockBranch rt repo branch runId).Runs
      [⟨.time, epoch⟩, ⟨.run (.patchVariable repo (varName rt branch) value), patched⟩,
        ⟨.run (.getProtection repo branch), read⟩,
        ⟨.run (.putProtection repo branch body), put⟩] (.ok ()) := by
  simp [lockBranch, writeLockMarker, enableBranchProtection, putLockBranch, getBranchProtection,
    dumped, updated, served, loaded, built, done, Program.ofExcept]

/-- The run of `unlock_branch` on a locked branch up to its two calls on the rule. -/
theorem runs_unlockBranch (shown deleted : CompletedProcess) {rest : List (GhEvent rt)}
    {outcome : Except Exc Unit} (served : shown.returncode = 0)
    (showsIt : showsValue shown.stdout) (done : deleted.returncode = 0)
    (disabling : (disableBranchLock rt repo branch).Runs rest outcome) :
    (unlockBranch rt repo branch).Runs
      (⟨.run (.getVariable repo (varName rt branch)), shown⟩ ::
        ⟨.run (.deleteVariable repo (varName rt branch)), deleted⟩ :: rest) outcome := by
  simpa [unlockBranch, isBranchLocked, deleteLockMarker, served, showsIt, done] using disabling

theorem runs_disableBranchLock (read put : CompletedProcess) (served : read.returncode = 0)
    (loaded : rt.loads read.stdout = .ok protection)
    (built : protectionPutBody rt protection false = .ok body) (done : put.returncode = 0) :
    (disableBranchLock rt repo branch).Runs [⟨.run (.getProtection repo branch), read⟩,
      ⟨.run (.putProtection repo branch body), put⟩] (.ok ()) := by
  simp [disableBranchLock, putLockBranch, getBranchProtection, served, loaded, built, done,
    Program.ofExcept]

theorem runs_disableBranchLock_notRead (rt : Runtime) (read : CompletedProcess)
    (failed : read.returncode ≠ 0) :
    ∃ error, (disableBranchLock rt repo branch).Runs [⟨.run (.getProtection repo branch), read⟩]
      (.error error) := by
  by_cases missing : mentionsNotFound (strip read.stderr) ∨
      Contains (str "Branch not protected") (strip read.stderr)
  · simp [disableBranchLock, putLockBranch, getBranchProtection, failed, missing]
  · simp [disableBranchLock, putLockBranch, getBranchProtection, failed, missing]

end Served

/-- The call changes nothing on GitHub. -/
def GhCall.IsRead : GhCall rt → Prop
  | .time | .run (.getVariable _ _) | .run (.getProtection _ _) | .run (.workflowRuns _ _ _) =>
      True
  | .run (.patchVariable _ _ _) | .run (.postVariable _ _ _) | .run (.deleteVariable _ _)
  | .run (.putProtection _ _ _) => False

namespace SafetyNet

variable {environ : Environ} {lockMaxAgeMinutes : Int}

theorem readLockInfo_issuesOnly :
    (readLockInfo rt repo branch).IssuesOnly GhCall.IsRead := by
  simp only [readLockInfo, run_bind, time_bind, Program.issuesOnly_call, Program.throw_eq_raise,
    Program.pure_eq_ret, Program.raise_bind, Program.issuesOnly_ite]
  refine ⟨trivial, fun result => ⟨fun _ => ⟨fun _ => trivial, fun _ => trivial⟩, fun _ =>
    ⟨fun _ => trivial, fun _ => ?_⟩⟩⟩
  cases rt.loads (strip result.stdout) with
  | error error => cases error <;> trivial
  | ok data => simp [GhCall.IsRead]

theorem checkInProgressReleaseRuns_issuesOnly :
    (checkInProgressReleaseRuns rt environ repo branch).IssuesOnly GhCall.IsRead := by
  simp [checkInProgressReleaseRuns, GhCall.IsRead]

/-- What a run of the watchdog does. -/
inductive Watched (rt : Runtime) (repo branch : Str) :
    List (GhEvent rt) → Except Exc UnlockDecision → Prop where
  | retained (log : List (GhEvent rt)) (outcome : Except Exc UnlockDecision)
      (reads : ∀ event ∈ log, event.request.IsRead) (kept : outcome ≠ .ok .doUnlock) :
      Watched rt repo branch log outcome
  | released (log : List (GhEvent rt)) (deleted : CompletedProcess)
      (outcome : Except Exc UnlockDecision) (reads : ∀ event ∈ log, event.request.IsRead)
      (decided : outcome = .ok .doUnlock ∧ deleted.returncode = 0 ∨
        (∃ error, outcome = .error error) ∧ deleted.returncode ≠ 0) :
      Watched rt repo branch
        (log ++ [⟨.run (.deleteVariable repo (varName rt branch)), deleted⟩]) outcome

theorem performUnlock_cases {log : List (GhEvent rt)} {outcome : Except Exc Unit}
    (ran : (performUnlock rt repo branch).Runs log outcome) :
    ∃ deleted : CompletedProcess,
      log = [⟨.run (.deleteVariable repo (varName rt branch)), deleted⟩] ∧
        (outcome = .ok () ∧ deleted.returncode = 0 ∨
          (∃ error, outcome = .error error) ∧ deleted.returncode ≠ 0) := by
  simp only [performUnlock, run_bind, Program.runs_call] at ran
  rcases ran with ⟨deleted, rest, rfl, ran⟩
  refine ⟨deleted, ?_⟩
  by_cases served : deleted.returncode = 0
  · simp only [served, ne_eq, not_true_eq_false, if_false, Program.pure_eq_ret,
      Program.runs_ret] at ran
    rcases ran with ⟨rfl, rfl⟩
    exact ⟨rfl, Or.inl ⟨rfl, served⟩⟩
  · simp only [served, ne_eq, not_false_eq_true, if_true, Program.throw_eq_raise,
      Program.runs_raise] at ran
    rcases ran with ⟨rfl, rfl⟩
    exact ⟨rfl, Or.inr ⟨⟨_, rfl⟩, served⟩⟩

theorem watch_cases {log : List (GhEvent rt)} {outcome : Except Exc UnlockDecision}
    (ran : (watch rt environ repo branch lockMaxAgeMinutes).Runs log outcome) :
    Watched rt repo branch log outcome := by
  rw [watch, Program.runs_bind] at ran
  rcases ran with ⟨error, rfl, reading⟩ | ⟨lockInfo, first, rest, rfl, reading, ran⟩
  · refine .retained _ _ (readLockInfo_issuesOnly.allowed_of_runs reading) ?_
    rintro ⟨⟩
  have firstReads := readLockInfo_issuesOnly.allowed_of_runs reading
  cases lockInfo with
  | none =>
      simp only [Option.isSome_none, Bool.false_eq_true, if_false, Program.pure_eq_ret,
        Program.ret_bind, decideUnlock, reduceCtorEq, Program.runs_ret] at ran
      rcases ran with ⟨rfl, rfl⟩
      refine .retained _ _ (by simpa using firstReads) ?_
      rintro ⟨⟩
  | some info =>
      rw [Option.isSome_some, if_pos rfl, Program.runs_bind] at ran
      rcases ran with ⟨error, rfl, counting⟩ | ⟨count, second, last, rfl, counting, ran⟩
      · have secondReads := checkInProgressReleaseRuns_issuesOnly.allowed_of_runs counting
        refine .retained _ _ (fun event eventMem => ?_) ?_
        · rcases List.mem_append.mp eventMem with eventMem | eventMem
          · exact firstReads event eventMem
          · exact secondReads event eventMem
        · rintro ⟨⟩
      have secondReads := checkInProgressReleaseRuns_issuesOnly.allowed_of_runs counting
      have reads : ∀ event ∈ first ++ second, event.request.IsRead := by
        intro event eventMem
        rcases List.mem_append.mp eventMem with eventMem | eventMem
        · exact firstReads event eventMem
        · exact secondReads event eventMem
      by_cases decided : decideUnlock rt (some info) count lockMaxAgeMinutes = .doUnlock
      · simp only [decided, if_true, Program.runs_bind] at ran
        rcases ran with ⟨error, rfl, unlocking⟩ | ⟨_, deletion, _, rfl, unlocking, rfl, rfl⟩
        · rcases performUnlock_cases unlocking with ⟨deleted, rfl, ⟨impossible, _⟩ | failed⟩
          · cases impossible
          · rw [← List.append_assoc]
            exact .released _ deleted _ reads (Or.inr ⟨⟨error, rfl⟩, failed.2⟩)
        · rcases performUnlock_cases unlocking with ⟨deleted, rfl, ⟨_, done⟩ | ⟨⟨_, failed⟩, _⟩⟩
          · rw [List.append_nil, ← List.append_assoc]
            exact .released _ deleted _ reads (Or.inl ⟨rfl, done⟩)
          · cases failed
      · simp only [decided, if_false, Program.pure_eq_ret, Program.runs_ret] at ran
        rcases ran with ⟨rfl, rfl⟩
        refine .retained _ _ (by simpa using reads) fun same => decided ?_
        injection same

theorem main_cases {log : List (GhEvent rt)} {outcome : Except Exc UnlockDecision}
    (repoEq : requireEnv rt environ (str "REPO") = .ok repo)
    (branchEq : requireEnv rt environ (str "BRANCH") = .ok branch)
    (ran : (main rt environ).Runs log outcome) : Watched rt repo branch log outcome := by
  simp only [main, Program.runs_ofExcept_bind, repoEq, branchEq] at ran
  rcases ran with ⟨_, impossible, _⟩ | ⟨_, same, ran⟩
  · cases impossible
  cases same
  rcases ran with ⟨_, impossible, _⟩ | ⟨_, same, ran⟩
  · cases impossible
  cases same
  rcases ran with ⟨error, _, rfl, rfl⟩ | ⟨_, _, ⟨error, _, rfl, rfl⟩ | ⟨maxAge, _, ran⟩⟩
  · exact .retained _ _ (by simp) nofun
  · exact .retained _ _ (by simp) nofun
  · exact watch_cases ran

end SafetyNet

end BranchLock
