import TelemetryPlatform.Library.Json
import TelemetryPlatform.Library.Numeral
import TelemetryPlatform.Library.Program
import TelemetryPlatform.Library.Text
import TelemetryPlatform.Library.Transition

/-!
# The branch lock

`scripts/lock_branch.py` and `scripts/safety_net_unlock.py`. The lock of a branch
has two parts on GitHub: a repository variable, the marker, that names the run
that owns the lock, and the `lock_branch` field of the branch protection rule.
The scripts are programs over `gh api` calls; each call answers with the
completed process, whose return code tells whether GitHub carried the call out.

`Exchange` is GitHub's side for one branch. A call that returns a nonzero code
had no effect, whether GitHub refused it or it never arrived, so any call may
fail at any time. Every operation on a branch names that branch's own variable
and rule in all its calls, and the exchange does not look at the names again.

The command lines of the two scripts and the lines they print are left out.
-/

namespace BranchLock

open Python Interaction

/-- `subprocess.CompletedProcess`. -/
structure CompletedProcess where
  returncode : Int
  stdout : Str
  stderr : Str

/-- The `gh api` commands of the scripts. -/
inductive GhCommand (rt : Runtime) where
  | patchVariable (repo name value : Str)
  | postVariable (repo name value : Str)
  | getVariable (repo name : Str)
  | deleteVariable (repo name : Str)
  | getProtection (repo branch : Str)
  | putProtection (repo branch : Str) (body : rt.Value)
  | workflowRuns (repo workflow branch : Str)

inductive GhCall (rt : Runtime) where
  | time
  | run (command : GhCommand rt)

@[reducible]
def GhCall.Reply (rt : Runtime) : GhCall rt → Type
  | .time => rt.Float
  | .run _ => CompletedProcess

abbrev GhEvent (rt : Runtime) := Event (GhCall rt) (GhCall.Reply rt)

abbrev Gh (rt : Runtime) := Program (GhCall rt) (GhCall.Reply rt) Exc

variable (rt : Runtime)

def time : Gh rt rt.Float := Program.perform GhCall.time

def run (command : GhCommand rt) : Gh rt CompletedProcess := Program.perform (GhCall.run command)

section LockBranch

/-- The repository variable that holds the marker of a branch. -/
def varName (branch : Str) : Str :=
  str "BRANCH_LOCK_RUN_ID_" ++ rt.upper (replaceChr branch (.char '/') (.char '_'))

/-- The marker a run writes. -/
def marker (runId : Str) (epoch : rt.Float) : rt.Value :=
  .obj [(str "run_id", .str runId), (str "locked_at_epoch", .float epoch)]

def writeLockMarker (repo branch runId : Str) : Gh rt Unit := do
  let epoch ← time rt
  let value ← Program.ofExcept (rt.dumps .standard (marker rt runId epoch))
  let result ← run rt (.patchVariable repo (varName rt branch) value)
  if result.returncode ≠ 0 then
    -- the variable may not exist yet
    let result2 ← run rt (.postVariable repo (varName rt branch) value)
    if result2.returncode ≠ 0 then
      throw (.runtimeError (str "ERROR: Failed to write lock marker variable " ++
        rt.reprStr (varName rt branch) ++ str " for repo " ++ rt.reprStr repo ++
        str ".\nPATCH stderr: " ++ strip result.stderr ++ str "\nPOST stderr: " ++
        strip result2.stderr ++
        str "\nEnsure GH_TOKEN is set with 'variables: write' permission."))

/-- The texts by which `gh` reports a missing object. -/
def mentionsNotFound (stderr : Str) : Prop :=
  Contains (str "404") stderr ∨ Contains (str "Not Found") stderr

instance (stderr : Str) : Decidable (mentionsNotFound stderr) :=
  inferInstanceAs (Decidable (_ ∨ _))

def getBranchProtection (repo branch : Str) : Gh rt rt.Value := do
  let result ← run rt (.getProtection repo branch)
  if result.returncode ≠ 0 then
    let stderr := strip result.stderr
    if mentionsNotFound stderr ∨ Contains (str "Branch not protected") stderr then
      throw (.runtimeError (str "ERROR: B30: Branch protection rule not found for branch " ++
        rt.reprStr branch ++ str " in repo " ++ rt.reprStr repo ++ str ".\nstderr: " ++ stderr ++
        str "\nEnsure branch protection rules are configured before running the release."))
    throw (.runtimeError (str "ERROR: Failed to read branch protection for " ++
      rt.reprStr branch ++ str " in repo " ++ rt.reprStr repo ++ str ".\nstderr: " ++ stderr ++
      str "\nEnsure GH_TOKEN is set with 'administration' permission."))
  match rt.loads result.stdout with
  | .ok parsed => return parsed
  | .error .jsonDecodeError =>
      throw (.runtimeError (str "ERROR: Could not parse branch protection response for branch " ++
        rt.reprStr branch ++ str " in repo " ++ rt.reprStr repo ++ str ": " ++
        rt.decodeErrorText result.stdout))
  | .error error => throw error

/-- `protection.get(field)`, rebuilt by `rebuild` unless it is `None`. -/
def rebuildUnlessNone (protection : rt.Value) (field : String)
    (rebuild : rt.Value → Except Exc rt.Value) : Except Exc rt.Value := do
  match ← protection.get (str field) with
  | .null => return .null
  | found => rebuild found

/-- `protection.get(field, {}).get("enabled", False)`. -/
def enabledField (protection : rt.Value) (field : String) : Except Exc rt.Value := do
  let rule ← protection.getD (str field) (.obj [])
  rule.getD (str "enabled") (.bool false)

/-- `[item[key] for item in restrictions.get(field, [])]`. -/
def namesOf (restrictions : rt.Value) (field key : String) : Except Exc rt.Value := do
  let listed ← restrictions.getD (str field) (.arr [])
  let items ← listed.iterate
  let names ← items.mapM fun item => item.subscript (str key)
  return .arr names

/-- The document of the PUT request; its text is `json.dumps(body)`. -/
def protectionPutBody (protection : rt.Value) (lock : Bool) : Except Exc rt.Value := do
  let rscBody ← rebuildUnlessNone rt protection "required_status_checks" fun rsc => do
    let strict ← rsc.getD (str "strict") (.bool false)
    let contexts ← rsc.getD (str "contexts") (.arr [])
    return .obj [(str "strict", strict), (str "contexts", contexts)]
  let rprBody ← rebuildUnlessNone rt protection "required_pull_request_reviews" fun rpr => do
    let dismiss ← rpr.getD (str "dismiss_stale_reviews") (.bool false)
    let owners ← rpr.getD (str "require_code_owner_reviews") (.bool false)
    let count ← rpr.getD (str "required_approving_review_count") (.int 0)
    return .obj [(str "dismiss_stale_reviews", dismiss),
      (str "require_code_owner_reviews", owners),
      (str "required_approving_review_count", count)]
  let restrBody ← rebuildUnlessNone rt protection "restrictions" fun restr => do
    let users ← namesOf rt restr "users" "login"
    let teams ← namesOf rt restr "teams" "slug"
    let apps ← namesOf rt restr "apps" "slug"
    return .obj [(str "users", users), (str "teams", teams), (str "apps", apps)]
  let enforceAdmins ← enabledField rt protection "enforce_admins"
  let linearHistory ← enabledField rt protection "required_linear_history"
  let forcePushes ← enabledField rt protection "allow_force_pushes"
  let deletions ← enabledField rt protection "allow_deletions"
  let conversations ← enabledField rt protection "required_conversation_resolution"
  let body : rt.Value := .obj [
    (str "required_status_checks", rscBody),
    (str "enforce_admins", enforceAdmins),
    (str "required_pull_request_reviews", rprBody),
    (str "restrictions", restrBody),
    (str "required_linear_history", linearHistory),
    (str "allow_force_pushes", forcePushes),
    (str "allow_deletions", deletions),
    (str "required_conversation_resolution", conversations),
    (str "lock_branch", .bool lock)]
  let _text ← rt.dumps .standard body
  return body

/-- Re-send the protection rule with `lock_branch` set; the two toggles differ in one text. -/
def putLockBranch (lock : Bool) (failure : String) (repo branch : Str) : Gh rt Unit := do
  let protection ← getBranchProtection rt repo branch
  let body ← Program.ofExcept (protectionPutBody rt protection lock)
  let result ← run rt (.putProtection repo branch body)
  if result.returncode ≠ 0 then
    throw (.runtimeError (str failure ++ rt.reprStr branch ++ str " in repo " ++
      rt.reprStr repo ++ str ".\nstderr: " ++ strip result.stderr ++
      str "\nEnsure GH_TOKEN is set with 'administration: write' permission."))

def enableBranchProtection (repo branch : Str) : Gh rt Unit :=
  putLockBranch rt true "ERROR: Failed to enable branch protection for " repo branch

def disableBranchLock (repo branch : Str) : Gh rt Unit :=
  putLockBranch rt false "ERROR: Failed to disable branch protection lock for " repo branch

def deleteLockMarker (repo branch : Str) : Gh rt Unit := do
  let result ← run rt (.deleteVariable repo (varName rt branch))
  if result.returncode ≠ 0 then
    let stderr := strip result.stderr
    if mentionsNotFound stderr then
      return
    throw (.runtimeError (str "ERROR: Failed to delete lock marker variable " ++
      rt.reprStr (varName rt branch) ++ str " for repo " ++ rt.reprStr repo ++
      str ".\nstderr: " ++ stderr ++
      str "\nEnsure GH_TOKEN is set with 'variables: write' permission."))

/-- `gh --jq .value` printed a value. -/
def showsValue (stdout : Str) : Prop :=
  strip stdout ≠ [] ∧ strip stdout ≠ str "null"

instance (stdout : Str) : Decidable (showsValue stdout) :=
  inferInstanceAs (Decidable (_ ∧ _))

def isBranchLocked (repo branch : Str) : Gh rt Bool := do
  let result ← run rt (.getVariable repo (varName rt branch))
  if result.returncode ≠ 0 then
    -- taken for "not locked", whatever the reason
    return false
  return decide (showsValue result.stdout)

def lockBranch (repo branch runId : Str) : Gh rt Unit := do
  writeLockMarker rt repo branch runId
  enableBranchProtection rt repo branch

def unlockBranch (repo branch : Str) : Gh rt Unit := do
  let locked ← isBranchLocked rt repo branch
  if !locked then
    return
  deleteLockMarker rt repo branch
  disableBranchLock rt repo branch

end LockBranch

namespace SafetyNet

structure LockInfo where
  runId : Str
  ageMinutes : rt.Float

inductive UnlockDecision where
  | notLocked
  | retainActiveRelease
  | retainAgeTooLow
  | doUnlock
  deriving DecidableEq

def decideUnlock (lockInfo : Option (LockInfo rt)) (inProgressCount lockMaxAgeMinutes : Int) :
    UnlockDecision :=
  match lockInfo with
  | none => .notLocked
  | some info =>
      if inProgressCount > 0 then .retainActiveRelease
      else if rt.floatLtInt info.ageMinutes lockMaxAgeMinutes then .retainAgeTooLow
      else .doUnlock

/-- The process environment: the value of a variable that is set. -/
abbrev Environ := Str → Option Str

def requireEnv (environ : Environ) (name : Str) : Except Exc Str :=
  let value := strip ((environ name).getD [])
  if value = [] then
    .error (.runtimeError (str "::error::ERROR: Required environment variable " ++
      rt.reprStr name ++ str " is not set.\nEnsure the workflow passes all required " ++
      str "environment variables to this step."))
  else .ok value

/-- `int(text)`, with a text of its own for `ValueError`. -/
def parseInt (text : Str) (failure : Str) : Except Exc Int :=
  match rt.intOfStr text with
  | .ok value => .ok value
  | .error error => .error (if error.isValueError then .runtimeError failure else error)

def checkInProgressReleaseRuns (environ : Environ) (repo branch : Str) : Gh rt Int := do
  let workflowFile ← Program.ofExcept (requireEnv rt environ (str "WORKFLOW_FILE_NAME"))
  let result ← run rt (.workflowRuns repo workflowFile branch)
  if result.returncode ≠ 0 then
    throw (.runtimeError (str "ERROR: gh API call failed querying in-progress release runs " ++
      str "for repo " ++ rt.reprStr repo ++ str " branch " ++ rt.reprStr branch ++
      str ".\nstderr: " ++ strip result.stderr ++
      str "\nEnsure GH_TOKEN is set with 'actions: read' permission."))
  let countStr := strip result.stdout
  Program.ofExcept (parseInt rt countStr (str "ERROR: gh API returned unexpected count value " ++
    rt.reprStr countStr ++ str " for repo " ++ rt.reprStr repo ++ str " branch " ++
    rt.reprStr branch ++ str ".\nExpected an integer from --jq '.total_count'."))

def readLockInfo (repo branch : Str) : Gh rt (Option (LockInfo rt)) := do
  let varName := varName rt branch
  let result ← run rt (.getVariable repo varName)
  if result.returncode ≠ 0 then
    let stderr := strip result.stderr
    if mentionsNotFound stderr then
      return none
    throw (.runtimeError (str "ERROR: Failed to read lock variable " ++ rt.reprStr varName ++
      str " from repo " ++ rt.reprStr repo ++ str ".\nstderr: " ++ stderr ++
      str "\nEnsure GH_TOKEN is set with 'variables: read' permission."))
  let value := strip result.stdout
  if ¬showsValue result.stdout then
    return none
  match rt.loads value with
  | .error .jsonDecodeError =>
      throw (.runtimeError (str "ERROR: Lock variable " ++ rt.reprStr varName ++
        str " contains invalid JSON: " ++ rt.reprStr value ++ str ".\nParse error: " ++
        rt.decodeErrorText value ++
        str "\nThe variable must be a JSON object with 'run_id' and 'locked_at_epoch' keys."))
  | .error error => throw error
  | .ok data =>
      let runId ← Program.ofExcept (data.get (str "run_id"))
      let lockedAtEpoch ← Program.ofExcept (data.get (str "locked_at_epoch"))
      if !rt.truth runId || lockedAtEpoch matches .null then
        let shown ← Program.ofExcept (rt.containerStr data)
        throw (.runtimeError (str "ERROR: Lock variable " ++ rt.reprStr varName ++
          str " is missing required keys.\nGot: " ++ shown ++
          str "\nExpected keys: 'run_id' (str), 'locked_at_epoch' (float)."))
      let now ← time rt
      let epoch ← Program.ofExcept (rt.floatOf lockedAtEpoch)
      let owner ← Program.ofExcept (rt.strOf runId)
      return some ⟨owner, rt.floatDiv (rt.floatSub now epoch) (rt.floatOfLiteral "60.0".toList)⟩

def performUnlock (repo branch : Str) : Gh rt Unit := do
  let result ← run rt (.deleteVariable repo (varName rt branch))
  if result.returncode ≠ 0 then
    throw (.runtimeError (str "ERROR: Failed to unlock branch " ++ rt.reprStr branch ++
      str " in repo " ++ rt.reprStr repo ++ str ". Could not delete lock variable " ++
      rt.reprStr (varName rt branch) ++ str ".\nstderr: " ++ strip result.stderr ++
      str "\nEnsure GH_TOKEN is set with 'variables: write' permission."))

/-- The part of `main` after the environment has been read. -/
def watch (environ : Environ) (repo branch : Str) (lockMaxAgeMinutes : Int) :
    Gh rt UnlockDecision := do
  let lockInfo ← readLockInfo rt repo branch
  let inProgressCount ←
    if lockInfo.isSome then checkInProgressReleaseRuns rt environ repo branch else pure 0
  let decision := decideUnlock rt lockInfo inProgressCount lockMaxAgeMinutes
  if decision = .doUnlock then
    performUnlock rt repo branch
  return decision

/-- `main`: the decision it carried out, or the error it exits with status 1 for. -/
def main (environ : Environ) : Gh rt UnlockDecision := do
  let repo ← Program.ofExcept (requireEnv rt environ (str "REPO"))
  let branch ← Program.ofExcept (requireEnv rt environ (str "BRANCH"))
  let lockMaxAgeRaw ← Program.ofExcept (requireEnv rt environ (str "LOCK_MAX_AGE_MINUTES"))
  let lockMaxAgeMinutes ← Program.ofExcept (parseInt rt lockMaxAgeRaw
    (str "::error::ERROR: LOCK_MAX_AGE_MINUTES=" ++ rt.reprStr lockMaxAgeRaw ++
      str " is not a valid integer.\nSet LOCK_MAX_AGE_MINUTES to a positive integer (minutes)."))
  watch rt environ repo branch lockMaxAgeMinutes

end SafetyNet

/-- The two parts of a branch's lock on GitHub. -/
structure Repo where
  marker : Option Str
  lockBranch : Bool

/-- The `lock_branch` field of a protection document. -/
def requestsLock {rt : Runtime} (body : rt.Value) : Bool :=
  match body with
  | .obj entries =>
      match dictGet? entries (str "lock_branch") with
      | some (.bool lock) => lock
      | _ => false
  | _ => false

/-- What a call did to the repository and how it was answered. -/
def Exchange (before : Repo) (event : GhEvent rt) (after : Repo) : Prop :=
  match event with
  | ⟨.time, _⟩ => after = before
  | ⟨.run (.patchVariable _ _ value), result⟩ =>
      if result.returncode = 0 then
        before.marker ≠ none ∧ after = { before with marker := some value }
      else after = before
  | ⟨.run (.postVariable _ _ value), result⟩ =>
      if result.returncode = 0 then
        before.marker = none ∧ after = { before with marker := some value }
      else after = before
  | ⟨.run (.getVariable _ _), result⟩ =>
      (result.returncode = 0 →
        ∃ value, before.marker = some value ∧ result.stdout = value ++ str "\n") ∧
      after = before
  | ⟨.run (.deleteVariable _ _), result⟩ =>
      if result.returncode = 0 then
        before.marker ≠ none ∧ after = { before with marker := none }
      else after = before
  | ⟨.run (.getProtection _ _), _⟩ => after = before
  | ⟨.run (.putProtection _ _ body), result⟩ =>
      if result.returncode = 0 then after = { before with lockBranch := requestsLock body }
      else after = before
  | ⟨.run (.workflowRuns _ _ _), _⟩ => after = before

end BranchLock
