import Mathlib.Data.List.Dedup
import TelemetryPlatform.Deploy.Partition

/-!
# The deploy role of a scope

`resolve_deploy_role` of `scripts/resolve_deploy_role.py`. A scope may span one service
account and the account that owns the DNS zones; the role of the service account is the
one the run assumes, and the role of the DNS owner is chained from it. The result is
five lines that are appended to the output file of the job one after the other.
-/

namespace Deploy

open Python

/-- The exceptions of the resolution: those of the shared functions and a mixed scope. -/
inductive ResolveError where
  | deploy (error : DeployError)
  | mixedAccountScope (text : Str)

instance : MonadLift (Except DeployError) (Except ResolveError) := ⟨Except.mapError .deploy⟩

def roleArnKey : Str := str "role_arn"
def awsRegionKey : Str := str "aws_region"
def targetAccountIdKey : Str := str "target_account_id"
def needsDnsWriterKey : Str := str "needs_dns_writer"
def dnsWriterArnKey : Str := str "dns_writer_arn"

variable (rt : Runtime)

def loadAccountEntry (files : ConfigFiles) (accountId : Str) (onDemand : Bool) :
    Except DeployError rt.Value := do
  let accounts ← rt.loads files.accounts
  if !(← accounts.contains accountId) then
    throw (.accountNotFound (str "ERROR: Account id '" ++ accountId ++
      str "' is not registered in " ++ files.accountsJsonPath ++ str ".\n  Remedy: add a '" ++
      accountId ++ str "' entry with '" ++ deployRoleNameKey ++ str "' + '" ++ ciDeployKey ++
      str "'."))
  let entry ← accounts.subscript accountId
  if !(← entry.contains deployRoleNameKey) then
    throw (.accountNotFound (str "ERROR: Account entry '" ++ accountId ++ str "' in " ++
      files.accountsJsonPath ++ str " is missing the required '" ++ deployRoleNameKey ++
      str "' key."))
  if !(← entry.contains ciDeployKey) then
    throw (.accountNotFound (str "ERROR: Account entry '" ++ accountId ++ str "' in " ++
      files.accountsJsonPath ++ str " is missing the required '" ++ ciDeployKey ++
      str "' key. No default is applied -- every row must declare this explicitly."))
  if !(← accountAllowsCiApply rt entry onDemand) then
    let accountRole ← entry.getD (str "account_role") (.str (str "unknown"))
    let accountRole ← rt.strOf accountRole
    throw (.ciDeployForbidden (str "ERROR: account " ++ accountId ++ str " (" ++ accountRole ++
      str (") is local-only (D33); CI cannot apply these units.\n  Remedy: apply those units " ++
        "locally. Only ci_deploy=true accounts apply via the normal lane; a ci_deploy=false " ++
        "account applies via CI ONLY when the run sets ") ++ onDemandApplyEnv ++
      str " AND the account declares " ++ ciDeployOnDemandKey ++
      str "=true (on-demand ephemeral lane)."))
  return entry

def loadDeployRoleName (files : ConfigFiles) (accountId : Str) (onDemand : Bool) :
    Except DeployError Str := do
  let entry ← loadAccountEntry rt files accountId onDemand
  let roleName ← entry.subscript deployRoleNameKey
  rt.strOf roleName

/-- The unit paths of the two arguments of which one is given. -/
def scopePaths (unitPath includeDirFlags : Option Str) : Except DeployError (List Str) :=
  match includeDirFlags, unitPath with
  | some flags, _ => extractAllUnitPaths flags
  | none, some path => .ok [path]
  | none, none =>
      .error (.pathParse (str "ERROR: Either unit_path or include_dir_flags must be provided."))

/-- The accounts of a scope other than the DNS owner, as a set. -/
def serviceAccounts (dnsOwnerAccountId : Str) (resolved : List (Str × Str)) : List Str :=
  ((resolved.map Prod.snd).filter (· ≠ dnsOwnerAccountId)).dedup

/-- The role that is chained from the one the run assumes, where it is needed. -/
def dnsWriterArnOf (files : ConfigFiles) (dnsOwnerAccountId : Str) (needsDnsWriter : Bool)
    (onDemand : Bool) : Except DeployError Str := do
  if needsDnsWriter then
    let roleName ← loadDeployRoleName rt files dnsOwnerAccountId onDemand
    return buildRoleArn dnsOwnerAccountId roleName
  else
    return []

/-- What is computed before the first line is written: the keys of the lines with their values. -/
def resolveOutputs (files : ConfigFiles) (unitPath includeDirFlags : Option Str)
    (onDemand : Bool) : Except ResolveError (List (Str × Str)) := do
  let envAccounts ← rt.loads files.envAccounts
  let domains ← rt.loads files.domains
  let dnsOwnerAccountId ← dnsOwnerAccountIdOf rt envAccounts
  let allPaths ← scopePaths unitPath includeDirFlags
  let resolved ← (allPaths.mapM fun path => resolveAccountId rt path envAccounts domains :
    Except DeployError (List (Str × Str)))
  let region := (resolved.head?.map Prod.fst).getD []
  let services := serviceAccounts dnsOwnerAccountId resolved
  if 1 < services.length then
    throw (.mixedAccountScope (str "ERROR: apply scope spans service accounts " ++
      (str ",").intercalate (services.mergeSort strLe) ++
      str ("; split the change per env. Each CI apply run targets one service account " ++
        "(plus the shared dns_owner account for its _dns_owner units).")))
  let accountId := services.head?.getD dnsOwnerAccountId
  let needsDnsWriter := !services.isEmpty && dnsOwnerAccountId ∈ resolved.map Prod.snd
  let roleName ← loadDeployRoleName rt files accountId onDemand
  let dnsWriterArn ← dnsWriterArnOf rt files dnsOwnerAccountId needsDnsWriter onDemand
  return [(roleArnKey, buildRoleArn accountId roleName), (awsRegionKey, region),
    (targetAccountIdKey, accountId),
    (needsDnsWriterKey, if needsDnsWriter then str "true" else str "false"),
    (dnsWriterArnKey, dnsWriterArn)]

/--
The calls of `write_output` in turn: the lines in the file, and the error of the first
one that has no UTF-8 encoding.
-/
def writeOutputs : List (Str × Str) → List (Str × Str) × Except ResolveError Unit
  | [] => ([], .ok ())
  | (key, value) :: lines =>
      match encode (key ++ str "=" ++ value ++ str "\n") with
      | .error error => ([], .error (.deploy (.builtin error)))
      | .ok _ => ((key, value) :: (writeOutputs lines).1, (writeOutputs lines).2)

/-- The lines that are written, and how the resolution ends. -/
def resolveDeployRole (files : ConfigFiles) (unitPath includeDirFlags : Option Str)
    (onDemand : Bool) : List (Str × Str) × Except ResolveError Unit :=
  match resolveOutputs rt files unitPath includeDirFlags onDemand with
  | .error error => ([], .error error)
  | .ok lines => writeOutputs lines

end Deploy
