import Mathlib.Data.List.Lex
import TelemetryPlatform.Deploy.Resolve
import TelemetryPlatform.Library.Grouping

/-!
# Splitting a scope of units by account

`partition` of `scripts/partition_units_by_account.py` groups the units of a
scope by the account they resolve to and emits one row of the workflow matrix per
account. `partitionByCiDeploy` of `scripts/filter_ci_deployable_units.py` runs
before it in the apply lane and takes the units out whose account CI may not
apply. Both read the same three configuration files.
-/

namespace Deploy

open Python

def planRoleNameKey : Str := str "plan_role_name"
def modePlan : Str := str "plan"
def modeApply : Str := str "apply"

/-- A row of the matrix; every value is a string. -/
structure Row where
  accountId : Str
  roleArn : Str
  needsDnsWriter : Str
  awsRegion : Str
  includeDirFlags : Str

/-- The order of Python strings: by code points. -/
def strLe (left right : Str) : Bool := decide (left.map Chr.code ≤ right.map Chr.code)

theorem strLe_trans (a b c : Str) (ab : strLe a b = true) (bc : strLe b c = true) :
    strLe a c = true := by
  simp only [strLe, decide_eq_true_eq] at ab bc ⊢
  exact le_trans ab bc

theorem strLe_total (a b : Str) : (strLe a b || strLe b a) = true := by
  simp only [strLe, Bool.or_eq_true, decide_eq_true_eq]
  exact le_total _ _

theorem strLe_antisymm {a b : Str} (ab : strLe a b = true) (ba : strLe b a = true) : a = b := by
  simp only [strLe, decide_eq_true_eq] at ab ba
  have codes := le_antisymm ab ba
  exact List.map_injective_iff.mpr code_injective codes

/-- `d[key]`. -/
def dictItem {ν : Type} (entries : List (Str × ν)) (key : Str) : Except Exc ν :=
  match dictGet? entries key with
  | some value => .ok value
  | none => .error (.keyError key)

/-- `" ".join(parts)`. -/
def joinSpace (parts : List Str) : Str := (str " ").intercalate parts

def reassembleFlags (unitPaths : List Str) : Str :=
  joinSpace (unitPaths.flatMap fun path => [queueIncludeDirToken, path])

variable (rt : Runtime)

def loadRoleName (accountId : Str) (accounts : rt.Value) (mode path : Str) (onDemand : Bool) :
    Except DeployError Str := do
  if !(← accounts.contains accountId) then
    throw (.accountNotFound (str "ERROR: Account id '" ++ accountId ++
      str "' is not registered in " ++ path ++ str ".\n  Remedy: add a '" ++ accountId ++
      str "' entry with the required role-name keys."))
  let entry ← accounts.subscript accountId
  if !(← entry.contains ciDeployKey) then
    throw (.accountNotFound (str "ERROR: Account entry '" ++ accountId ++ str "' in " ++ path ++
      str " is missing the required '" ++ ciDeployKey ++ str "' key."))
  if mode = modeApply then
    if !(← accountAllowsCiApply rt entry onDemand) then
      let accountRole ← entry.getD (str "account_role") (.str (str "unknown"))
      let accountRole ← rt.strOf accountRole
      throw (.ciDeployForbidden (str "ERROR: account " ++ accountId ++ str " (" ++ accountRole ++
        str (") is local-only (ci_deploy=false); CI cannot apply these units.\n" ++
          "  Remedy: apply those units locally, or run the on-demand lane (") ++
        onDemandApplyEnv ++ str " set AND " ++ ciDeployOnDemandKey ++
        str "=true for the account)."))
  let key := if mode = modeApply then deployRoleNameKey else planRoleNameKey
  if !(← entry.contains key) then
    throw (.accountNotFound (str "ERROR: Account entry '" ++ accountId ++ str "' in " ++ path ++
      str " is missing the required '" ++ key ++ str "' key needed for mode '" ++ mode ++
      str "'.\n  Remedy: add '" ++ key ++ str "' to the '" ++ accountId ++ str "' row."))
  let roleName ← entry.subscript key
  rt.strOf roleName

/-- The two dictionaries `partition` builds over the units. -/
structure Groups where
  byAccount : List (Str × List Str)
  regionByAccount : List (Str × Str)

def addUnit (envAccounts domains : rt.Value) (groups : Groups) (unit : Str) :
    Except DeployError Groups := do
  let (region, accountId) ← resolveAccountId rt unit envAccounts domains
  return ⟨dictAppend groups.byAccount accountId unit,
    dictSetDefault groups.regionByAccount accountId region⟩

/-- The row of one account. -/
def rowOf (accounts : rt.Value) (path dnsOwnerAccountId mode : Str) (onDemand : Bool)
    (groups : Groups) (accountId : Str) : Except DeployError Row := do
  let roleName ← loadRoleName rt accountId accounts mode path onDemand
  let needsDnsWriter := decide (mode = modeApply) && decide (accountId = dnsOwnerAccountId)
  let region ← dictItem groups.regionByAccount accountId
  let units ← dictItem groups.byAccount accountId
  return {
    accountId := accountId
    roleArn := buildRoleArn accountId roleName
    needsDnsWriter := if needsDnsWriter then str "true" else str "false"
    awsRegion := region
    includeDirFlags := reassembleFlags units }

/-- `str(env_accounts.get("dns_owner", {}).get("account_id", ""))`. -/
def dnsOwnerAccountIdOf (envAccounts : rt.Value) : Except Exc Str := do
  let dnsOwner ← envAccounts.getD (str "dns_owner") (.obj [])
  rt.strOf (← dnsOwner.getD (str "account_id") (.str []))

def partition (files : ConfigFiles) (includeDirFlags mode : Str) (onDemand : Bool) :
    Except DeployError (List Row) := do
  if mode ≠ modePlan ∧ mode ≠ modeApply then
    throw (.partition (str "ERROR: unknown mode '" ++ mode ++ str "' (expected '" ++ modePlan ++
      str "' or '" ++ modeApply ++ str "')."))
  if strip includeDirFlags = [] then
    return []
  let envAccounts ← rt.loads files.envAccounts
  let domains ← rt.loads files.domains
  let accounts ← rt.loads files.accounts
  let dnsOwnerAccountId ← dnsOwnerAccountIdOf rt envAccounts
  let allPaths ← extractAllUnitPaths includeDirFlags
  let groups ← allPaths.foldlM (addUnit rt envAccounts domains) ⟨[], []⟩
  ((groups.byAccount.map Prod.fst).mergeSort strLe).mapM
    (rowOf rt accounts files.accountsJsonPath dnsOwnerAccountId mode onDemand groups)

/-- The body of the loop of `partition_by_ci_deploy`. -/
def classify (files : ConfigFiles) (envAccounts domains accounts : rt.Value) (onDemand : Bool)
    (split : List Str × List (Str × Str)) (unit : Str) :
    Except DeployError (List Str × List (Str × Str)) := do
  let (_, accountId) ← resolveAccountId rt unit envAccounts domains
  if ← isAccountCiDeployable rt accountId accounts files.accountsJsonPath onDemand then
    return (split.1 ++ [unit], split.2)
  else
    return (split.1, split.2 ++ [(unit, accountId)])

/-- The units CI may apply, and the others with their accounts. -/
def partitionByCiDeploy (files : ConfigFiles) (includeDirFlags : Str) (onDemand : Bool) :
    Except DeployError (List Str × List (Str × Str)) := do
  let envAccounts ← rt.loads files.envAccounts
  let domains ← rt.loads files.domains
  let accounts ← rt.loads files.accounts
  let units ← extractAllUnitPaths includeDirFlags
  units.foldlM (classify rt files envAccounts domains accounts onDemand) ([], [])

end Deploy
