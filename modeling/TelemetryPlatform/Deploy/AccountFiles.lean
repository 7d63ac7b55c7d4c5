import TelemetryPlatform.Deploy.Cover

/-!
# The account files of the live tree

The `account.hcl` files under `terragrunt/live/telemetry` and what Terragrunt evaluates for
a unit: the locals of the nearest of these files above it, on the same two documents under
`common/` from which `resolve_deploy_role.py` resolves the account of the unit's path.

A file in the tree of an environment is one for the environment or for one of the tiers
under `_singletons`; under `bootstrap` every role has its own. The directory of
`environment.hcl` is the environment's, so that `environment` is its name.
-/

namespace Deploy

open Python

inductive HclError where
  | noAttribute (key : Str)
  | notAnObject
  | aborted (text : Str)
  | noParentFile (name : String)

/-- An `account.hcl`, by the place it stands at. -/
inductive AccountFile where
  | service
  | shared
  | dnsOwner
  | pretty
  | bootstrap (roleDir : Str)

variable (rt : Runtime)

/-- What the units read of an `account.hcl`; `use_pinned_module_sources` is evaluated with it. -/
structure AccountLocals where
  awsAccountId : rt.Value
  awsProfile : rt.Value

section Evaluation

/-- `value["key"]`. -/
def member (value : rt.Value) (key : Str) : Except HclError rt.Value :=
  match value with
  | .obj entries =>
      match dictGet? entries key with
      | some found => .ok found
      | none => .error (.noAttribute key)
  | _ => .error .notAnObject

/-- `lookup(rows, key, null) != null ? rows[key] : tobool("ERROR: ...")`. -/
def rowOrAbort (rows : rt.Value) (key message : Str) : Except HclError rt.Value :=
  match rows with
  | .obj entries =>
      match dictGet? entries key with
      | none | some .null => .error (.aborted message)
      | some row => .ok row
  | _ => .error .notAnObject

def noEnvText (env : Str) (file advice : String) : Str :=
  str "ERROR: env-class '" ++ env ++ str ("' not found in common/" ++ file ++ advice)

/-- The locals of a row, which has to have all three. -/
def rowLocals (row : rt.Value) : Except HclError (AccountLocals rt) := do
  let awsAccountId ← member rt row (str "account_id")
  let awsProfile ← member rt row (str "aws_profile")
  let _ ← member rt row (str "use_pinned_module_sources")
  return ⟨awsAccountId, awsProfile⟩

/-- The locals of the shared `dns_owner` row. -/
def dnsOwnerLocals (envAccounts : rt.Value) : Except HclError (AccountLocals rt) := do
  let dnsOwner ← member rt envAccounts (str "dns_owner")
  return ⟨← member rt dnsOwner (str "account_id"), ← member rt dnsOwner (str "aws_profile")⟩

/-- `local._entry` of the environment. -/
def envEntry (envAccounts : rt.Value) (env : Str) (advice : String) : Except HclError rt.Value := do
  rowOrAbort rt (← member rt envAccounts (str "envs")) env
    (noEnvText env "env_accounts.json (envs)" advice)

/-- `trimsuffix(text, suffix)`. -/
def trimsuffix (text suffix : Str) : Str :=
  if suffix.isSuffixOf text then text.take (text.length - suffix.length) else text

/--
The locals of a file for an environment. The branch of a conditional that is not chosen is
evaluated too, but its errors are dropped.
-/
def fileLocals (file : AccountFile) (env : Str) (envAccounts domains : rt.Value) :
    Except HclError (AccountLocals rt) :=
  match file with
  | .service => do
      rowLocals rt (← envEntry rt envAccounts env " -- add a row before deploying this env.")
  | .shared => do
      rowLocals rt (← envEntry rt envAccounts env ".")
  | .dnsOwner => do
      let locals ← dnsOwnerLocals rt envAccounts
      let entry ← envEntry rt envAccounts env "."
      let _ ← member rt entry (str "use_pinned_module_sources")
      return locals
  | .pretty => do
      let domainCfg ← rowOrAbort rt domains env (noEnvText env "domains.json" ".")
      let svcEntry ← envEntry rt envAccounts env "."
      let prettyApex ← member rt domainCfg (str "dns_pretty_apex")
      let serviceApex ← member rt domainCfg (str "dns_service_apex")
      let _ ← member rt svcEntry (str "use_pinned_module_sources")
      if rt.eq prettyApex serviceApex then rowLocals rt svcEntry
      else dnsOwnerLocals rt envAccounts
  | .bootstrap roleDir => do
      let role := trimsuffix roleDir bootstrapRoleSuffix
      if role = dnsOwnerRole then dnsOwnerLocals rt envAccounts
      else
        rowLocals rt (← rowOrAbort rt (← member rt envAccounts (str "envs")) role
          (str "ERROR: bootstrap role '" ++ role ++ str ("' (from dir <role>_role) not found in " ++
            "common/env_accounts.json (expected sandbox/prod/qa under envs, or 'dns_owner').")))

end Evaluation

section Tree

def singletonsSegment : Str := str "_singletons"
def sharedSegment : Str := str "shared"

/-- The name of a directory. -/
def IsName (name : Str) : Prop := name ≠ [] ∧ slash ∉ name ∧ .char '\n' ∉ name

/--
The directory of a unit: `<above>live/telemetry/<region>/<first>/<below>/...`, where `first`
is an environment or `bootstrap`.
-/
structure LiveUnit where
  above : Str
  region : Str
  first : Str
  below : List Str
  outside : ¬str "live/telemetry/" <:+: above
  isRegion : isRegion region = true
  named : ∀ name ∈ first :: below, IsName name
  nested : below ≠ []

def LiveUnit.path (unit : LiveUnit) : Str :=
  unit.above ++ (str "live/telemetry/" ++ (unit.region ++
    slash :: [slash].intercalate (unit.first :: unit.below)))

/-- The `account.hcl` in a directory under an environment or under `bootstrap`. -/
def accountFileAt (first : Str) (dir : List Str) : Option AccountFile :=
  if first = bootstrapSegment then
    match dir with
    | [roleDir] => some (.bootstrap roleDir)
    | _ => none
  else if dir = [] then some .service
  else if dir = [singletonsSegment, sharedSegment] then some .shared
  else if dir = [singletonsSegment, dnsOwnerSegment] then some .dnsOwner
  else if dir = [singletonsSegment, prettySegment] then some .pretty
  else none

/-- The nearest file in a directory or above it; the names of the directory are reversed. -/
def nearestFrom (first : Str) : List Str → Option AccountFile
  | [] => accountFileAt first []
  | name :: above => (accountFileAt first (name :: above).reverse).or (nearestFrom first above)

/-- `find_in_parent_folders("account.hcl")`, which begins above the unit. -/
def LiveUnit.accountFile (unit : LiveUnit) : Option AccountFile :=
  nearestFrom unit.first unit.below.reverse.tail

/-- What the unit reads as `account_vars.locals`. -/
def accountLocals (unit : LiveUnit) (envAccounts domains : rt.Value) :
    Except HclError (AccountLocals rt) :=
  match unit.accountFile with
  | some file => fileLocals rt file unit.first envAccounts domains
  | none => .error (.noParentFile "account.hcl")

end Tree

section Configuration

/-- The row of an environment: its account, its profile and its toggle. -/
def IsEnvRow (row : rt.Value) : Prop :=
  ∃ entries accountId profile pinned, row = .obj entries ∧
    dictGet? entries (str "account_id") = some (.str accountId) ∧
    dictGet? entries (str "aws_profile") = some (.str profile) ∧
    dictGet? entries (str "use_pinned_module_sources") = some (.bool pinned) ∧
    ∀ entry ∈ entries, (∃ text, entry.2 = .str text) ∨ ∃ flag, entry.2 = .bool flag

def IsDomainRow (row : rt.Value) : Prop :=
  ∃ entries prettyApex serviceApex, row = .obj entries ∧
    dictGet? entries (str "dns_pretty_apex") = some (.str prettyApex) ∧
    dictGet? entries (str "dns_service_apex") = some (.str serviceApex)

/-- `common/env_accounts.json` and `common/domains.json`. -/
structure CommonConfig where
  envAccounts : List (Str × rt.Value)
  domains : List (Str × rt.Value)
  envs : List (Str × rt.Value)
  dnsOwner : List (Str × rt.Value)
  ownerId : Str
  envs_eq : dictGet? envAccounts (str "envs") = some (.obj envs)
  dnsOwner_eq : dictGet? envAccounts (str "dns_owner") = some (.obj dnsOwner)
  ownerId_eq : dictGet? dnsOwner (str "account_id") = some (.str ownerId)
  ownerProfile : ∃ profile, dictGet? dnsOwner (str "aws_profile") = some (.str profile)
  envRows : ∀ env row, dictGet? envs env = some row → IsEnvRow rt row
  domainRows : ∀ env row, dictGet? domains env = some row → IsDomainRow rt row

end Configuration

end Deploy
