import TelemetryPlatform.Library.Json
import TelemetryPlatform.Library.Text

/-!
# Resolving the account of a unit

The pure functions of `scripts/resolve_deploy_role.py`. A scope of changed units
is a string of `--queue-include-dir <path>` flags; a unit path names a region and
an environment, and the configuration under `common/` names the account the unit
is applied in.

The two regular expressions are written out as functions on code points. Neither
needs backtracking: a region is the whole path segment it stands in, and a unit
path is the maximal run of characters that are not white space.
-/

namespace Deploy

open Python

/-- The exceptions of the deploy scripts, with their texts. -/
inductive DeployError where
  | pathParse (text : Str)
  | accountNotFound (text : Str)
  | accountResolution (text : Str)
  | ciDeployForbidden (text : Str)
  | partition (text : Str)
  | builtin (error : Exc)

instance : MonadLift (Except Exc) (Except DeployError) := ⟨Except.mapError .builtin⟩

/-- The three files under `common/`, as texts, and the path of `accounts.json`. -/
structure ConfigFiles where
  envAccounts : Str
  domains : Str
  accounts : Str
  accountsJsonPath : Str

def envAccountsFile : Str := str "env_accounts.json"
def domainsFile : Str := str "domains.json"
def deployRoleNameKey : Str := str "deploy_role_name"
def ciDeployKey : Str := str "ci_deploy"
def onDemandApplyEnv : Str := str "TT_ON_DEMAND_APPLY"
def ciDeployOnDemandKey : Str := str "ci_deploy_on_demand"
def dnsOwnerSegment : Str := str "dns_owner"
def prettySegment : Str := str "pretty"
def bootstrapSegment : Str := str "bootstrap"
def bootstrapRoleSuffix : Str := str "_role"
def dnsOwnerRole : Str := str "dns_owner"

variable (rt : Runtime)

def accountAllowsCiApply (entry : rt.Value) (onDemand : Bool) : Except Exc Bool := do
  if rt.truth (← entry.subscript ciDeployKey) then
    return true
  if onDemand then
    return rt.truth (← entry.getD ciDeployOnDemandKey (.bool false))
  return false

section Flags

def queueIncludeDirToken : Str := str "--queue-include-dir"

def isSolid (c : Chr) : Bool := !isSpace c

/--
`--queue-include-dir\s+(\S+)` at the start of a text: the path and the text after
the match.
-/
def matchIncludeDir (text : Str) : Option (Str × Str) :=
  match text.dropPrefix? queueIncludeDirToken with
  | some (gap :: rest) =>
      let path := (rest.dropWhile isSpace).takeWhile isSolid
      if isSpace gap ∧ path ≠ [] then
        some (path, (rest.dropWhile isSpace).dropWhile isSolid)
      else none
  | _ => none

theorem matchIncludeDir_shorter {text path after : Str}
    (found : matchIncludeDir text = some (path, after)) : after.length < text.length := by
  rw [matchIncludeDir] at found
  split at found
  · next gap rest dropped =>
      dsimp only at found
      split at found
      · have split := List.dropPrefix?_eq_some_iff.mp dropped
        rcases split with ⟨token, rfl, _⟩
        cases found
        have solid := (List.dropWhile_sublist isSolid (l := rest.dropWhile isSpace)).length_le
        have spaces := (List.dropWhile_sublist isSpace (l := rest)).length_le
        simp only [List.length_append, List.length_cons]
        omega
      · cases found
  · cases found

/-- `_QUEUE_INCLUDE_DIR_RE.findall`. -/
def findIncludeDirs (text : Str) : List Str :=
  match text with
  | [] => []
  | c :: rest =>
      match _found : matchIncludeDir (c :: rest) with
      | some (path, after) => path :: findIncludeDirs after
      | none => findIncludeDirs rest
termination_by text.length
decreasing_by
  · exact matchIncludeDir_shorter _found
  · simp

def extractAllUnitPaths (includeDirFlags : Str) : Except DeployError (List Str) :=
  let paths := findIncludeDirs includeDirFlags
  if paths = [] then
    .error (.pathParse (str "ERROR: No --queue-include-dir token found in include_dir_flags: '" ++
      includeDirFlags ++
      str "'\n  Remedy: ensure tg-detect-units emitted at least one unit path."))
  else .ok paths

end Flags

section UnitPath

def slash : Chr := .char '/'

def isLower (c : Chr) : Bool := 0x61 ≤ c.code && c.code ≤ 0x7a

def isDecimal (c : Chr) : Bool := 0x30 ≤ c.code && c.code ≤ 0x39

/-- `[a-z][a-z0-9-]+-[0-9]+`, matched by the whole segment. -/
def isRegion (segment : Str) : Bool :=
  match segment with
  | [] => false
  | first :: rest =>
      match rest.reverse.dropWhile isDecimal with
      | [] => false
      | dash :: name =>
          isLower first && !(rest.reverse.takeWhile isDecimal).isEmpty && dash = .char '-' &&
            !name.isEmpty && name.all fun c => isLower c || isDecimal c || c = .char '-'

/--
`.*?(?:/|$)`: the text before the first slash or the end, and the text from
there. The dot does not match a newline, but the end may stand before one.
-/
def scanRest (text : Str) : Option (Str × Str) :=
  match text with
  | [] => some ([], [])
  | c :: rest =>
      if c = slash then some ([], c :: rest)
      else if c = .char '\n' then
        if rest = [] then some ([], [c]) else none
      else (scanRest rest).map fun found => (c :: found.1, found.2)

structure UnitPath where
  region : Str
  first : Str
  rest : Str

/-- `_UNIT_PATH_RE` at the start of a text. -/
def matchUnitPath (text : Str) : Option UnitPath := do
  let tail ← text.dropPrefix? (str "live/telemetry/")
  match tail.dropWhile (· ≠ slash) with
  | _ :: first :: more =>
      if isRegion (tail.takeWhile (· ≠ slash)) ∧ first ≠ slash then
        let (rest, after) ← scanRest more
        return ⟨tail.takeWhile (· ≠ slash), first :: rest, after.dropWhile (· = slash)⟩
      else none
  | _ => none

/-- The leftmost match. -/
def searchUnitPath (text : Str) : Option UnitPath :=
  match text with
  | [] => none
  | c :: rest => (matchUnitPath (c :: rest)).orElse fun _ => searchUnitPath rest

def parseUnitPath (unitPath : Str) : Except DeployError UnitPath :=
  match searchUnitPath unitPath with
  | some found => .ok found
  | none =>
      .error (.pathParse (str "ERROR: Cannot parse region/env from unit path: '" ++ unitPath ++
        str ("'\n  Expected grammar: .../live/telemetry/<region>/<env|bootstrap>/...\n" ++
          "  Remedy: ensure the unit path is inside the env-keyed live/telemetry tree.")))

end UnitPath

/-- `_envs_account`. -/
def envsAccount (envs : rt.Value) (unitPath env : Str) : Except DeployError Str := do
  if !(← envs.contains env) then
    throw (.accountResolution (str "ERROR: env/role '" ++ env ++ str "' (from '" ++ unitPath ++
      str "') is not in " ++ envAccountsFile ++ str " envs.\n  Remedy: add an envs." ++ env ++
      str " entry (account_id + aws_profile) to common/" ++ envAccountsFile ++ str "."))
  let entry ← envs.subscript env
  let accountId ← entry.subscript (str "account_id")
  rt.strOf accountId

/-- `_dns_owner_account`. -/
def dnsOwnerAccount (dnsOwner : rt.Value) (unitPath : Str) : Except DeployError Str := do
  if !(← dnsOwner.contains (str "account_id")) then
    throw (.accountResolution (str "ERROR: common/" ++ envAccountsFile ++
      str " is missing the dns_owner.account_id needed to resolve '" ++ unitPath ++ str "'."))
  let accountId ← dnsOwner.subscript (str "account_id")
  rt.strOf accountId

/-- The role directory of a bootstrap unit without its `_role` suffix. -/
def bootstrapRole (roleDir : Str) : Str :=
  if bootstrapRoleSuffix.isSuffixOf roleDir then
    roleDir.take (roleDir.length - bootstrapRoleSuffix.length)
  else roleDir

/-- The account of a unit under `bootstrap/`. -/
def resolveBootstrap (envs dnsOwner : rt.Value) (unitPath rest : Str) : Except DeployError Str := do
  let roleDir := rest.takeWhile (· ≠ slash)
  if roleDir = [] then
    throw (.pathParse (str "ERROR: bootstrap unit path '" ++ unitPath ++
      str ("' has no <role> segment (expected " ++
        "bootstrap/<sandbox_role|prod_role|qa_role|dns_owner_role>/...).")))
  let role := bootstrapRole roleDir
  if role = dnsOwnerRole then dnsOwnerAccount rt dnsOwner unitPath
  else envsAccount rt envs unitPath role

/-- The account of a unit in the tree of an environment. -/
def resolveEnvTree (envs dnsOwner domains : rt.Value) (unitPath env rest : Str) :
    Except DeployError Str := do
  let restSegments := rest.splitOn slash
  if dnsOwnerSegment ∈ restSegments then dnsOwnerAccount rt dnsOwner unitPath
  else if prettySegment ∈ restSegments then
    match ← domains.get env with
    | .null =>
        throw (.accountResolution (str "ERROR: env '" ++ env ++ str "' (from _pretty unit '" ++
          unitPath ++ str "') is not in common/" ++ domainsFile ++
          str "; cannot resolve the config-derived _pretty account."))
    | dom =>
        let prettyApex ← dom.get (str "dns_pretty_apex")
        let serviceApex ← dom.get (str "dns_service_apex")
        if rt.eq prettyApex serviceApex then envsAccount rt envs unitPath env
        else dnsOwnerAccount rt dnsOwner unitPath
  else envsAccount rt envs unitPath env

/-- The region and the account of a unit. -/
def resolveAccountId (unitPath : Str) (envAccounts domains : rt.Value) :
    Except DeployError (Str × Str) := do
  let found ← parseUnitPath unitPath
  let envs ← envAccounts.getD (str "envs") (.obj [])
  let dnsOwner ← envAccounts.getD (str "dns_owner") (.obj [])
  let accountId ←
    if found.first = bootstrapSegment then resolveBootstrap rt envs dnsOwner unitPath found.rest
    else resolveEnvTree rt envs dnsOwner domains unitPath found.first found.rest
  return (found.region, accountId)

def buildRoleArn (accountId roleName : Str) : Str :=
  str "arn:aws:iam::" ++ accountId ++ str ":role/" ++ roleName

def isAccountCiDeployable (accountId : Str) (accounts : rt.Value) (source : Str)
    (onDemand : Bool) : Except DeployError Bool := do
  if !(← accounts.contains accountId) then
    throw (.accountNotFound (str "ERROR: Account id '" ++ accountId ++
      str "' is not registered in " ++ source ++ str ".\n  Remedy: add a '" ++ accountId ++
      str "' entry with '" ++ ciDeployKey ++ str "'."))
  let entry ← accounts.subscript accountId
  if !(← entry.contains ciDeployKey) then
    throw (.accountNotFound (str "ERROR: Account entry '" ++ accountId ++ str "' in " ++ source ++
      str " is missing the required '" ++ ciDeployKey ++
      str "' key. No default is applied -- every row must declare this explicitly."))
  accountAllowsCiApply rt entry onDemand

end Deploy
