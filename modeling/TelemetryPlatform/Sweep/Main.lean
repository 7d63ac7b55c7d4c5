import TelemetryPlatform.Sweep.Inventory

/-!
# The sweep

`main` of `scripts/terratest_sweep.py`: the allowlist gate, check mode with the
probes that tell a leftover resource from a lagging index, and delete mode with its
passes over a fresh inventory each. The report is written before the script ends.
-/

namespace Sweep

open Python Interaction

variable (rt : Runtime) (digits : DigitTable) (settings : Settings)

section Gate

def allowedRoles : List Str := ["sandbox", "qa-infra"].map str

/-- `row.get("account_role") in _ALLOWED_ROLES`. -/
def hasAllowedRole (row : rt.Value) : Except Exc Bool := do
  match ← row.get (str "account_role") with
  | .str role => return allowedRoles.contains role
  | .arr _ | .obj _ => throw .typeError
  | _ => return false

/-- `_load_allowlist`. -/
def loadAllowlist : Script (List Str) :=
  match settings.accountsJson with
  | none => throw (.exit 1)
  | some text =>
      match rt.loads text with
      | .error .jsonDecodeError => throw (.exit 1)
      | .error error => throw (.uncaught (.builtin error))
      | .ok (.obj accounts) => do
          let flags ← uncaughtExc (accounts.mapM fun account => hasAllowedRole rt account.2)
          return ((accounts.zip flags).filter Prod.snd).map fun account => account.1.1
      | .ok _ => throw (.uncaught (.builtin .attributeError))

/-- The caller account, when it is in the allowlist. -/
def authorizedAccount : Script Str := do
  let allowlist ← loadAllowlist rt settings
  let callerAccount ← uncaughtIn (api .getCallerIdentity)
  if callerAccount ∈ allowlist then return callerAccount
  else throw (.exit 1)

end Gate

section CheckMode

/-- `_ec2_resource_type`. -/
def ec2ResourceType (arn : Str) : Str := (ec2TypeAndId arn).1

/-- `except ClientError: return False` around a probe, but for the codes in `goneCodes`. -/
def probed {α : Type} (goneCodes : List Str) (isGone : α → Bool) : Except Fault α → Aws Bool
  | .ok described => return isGone described
  | .error (.client code) => return goneCodes.contains code
  | .error .other => throw .unexpected

/-- `_is_kms_key_in_pending_deletion`. -/
def isKmsKeyInPendingDeletion (arn : Str) : Aws Bool := do
  if (splitOnce (str ":alias/") arn).isSome then
    return false
  probed [] (fun keyState => decide (keyState ∈ kmsPendingDeletionStates))
    (← attempt (.describeKey (afterLast slash arn)))

/-- `_is_nat_gateway_deleted`. -/
def isNatGatewayDeleted (arn : Str) : Aws Bool := do
  probed [str "NatGatewayNotFound"] (fun states => states.any fun state => state ∈ deletedStates)
    (← attempt (.describeNatGateways (afterLast slash arn)))

/-- `_is_vpc_flow_log_deleted`. -/
def isVpcFlowLogDeleted (arn : Str) : Aws Bool := do
  probed [] (fun flowLogs => flowLogs.isEmpty) (← attempt (.describeFlowLogs (afterLast slash arn)))

/-- `_is_vpc_endpoint_deleted`. -/
def isVpcEndpointDeleted (arn : Str) : Aws Bool := do
  probed [str "InvalidVpcEndpointId.NotFound"]
    (fun states => states.isEmpty || states.any fun state => state ∈ deletedStates)
    (← attempt (.describeVpcEndpoints (afterLast slash arn)))

/-- `_is_security_group_deleted`. -/
def isSecurityGroupDeleted (arn : Str) : Aws Bool := do
  probed [str "InvalidGroup.NotFound"] (fun _ => false)
    (← attempt (.describeSecurityGroups (afterLast slash arn)))

/-- The probe of the residue filter for a resource; at most one of them applies. -/
def isGone (arn : Str) : Aws Bool :=
  let service := servicePrefixFromArn arn
  if service = str "kms" then isKmsKeyInPendingDeletion arn
  else if service = str "ec2" then
    if ec2ResourceType arn = str "natgateway" then isNatGatewayDeleted arn
    else if ec2ResourceType arn = str "vpc-flow-log" then isVpcFlowLogDeleted arn
    else if ec2ResourceType arn = str "vpc-endpoint" then isVpcEndpointDeleted arn
    else if ec2ResourceType arn = str "security-group" then isSecurityGroupDeleted arn
    else return false
  else return false

/-- `_handler_reports_live`. -/
def handlerReportsLive (arn : Str) : Aws Bool :=
  match handlers settings.pollTimeout (servicePrefixFromArn arn) with
  | some handler => handler.isLive arn
  | none => return true

/-- The condition of the residue filter. -/
def isResidue (resource : Resource) : Aws Bool := do
  if ← isGone resource.arn then return false
  handlerReportsLive settings resource.arn

def foundEntry (resource : Resource) : Entry :=
  ⟨resource.arn, servicePrefixFromArn resource.arn, .found, none⟩

/-- The resources kept by the flags of a filter. -/
def kept {α : Type} (items : List α) (flags : List Bool) : List α :=
  ((items.zip flags).filter Prod.snd).map Prod.fst

/-- The anomaly monitors and subscriptions, which only the global sweep looks at. -/
def ceEntries (mode : Mode) (runId : Option Str) (now : DateTime) : Script (List Entry) :=
  if runId.isNone then do
    let minAge ← uncaughtExc (getMinAgeMinutes rt settings)
    uncaughtIn (sweepCeAnomalyMonitors digits mode minAge now)
  else return []

/-- Check mode, with the argument of its `sys.exit`. -/
def checkMode (account : Str) (runId : Option Str) (now : DateTime) (resources : List Resource) :
    Script Int := do
  let flags ← uncaughtIn (resources.mapM (isResidue settings))
  let entries ← ceEntries rt digits settings .check runId now
  let allFound := (kept resources flags).map foundEntry ++ entries
  Program.perform (Call.writeReport ⟨account, .check, runId, allFound, allFound.length⟩)
  return allFound.length

end CheckMode

section DeleteMode

/-- The dispatch of a failed deletion: the entry and whether to try again in the next pass. -/
def classify (isFinalPass : Bool) : Raised → Action × Bool
  | .defaultSecurityGroupSkip _ => (.skippedDefaultSg, false)
  | .clientError code =>
      if isBenignNotFound code then (.alreadyDeleted, false)
      else if isDependencyViolation code ∧ ¬isFinalPass then (.deferred, true)
      else (.failed, false)
  | _ => (.failed, false)

/-- `_dispatch_delete`. -/
def dispatchDelete (isFinalPass : Bool) (resource : Resource) : Script (Entry × Bool) := do
  let service := servicePrefixFromArn resource.arn
  match handlers settings.pollTimeout service with
  | none => return (⟨resource.arn, service, .reportedUnsupported, none⟩, false)
  | some handler =>
      let (action, defer) ← (handler.delete resource.arn >>= fun action =>
        pure (action, false)).handle fun error => Program.ret (classify isFinalPass error)
      return (⟨resource.arn, service, action, none⟩, defer)

def ec2Tier1Types : List Str := ["natgateway", "elastic-ip", "eip-allocation",
    "vpc-flow-log"].map str

def ec2Tier3Types : List Str := [str "vpc"]

/-- The place of a resource in the order of a pass: first what is not in EC2, then the tiers. -/
def tier (resource : Resource) : Nat :=
  if servicePrefixFromArn resource.arn ≠ str "ec2" then 0
  else if ec2ResourceType resource.arn ∈ ec2Tier1Types then 1
  else if ec2ResourceType resource.arn ∈ ec2Tier3Types then 3
  else 2

/-- `_partition_ec2_by_tier`, one list after the other. -/
def ordered (resources : List Resource) : List Resource :=
  [0, 1, 2, 3].flatMap fun n => resources.filter fun resource => tier resource = n

/-- `_delete_pass`: the entries and the resources to try again. -/
def deletePass (isFinalPass : Bool) (resources : List Resource) :
    Script (List Entry × List Resource) := do
  let results ← (ordered resources).mapM (dispatchDelete settings isFinalPass)
  let outcomes := (ordered resources).zip results
  return ((outcomes.filter fun outcome => !outcome.2.2).map fun outcome => outcome.2.1,
    (outcomes.filter fun outcome => outcome.2.2).map Prod.fst)

/-- The loop over the passes, from the inventory of the next one. -/
def deletePasses (runId : Option Str) (passes : Nat) (resources : List Resource) :
    Script (List Entry) :=
  match passes with
  | 0 => return []
  | passes + 1 =>
      if resources = [] then return []
      else do
        let (entries, pending) ← deletePass settings (passes = 0) resources
        if passes = 0 ∨ pending = [] then return entries
        else do
          let now ← Program.perform Call.now
          let resources ← enumerateAndSpare rt digits settings runId now
          deletePasses runId passes resources

/-- An action that makes the script fail. -/
def isBad (entry : Entry) : Bool := entry.action = .reportedUnsupported || entry.action = .failed

/-- Delete mode, with the argument of its `sys.exit`. -/
def deleteMode (account : Str) (runId : Option Str) (now : DateTime)
    (resources : List Resource) : Script Int := do
  let maxPasses ← uncaughtExc (getMaxDeletePasses rt settings)
  let foundEntries ← deletePasses rt digits settings runId maxPasses resources
  let entries ← ceEntries rt digits settings .delete runId now
  let found := foundEntries ++ entries
  Program.perform (Call.writeReport ⟨account, .delete, runId, found, (found.filter isBad).length⟩)
  if found.any isBad then return 1
  return 0

end DeleteMode

/-- `main`, with the argument of its last `sys.exit`. -/
def main (mode : Mode) (runId : Option Str) : Script Int := do
  let account ← authorizedAccount rt settings
  let now ← Program.perform Call.now
  let resources ← enumerateAndSpare rt digits settings runId now
  match mode with
  | .check => checkMode rt digits settings account runId now resources
  | .delete => deleteMode rt digits settings account runId now resources

/-- The exit status the shell sees. -/
def exitStatus : Except Halt Int → Nat
  | .ok code => (code % 256).toNat
  | .error (.exit code) => (code % 256).toNat
  | .error (.uncaught _) => 1

end Sweep
