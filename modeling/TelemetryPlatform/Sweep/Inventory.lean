import TelemetryPlatform.Library.Numeral
import TelemetryPlatform.Sweep.Handlers

/-!
# What the sweep looks at

The inventory of tagged resources, from which the sweep without a run id spares
what a run in flight may still use, and the anomaly monitors and subscriptions of
Cost Explorer, which cannot be tagged and are matched by name.

Ages are compared exactly; the script compares them as floats, which agree with the
exact values for ages below a century.
-/

namespace Sweep

open Python Interaction

/-- How the script ends before its last line: `sys.exit`, or an exception. -/
inductive Halt where
  | exit (code : Int)
  | uncaught (error : Raised)

abbrev Script := Program Call Call.Reply Halt

/-- A part of the script whose exceptions nothing catches. -/
def uncaughtIn {α : Type} (program : Aws α) : Script α :=
  program.handle fun error => .raise (.uncaught error)

/-- The environment of the script: the file of accounts, the variables it reads and the values
of `scripts/constants.py`. -/
structure Settings where
  accountsJson : Option Str
  minAgeMinutes : Option Str
  maxDeletePasses : Option Str
  defaultMinAgeMinutes : Int
  defaultMaxDeletePasses : Int
  pollTimeout : Str

variable (rt : Runtime) (digits : DigitTable) (settings : Settings)

section Inventory

def tagKey : Str := str "terratest-run"

/-- `_get_min_age_minutes`. -/
def getMinAgeMinutes : Except Exc Int :=
  match settings.minAgeMinutes with
  | some text => rt.intOfStr text
  | none => .ok settings.defaultMinAgeMinutes

/-- `_get_max_delete_passes`. -/
def getMaxDeletePasses : Except Exc Nat :=
  match settings.maxDeletePasses with
  | none => .ok (max 1 settings.defaultMaxDeletePasses).toNat
  | some text =>
      match rt.intOfStr text with
      | .ok value => .ok (max 1 value).toNat
      | .error error =>
          if error.isValueError then .ok (max 1 settings.defaultMaxDeletePasses).toNat
          else .error error

/-- `_run_id_tag_value`. -/
def runIdTagValue (resource : Resource) : Option Str :=
  (resource.tags.find? fun tag => tag.key = some tagKey).bind Tag.value

/-- The time an auto-generated run id carries, in seconds. -/
def runIdTimestamp (runId : Str) : Option Nat :=
  if (str "tt-").isPrefixOf runId then
    match runId.splitOn (.char '-') with
    | _ :: tsToken :: _ :: _ =>
        if tsToken.length = 14 then digits.parseTimestamp tsToken else none
    | _ => none
  else none

/-- Less than a number of minutes before a time. -/
def isYoung (minAge : Int) (now : DateTime) (seconds : Nat) : Bool :=
  (now.micros : Int) - seconds * 1000000 < minAge * 60000000

/-- The run of a resource is too young to be swept. -/
def isInFlight (minAge : Int) (now : DateTime) (resource : Resource) : Bool :=
  match (runIdTagValue resource).bind (runIdTimestamp digits) with
  | some seconds => isYoung minAge now seconds
  | none => false

/-- `_partition_by_min_age`: what to sweep and what to spare. -/
def partitionByMinAge (resources : List Resource) (minAge : Int) (now : DateTime) :
    List Resource × List Resource :=
  resources.partition fun resource => !isInFlight digits minAge now resource

def throttlingCodes : List Str :=
  ["ThrottlingException", "RequestThrottled", "Throttling"].map str

/-- `_enumerate_resources`. -/
def enumerateResources (runId : Option Str) : Script (List Resource) := do
  match ← Program.perform (Call.api (.getResources runId)) with
  | .ok resources => return resources
  | .error (.client code) =>
      if code ∈ throttlingCodes then throw (.exit 1) else throw (.uncaught (.clientError code))
  | .error .other => throw (.uncaught .unexpected)

/-- A built-in exception nothing catches. -/
def uncaughtExc {α : Type} (result : Except Exc α) : Script α :=
  Program.ofExcept (result.mapError fun error => .uncaught (.builtin error))

/-- `_enumerate_and_spare`. -/
def enumerateAndSpare (runId : Option Str) (now : DateTime) : Script (List Resource) := do
  let resources ← enumerateResources runId
  if runId.isNone then
    let minAge ← uncaughtExc (getMinAgeMinutes rt settings)
    return (partitionByMinAge digits resources minAge now).1
  return resources

end Inventory

section CostExplorer

def ceMonitorNamePrefixes : List Str := [str "test-monitor-"]
def ceMonitorNameSuffixes : List Str := [str "-monitor"]
def ceSubscriptionNamePrefixes : List Str := [str "test-sub-"]
def ceSubscriptionNameSuffixes : List Str := [str "-subscription"]

/-- `_ce_name_matches`. -/
def ceNameMatches (name : Str) (prefixes suffixes : List Str) : Bool :=
  prefixes.any (·.isPrefixOf name) || suffixes.any (·.isSuffixOf name)

/-- The seconds between the first day of the year 1 and the epoch. -/
def epochSeconds : Nat := 62135596800

/-- The time of the trailing epoch token of a name, where `fromtimestamp` takes it. -/
def ceEpoch (name : Str) : Option Nat :=
  let token := afterLast (.char '-') name
  if 9 ≤ token.length then
    match digits.read token with
    | some epoch =>
        if epochSeconds + epoch < maxOrdinal * 86400 then some (epochSeconds + epoch) else none
    | none => none
  else none

/-- A monitor or subscription the sweep acts on. -/
def ceSwept (minAge : Int) (now : DateTime) (prefixes suffixes : List Str) (item : CeItem) :
    Bool :=
  ceNameMatches item.name prefixes suffixes &&
    !(ceEpoch digits item.name).any (isYoung minAge now)

/-- `_ce_act`. -/
def ceAct (mode : Mode) (item : CeItem) (delete : ApiCall) : Aws Entry :=
  let entry := fun action => (⟨item.arn, str "ce", action, some item.name⟩ : Entry)
  match mode with
  | .check => return entry .found
  | .delete => do
      match ← attempt delete with
      | .ok _ => return entry .deleted
      | .error (.client code) =>
          return entry (if isBenignNotFound code then .alreadyGone else .failed)
      | .error .other => throw .unexpected

/-- `_sweep_ce_anomaly_monitors`. -/
def sweepCeAnomalyMonitors (mode : Mode) (minAge : Int) (now : DateTime) : Aws (List Entry) := do
  let subscriptions ← api .getAnomalySubscriptions
  let subscriptionEntries ← (subscriptions.filter (ceSwept digits minAge now
    ceSubscriptionNamePrefixes ceSubscriptionNameSuffixes)).mapM fun item =>
      ceAct mode item (.deleteAnomalySubscription item.arn)
  let monitors ← api .getAnomalyMonitors
  let monitorEntries ← (monitors.filter (ceSwept digits minAge now
    ceMonitorNamePrefixes ceMonitorNameSuffixes)).mapM fun item =>
      ceAct mode item (.deleteAnomalyMonitor item.arn)
  return subscriptionEntries ++ monitorEntries

end CostExplorer

end Sweep
