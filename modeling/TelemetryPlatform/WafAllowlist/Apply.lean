import TelemetryPlatform.Library.Program
import TelemetryPlatform.Library.Text

/-!
# The perf-test WAF allowlist

`scripts/perf_waf_allowlist.py`, the `apply` action, and `discover_waf_web_acl`
of `scripts/perf_report.py`. A run is a program over calls of the WAFv2 client;
every call may raise, either a `ClientError` with a code or something else.

A WebACL document is kept in the parts the script handles: its rules by name and
priority, the two required settings, and the optional fields an update echoes.
Every call names the CLOUDFRONT scope, and the IPSet and the rule are created
with the constants of the script; these, the pauses between attempts and the
command line are left out.
-/

namespace WafAllowlist

open Python Interaction

/-- An exception of the client: botocore's `ClientError`, or one without a response. -/
inductive ApiError where
  | clientError (code text : Str)
  | connectionError (text : Str)
deriving DecidableEq

def ApiError.text : ApiError → Str
  | .clientError _ text => text
  | .connectionError text => text

/-- The exceptions a run can raise. -/
inductive WafExc where
  | api (error : ApiError)
  | wafUsageError (text : Str)
  | wafAllowlistError (text : Str)
deriving DecidableEq

def optimisticLockCode : Str := str "WAFOptimisticLockException"
def nonexistentItemCode : Str := str "WAFNonexistentItemException"
def unavailableEntityCode : Str := str "WAFUnavailableEntityException"

/-- The WebACL fields that are echoed to `update_web_acl` when they are set. -/
inductive PassthroughKey where
  | description
  | customResponseBodies
  | captchaConfig
  | challengeConfig
  | tokenDomains
  | associationConfig
deriving DecidableEq

variable (rt : Runtime)

/-- A rule; `body` is its statement, action and visibility configuration. -/
structure Rule where
  name : Str
  priority : Int
  body : rt.Value

/-- The document of a WebACL. -/
structure WebAcl where
  defaultAction : rt.Value
  visibilityConfig : rt.Value
  rules : List (Rule rt)
  field : PassthroughKey → Option rt.Value

/-- An entry of `list_ip_sets` and `list_web_acls`. -/
structure Summary where
  name : Str
  id : Str
  arn : Str
deriving DecidableEq

inductive WafCall where
  | listWebAcls
  | listIpSets
  | createIpSet (name : Str) (addresses : List Str)
  | getIpSet (name id : Str)
  | updateIpSet (name id : Str) (addresses : List Str) (lockToken : Nat)
  | deleteIpSet (name id : Str) (lockToken : Nat)
  | getWebAcl (name id : Str)
  | updateWebAcl (name id : Str) (webAcl : WebAcl rt) (lockToken : Nat)

/-- What a call returns when it does not raise. -/
@[reducible]
def WafCall.Result : WafCall rt → Type
  | .listWebAcls => List Summary
  | .listIpSets => List Summary
  | .createIpSet _ _ => Summary
  | .getIpSet _ _ => List Str × Nat
  | .updateIpSet _ _ _ _ => Unit
  | .deleteIpSet _ _ _ => Unit
  | .getWebAcl _ _ => WebAcl rt × Nat
  | .updateWebAcl _ _ _ _ => Unit

@[reducible]
def WafCall.Reply (call : WafCall rt) : Type := Except ApiError (call.Result rt)

abbrev Waf := Program (WafCall rt) (WafCall.Reply rt) WafExc

/-- A method of the client. -/
def send (call : WafCall rt) : Waf rt (call.Result rt) := do
  match ← Program.perform call with
  | .ok result => return result
  | .error error => throw (.api error)

variable {rt}

/-- `_dedupe`. -/
def dedupe (items : List Str) : List Str :=
  items.foldl (fun out item => if item ∈ out then out else out ++ [item]) []

@[simp]
theorem mem_dedupe {items : List Str} {item : Str} : item ∈ dedupe items ↔ item ∈ items := by
  have kept (out : List Str) : item ∈ items.foldl
      (fun out item => if item ∈ out then out else out ++ [item]) out ↔
        item ∈ out ∨ item ∈ items := by
    induction items generalizing out with
    | nil => simp
    | cons head rest ih =>
        rw [List.foldl_cons, ih, List.mem_cons]
        split
        · constructor
          · rintro (old | later)
            · exact Or.inl old
            · exact Or.inr (Or.inr later)
          · rintro (old | rfl | later)
            · exact Or.inl old
            · exact Or.inl ‹_›
            · exact Or.inr later
        · simp [or_assoc]
  rw [dedupe, kept]
  simp

/-- `_is_retryable_waf_error`. -/
def isRetryableWafError : WafExc → Prop
  | .api (.clientError code _) => code ∈ [optimisticLockCode, unavailableEntityCode]
  | _ => False

instance : (error : WafExc) → Decidable (isRetryableWafError error)
  | .api (.clientError _ _) => inferInstanceAs (Decidable (_ ∈ _))
  | .api (.connectionError _) | .wafUsageError _ | .wafAllowlistError _ => isFalse id

/-- `str(last_exc)`. -/
def WafExc.text : WafExc → Str
  | .api error => error.text
  | .wafUsageError text => text
  | .wafAllowlistError text => text

def intStr (n : Int) : Str := (Runtime.intText n).map .char

/-- `with_lock_retry`. -/
def withLockRetry {α : Type} (attempt : Waf rt α) (retries : Int) (what : Str) : Waf rt α :=
  -- one attempt for each number of `range(retries, -1, -1)`
  attempts (retries + 1).toNat (str "None")
where
  attempts : Nat → Str → Waf rt α
    | 0, lastExc =>
        throw (.wafAllowlistError (str "ERROR: " ++ what ++
          str " failed: exhausted the WAFv2 retry budget (" ++ intStr retries ++
          str " retries) for lock/consistency errors. Last error: " ++ lastExc ++
          str (". Remedy: raise TT_WAF_LOCK_RETRIES / TT_WAF_LOCK_RETRY_INTERVAL or reduce " ++
            "concurrent WebACL mutators.")))
    | triesLeft + 1, _ =>
        tryCatch attempt fun error =>
          if isRetryableWafError error then attempts triesLeft error.text else throw error

section Resolution

/-- `discover_waf_web_acl`. -/
def discoverWafWebAcl : Waf rt (Option Str) := do
  let acls ← send rt .listWebAcls
  match acls.find? fun acl => Contains (str "adot") acl.name ∧ Contains (str "waf") acl.name with
  | some acl => return some acl.name
  | none =>
      match acls with
      | [acl] => return some acl.name
      | _ => return none

/-- `resolve_web_acl`. -/
def resolveWebAcl (webAclName : Option Str) : Waf rt (Str × Str) := do
  let name ← match webAclName with
    | some (c :: rest) => pure (some (c :: rest))
    | _ => discoverWafWebAcl
  match name with
  | some (c :: rest) =>
      let acls ← send rt .listWebAcls
      match acls.find? fun acl => acl.name = c :: rest with
      | some acl => return (c :: rest, acl.id)
      | none =>
          throw (.wafUsageError (str "ERROR: CLOUDFRONT WebACL " ++ rt.reprStr (c :: rest) ++
            str (" not found in scope CLOUDFRONT. Remedy: verify the WebACL name and that the " ++
              "stack is deployed.")))
  | _ =>
      throw (.wafUsageError (str ("ERROR: could not resolve the collector CLOUDFRONT WebACL. " ++
        "Remedy: pass --web-acl-name explicitly (auto-discovery found no unambiguous match).")))

/-- `_find_ip_set`. -/
def findIpSet (ipsetName : Str) : Waf rt (Option Summary) := do
  let summaries ← send rt .listIpSets
  return summaries.find? fun summary => summary.name = ipsetName

end Resolution

section Apply

/-- `_merge` of `ensure_ip_set`. -/
def mergeAddresses (ipsetName id : Str) (addCidrs : List Str) : Waf rt Unit := do
  let (addresses, lockToken) ← send rt (.getIpSet ipsetName id)
  let merged := dedupe (addresses ++ addCidrs)
  if merged ≠ addresses then
    send rt (.updateIpSet ipsetName id merged lockToken)

/-- `ensure_ip_set`. -/
def ensureIpSet (ipsetName : Str) (addCidrs : List Str) (retries : Int) : Waf rt Summary := do
  match ← findIpSet ipsetName with
  | none =>
      let created ← send rt (.createIpSet ipsetName (dedupe addCidrs))
      return ⟨ipsetName, created.id, created.arn⟩
  | some existing =>
      if addCidrs ≠ [] then
        withLockRetry (mergeAddresses ipsetName existing.id addCidrs) retries
          (str "IPSet " ++ rt.reprStr ipsetName ++ str " address merge")
      return existing

/-- `build_allow_rule`. -/
def buildAllowRule (ruleName : Str) (priority : Int) (ipsetArn : Str) : Rule rt where
  name := ruleName
  priority := priority
  body := .obj [
    (str "Statement", .obj [(str "IPSetReferenceStatement", .obj [(str "ARN", .str ipsetArn)])]),
    (str "Action", .obj [(str "Allow", .obj [])]),
    (str "VisibilityConfig", .obj [(str "SampledRequestsEnabled", .bool true),
      (str "CloudWatchMetricsEnabled", .bool true), (str "MetricName", .str ruleName)])]

/-- `_webacl_update_kwargs`: the document an update submits. -/
def webaclUpdateKwargs (webAcl : WebAcl rt) (rules : List (Rule rt)) : WebAcl rt where
  defaultAction := webAcl.defaultAction
  visibilityConfig := webAcl.visibilityConfig
  rules := rules
  field key := (webAcl.field key).filter rt.truth

/-- The loop over the rules: whether the perf rule is present. -/
def findAllowRule (ruleName : Str) (priority : Int) : List (Rule rt) → Except WafExc Bool
  | [] => .ok false
  | existing :: rest =>
      if existing.name = ruleName then .ok true
      else if existing.priority = priority then
        .error (.wafUsageError (str "ERROR: priority " ++ intStr priority ++
          str " is already used by rule " ++ rt.reprStr existing.name ++
          str ". Remedy: pass a different --allow-rule-priority."))
      else findAllowRule ruleName priority rest

/-- `_attempt` of `ensure_allow_rule`: whether it added the rule. -/
def addAllowRule (webAcl : Str × Str) (ruleName : Str) (priority : Int) (ipsetArn : Str) :
    Waf rt Bool := do
  let (acl, lockToken) ← send rt (.getWebAcl webAcl.1 webAcl.2)
  let present ← Program.ofExcept (findAllowRule ruleName priority acl.rules)
  if present then
    return false
  let rules := acl.rules ++ [buildAllowRule ruleName priority ipsetArn]
  send rt (.updateWebAcl webAcl.1 webAcl.2 (webaclUpdateKwargs acl rules) lockToken)
  return true

/-- The priority of the rate rule. -/
def rateRulePriority : Int := 100

/-- `ensure_allow_rule`. -/
def ensureAllowRule (webAcl : Str × Str) (ruleName : Str) (priority : Int) (ipsetArn : Str)
    (retries : Int) : Waf rt Bool := do
  if priority ≥ rateRulePriority then
    throw (.wafUsageError (str "ERROR: --allow-rule-priority " ++ intStr priority ++
      str " must be < " ++ intStr rateRulePriority ++ str (" (the rate rule's priority) so the " ++
        "terminating ALLOW is evaluated before the rate BLOCK.")))
  withLockRetry (addAllowRule webAcl ruleName priority ipsetArn) retries
    (str "WebACL ALLOW-rule " ++ rt.reprStr ruleName ++ str " add")

/-- The settings of a run. -/
structure ApplySettings where
  webAclName : Option Str
  ipsetName : Str
  ruleName : Str
  priority : Int
  addCidrs : List Str
  retries : Int

/-- The evidence of a run. -/
structure ApplyEvidence where
  webAclName : Str
  webAclId : Str
  ipSetName : Str
  ipSetArn : Str
  allowRuleName : Str
  allowRulePriority : Int
  addedCidrs : List Str
  ruleAdded : Bool

/-- `apply_allowlist`. -/
def applyAllowlist (settings : ApplySettings) : Waf rt ApplyEvidence := do
  let webAcl ← resolveWebAcl settings.webAclName
  let ipSet ← ensureIpSet settings.ipsetName settings.addCidrs settings.retries
  let ruleAdded ← ensureAllowRule webAcl settings.ruleName settings.priority ipSet.arn
    settings.retries
  return {
    webAclName := webAcl.1
    webAclId := webAcl.2
    ipSetName := settings.ipsetName
    ipSetArn := ipSet.arn
    allowRuleName := settings.ruleName
    allowRulePriority := settings.priority
    addedCidrs := dedupe settings.addCidrs
    ruleAdded := ruleAdded }

end Apply

end WafAllowlist
