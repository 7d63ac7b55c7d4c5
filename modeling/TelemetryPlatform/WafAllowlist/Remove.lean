import TelemetryPlatform.WafAllowlist.Apply

/-!
# Removing the perf-test WAF allowlist

The `remove` action of `scripts/perf_waf_allowlist.py`. The rule is taken out of the
WebACL before the IPSet is deleted, since WAFv2 does not delete an IPSet that a rule
refers to.
-/

namespace WafAllowlist

open Python Interaction

/-- `_is_nonexistent_item_error`. -/
def isNonexistentItemError : WafExc → Prop
  | .api (.clientError code _) => code = nonexistentItemCode
  | _ => False

instance : (error : WafExc) → Decidable (isNonexistentItemError error)
  | .api (.clientError _ _) => inferInstanceAs (Decidable (_ = _))
  | .api (.connectionError _) | .wafUsageError _ | .wafAllowlistError _ => isFalse id

variable {rt : Runtime}

/-- `_attempt` of `remove_allow_rule`: whether it removed the rule. -/
def dropAllowRule (webAcl : Str × Str) (ruleName : Str) : Waf rt Bool := do
  let (acl, lockToken) ← send rt (.getWebAcl webAcl.1 webAcl.2)
  let kept := acl.rules.filter fun rule => rule.name ≠ ruleName
  if kept.length = acl.rules.length then
    return false
  send rt (.updateWebAcl webAcl.1 webAcl.2 (webaclUpdateKwargs acl kept) lockToken)
  return true

/-- `remove_allow_rule`. -/
def removeAllowRule (webAcl : Str × Str) (ruleName : Str) (retries : Int) : Waf rt Bool :=
  withLockRetry (dropAllowRule webAcl ruleName) retries
    (str "WebACL ALLOW-rule " ++ rt.reprStr ruleName ++ str " remove")

/-- `_attempt` of `delete_ip_set`. -/
def deleteCurrent (ipsetName id : Str) : Waf rt Unit := do
  let (_, lockToken) ← send rt (.getIpSet ipsetName id)
  send rt (.deleteIpSet ipsetName id lockToken)

/-- `delete_ip_set`: whether it deleted the IPSet. -/
def deleteIpSet (ipsetName : Str) (retries : Int) : Waf rt Bool := do
  match ← findIpSet ipsetName with
  | none => return false
  | some existing =>
      let deleted : Waf rt Bool := do
        withLockRetry (deleteCurrent ipsetName existing.id) retries
          (str "IPSet " ++ rt.reprStr ipsetName ++ str " delete")
        return true
      -- an IPSet that vanished since it was listed is no failure
      tryCatch deleted fun error =>
        if isNonexistentItemError error then return false else throw error

/-- The evidence of a removal. -/
structure RemoveEvidence where
  webAclName : Str
  webAclId : Str
  ipSetName : Str
  allowRuleName : Str
  ruleRemoved : Bool
  ipSetDeleted : Bool

/-- `remove_allowlist`. -/
def removeAllowlist (webAclName : Option Str) (ipsetName ruleName : Str) (retries : Int) :
    Waf rt RemoveEvidence := do
  let webAcl ← resolveWebAcl webAclName
  let ruleRemoved ← removeAllowRule webAcl ruleName retries
  let ipSetDeleted ← deleteIpSet ipsetName retries
  return {
    webAclName := webAcl.1
    webAclId := webAcl.2
    ipSetName := ipsetName
    allowRuleName := ruleName
    ruleRemoved := ruleRemoved
    ipSetDeleted := ipSetDeleted }

end WafAllowlist
