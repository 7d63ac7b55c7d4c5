import TelemetryPlatform.Library.Spending
import TelemetryPlatform.Library.WholeRuntime
import TelemetryPlatform.WafAllowlist.SafeRuns

/-!
# Shards that apply the allowlist side by side

Any number of runs of `apply` share the service, and other clients edit the WebACL between
their calls. No address is lost, and there is one perf rule, which refers to the IPSet unless
an earlier rule with the name refers elsewhere (`applied_of_trace`), even when calls fail
after they had their effect. When no call fails by itself, a run raises only because it has
lost the race for the creation of the IPSet or because more updates than its budget of
retries have come in between (`hindered_of_trace`). As many retries as there are other runs
and edits are enough (`returned_of_trace`).
-/

namespace WafAllowlist

open Python Interaction Transition

variable {rt : Runtime}

section Updates

/-- The updates of the IPSet. -/
def ipSetUpdates : Event (WafCall rt) (WafCall.Reply rt) → Nat
  | ⟨.updateIpSet _ _ _ _, .ok _⟩ => 1
  | _ => 0

/-- The updates of the WebACL. -/
def aclUpdates : Event (WafCall rt) (WafCall.Reply rt) → Nat
  | ⟨.updateWebAcl _ _ _ _, .ok _⟩ => 1
  | _ => 0

/-- The calls that are no updates of the IPSet. -/
def WafCall.KeepsIpSet : WafCall rt → Prop
  | .updateIpSet _ _ _ _ => False
  | _ => True

/-- The calls that are no updates of the WebACL. -/
def WafCall.KeepsAcl : WafCall rt → Prop
  | .updateWebAcl _ _ _ _ => False
  | _ => True

theorem ipSetUpdates_eq_zero (event : Event (WafCall rt) (WafCall.Reply rt))
    (keeps : event.request.KeepsIpSet) : ipSetUpdates event = 0 := by
  rcases event with ⟨request, reply⟩
  cases request with
  | updateIpSet name ident addresses lockToken => exact False.elim keeps
  | _ => rfl

theorem aclUpdates_eq_zero (event : Event (WafCall rt) (WafCall.Reply rt))
    (keeps : event.request.KeepsAcl) : aclUpdates event = 0 := by
  rcases event with ⟨request, reply⟩
  cases request with
  | updateWebAcl name ident webAcl lockToken => exact False.elim keeps
  | _ => rfl

variable {s s' : WafState rt} {event : Event (WafCall rt) (WafCall.Reply rt)}

/-- An update of the IPSet raises its lock token by one. -/
theorem ipSetToken_le_of_exactly (served : Exactly s event s') :
    ipSetToken s' ≤ ipSetToken s + ipSetUpdates event := by
  rcases event with ⟨request, reply⟩
  cases request with
  | createIpSet name addresses =>
      simp only [Exactly, WafState.answer] at served
      cases found : s.ipSet <;> rw [found] at served <;> cases served
      · exact Nat.zero_le _
      · exact Nat.le_add_right _ _
  | updateIpSet name ident addresses lockToken =>
      simp only [Exactly, WafState.answer] at served
      split at served
      · next ipSet found =>
          have exist := (Option.filter_eq_some_iff.mp found).1
          split_ifs at served with current <;> cases served
          · rw [ipSetToken_eq exist, ← current]
            exact le_rfl
          · exact Nat.le_add_right _ _
      · cases served
        exact Nat.le_add_right _ _
  | deleteIpSet name ident lockToken =>
      simp only [Exactly, WafState.answer] at served
      split at served
      · split_ifs at served <;> cases served
        · exact Nat.zero_le _
        · exact Nat.le_add_right _ _
      · cases served
        exact Nat.le_add_right _ _
  | updateWebAcl name ident webAcl lockToken =>
      simp only [Exactly, WafState.answer] at served
      split_ifs at served <;> cases served <;> exact Nat.le_add_right _ _
  | getIpSet name ident =>
      simp only [Exactly, WafState.answer] at served
      split at served <;> cases served <;> exact Nat.le_add_right _ _
  | getWebAcl name ident =>
      simp only [Exactly, WafState.answer] at served
      split_ifs at served <;> cases served <;> exact Nat.le_add_right _ _
  | listWebAcls =>
      cases served
      exact Nat.le_add_right _ _
  | listIpSets =>
      cases served
      exact Nat.le_add_right _ _

/-- An update of the WebACL raises its lock token by one. -/
theorem aclToken_le_of_exactly (served : Exactly s event s') :
    s'.acl.lockToken ≤ s.acl.lockToken + aclUpdates event := by
  rcases event with ⟨request, reply⟩
  cases request with
  | updateWebAcl name ident webAcl lockToken =>
      simp only [Exactly, WafState.answer] at served
      split_ifs at served with named current distinct <;> cases served
      · rw [current]
        exact le_rfl
      · exact Nat.le_add_right _ _
      · exact Nat.le_add_right _ _
      · exact Nat.le_add_right _ _
  | createIpSet name addresses =>
      simp only [Exactly, WafState.answer] at served
      split at served <;> cases served <;> exact Nat.le_add_right _ _
  | updateIpSet name ident addresses lockToken =>
      simp only [Exactly, WafState.answer] at served
      split at served
      · split_ifs at served <;> cases served <;> exact Nat.le_add_right _ _
      · cases served
        exact Nat.le_add_right _ _
  | deleteIpSet name ident lockToken =>
      simp only [Exactly, WafState.answer] at served
      split at served
      · split_ifs at served <;> cases served <;> exact Nat.le_add_right _ _
      · cases served
        exact Nat.le_add_right _ _
  | getIpSet name ident =>
      simp only [Exactly, WafState.answer] at served
      split at served <;> cases served <;> exact Nat.le_add_right _ _
  | getWebAcl name ident =>
      simp only [Exactly, WafState.answer] at served
      split_ifs at served <;> cases served <;> exact Nat.le_add_right _ _
  | listWebAcls =>
      cases served
      exact Nat.le_add_right _ _
  | listIpSets =>
      cases served
      exact Nat.le_add_right _ _

end Updates

section Spending

variable {α : Type} {cost : Event (WafCall rt) (WafCall.Reply rt) → Nat} {spent : Nat}

theorem issuesOnly_send {allowed : WafCall rt → Prop} {call : WafCall rt}
    {next : call.Result rt → Waf rt α} (isAllowed : allowed call)
    (rest : ∀ result, (next result).IssuesOnly allowed) :
    (send rt call >>= next).IssuesOnly allowed := by
  refine ⟨isAllowed, ?_⟩
  rintro (error | result)
  · trivial
  · exact rest result

theorem issuesOnly_resolveWebAcl {allowed : WafCall rt → Prop} (lists : allowed .listWebAcls)
    (webAclName : Option Str) : (resolveWebAcl webAclName : Waf rt (Str × Str)).IssuesOnly
      allowed := by
  have looksUp (name : Option Str) : (lookUpName name : Waf rt (Str × Str)).IssuesOnly allowed := by
    rcases name with _ | _ | ⟨c, rest⟩
    · trivial
    · trivial
    · apply issuesOnly_send lists
      intro acls
      cases acls.find? fun acl => acl.name = c :: rest with
      | none => trivial
      | some acl => trivial
  have discovers : (discoverWafWebAcl >>= lookUpName : Waf rt (Str × Str)).IssuesOnly allowed := by
    refine Program.IssuesOnly.bind ?_ looksUp
    apply issuesOnly_send lists
    intro acls
    cases acls.find? fun acl => Contains (str "adot") acl.name ∧ Contains (str "waf") acl.name with
    | some acl => trivial
    | none => rcases acls with _ | ⟨acl, _ | ⟨second, others⟩⟩ <;> trivial
  rcases webAclName with _ | _ | ⟨c, rest⟩
  · exact discovers
  · exact discovers
  · exact looksUp (some (c :: rest))

/-- An attempt that costs nothing when it fails. -/
def Attempted (post : Except WafExc α → Nat → Prop) (spent : Nat) :
    Except WafExc α → Nat → Prop
  | .ok value, total => post (.ok value) total
  | .error error, total =>
      total = spent ∧ (¬isRetryableWafError error → post (.error error) spent)

/-- A loop whose failed attempts cost nothing. -/
theorem spends_withLockRetry {attempt : Waf rt α} {retries : Int} {what : Str}
    {post : Except WafExc α → Nat → Prop}
    (each : attempt.Spends cost (Attempted post spent) spent)
    (exhausted : ∀ error, Exhausted what error → post (.error error) spent) :
    (withLockRetry attempt retries what).Spends cost post spent := by
  have general (n : Nat) (last : Str) :
      (withLockRetry.attempts attempt retries what n last).Spends cost post spent := by
    induction n generalizing last with
    | zero =>
        apply exhausted
        simp only [Exhausted, List.append_assoc]
        exact ⟨_, rfl⟩
    | succ n ih =>
        apply Program.Watched.handle each
        · intro value total returned
          exact returned
        · rintro error total ⟨rfl, final⟩
          split_ifs with retryable
          · exact ih _
          · exact final retryable
  exact general _ _

/-- There is one update at most, and none before an error. -/
def UpdatesOnce : Except WafExc α → Nat → Prop
  | .ok _, total => total ≤ 1
  | .error _, total => total = 0

theorem spends_mergeAddresses (ipsetName ident : Str) (addCidrs : List Str) :
    (mergeAddresses ipsetName ident addCidrs : Waf rt Unit).Spends ipSetUpdates UpdatesOnce 0 := by
  rintro (error | ⟨addresses, lockToken⟩)
  · rfl
  · change Program.Spends ipSetUpdates _ (if dedupe (addresses ++ addCidrs) ≠ addresses then
      send rt (.updateIpSet ipsetName ident (dedupe (addresses ++ addCidrs)) lockToken)
      else .ret ()) 0
    split_ifs with changed
    · rintro (error | result)
      · rfl
      · exact le_rfl
    · exact Nat.zero_le 1

theorem spends_ensureIpSet (ipsetName : Str) (addCidrs : List Str) (retries : Int) :
    (ensureIpSet ipsetName addCidrs retries : Waf rt Summary).Spends ipSetUpdates
      UpdatesOnce 0 := by
  have merges (existing : Summary) : (withLockRetry (mergeAddresses ipsetName existing.id addCidrs)
      retries (str "IPSet " ++ rt.reprStr ipsetName ++ str " address merge") : Waf rt Unit).Spends
        ipSetUpdates UpdatesOnce 0 := by
    apply spends_withLockRetry
    · apply (spends_mergeAddresses ipsetName existing.id addCidrs).mono
      rintro (error | result) total once
      · exact ⟨once, fun _ => rfl⟩
      · exact once
    · exact fun error _ => rfl
  have finds : (findIpSet ipsetName : Waf rt (Option Summary)).Spends ipSetUpdates
      (fun _ total => total = 0) 0 := by
    rintro (error | summaries)
    · rfl
    · rfl
  apply finds.bind
  · rintro (_ | existing) total rfl
    · rintro (error | created)
      · rfl
      · exact Nat.zero_le 1
    · dsimp only
      split_ifs with given
      · apply (merges existing).bind
        · intro result total once
          exact once
        · intro error total once
          exact once
      · exact Nat.zero_le 1
  · intro error total none
    exact none

theorem usageError_of_findAllowRule {ruleName : Str} {priority : Int} {rules : List (Rule rt)}
    {error : WafExc} (found : findAllowRule ruleName priority rules = .error error) :
    ∃ text, error = .wafUsageError text := by
  induction rules with
  | nil => cases found
  | cons existing rules ih =>
      rw [findAllowRule] at found
      split_ifs at found with named taken
      · cases found
        exact ⟨_, rfl⟩
      · exact ih found

/-- What an attempt to add the rule costs. -/
theorem spends_addAllowRule {webAcl : Str × Str} {ruleName ipsetArn : Str} {priority : Int}
    {post : Except WafExc Bool → Nat → Prop}
    (reads : ∀ reply : (WafCall.getWebAcl webAcl.1 webAcl.2 : WafCall rt).Reply,
      cost ⟨_, reply⟩ = 0)
    (present : post (.ok false) spent)
    (added : ∀ (acl : WebAcl rt) (lockToken : Nat) (reply : Except ApiError Unit),
      match reply with
      | .ok _ => post (.ok true)
          (spent + cost ⟨.updateWebAcl webAcl.1 webAcl.2 acl lockToken, .ok ()⟩)
      | .error error => cost ⟨.updateWebAcl webAcl.1 webAcl.2 acl lockToken, .error error⟩ = 0)
    (failed : ∀ error, (∀ text, error ≠ .wafAllowlistError text) → post (.error error) spent) :
    (addAllowRule webAcl ruleName priority ipsetArn).Spends cost (Attempted post spent) spent := by
  rintro (error | ⟨acl, lockToken⟩)
  · rw [Program.spend, reads, Nat.add_zero]
    exact ⟨rfl, fun _ => failed _ (by rintro text ⟨⟩)⟩
  · rw [Program.spend, reads, Nat.add_zero]
    change Program.Spends cost _ (Program.ofExcept (findAllowRule ruleName priority acl.rules) >>=
      fun present => if present then .ret false else
        send rt (.updateWebAcl webAcl.1 webAcl.2 (webaclUpdateKwargs acl
          (acl.rules ++ [buildAllowRule ruleName priority ipsetArn])) lockToken) >>= fun _ =>
        .ret true) spent
    cases found : findAllowRule ruleName priority acl.rules with
    | error error =>
        rcases usageError_of_findAllowRule found with ⟨text, rfl⟩
        exact ⟨rfl, fun _ => failed _ (by rintro other ⟨⟩)⟩
    | ok isPresent =>
        cases isPresent with
        | true => exact present
        | false =>
            rintro (error | result)
            · have unspent := added (webaclUpdateKwargs acl
                (acl.rules ++ [buildAllowRule ruleName priority ipsetArn])) lockToken (.error error)
              dsimp only at unspent
              rw [Program.spend, unspent, Nat.add_zero]
              exact ⟨rfl, fun _ => failed _ (by rintro text ⟨⟩)⟩
            · exact added _ lockToken (.ok ())

/-- An update of the WebACL that raises does not count. -/
theorem spends_ensureAllowRule_acl {webAcl : Str × Str} {ruleName ipsetArn : Str}
    {priority retries : Int} :
    (ensureAllowRule webAcl ruleName priority ipsetArn retries : Waf rt Bool).Spends aclUpdates
      UpdatesOnce 0 := by
  unfold ensureAllowRule
  split_ifs
  · rfl
  · apply spends_withLockRetry
    · apply spends_addAllowRule
      · exact fun _ => rfl
      · exact Nat.zero_le 1
      · rintro acl lockToken (error | result)
        · rfl
        · exact le_rfl
      · exact fun _ _ => rfl
    · exact fun _ _ => rfl

/-- The error is not about the IPSet. -/
theorem spends_ensureAllowRule_ipSet {webAcl : Str × Str} {ruleName ipsetArn : Str}
    {priority retries : Int} :
    (ensureAllowRule webAcl ruleName priority ipsetArn retries : Waf rt Bool).Spends ipSetUpdates
      (fun outcome total => total = spent ∧
        ∀ error, outcome = .error error → ¬Exhausted (str "IPSet ") error) spent := by
  unfold ensureAllowRule
  split_ifs
  · refine ⟨rfl, ?_⟩
    rintro _ ⟨⟩ ⟨rest, ⟨⟩⟩
  · apply spends_withLockRetry
    · apply spends_addAllowRule
      · exact fun _ => rfl
      · refine ⟨rfl, ?_⟩
        rintro error ⟨⟩
      · rintro acl lockToken (error | result)
        · rfl
        · refine ⟨rfl, ?_⟩
          rintro error ⟨⟩
      · refine fun error other => ⟨rfl, ?_⟩
        rintro _ ⟨⟩ ⟨rest, rfl⟩
        exact other _ rfl
    · rintro error exhausted
      refine ⟨rfl, ?_⟩
      rintro _ ⟨⟩ ⟨rest, same⟩
      rcases exhausted with ⟨other, rfl⟩
      -- the texts differ behind "ERROR: "
      simp only [WafExc.wafAllowlistError.injEq, List.append_assoc,
        List.append_cancel_left_eq] at same
      rw [str_webAcl] at same
      cases same

/-- The IPSet is updated once at most, and not by a run that its updates have exhausted. -/
theorem spends_applyAllowlist_ipSet (settings : ApplySettings) :
    (applyAllowlist settings : Waf rt ApplyEvidence).Spends ipSetUpdates (fun outcome total =>
      total ≤ 1 ∧ ∀ error, outcome = .error error → Exhausted (str "IPSet ") error →
        total = 0) 0 := by
  have lists : (WafCall.listWebAcls : WafCall rt).KeepsIpSet := trivial
  refine Program.Watched.bind ((issuesOnly_resolveWebAcl lists settings.webAclName).spends
    ipSetUpdates_eq_zero 0) ?_ ?_
  · rintro webAcl _ rfl
    refine (spends_ensureIpSet settings.ipsetName settings.addCidrs settings.retries).bind ?_ ?_
    · intro ipSet spent once
      refine spends_ensureAllowRule_ipSet.bind ?_ ?_
      · rintro ruleAdded _ ⟨rfl, -⟩
        refine ⟨once, ?_⟩
        rintro error ⟨⟩
      · rintro error _ ⟨rfl, other⟩
        refine ⟨once, ?_⟩
        rintro _ ⟨⟩ exhausted
        exact absurd exhausted (other error rfl)
    · rintro error _ rfl
      exact ⟨Nat.zero_le 1, fun _ _ _ => rfl⟩
  · rintro error _ rfl
    exact ⟨Nat.zero_le 1, fun _ _ _ => rfl⟩

theorem issuesOnly_withLockRetry {allowed : WafCall rt → Prop} {attempt : Waf rt α}
    (each : attempt.IssuesOnly allowed) (retries : Int) (what : Str) :
    (withLockRetry attempt retries what).IssuesOnly allowed := by
  have general (n : Nat) (last : Str) :
      (withLockRetry.attempts attempt retries what n last).IssuesOnly allowed := by
    induction n generalizing last with
    | zero => trivial
    | succ n ih =>
        apply Program.IssuesOnly.handle each
        intro error
        split_ifs
        · exact ih _
        · trivial
  exact general _ _

theorem issuesOnly_ensureIpSet (ipsetName : Str) (addCidrs : List Str) (retries : Int) :
    (ensureIpSet ipsetName addCidrs retries : Waf rt Summary).IssuesOnly WafCall.KeepsAcl := by
  have merges (ident : Str) :
      (mergeAddresses ipsetName ident addCidrs : Waf rt Unit).IssuesOnly WafCall.KeepsAcl := by
    apply issuesOnly_send trivial
    rintro ⟨addresses, lockToken⟩
    dsimp only
    split_ifs
    · rw [send_eq_bind]
      exact issuesOnly_send trivial fun _ => trivial
    · trivial
  apply Program.IssuesOnly.bind
  · exact issuesOnly_send trivial fun _ => trivial
  · rintro (_ | existing)
    · exact issuesOnly_send trivial fun _ => trivial
    · dsimp only
      split_ifs
      · exact (issuesOnly_withLockRetry (merges existing.id) _ _).bind fun _ => trivial
      · trivial

/-- The WebACL is updated once at most, and not by a run that raises. -/
theorem spends_applyAllowlist_acl (settings : ApplySettings) :
    (applyAllowlist settings : Waf rt ApplyEvidence).Spends aclUpdates UpdatesOnce 0 := by
  have lists : (WafCall.listWebAcls : WafCall rt).KeepsAcl := trivial
  refine Program.Watched.bind ((issuesOnly_resolveWebAcl lists settings.webAclName).spends
    aclUpdates_eq_zero 0) ?_ ?_
  · rintro webAcl _ rfl
    refine ((issuesOnly_ensureIpSet settings.ipsetName settings.addCidrs settings.retries).spends
      aclUpdates_eq_zero 0).bind ?_ ?_
    · rintro ipSet _ rfl
      apply spends_ensureAllowRule_acl.bind
      · intro ruleAdded total once
        exact once
      · intro error total once
        exact once
    · rintro error _ rfl
      rfl
  · rintro error _ rfl
    rfl

end Spending

section Termination

variable {α : Type}

theorem within_send {call : WafCall rt} {next : call.Result rt → Waf rt α} {n : Nat}
    (rest : ∀ result, (next result).Within n) : (send rt call >>= next).Within (n + 1) := by
  rintro (error | result)
  · trivial
  · exact rest result

theorem within_withLockRetry {attempt : Waf rt α} {n : Nat} (each : attempt.Within n)
    (retries : Int) (what : Str) :
    (withLockRetry attempt retries what).Within ((retries + 1).toNat * n) := by
  have general (tries : Nat) (last : Str) :
      (withLockRetry.attempts attempt retries what tries last).Within (tries * n) := by
    induction tries generalizing last with
    | zero => trivial
    | succ tries ih =>
        have budget : (tries + 1) * n = n + tries * n := by
          rw [Nat.succ_mul, Nat.add_comm]
        rw [budget]
        apply Program.Within.handle each
        intro error
        split_ifs
        · exact ih _
        · trivial
  exact general _ _

theorem within_resolveWebAcl (webAclName : Option Str) :
    (resolveWebAcl webAclName : Waf rt (Str × Str)).Within 2 := by
  have looksUp (name : Option Str) : (lookUpName name : Waf rt (Str × Str)).Within 1 := by
    rcases name with _ | _ | ⟨c, rest⟩
    · trivial
    · trivial
    · apply within_send
      intro acls
      cases acls.find? fun acl => acl.name = c :: rest with
      | none => trivial
      | some acl => trivial
  have discovers : (discoverWafWebAcl >>= lookUpName : Waf rt (Str × Str)).Within 2 := by
    refine Program.Within.bind (n := 1) ?_ looksUp
    apply within_send
    intro acls
    cases acls.find? fun acl => Contains (str "adot") acl.name ∧ Contains (str "waf") acl.name with
    | some acl => trivial
    | none => rcases acls with _ | ⟨acl, _ | ⟨second, others⟩⟩ <;> trivial
  rcases webAclName with _ | _ | ⟨c, rest⟩
  · exact discovers
  · exact discovers
  · exact (looksUp (some (c :: rest))).mono (by omega)

theorem within_mergeAddresses (ipsetName ident : Str) (addCidrs : List Str) :
    (mergeAddresses ipsetName ident addCidrs : Waf rt Unit).Within 2 := by
  apply within_send
  rintro ⟨addresses, lockToken⟩
  dsimp only
  split_ifs
  · rw [send_eq_bind]
    exact within_send fun _ => trivial
  · trivial

theorem within_ensureIpSet (ipsetName : Str) (addCidrs : List Str) (retries : Int) :
    (ensureIpSet ipsetName addCidrs retries : Waf rt Summary).Within
      (1 + (1 + (retries + 1).toNat * 2)) := by
  apply Program.Within.bind
  · exact within_send fun _ => trivial
  · rintro (_ | existing)
    · exact Program.Within.mono (within_send fun _ => trivial) (Nat.le_add_right 1 _)
    · dsimp only
      split_ifs
      · rw [Nat.add_comm]
        exact (within_withLockRetry (within_mergeAddresses ipsetName existing.id addCidrs)
          retries _).bind fun _ => trivial
      · trivial

theorem within_ensureAllowRule (webAcl : Str × Str) (ruleName ipsetArn : Str)
    (priority retries : Int) :
    (ensureAllowRule webAcl ruleName priority ipsetArn retries : Waf rt Bool).Within
      ((retries + 1).toNat * 2) := by
  unfold ensureAllowRule
  split_ifs
  · trivial
  · apply within_withLockRetry
    apply within_send
    rintro ⟨acl, lockToken⟩
    dsimp only
    cases findAllowRule ruleName priority acl.rules with
    | error error => trivial
    | ok present =>
        cases present with
        | true => trivial
        | false => exact within_send fun _ => trivial

/-- The calls that a run of `apply` makes at most. -/
def callBudget (settings : ApplySettings) : Nat := 4 + (settings.retries + 1).toNat * 4

theorem within_applyAllowlist (settings : ApplySettings) :
    (applyAllowlist settings : Waf rt ApplyEvidence).Within (callBudget settings) := by
  have whole : (applyAllowlist settings : Waf rt ApplyEvidence).Within
      (2 + (1 + (1 + (settings.retries + 1).toNat * 2) + ((settings.retries + 1).toNat * 2 + 0))) :=
    (within_resolveWebAcl settings.webAclName).bind fun webAcl =>
      (within_ensureIpSet settings.ipsetName settings.addCidrs settings.retries).bind fun ipSet =>
        (within_ensureAllowRule webAcl settings.ruleName ipSet.arn settings.priority
          settings.retries).bind fun _ => trivial
  apply whole.mono
  unfold callBudget
  omega

end Termination

section System

variable {ι : Type} {names : Str × Str} {reserved : Int → Prop} {faulty : Prop}
  {settings : ι → ApplySettings} {s₀ : WafState rt}

/-- The runs before their first call. -/
def shards (settings : ι → ApplySettings) (s : WafState rt) :
    Config (WafState rt) ι (WafCall rt) (WafCall.Reply rt) WafExc ApplyEvidence :=
  ⟨s, fun i => applyAllowlist (settings i)⟩

theorem respected_keeps : (wafService names.2 reserved faulty :
    Serving (WafState rt) (WafCall rt) (WafCall.Reply rt)).Respected
      (fun _ : ι => Keeps names reserved) (fun _ => Keeps names reserved) where
  refl _ := .refl
  trans := Keeps.trans
  others _ := id
  calm := OtherEdit.keeps

theorem allSafe_shards (same : ∀ i, (settings i).names = names) :
    (wafService names.2 reserved faulty).AllSafe (fun _ => Keeps names reserved)
      (fun _ => Keeps names reserved)
      (fun i => ApplyEnded reserved faulty (settings i) s₀) (shards settings s₀) := by
  intro i
  rw [← same i]
  exact safeRun_applyAllowlist reserved faulty (settings i) s₀

variable [DecidableEq ι] {steps : List (Transition.Step
  (Config (WafState rt) ι (WafCall rt) (WafCall.Reply rt) WafExc ApplyEvidence)
  (Act ι (WafCall rt) (WafCall.Reply rt)))}

/-- How a run that has ended has ended. -/
theorem ended_of_trace (same : ∀ i, (settings i).names = names)
    (trace : Trace (wafService names.2 reserved faulty).Step (shards settings s₀) steps) {i : ι}
    {outcome : Except WafExc ApplyEvidence}
    (ended : ((finish (shards settings s₀) steps).process i).outcome? = some outcome) :
    ApplyEnded reserved faulty (settings i) s₀ outcome
      (finish (shards settings s₀) steps).shared :=
  (Serving.safe_of_trace respected_keeps trace (allSafe_shards same)).post_of_outcome
    respected_keeps ended

theorem keeps_of_trace (same : ∀ i, (settings i).names = names)
    (trace : Trace (wafService names.2 reserved faulty).Step (shards settings s₀) steps) :
    Keeps names reserved s₀ (finish (shards settings s₀) steps).shared :=
  Serving.shared_of_trace respected_keeps .refl Keeps.trans id OtherEdit.keeps trace
    (allSafe_shards same)

/-- The IPSet has the addresses. -/
def HasAddresses (ipSetArn : Str) (addresses : List Str) (s : WafState rt) : Prop :=
  ∃ ipSet, s.ipSet = some ipSet ∧ ipSet.arn = ipSetArn ∧ addresses ⊆ ipSet.addresses

/-- The rule allows what the IPSet has. -/
def Rule.Allows (ruleName ipSetArn : Str) (rule : Rule rt) : Prop :=
  ∃ priority, rule = buildAllowRule ruleName priority ipSetArn

/-- Rules have distinct names. -/
theorem rulesNamed_eq_singleton {settings : AclSettings rt} {ruleName : Str} {rule : Rule rt}
    (ruleMem : rule ∈ settings.rulesNamed ruleName) : settings.rulesNamed ruleName = [rule] := by
  have distinct : ((settings.rulesNamed ruleName).map Rule.name).Nodup :=
    settings.distinct.sublist (List.filter_sublist.map Rule.name)
  have named : (settings.rulesNamed ruleName).map Rule.name =
      List.replicate (settings.rulesNamed ruleName).length ruleName := by
    rw [List.eq_replicate_iff, List.length_map]
    refine ⟨rfl, ?_⟩
    intro name nameMem
    rcases List.mem_map.mp nameMem with ⟨other, otherMem, rfl⟩
    exact of_decide_eq_true (List.mem_filter.mp otherMem).2
  rw [named, List.nodup_replicate] at distinct
  rcases found : settings.rulesNamed ruleName with _ | ⟨first, _ | ⟨second, others⟩⟩
  · rw [found] at ruleMem
    exact absurd ruleMem List.not_mem_nil
  · rw [found, List.mem_singleton] at ruleMem
    rw [ruleMem]
  · rw [found] at distinct
    exact absurd distinct (by simp)

/-- There is one rule with the name. It allows what the IPSet has, unless one that was there
before, and that is left alone, allows something else. -/
theorem Allowed.ruled {addCidrs : List Str} {summary : Summary} {s : WafState rt}
    (allowed : Allowed names reserved addCidrs summary s₀ s) :
    ∃ rule, s.acl.settings.rulesNamed names.2 = [rule] ∧
      (rule.Allows names.2 summary.arn ↔
        ∀ earlier ∈ s₀.acl.settings.rulesNamed names.2, earlier.Allows names.2 summary.arn) := by
  rcases allowed with ⟨kept, ⟨ipSet, found, rfl, -⟩, present⟩
  rw [HasRule, mem_rules_iff_rulesNamed] at present
  rcases List.exists_mem_of_ne_nil _ present with ⟨rule, ruleMem⟩
  have only := rulesNamed_eq_singleton ruleMem
  refine ⟨rule, only, ?_⟩
  constructor
  · intro allows earlier earlierMem
    have stays := kept.stays earlierMem
    rw [only, List.mem_singleton] at stays
    rw [stays]
    exact allows
  · intro allow
    cases before : s₀.acl.settings.rulesNamed names.2 with
    | nil =>
        have refers : Refers names.2 s₀ := by
          intro earlier earlierMem
          rw [before] at earlierMem
          exact absurd earlierMem List.not_mem_nil
        rcases kept.refers refers rule ruleMem with ⟨other, otherFound, isRule⟩
        cases found.symm.trans otherFound
        exact ⟨rule.priority, isRule⟩
    | cons earlier others =>
        have earlierMem : earlier ∈ s₀.acl.settings.rulesNamed names.2 := by
          rw [before]
          exact List.mem_cons_self
        have stays := kept.stays earlierMem
        rw [only, List.mem_singleton] at stays
        rw [← stays]
        exact allow earlier earlierMem

namespace Sample

/-- A shard of the load test. -/
def shard (i : Bool) : ApplySettings where
  webAclName := some (str "adot-collector-waf")
  ipsetName := str "perf-ipset"
  ruleName := str "perf-test-allow"
  priority := 0
  addCidrs := [if i then str "203.0.113.7/32" else str "203.0.113.8/32"]
  retries := 6

/-- The WebACL of the collector has its rate rule. -/
def aclSettings : AclSettings Runtime.whole where
  defaultAction := .obj [(str "Allow", .obj [])]
  visibilityConfig := .obj []
  rules := [⟨str "rate-limit", rateRulePriority, .obj [(str "Action", .obj [])]⟩]
  field := fun _ => none
  distinct := List.nodup_singleton _

def service (ipSet : Option IpSet) : WafState Runtime.whole where
  ipSet := ipSet
  acl := ⟨str "adot-collector-waf", str "acl-1", str "arn:webacl/1", aclSettings, 0⟩
  declared := aclSettings
  nextId := str "set-1"
  nextArn := str "arn:ipset/1"

/-- The IPSet of an earlier test. -/
def earlier : IpSet :=
  ⟨str "perf-ipset", str "set-0", str "arn:ipset/0", [str "198.51.100.1/32"], 4⟩

/-- Both shards make each of their calls before either makes its next one. -/
def sideBySide : List Bool :=
  [false, true, false, true, false, true, false, true, false, true, false, true, true]

theorem names_shard (i : Bool) :
    (shard i).names = (str "perf-ipset", str "perf-test-allow") := rfl

/-- An interleaving of the two shards. -/
def interleaving (ipSet : Option IpSet) (schedule : List Bool) :=
  (shards shard (service ipSet)).play WafState.answer schedule

theorem trace_interleaving (reserved : Int → Prop) (faulty : Prop) (ipSet : Option IpSet)
    (schedule : List Bool) :
    Trace (wafService (str "perf-ipset", str "perf-test-allow").2 reserved faulty).Step
      (shards shard (service ipSet)) (interleaving ipSet schedule) :=
  trace_play (fun _ _ => Or.inl rfl) _ schedule

theorem ready_shard (i : Bool) : Ready (fun priority => priority < rateRulePriority) (shard i)
    (service (some earlier)) where
  low := by
    change (0 : Int) < 100
    decide
  isReserved := by
    change (0 : Int) < 100
    decide
  free := by
    intro rule ruleMem isReserved
    rw [List.mem_singleton.mp ruleMem] at isReserved
    exact absurd isReserved (lt_irrefl rateRulePriority)
  resolves := ⟨List.cons_ne_nil _ _, Or.inr rfl⟩
  named := by
    rintro _ ⟨⟩
    rfl

end Sample

/--
Whatever calls fail, and whether or not they had their effect: what a run that has returned
has added is there under the one rule with the name, which allows it unless an earlier rule
with the name does not, and nothing that was there is lost.
-/
theorem applied_of_trace (same : ∀ i, (settings i).names = names)
    (trace : Trace (wafService names.2 reserved faulty).Step (shards settings s₀) steps) :
    (∀ i evidence,
      ((finish (shards settings s₀) steps).process i).outcome? = some (.ok evidence) →
        HasAddresses evidence.ipSetArn (settings i).addCidrs
            (finish (shards settings s₀) steps).shared ∧
          ∃ rule, (finish (shards settings s₀) steps).shared.acl.settings.rulesNamed names.2 =
              [rule] ∧
            (rule.Allows names.2 evidence.ipSetArn ↔
              ∀ earlier ∈ s₀.acl.settings.rulesNamed names.2,
                earlier.Allows names.2 evidence.ipSetArn)) ∧
      (∀ ipSet, s₀.ipSet = some ipSet →
        ∃ later, (finish (shards settings s₀) steps).shared.ipSet = some later ∧
          ipSet.addresses ⊆ later.addresses) ∧
      (AsDeclared names.2 s₀ → AsDeclared names.2 (finish (shards settings s₀) steps).shared) := by
  have kept := keeps_of_trace same trace
  refine ⟨?_, ?_, kept.grows.declared⟩
  · intro i evidence ended
    rcases ended_of_trace same trace ended with ⟨summary, arn_eq, allowed⟩
    rw [← arn_eq]
    rw [same i] at allowed
    rcases allowed.2.1 with ⟨ipSet, found, isSummary, within⟩
    refine ⟨⟨ipSet, found, ?_, within⟩, allowed.ruled⟩
    rw [← isSummary]
    rfl
  · intro ipSet found
    rcases kept.grows.ipSet ipSet found with ⟨later, laterFound, extended⟩
    exact ⟨later, laterFound, extended.addresses⟩

/-- Of two shards that update the IPSet side by side, neither loses an address, and their rule
allows what it has. -/
theorem applied_sideBySide : ∃ evidence evidence' rule,
    HasAddresses evidence [str "203.0.113.8/32"]
      (finish (shards Sample.shard (Sample.service (some Sample.earlier)))
        (Sample.interleaving (some Sample.earlier) Sample.sideBySide)).shared ∧
    HasAddresses evidence' [str "203.0.113.7/32"]
      (finish (shards Sample.shard (Sample.service (some Sample.earlier)))
        (Sample.interleaving (some Sample.earlier) Sample.sideBySide)).shared ∧
    (finish (shards Sample.shard (Sample.service (some Sample.earlier)))
      (Sample.interleaving (some Sample.earlier) Sample.sideBySide)).shared.acl.settings.rulesNamed
        (str "perf-test-allow") = [rule] ∧
    rule.Allows (str "perf-test-allow") evidence := by
  have none : (Sample.service (some Sample.earlier)).acl.settings.rulesNamed
      (str "perf-test-allow") = [] := rfl
  have applied := applied_of_trace Sample.names_shard
    (Sample.trace_interleaving (fun _ => False) True (some Sample.earlier) Sample.sideBySide)
  rcases applied.1 false _ rfl with ⟨has, rule, only, allows⟩
  refine ⟨_, _, rule, has, (applied.1 true _ rfl).1, only, allows.mpr ?_⟩
  intro earlier earlierMem
  change earlier ∈ (Sample.service (some Sample.earlier)).acl.settings.rulesNamed
    (str "perf-test-allow") at earlierMem
  rw [none] at earlierMem
  exact absurd earlierMem List.not_mem_nil

/--
When no call fails by itself, a run ends within its budget of calls, and raises only if it
was not ready, has lost the race for the creation of the IPSet, or has met more updates of
one object than it makes attempts.
-/
theorem hindered_of_trace (same : ∀ i, (settings i).names = names)
    (trace : Trace (wafService names.2 reserved False).Step (shards settings s₀) steps) (i : ι) :
    (callBudget (settings i) ≤ Serving.callsOf i steps →
      ∃ outcome, ((finish (shards settings s₀) steps).process i).outcome? = some outcome) ∧
    ∀ error,
      ((finish (shards settings s₀) steps).process i).outcome? = some (.error error) →
        Hindered reserved False (settings i) s₀ (finish (shards settings s₀) steps).shared
          error := by
  constructor
  · intro made
    exact Serving.ended_of_callsOf trace (within_applyAllowlist (settings i)) made
  · intro error ended
    exact ended_of_trace same trace ended

/-- Of two shards that both create the IPSet, one raises. -/
theorem hindered_race : Hindered (fun _ => True) False (Sample.shard true) (Sample.service none)
    (finish (shards Sample.shard (Sample.service none))
      (Sample.interleaving none [false, true, false, true, false, true])).shared
          (.api duplicateItem) := by
  have trace := Sample.trace_interleaving (fun _ => True) False none
    [false, true, false, true, false, true]
  exact (hindered_of_trace Sample.names_shard trace true).2 _ rfl

instance (request : WafCall rt) : Nonempty (WafCall.Reply rt request) := ⟨.error staleToken⟩

/--
With an IPSet there, and as many attempts as there are runs and edits of other clients, no
run raises, and each ends within its budget of calls.
-/
theorem returned_of_trace [Fintype ι] (same : ∀ i, (settings i).names = names)
    (created : s₀.ipSet ≠ none) (ready : ∀ i, Ready reserved (settings i) s₀)
    (trace : Trace (wafService names.2 reserved False).Step (shards settings s₀) steps)
    (enough : ∀ i, Fintype.card ι + Serving.outsides steps ≤ ((settings i).retries + 1).toNat)
    (i : ι) :
    (callBudget (settings i) ≤ Serving.callsOf i steps →
      ∃ evidence,
        ((finish (shards settings s₀) steps).process i).outcome? = some (.ok evidence)) ∧
    ∀ error,
      ((finish (shards settings s₀) steps).process i).outcome? ≠ some (.error error) := by
  have never (error : WafExc) :
      ((finish (shards settings s₀) steps).process i).outcome? ≠ some (.error error) := by
    intro ended
    have budget := enough i
    have hindered : Hindered reserved False (settings i) s₀ _ error :=
      ended_of_trace same trace ended
    cases hindered with
    | faulty isFaulty => exact isFaulty
    | notReady notReady => exact notReady (ready i)
    | lostRace absent isDuplicate => exact created absent
    | ipSet exhausted updates =>
        have own := Serving.post_costOf_of_trace trace
          (spends_applyAllowlist_ipSet (settings i)) ended
        have others := Serving.sum_costOf_le (own.2 error rfl exhausted) fun j =>
          Serving.costOf_le_of_trace trace (spends_applyAllowlist_ipSet (settings j))
            fun _ _ once => once.1
        have level : ipSetToken (finish (shards settings s₀) steps).shared ≤
            ipSetToken s₀ + ∑ j, Serving.costOf ipSetUpdates j steps +
              0 * Serving.outsides steps := by
          apply Serving.level_le_of_trace ipSetToken trace
          · rintro s event s' (served | ⟨⟨⟩, -⟩)
            exact ipSetToken_le_of_exactly served
          · rintro s s' ⟨settings, -, -, rfl⟩
            exact le_rfl
        omega
    | webAcl exhausted updates =>
        have own := Serving.post_costOf_of_trace trace
          (spends_applyAllowlist_acl (settings i)) ended
        have others := Serving.sum_costOf_le own fun j =>
          Serving.costOf_le_of_trace trace (spends_applyAllowlist_acl (settings j))
            (by rintro (error | evidence) total once
                · exact once.le.trans (Nat.zero_le 1)
                · exact once)
        have level : (finish (shards settings s₀) steps).shared.acl.lockToken ≤
            s₀.acl.lockToken + ∑ j, Serving.costOf aclUpdates j steps +
              1 * Serving.outsides steps := by
          apply Serving.level_le_of_trace (fun s : WafState rt => s.acl.lockToken) trace
          · rintro s event s' (served | ⟨⟨⟩, -⟩)
            exact aclToken_le_of_exactly served
          · rintro s s' ⟨settings, -, -, rfl⟩
            exact le_rfl
        omega
  refine ⟨fun made => ?_, never⟩
  rcases Serving.ended_of_callsOf trace (within_applyAllowlist (settings i)) made with
    ⟨error | evidence, ended⟩
  · exact absurd ended (never error)
  · exact ⟨evidence, ended⟩

/-- Both shards return, as each makes seven attempts. -/
theorem returned_sideBySide :
    (∃ evidence, ((finish (shards Sample.shard (Sample.service (some Sample.earlier)))
      (Sample.interleaving (some Sample.earlier) Sample.sideBySide)).process true).outcome? =
        some (.ok evidence)) ∧
    ∀ error, ((finish (shards Sample.shard (Sample.service (some Sample.earlier)))
      (Sample.interleaving (some Sample.earlier) Sample.sideBySide)).process true).outcome? ≠
        some (.error error) := by
  have trace := Sample.trace_interleaving (fun priority => priority < rateRulePriority) False
    (some Sample.earlier) Sample.sideBySide
  have enough : ∀ i, Fintype.card Bool + Serving.outsides
      (Sample.interleaving (some Sample.earlier) Sample.sideBySide) ≤
        ((Sample.shard i).retries + 1).toNat := by
    intro i
    rw [Sample.interleaving, outsides_play, Fintype.card_bool]
    change 2 ≤ ((6 : Int) + 1).toNat
    decide
  refine ⟨⟨_, rfl⟩, ?_⟩
  exact (returned_of_trace Sample.names_shard (Option.some_ne_none _) Sample.ready_shard trace
    enough true).2

end System

end WafAllowlist
