import TelemetryPlatform.WafAllowlist.Account
import TelemetryPlatform.WafAllowlist.Remove

/-!
# What the actions do to an account

The outcome of each function of the script when nobody else uses the account, and the
account it leaves behind. No lock token is stale then, so an attempt is made once, and
whether a function returns and what it changes depends on the first page of the
listings, the rules of the WebACL and the number of retries.
-/

namespace WafAllowlist

open Python Interaction

variable {rt : Runtime} {listing : Listing rt} {s : Account rt}

section Attempts

variable {α : Type} {attempt : Waf rt α} {retries : Int} {what : Str}

theorem serve_send_ok {call : WafCall rt} {result : call.Result rt} {s' : Account rt}
    (answered : s.answer listing call = (.ok result, s')) :
    (send rt call).serve (Account.answer listing) s = (.ok result, s') := by
  simp only [send, Program.perform_bind, Program.serve_call, answered]
  rfl

theorem serve_send_error {call : WafCall rt} {error : ApiError} {s' : Account rt}
    (answered : s.answer listing call = (.error error, s')) :
    (send rt call).serve (Account.answer listing) s = (.error (.api error), s') := by
  simp only [send, Program.perform_bind, Program.serve_call, answered]
  rfl

/-- An attempt that returns is made once. -/
theorem serve_withLockRetry_ok {value : α} {s' : Account rt} (some : 0 ≤ retries)
    (returned : attempt.serve (Account.answer listing) s = (.ok value, s')) :
    (withLockRetry attempt retries what).serve (Account.answer listing) s = (.ok value, s') := by
  obtain ⟨tries, triesEq⟩ : ∃ tries, (retries + 1).toNat = tries + 1 :=
    ⟨retries.toNat, by omega⟩
  rw [withLockRetry, triesEq, withLockRetry.attempts]
  exact Program.serve_handle_ok returned

/-- An attempt that raises what is not retried is made once. -/
theorem serve_withLockRetry_error {error : WafExc} {s' : Account rt} (some : 0 ≤ retries)
    (final : ¬isRetryableWafError error)
    (raised : attempt.serve (Account.answer listing) s = (.error error, s')) :
    (withLockRetry attempt retries what).serve (Account.answer listing) s = (.error error, s') := by
  obtain ⟨tries, triesEq⟩ : ∃ tries, (retries + 1).toNat = tries + 1 :=
    ⟨retries.toNat, by omega⟩
  rw [withLockRetry, triesEq, withLockRetry.attempts]
  simp only [Program.tryCatch_eq_handle]
  rw [Program.serve_handle_error raised, if_neg final]
  rfl

/-- Without a budget no attempt is made. -/
theorem serve_withLockRetry_none (none : retries < 0) : ∃ text,
    (withLockRetry attempt retries what).serve (Account.answer listing) s =
      (.error (.wafAllowlistError text), s) := by
  have noTries : (retries + 1).toNat = 0 := by omega
  rw [withLockRetry, noTries, withLockRetry.attempts]
  exact ⟨_, rfl⟩

end Attempts

section Lookups

/-- The WebACL name that is discovered among the listed ones. -/
def discovered (acls : List Summary) : Option Str :=
  match acls.find? fun acl => Contains (str "adot") acl.name ∧ Contains (str "waf") acl.name with
  | some acl => some acl.name
  | none =>
      match acls with
      | [acl] => some acl.name
      | _ => none

/-- The name of the target among the listed WebACLs: the given one, or one that is discovered. -/
def targetName (webAclName : Option Str) (acls : List Summary) : Option Str :=
  (match webAclName with
    | some (c :: rest) => some (c :: rest)
    | _ => discovered acls).filter (· ≠ [])

/-- The WebACL of the first page that a run is about. -/
def Account.target (listing : Listing rt) (s : Account rt) (webAclName : Option Str) :
    Option (Acl rt) :=
  let page := s.acls.take listing.aclPage
  (targetName webAclName (page.map Acl.summary)).bind fun name =>
    page.find? fun acl => acl.name = name

/-- The IPSet of the first page with a name. -/
def Account.shownIpSet (listing : Listing rt) (s : Account rt) (ipsetName : Str) : Option IpSet :=
  (s.ipSets.take listing.ipSetPage).find? fun ipSet => ipSet.name = ipsetName

theorem Account.mem_of_shownIpSet {ipsetName : Str} {ipSet : IpSet}
    (shown : s.shownIpSet listing ipsetName = some ipSet) :
    ipSet ∈ s.ipSets ∧ ipSet.name = ipsetName := by
  have same := List.find?_some shown
  rw [decide_eq_true_eq] at same
  exact ⟨List.mem_of_mem_take (List.mem_of_find?_eq_some shown), same⟩

theorem Account.mem_of_target {webAclName : Option Str} {acl : Acl rt}
    (target : s.target listing webAclName = some acl) : acl ∈ s.acls := by
  rcases Option.bind_eq_some_iff.mp target with ⟨name, _, found⟩
  exact List.mem_of_mem_take (List.mem_of_find?_eq_some found)

theorem serve_findIpSet (ipsetName : Str) :
    (findIpSet ipsetName).serve (Account.answer listing) s =
      (.ok ((s.shownIpSet listing ipsetName).map IpSet.summary), s) := by
  rw [findIpSet, Program.serve_bind_ok (serve_send_ok rfl), List.find?_map]
  rfl

theorem serve_discoverWafWebAcl :
    (discoverWafWebAcl : Waf rt (Option Str)).serve (Account.answer listing) s =
      (.ok (discovered ((s.acls.take listing.aclPage).map Acl.summary)), s) := by
  rw [discoverWafWebAcl, Program.serve_bind_ok (serve_send_ok rfl)]
  generalize (s.acls.take listing.aclPage).map Acl.summary = acls
  cases found : acls.find? fun acl =>
      Contains (str "adot") acl.name ∧ Contains (str "waf") acl.name with
  | some acl =>
      simp only [discovered, found]
      rfl
  | none =>
      simp only [discovered, found]
      rcases acls with _ | ⟨acl, _ | ⟨second, others⟩⟩ <;> rfl

/-- The second half of `resolve_web_acl`, which looks a name up. -/
def lookUpName (name : Option Str) : Waf rt (Str × Str) := do
  match name with
  | some (c :: rest) =>
      let acls ← send rt .listWebAcls
      match acls.find? fun acl => acl.name = c :: rest with
      | some acl => return (c :: rest, acl.id)
      | none =>
          throw (.wafUsageError (str "ERROR: CLOUDFRONT WebACL " ++ rt.reprStr (c :: rest) ++
            str (" not found in scope CLOUDFRONT. Remedy: verify the WebACL name and that the " ++
              "stack is deployed.")))
  | _ =>
      throw (.wafUsageError (str ("ERROR: could not resolve the collector CLOUDFRONT WebACL. " ++
        "Remedy: pass --web-acl-name explicitly (auto-discovery found no unambiguous match).")))

theorem serve_lookUpName (name : Option Str) :
    (∃ acl, (name.filter (· ≠ [])).bind (fun name =>
        (s.acls.take listing.aclPage).find? fun acl => acl.name = name) = some acl ∧
      (lookUpName name).serve (Account.answer listing) s = (.ok (acl.name, acl.id), s)) ∨
    (∃ text, (name.filter (· ≠ [])).bind (fun name =>
        (s.acls.take listing.aclPage).find? fun acl => acl.name = name) = none ∧
      (lookUpName name).serve (Account.answer listing) s = (.error (.wafUsageError text), s)) := by
  rcases name with _ | _ | ⟨c, rest⟩
  · exact Or.inr ⟨_, rfl, rfl⟩
  · exact Or.inr ⟨_, rfl, rfl⟩
  · have filtered : (some (c :: rest)).filter (fun name => decide (name ≠ [])) =
        some (c :: rest) := by
      simp [Option.filter]
    rw [filtered, Option.bind_some]
    simp only [lookUpName]
    rw [Program.serve_bind_ok (serve_send_ok rfl), List.find?_map]
    cases found : (s.acls.take listing.aclPage).find? fun acl => acl.name = c :: rest with
    | none =>
        right
        have missed : (s.acls.take listing.aclPage).find?
            ((fun summary : Summary => decide (summary.name = c :: rest)) ∘ Acl.summary) = none :=
          found
        rw [missed]
        exact ⟨_, rfl, rfl⟩
    | some acl =>
        refine Or.inl ⟨acl, rfl, ?_⟩
        have shown : (s.acls.take listing.aclPage).find?
            ((fun summary : Summary => decide (summary.name = c :: rest)) ∘ Acl.summary) =
              some acl := found
        have own := List.find?_some found
        rw [decide_eq_true_eq] at own
        rw [shown, own]
        rfl

variable (listing s) in
/-- The target is resolved when it is on the first page. -/
theorem serve_resolveWebAcl (webAclName : Option Str) :
    (∃ acl, s.target listing webAclName = some acl ∧
      (resolveWebAcl webAclName).serve (Account.answer listing) s =
        (.ok (acl.name, acl.id), s)) ∨
    (∃ text, s.target listing webAclName = none ∧
      (resolveWebAcl webAclName).serve (Account.answer listing) s =
        (.error (.wafUsageError text), s)) := by
  have discovers : (discoverWafWebAcl >>= lookUpName : Waf rt (Str × Str)).serve
      (Account.answer listing) s =
        (lookUpName (discovered ((s.acls.take listing.aclPage).map Acl.summary))).serve
          (Account.answer listing) s :=
    Program.serve_bind_ok serve_discoverWafWebAcl
  rcases webAclName with _ | _ | ⟨c, rest⟩
  · change (∃ acl, _ ∧ (discoverWafWebAcl >>= lookUpName).serve _ s = _) ∨
      ∃ text, _ ∧ (discoverWafWebAcl >>= lookUpName).serve _ s = _
    rw [discovers]
    exact serve_lookUpName _
  · change (∃ acl, _ ∧ (discoverWafWebAcl >>= lookUpName).serve _ s = _) ∨
      ∃ text, _ ∧ (discoverWafWebAcl >>= lookUpName).serve _ s = _
    rw [discovers]
    exact serve_lookUpName _
  · exact serve_lookUpName (some (c :: rest))

end Lookups

section Rules

variable {acl : Acl rt} {ruleName : Str} {priority retries : Int}

theorem Account.changeSettings_congr {f g : AclSettings rt → AclSettings rt}
    (aclMem : acl ∈ s.acls) (same : f acl.settings = g acl.settings) :
    s.changeSettings acl.name f = s.changeSettings acl.name g := by
  apply Account.ext
  · rfl
  · apply List.map_congr_left
    intro other otherMem
    unfold Account.changeAcl
    split
    · next named =>
        rw [List.inj_on_of_nodup_map s.aclNames otherMem aclMem named, same]
    · rfl

theorem answer_getWebAcl (aclMem : acl ∈ s.acls) :
    s.answer listing (.getWebAcl acl.name acl.id) =
      (.ok (acl.settings.document, acl.lockToken), s) := by
  simp only [Account.answer, s.find_acl aclMem]

variable (listing) in
theorem answer_updateWebAcl (aclMem : acl ∈ s.acls) {rules : List (Rule rt)}
    (distinct : (rules.map Rule.name).Nodup) :
    s.answer listing (.updateWebAcl acl.name acl.id
        (webaclUpdateKwargs acl.settings.document rules) acl.lockToken) =
      (.ok (), s.changeSettings acl.name fun _ =>
        { acl.settings with rules := rules, distinct := distinct }) := by
  simp only [Account.answer, s.find_acl aclMem, if_true]
  rw [dif_pos (show ((webaclUpdateKwargs acl.settings.document rules).rules.map
    Rule.name).Nodup from distinct)]
  simp only [AclSettings.ofDocument_webaclUpdateKwargs]

/-- The account without the rule of a WebACL that has a name. -/
def Account.dropRule (s : Account rt) (acl : Acl rt) (ruleName : Str) : Account rt :=
  if ruleName ∈ acl.settings.rules.map Rule.name then
    s.changeSettings acl.name fun settings => settings.without ruleName
  else s

theorem serve_dropAllowRule (aclMem : acl ∈ s.acls) :
    (dropAllowRule (acl.name, acl.id) ruleName).serve (Account.answer listing) s =
      (.ok (decide (ruleName ∈ acl.settings.rules.map Rule.name)), s.dropRule acl ruleName) := by
  rw [dropAllowRule, Program.serve_bind_ok (serve_send_ok (answer_getWebAcl aclMem))]
  have kept : (acl.settings.document.rules.filter fun rule => rule.name ≠ ruleName).length =
      acl.settings.document.rules.length ↔ ruleName ∉ acl.settings.rules.map Rule.name := by
    rw [List.length_filter_eq_length_iff]
    simp [AclSettings.document]
  have updated : s.answer listing (.updateWebAcl acl.name acl.id
      (webaclUpdateKwargs acl.settings.document
        (acl.settings.document.rules.filter fun rule => rule.name ≠ ruleName)) acl.lockToken) =
      (.ok (), s.changeSettings acl.name fun _ => acl.settings.without ruleName) :=
    answer_updateWebAcl listing aclMem (acl.settings.without ruleName).distinct
  dsimp only
  unfold Account.dropRule
  split_ifs with same present present
  · exact absurd present (kept.mp same)
  · simp [present]
  · have dropped : s.changeSettings acl.name (fun _ => acl.settings.without ruleName) =
        s.changeSettings acl.name fun settings => settings.without ruleName :=
      Account.changeSettings_congr aclMem rfl
    rw [Program.serve_bind_ok (serve_send_ok updated), dropped]
    simp only [present, decide_true]
    rfl
  · exact absurd (kept.mpr present) same

/-- The scan of the rules ends in front of the rule with the name, or at a rule in its way. -/
theorem findAllowRule_eq_false {rules : List (Rule rt)}
    (absent : findAllowRule ruleName priority rules = .ok false) :
    ruleName ∉ rules.map Rule.name := by
  induction rules with
  | nil => simp
  | cons rule rest ih =>
      rw [findAllowRule] at absent
      split_ifs at absent with named taken
      · cases absent
      · rw [List.map_cons, List.mem_cons, not_or]
        exact ⟨fun same => named same.symm, ih absent⟩

theorem not_retryable_findAllowRule {rules : List (Rule rt)} {error : WafExc}
    (raised : findAllowRule ruleName priority rules = .error error) :
    ¬isRetryableWafError error := by
  induction rules with
  | nil => cases raised
  | cons rule rest ih =>
      rw [findAllowRule] at raised
      split_ifs at raised with named taken
      · cases raised
        exact id
      · exact ih raised

/-- The settings with one more rule. -/
def AclSettings.withRule (settings : AclSettings rt) (rule : Rule rt) : AclSettings rt :=
  if fresh : rule.name ∉ settings.rules.map Rule.name then
    { settings with
      rules := settings.rules ++ [rule]
      distinct := by
        rw [List.map_append]
        exact List.nodup_append.mpr ⟨settings.distinct, by simp, by
          rintro name nameMem _ single rfl
          rw [List.map_singleton, List.mem_singleton] at single
          exact fresh (single ▸ nameMem)⟩ }
  else settings

theorem AclSettings.rules_withRule (settings : AclSettings rt) (rule : Rule rt)
    (fresh : rule.name ∉ settings.rules.map Rule.name) :
    (settings.withRule rule).rules = settings.rules ++ [rule] := by
  rw [withRule, dif_pos fresh]

theorem AclSettings.withRule_eq (settings : AclSettings rt) (rule : Rule rt)
    (fresh : rule.name ∉ settings.rules.map Rule.name)
    (distinct : ((settings.rules ++ [rule]).map Rule.name).Nodup) :
    settings.withRule rule =
      { settings with rules := settings.rules ++ [rule], distinct := distinct } := by
  rw [withRule, dif_pos fresh]

/-- The account with the perf rule in a WebACL. -/
def Account.addRule (s : Account rt) (acl : Acl rt) (ruleName : Str) (priority : Int)
    (ipsetArn : Str) : Account rt :=
  s.changeSettings acl.name fun settings =>
    settings.withRule (buildAllowRule ruleName priority ipsetArn)

variable (listing ruleName priority) in
theorem serve_addAllowRule (aclMem : acl ∈ s.acls) (ipsetArn : Str) :
    (addAllowRule (acl.name, acl.id) ruleName priority ipsetArn).serve
        (Account.answer listing) s =
      match findAllowRule ruleName priority acl.settings.rules with
      | .ok true => (.ok false, s)
      | .ok false => (.ok true, s.addRule acl ruleName priority ipsetArn)
      | .error error => (.error error, s) := by
  rw [addAllowRule, Program.serve_bind_ok (serve_send_ok (answer_getWebAcl aclMem))]
  dsimp only [AclSettings.document]
  cases scanned : findAllowRule ruleName priority acl.settings.rules with
  | error error => rfl
  | ok present =>
      cases present with
      | true => rfl
      | false =>
          have fresh := findAllowRule_eq_false scanned
          have distinct := (acl.settings.withRule
            (buildAllowRule ruleName priority ipsetArn)).distinct
          rw [AclSettings.rules_withRule _ _ fresh] at distinct
          have updated := answer_updateWebAcl listing aclMem distinct
          rw [← AclSettings.withRule_eq _ _ fresh distinct] at updated
          have added : s.changeSettings acl.name (fun _ => acl.settings.withRule
              (buildAllowRule ruleName priority ipsetArn)) =
              s.addRule acl ruleName priority ipsetArn :=
            Account.changeSettings_congr aclMem rfl
          rw [added] at updated
          exact Program.serve_bind_ok (serve_send_ok updated)

/-- The rule can be added, or is there already: nothing the scan comes by is in its way. -/
def Acl.Rulable (acl : Acl rt) (ruleName : Str) (priority : Int) : Prop :=
  priority < rateRulePriority ∧
    ∃ present, findAllowRule ruleName priority acl.settings.rules = .ok present

/-- The account with the rule in the WebACL, where the scan did not find it. -/
def Account.ensureRule (s : Account rt) (acl : Acl rt) (ruleName : Str) (priority : Int)
    (ipsetArn : Str) : Account rt :=
  match findAllowRule ruleName priority acl.settings.rules with
  | .ok false => s.addRule acl ruleName priority ipsetArn
  | _ => s

variable (listing) in
theorem serve_ensureAllowRule_ok (aclMem : acl ∈ s.acls) (ipsetArn : Str) (some : 0 ≤ retries)
    (rulable : Acl.Rulable acl ruleName priority) : ∃ added,
      (ensureAllowRule (acl.name, acl.id) ruleName priority ipsetArn retries).serve
        (Account.answer listing) s = (.ok added, s.ensureRule acl ruleName priority ipsetArn) := by
  rcases rulable with ⟨early, present, scanned⟩
  have attempted := serve_addAllowRule listing ruleName priority aclMem ipsetArn
  unfold ensureAllowRule Account.ensureRule
  rw [if_neg (by omega), scanned]
  rw [scanned] at attempted
  cases present with
  | true => exact ⟨false, serve_withLockRetry_ok some attempted⟩
  | false => exact ⟨true, serve_withLockRetry_ok some attempted⟩

variable (listing) in
theorem serve_ensureAllowRule_error (aclMem : acl ∈ s.acls) (ipsetArn : Str)
    (hindered : ¬(0 ≤ retries ∧ Acl.Rulable acl ruleName priority)) : ∃ error,
      (ensureAllowRule (acl.name, acl.id) ruleName priority ipsetArn retries).serve
        (Account.answer listing) s = (.error error, s) := by
  unfold ensureAllowRule
  by_cases early : priority < rateRulePriority
  · rw [if_neg (by omega)]
    by_cases some : 0 ≤ retries
    · have attempted := serve_addAllowRule listing ruleName priority aclMem ipsetArn
      cases scanned : findAllowRule ruleName priority acl.settings.rules with
      | ok present => exact absurd ⟨some, early, present, scanned⟩ hindered
      | error error =>
          rw [scanned] at attempted
          exact ⟨error, serve_withLockRetry_error some
            (not_retryable_findAllowRule scanned) attempted⟩
    · rcases serve_withLockRetry_none (not_le.mp some) with ⟨text, raised⟩
      exact ⟨_, raised⟩
  · rw [if_pos (by omega)]
    exact ⟨_, rfl⟩

variable (listing ruleName) in
theorem serve_removeAllowRule (aclMem : acl ∈ s.acls) (some : 0 ≤ retries) : ∃ removed,
    (removeAllowRule (acl.name, acl.id) ruleName retries).serve (Account.answer listing) s =
      (.ok removed, s.dropRule acl ruleName) :=
  ⟨_, serve_withLockRetry_ok some (serve_dropAllowRule aclMem)⟩

end Rules

section IpSets

variable {ipsetName : Str} {addCidrs : List Str} {retries : Int} {ipSet : IpSet}

theorem answer_getIpSet (ipSetMem : ipSet ∈ s.ipSets) :
    s.answer listing (.getIpSet ipSet.name ipSet.id) =
      (.ok (ipSet.addresses, ipSet.lockToken), s) := by
  simp only [Account.answer, s.find_ipSet ipSetMem]

/-- The account with more addresses in an IPSet. -/
def Account.merge (s : Account rt) (ipSet : IpSet) (addCidrs : List Str) : Account rt :=
  if dedupe (ipSet.addresses ++ addCidrs) = ipSet.addresses then s
  else s.setAddresses ipSet.name (dedupe (ipSet.addresses ++ addCidrs))

theorem serve_mergeAddresses (ipSetMem : ipSet ∈ s.ipSets) :
    (mergeAddresses ipSet.name ipSet.id addCidrs).serve (Account.answer listing) s =
      (.ok (), s.merge ipSet addCidrs) := by
  rw [mergeAddresses, Program.serve_bind_ok (serve_send_ok (answer_getIpSet ipSetMem))]
  unfold Account.merge
  dsimp only
  by_cases same : dedupe (ipSet.addresses ++ addCidrs) = ipSet.addresses
  · rw [if_neg (not_not.mpr same), if_pos same]
    rfl
  · rw [if_pos same, if_neg same]
    apply serve_send_ok
    simp only [Account.answer, s.find_ipSet ipSetMem, if_true]

/-- The IPSet a creation adds. -/
def Account.newIpSet (listing : Listing rt) (s : Account rt) (ipsetName : Str)
    (addCidrs : List Str) : IpSet :=
  ⟨ipsetName, listing.newId s.ipSets, listing.newArn s.ipSets, dedupe addCidrs, 0⟩

/-- The account with a new IPSet. -/
def Account.create (listing : Listing rt) (s : Account rt) (ipsetName : Str)
    (addCidrs : List Str) (fresh : ipsetName ∉ s.ipSets.map IpSet.name) : Account rt :=
  s.insertIpSet (listing.place s.ipSets) (s.newIpSet listing ipsetName addCidrs) fresh

theorem serve_ensureIpSet_new (fresh : ipsetName ∉ s.ipSets.map IpSet.name) :
    (ensureIpSet ipsetName addCidrs retries).serve (Account.answer listing) s =
      (.ok (s.newIpSet listing ipsetName addCidrs).summary,
        s.create listing ipsetName addCidrs fresh) := by
  have hidden : s.shownIpSet listing ipsetName = none := by
    cases shown : s.shownIpSet listing ipsetName with
    | none => rfl
    | some ipSet =>
        rcases Account.mem_of_shownIpSet shown with ⟨ipSetMem, rfl⟩
        exact absurd (List.mem_map_of_mem ipSetMem) fresh
  have created : s.answer listing (.createIpSet ipsetName (dedupe addCidrs)) =
      (.ok (s.newIpSet listing ipsetName addCidrs).summary,
        s.create listing ipsetName addCidrs fresh) := by
    simp only [Account.answer]
    rw [dif_pos fresh]
    rfl
  rw [ensureIpSet, Program.serve_bind_ok (serve_findIpSet ipsetName), hidden]
  exact Program.serve_bind_ok (serve_send_ok created)

theorem serve_ensureIpSet_hidden (hidden : s.shownIpSet listing ipsetName = none)
    (taken : ipsetName ∈ s.ipSets.map IpSet.name) :
    (ensureIpSet ipsetName addCidrs retries).serve (Account.answer listing) s =
      (.error (.api duplicateItem), s) := by
  have refused : s.answer listing (.createIpSet ipsetName (dedupe addCidrs)) =
      (.error duplicateItem, s) := by
    simp only [Account.answer]
    rw [dif_neg (not_not.mpr taken)]
  rw [ensureIpSet, Program.serve_bind_ok (serve_findIpSet ipsetName), hidden]
  exact Program.serve_bind_error (serve_send_error refused)

theorem serve_ensureIpSet_shown (shown : s.shownIpSet listing ipsetName = some ipSet)
    (some : addCidrs ≠ [] → 0 ≤ retries) :
    (ensureIpSet ipsetName addCidrs retries).serve (Account.answer listing) s =
      (.ok ipSet.summary, if addCidrs = [] then s else s.merge ipSet addCidrs) := by
  rcases Account.mem_of_shownIpSet shown with ⟨ipSetMem, rfl⟩
  rw [ensureIpSet, Program.serve_bind_ok (serve_findIpSet ipSet.name), shown]
  dsimp only [Option.map_some]
  by_cases asked : addCidrs = []
  · rw [if_neg (not_not.mpr asked), if_pos asked]
    rfl
  · rw [if_pos asked, if_neg asked]
    exact Program.serve_bind_ok
      (serve_withLockRetry_ok (some asked) (serve_mergeAddresses ipSetMem))

theorem serve_ensureIpSet_none (shown : s.shownIpSet listing ipsetName = some ipSet)
    (asked : addCidrs ≠ []) (none : retries < 0) : ∃ error,
    (ensureIpSet ipsetName addCidrs retries).serve (Account.answer listing) s =
      (.error error, s) := by
  rw [ensureIpSet, Program.serve_bind_ok (serve_findIpSet ipsetName), shown]
  dsimp only [Option.map_some]
  rw [if_pos asked]
  rcases serve_withLockRetry_none none with ⟨text, raised⟩
  exact ⟨_, Program.serve_bind_error raised⟩

theorem serve_deleteIpSet_hidden (hidden : s.shownIpSet listing ipsetName = none) :
    (deleteIpSet ipsetName retries).serve (Account.answer listing) s = (.ok false, s) := by
  rw [deleteIpSet, Program.serve_bind_ok (serve_findIpSet ipsetName), hidden]
  rfl

variable (listing) in
theorem serve_deleteCurrent (ipSetMem : ipSet ∈ s.ipSets) :
    (deleteCurrent ipSet.name ipSet.id).serve (Account.answer listing) s =
      if s.RefersTo listing ipSet.arn then (.error (.api associatedItem), s)
      else (.ok (), s.eraseIpSet ipSet.name) := by
  rw [deleteCurrent, Program.serve_bind_ok (serve_send_ok (answer_getIpSet ipSetMem))]
  dsimp only
  split_ifs with refers
  · apply serve_send_error
    simp only [Account.answer, s.find_ipSet ipSetMem, if_true, if_pos refers]
  · apply serve_send_ok
    simp only [Account.answer, s.find_ipSet ipSetMem, if_true, if_neg refers]

theorem serve_deleteIpSet_shown (shown : s.shownIpSet listing ipsetName = some ipSet)
    (some : 0 ≤ retries) (free : ¬s.RefersTo listing ipSet.arn) :
    (deleteIpSet ipsetName retries).serve (Account.answer listing) s =
      (.ok true, s.eraseIpSet ipsetName) := by
  rcases Account.mem_of_shownIpSet shown with ⟨ipSetMem, rfl⟩
  have deleted := serve_deleteCurrent listing ipSetMem
  rw [if_neg free] at deleted
  rw [deleteIpSet, Program.serve_bind_ok (serve_findIpSet ipSet.name), shown]
  apply Program.serve_handle_ok
  exact Program.serve_bind_ok (serve_withLockRetry_ok some deleted)

variable (retries) in
theorem serve_deleteIpSet_error (shown : s.shownIpSet listing ipsetName = some ipSet)
    (kept : ¬(0 ≤ retries ∧ ¬s.RefersTo listing ipSet.arn)) : ∃ error,
    (deleteIpSet ipsetName retries).serve (Account.answer listing) s = (.error error, s) := by
  rcases Account.mem_of_shownIpSet shown with ⟨ipSetMem, rfl⟩
  rw [deleteIpSet, Program.serve_bind_ok (serve_findIpSet ipSet.name), shown]
  by_cases some : 0 ≤ retries
  · have refers : s.RefersTo listing ipSet.arn := by
      by_contra free
      exact kept ⟨some, free⟩
    have refused := serve_deleteCurrent listing ipSetMem
    rw [if_pos refers] at refused
    have final : ¬isRetryableWafError (.api associatedItem) := by decide
    refine ⟨.api associatedItem, ?_⟩
    apply (Program.serve_handle_error
      (Program.serve_bind_error (serve_withLockRetry_error some final refused))).trans
    rfl
  · rcases serve_withLockRetry_none (not_le.mp some) with ⟨text, raised⟩
    refine ⟨.wafAllowlistError text, ?_⟩
    apply (Program.serve_handle_error (Program.serve_bind_error raised)).trans
    rfl

end IpSets

end WafAllowlist
