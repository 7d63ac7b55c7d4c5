import TelemetryPlatform.Library.Concurrent
import TelemetryPlatform.WafAllowlist.Apply

/-!
# WAFv2

The service the runs share, as far as they use it: one WebACL and at most one
IPSet, each with a lock token that every successful update replaces by one never
used before. `answer` is what the service does on a call. Other clients edit the
WebACL: they may change everything but the rules with the name of the perf rule,
and `declared` remembers the settings the last of them wrote.

The service keeps no empty optional field: a field that is written empty reads
back as one that is not set. No two rules of a WebACL share a name. A call may also
fail without a reason of its own, before or after it had its effect (`Failed`).

`Grows` is what any number of calls and edits may do to the service: the IPSet
stays and gains addresses, the perf rule stays, everything else of the WebACL
stays as the other clients declare it, and an unchanged token means an unchanged
object.
-/

namespace WafAllowlist

open Python Interaction

variable (rt : Runtime)

/-- The settings of a WebACL. -/
structure AclSettings where
  defaultAction : rt.Value
  visibilityConfig : rt.Value
  rules : List (Rule rt)
  field : PassthroughKey → Option {value : rt.Value // rt.truth value = true}
  distinct : (rules.map Rule.name).Nodup

structure IpSet where
  name : Str
  id : Str
  arn : Str
  addresses : List Str
  lockToken : Nat
deriving DecidableEq

structure Acl where
  name : Str
  id : Str
  arn : Str
  settings : AclSettings rt
  lockToken : Nat

structure WafState where
  ipSet : Option IpSet
  acl : Acl rt
  declared : AclSettings rt
  /-- The identifiers of the next IPSet that is created. -/
  nextId : Str
  nextArn : Str

variable {rt}

namespace AclSettings

/-- The document `get_web_acl` returns. -/
def document (settings : AclSettings rt) : WebAcl rt where
  defaultAction := settings.defaultAction
  visibilityConfig := settings.visibilityConfig
  rules := settings.rules
  field key := (settings.field key).map Subtype.val

/-- The settings a document submits. -/
def ofDocument (webAcl : WebAcl rt) (distinct : (webAcl.rules.map Rule.name).Nodup) :
    AclSettings rt where
  defaultAction := webAcl.defaultAction
  visibilityConfig := webAcl.visibilityConfig
  rules := webAcl.rules
  field key := (webAcl.field key).bind fun value =>
    if solid : rt.truth value = true then some ⟨value, solid⟩ else none
  distinct := distinct

/-- The rules with a name. -/
def rulesNamed (settings : AclSettings rt) (ruleName : Str) : List (Rule rt) :=
  settings.rules.filter fun rule => rule.name = ruleName

/-- The settings apart from the rules with a name. -/
def without (settings : AclSettings rt) (ruleName : Str) : AclSettings rt where
  defaultAction := settings.defaultAction
  visibilityConfig := settings.visibilityConfig
  rules := settings.rules.filter fun rule => rule.name ≠ ruleName
  field := settings.field
  distinct := settings.distinct.sublist (List.filter_sublist.map _)

/-- An update echoes everything but the rules it submits. -/
theorem ofDocument_webaclUpdateKwargs (settings : AclSettings rt) (rules : List (Rule rt))
    (distinct : (rules.map Rule.name).Nodup) :
    ofDocument (webaclUpdateKwargs settings.document rules) distinct =
      { settings with rules := rules, distinct := distinct } := by
  have echoed (key : PassthroughKey) :
      (ofDocument (webaclUpdateKwargs settings.document rules) distinct).field key =
        settings.field key := by
    simp only [ofDocument, webaclUpdateKwargs, document]
    cases set : settings.field key with
    | none => rfl
    | some value => simp [Option.filter, value.2]
  simp only [ofDocument, webaclUpdateKwargs, document, mk.injEq, true_and]
  funext key
  exact echoed key

/-- An update that adds a rule with a name changes nothing but the rules with that name. -/
theorem without_ofDocument (settings : AclSettings rt) {ruleName : Str} {rule : Rule rt}
    (ruleNamed : rule.name = ruleName)
    (distinct : ((settings.rules ++ [rule]).map Rule.name).Nodup) :
    (ofDocument (webaclUpdateKwargs settings.document (settings.rules ++ [rule]))
      distinct).without ruleName = settings.without ruleName := by
  rw [ofDocument_webaclUpdateKwargs]
  simp [without, ruleNamed]

end AclSettings

def IpSet.summary (ipSet : IpSet) : Summary := ⟨ipSet.name, ipSet.id, ipSet.arn⟩

def Acl.summary (acl : Acl rt) : Summary := ⟨acl.name, acl.id, acl.arn⟩

section Answer

def nonexistent : ApiError :=
  .clientError nonexistentItemCode (str "AWS WAF couldn't find the resource.")

def staleToken : ApiError :=
  .clientError optimisticLockCode (str "The resource was changed since the token was read.")

def duplicateItem : ApiError :=
  .clientError (str "WAFDuplicateItemException") (str "An item of this name exists already.")

def limitExceeded : ApiError :=
  .clientError (str "WAFLimitsExceededException") (str "The account has no room for the item.")

def invalidParameter : ApiError :=
  .clientError (str "WAFInvalidParameterException") (str "Two rules have one name.")

/-- What the service does on a call. -/
def WafState.answer (s : WafState rt) : (call : WafCall rt) → call.Reply rt × WafState rt
  | .listWebAcls => (.ok [s.acl.summary], s)
  | .listIpSets => (.ok (s.ipSet.toList.map IpSet.summary), s)
  | .createIpSet name addresses =>
      match s.ipSet with
      | some ipSet => (.error (if ipSet.name = name then duplicateItem else limitExceeded), s)
      | none =>
          (.ok ⟨name, s.nextId, s.nextArn⟩,
            { s with ipSet := some ⟨name, s.nextId, s.nextArn, addresses, 0⟩ })
  | .getIpSet name id =>
      match s.ipSet.filter fun ipSet => ipSet.name = name ∧ ipSet.id = id with
      | some ipSet => (.ok (ipSet.addresses, ipSet.lockToken), s)
      | none => (.error nonexistent, s)
  | .updateIpSet name id addresses lockToken =>
      match s.ipSet.filter fun ipSet => ipSet.name = name ∧ ipSet.id = id with
      | some ipSet =>
          if lockToken = ipSet.lockToken then
            (.ok (), { s with
              ipSet := some { ipSet with addresses := addresses, lockToken := lockToken + 1 } })
          else (.error staleToken, s)
      | none => (.error nonexistent, s)
  | .deleteIpSet name id lockToken =>
      match s.ipSet.filter fun ipSet => ipSet.name = name ∧ ipSet.id = id with
      | some ipSet =>
          if lockToken = ipSet.lockToken then (.ok (), { s with ipSet := none })
          else (.error staleToken, s)
      | none => (.error nonexistent, s)
  | .getWebAcl name id =>
      if s.acl.name = name ∧ s.acl.id = id then
        (.ok (s.acl.settings.document, s.acl.lockToken), s)
      else (.error nonexistent, s)
  | .updateWebAcl name id webAcl lockToken =>
      if s.acl.name = name ∧ s.acl.id = id then
        if lockToken = s.acl.lockToken then
          if distinct : (webAcl.rules.map Rule.name).Nodup then
            (.ok (), { s with acl := { s.acl with
              settings := AclSettings.ofDocument webAcl distinct
              lockToken := lockToken + 1 } })
          else (.error invalidParameter, s)
        else (.error staleToken, s)
      else (.error nonexistent, s)

/-- A call has its effect and its reply. -/
def Exactly (s : WafState rt) (event : Event (WafCall rt) (WafCall.Reply rt))
    (s' : WafState rt) : Prop :=
  (event.reply, s') = s.answer event.request

/-- A call raises, and may have had its effect all the same. -/
def Failed (s : WafState rt) (event : Event (WafCall rt) (WafCall.Reply rt))
    (s' : WafState rt) : Prop :=
  ∃ error, event.reply = .error error ∧ (s' = s ∨ s' = (s.answer event.request).2)

/-- No rule but those with the name has a priority that is reserved. -/
def AclSettings.Free (ruleName : Str) (reserved : Int → Prop) (settings : AclSettings rt) : Prop :=
  ∀ rule ∈ settings.rules, reserved rule.priority → rule.name = ruleName

/--
Another client edits the WebACL. It leaves the rules with the name as they are,
and the reserved priorities free.
-/
def OtherEdit (ruleName : Str) (reserved : Int → Prop) (s s' : WafState rt) : Prop :=
  ∃ settings : AclSettings rt,
    settings.rulesNamed ruleName = s.acl.settings.rulesNamed ruleName ∧
    settings.Free ruleName reserved ∧
    s' = { s with
      acl := { s.acl with settings := settings, lockToken := s.acl.lockToken + 1 }
      declared := settings }

end Answer

section Growth

variable {ruleName : Str} {reserved : Int → Prop} {a b c s : WafState rt}

/-- The WebACL has a rule with the name. -/
def HasRule (ruleName : Str) (s : WafState rt) : Prop :=
  ruleName ∈ s.acl.settings.rules.map Rule.name

/-- Apart from the rules with the name, the WebACL is as the other clients declare it. -/
def AsDeclared (ruleName : Str) (s : WafState rt) : Prop :=
  s.acl.settings.without ruleName = s.declared.without ruleName

/-- A later version of an IPSet. -/
structure IpSet.Extends (later ipSet : IpSet) : Prop where
  summary : later.summary = ipSet.summary
  addresses : ipSet.addresses ⊆ later.addresses
  token : ipSet.lockToken ≤ later.lockToken
  same : ipSet.lockToken = later.lockToken → later = ipSet

theorem IpSet.Extends.refl (ipSet : IpSet) : ipSet.Extends ipSet :=
  ⟨rfl, List.Subset.refl _, le_rfl, fun _ => rfl⟩

theorem IpSet.Extends.trans {first second third : IpSet} (later : second.Extends first)
    (last : third.Extends second) : third.Extends first where
  summary := last.summary.trans later.summary
  addresses := List.Subset.trans later.addresses last.addresses
  token := later.token.trans last.token
  same unchanged := by
    have firstSame := later.token
    have secondSame := last.token
    rw [last.same (by omega), later.same (by omega)]

/-- What calls of the runs and edits of other clients may do to the service. -/
structure Grows (ruleName : Str) (reserved : Int → Prop) (s s' : WafState rt) : Prop where
  ipSet : ∀ ipSet, s.ipSet = some ipSet → ∃ later, s'.ipSet = some later ∧ later.Extends ipSet
  summary : s'.acl.summary = s.acl.summary
  token : s.acl.lockToken ≤ s'.acl.lockToken
  same : s.acl.lockToken = s'.acl.lockToken → s'.acl = s.acl
  rule : HasRule ruleName s → HasRule ruleName s'
  declared : AsDeclared ruleName s → AsDeclared ruleName s'
  free : s.acl.settings.Free ruleName reserved → s'.acl.settings.Free ruleName reserved

theorem Grows.refl (s : WafState rt) : Grows ruleName reserved s s :=
  ⟨fun ipSet found => ⟨ipSet, found, .refl ipSet⟩, rfl, le_rfl, fun _ => rfl, id, id, id⟩

theorem Grows.trans (first : Grows ruleName reserved a b) (second : Grows ruleName reserved b c) :
    Grows ruleName reserved a c where
  ipSet ipSet found := by
    rcases first.ipSet ipSet found with ⟨middle, middleFound, middleExtends⟩
    rcases second.ipSet middle middleFound with ⟨later, laterFound, laterExtends⟩
    exact ⟨later, laterFound, middleExtends.trans laterExtends⟩
  summary := second.summary.trans first.summary
  token := first.token.trans second.token
  same unchanged := by
    have firstToken := first.token
    have secondToken := second.token
    rw [second.same (by omega), first.same (by omega)]
  rule present := second.rule (first.rule present)
  declared asDeclared := second.declared (first.declared asDeclared)
  free free := second.free (first.free free)

theorem mem_rules_iff_rulesNamed {settings : AclSettings rt} :
    ruleName ∈ settings.rules.map Rule.name ↔ settings.rulesNamed ruleName ≠ [] := by
  simp [AclSettings.rulesNamed, List.filter_eq_nil_iff]

theorem OtherEdit.grows (edit : OtherEdit ruleName reserved a b) : Grows ruleName reserved a b := by
  rcases edit with ⟨settings, kept, free, rfl⟩
  refine ⟨fun ipSet found => ⟨ipSet, found, .refl ipSet⟩, rfl, Nat.le_succ _, ?_, ?_, ?_, ?_⟩
  · intro unchanged
    exact absurd unchanged (Nat.succ_ne_self _).symm
  · intro present
    rw [HasRule, mem_rules_iff_rulesNamed] at present ⊢
    rwa [kept]
  · intro _
    rfl
  · exact fun _ => free

theorem grows_createIpSet (name : Str) (addresses : List Str) :
    Grows ruleName reserved s (s.answer (.createIpSet name addresses)).2 := by
  cases found : s.ipSet with
  | some ipSet => simpa only [WafState.answer, found] using .refl s
  | none =>
      simp only [WafState.answer, found]
      refine ⟨fun ipSet present => ?_, rfl, le_rfl, fun _ => rfl, fun kept => kept,
        fun kept => kept, fun kept => kept⟩
      rw [found] at present
      cases present

/-- An update of the IPSet only adds addresses to those its token was read with. -/
theorem grows_updateIpSet {name id : Str} {addresses : List Str} {lockToken : Nat}
    (adds : ∀ ipSet, s.ipSet = some ipSet → lockToken = ipSet.lockToken →
      ipSet.addresses ⊆ addresses) :
    Grows ruleName reserved s (s.answer (.updateIpSet name id addresses lockToken)).2 := by
  simp only [WafState.answer]
  split
  · next ipSet found =>
      have exist := (Option.filter_eq_some_iff.mp found).1
      split
      · next current =>
          refine ⟨fun other otherFound => ?_, rfl, le_rfl, fun _ => rfl, fun kept => kept,
            fun kept => kept, fun kept => kept⟩
          cases exist.symm.trans otherFound
          refine ⟨_, rfl, ⟨rfl, adds ipSet exist current, ?_, ?_⟩⟩
          · change ipSet.lockToken ≤ lockToken + 1
            omega
          · intro unchanged
            change ipSet.lockToken = lockToken + 1 at unchanged
            omega
      · exact .refl s
  · exact .refl s

/-- An update of the WebACL only adds a rule with the name to what its token was read with. -/
theorem grows_updateWebAcl {name id : Str} {webAcl : WebAcl rt} {lockToken : Nat}
    (adds : lockToken = s.acl.lockToken → ∃ rule : Rule rt, rule.name = ruleName ∧
      webAcl = webaclUpdateKwargs s.acl.settings.document (s.acl.settings.rules ++ [rule])) :
    Grows ruleName reserved s (s.answer (.updateWebAcl name id webAcl lockToken)).2 := by
  simp only [WafState.answer]
  split_ifs with named current distinct
  · rcases adds current with ⟨rule, ruleNamed, rfl⟩
    refine ⟨fun ipSet found => ⟨ipSet, found, .refl ipSet⟩, rfl, ?_, ?_, ?_, ?_, ?_⟩
    · change s.acl.lockToken ≤ lockToken + 1
      omega
    · intro unchanged
      change s.acl.lockToken = lockToken + 1 at unchanged
      omega
    · intro _
      simp only [HasRule, AclSettings.ofDocument, webaclUpdateKwargs]
      simp [ruleNamed]
    · exact fun asDeclared =>
        (s.acl.settings.without_ofDocument ruleNamed distinct).trans asDeclared
    · intro free other otherMem taken
      rcases List.mem_append.mp otherMem with otherMem | otherMem
      · exact free other otherMem taken
      · rw [List.mem_singleton.mp otherMem, ruleNamed]
  · exact .refl s
  · exact .refl s
  · exact .refl s

end Growth

end WafAllowlist
