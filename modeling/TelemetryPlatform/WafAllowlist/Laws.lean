import TelemetryPlatform.Library.WholeRuntime
import TelemetryPlatform.WafAllowlist.Effects

/-!
# Applying and removing the allowlist

The laws of the two actions of `scripts/perf_waf_allowlist.py` when nobody else uses
the account: a removal removes, and does so once; an allowlist that was applied to an
account without one is removed without a trace; applying it again changes nothing.

The script looks an IPSet up in the first page of a listing only. `laws_iff` says that
this is what the laws depend on, wherever the perf rule stands among the rules: one
that is not shown is not removed, and is created a second time.
-/

namespace WafAllowlist

open Python Interaction

variable {rt : Runtime} {listing : Listing rt} {s after : Account rt}

/-- The outcome of `apply_allowlist`, and the account it leaves. -/
def applied (listing : Listing rt) (settings : ApplySettings) (s : Account rt) :
    Except WafExc ApplyEvidence × Account rt :=
  (applyAllowlist settings).serve (Account.answer listing) s

/-- The outcome of `remove_allowlist`, and the account it leaves. -/
def removed (listing : Listing rt) (settings : ApplySettings) (s : Account rt) :
    Except WafExc RemoveEvidence × Account rt :=
  (removeAllowlist settings.webAclName settings.ipsetName settings.ruleName
    settings.retries).serve (Account.answer listing) s

/-- Neither the perf rule nor the IPSet is there. -/
structure Account.Without (listing : Listing rt) (settings : ApplySettings) (s : Account rt) :
    Prop where
  rule : ∀ acl, s.target listing settings.webAclName = some acl →
    settings.ruleName ∉ acl.settings.rules.map Rule.name
  ipSet : settings.ipsetName ∉ s.ipSets.map IpSet.name

/-- What the two actions promise. -/
structure Laws (listing : Listing rt) (settings : ApplySettings) (s : Account rt) : Prop where
  removes : ∀ evidence after, removed listing settings s = (.ok evidence, after) →
    (∃ acl changed, s.target listing settings.webAclName = some acl ∧ changed ∈ after.acls ∧
      changed.summary = acl.summary ∧ changed.settings = acl.settings.without settings.ruleName) ∧
      settings.ipsetName ∉ after.ipSets.map IpSet.name
  removesOnce : ∀ evidence after, removed listing settings s = (.ok evidence, after) →
    ∃ evidence', removed listing settings after = (.ok evidence', after)
  restores : s.Without listing settings → ∀ evidence after,
    applied listing settings s = (.ok evidence, after) → ∃ evidence' final,
      removed listing settings after = (.ok evidence', final) ∧ final.contents = s.contents
  appliesOnce : ∀ outcome after, applied listing settings s = (outcome, after) →
    (applied listing settings after).2 = after ∧
      ∀ evidence, outcome = .ok evidence → ∃ evidence',
        applied listing settings after = (.ok evidence', after)

/-- The IPSet is on the first page of the listing, also when it is created. -/
structure Account.Shows (listing : Listing rt) (settings : ApplySettings) (s : Account rt) :
    Prop where
  shown : ∀ acl, s.target listing settings.webAclName = some acl → 0 ≤ settings.retries →
    settings.ipsetName ∈ s.ipSets.map IpSet.name →
      settings.ipsetName ∈ (s.ipSets.take listing.ipSetPage).map IpSet.name
  placed : ∀ acl, s.target listing settings.webAclName = some acl → 0 ≤ settings.retries →
    acl.Rulable settings.ruleName settings.priority →
      settings.ipsetName ∉ s.ipSets.map IpSet.name →
        min (listing.place s.ipSets) s.ipSets.length < listing.ipSetPage

section Targets

variable {webAclName : Option Str} {acl : Acl rt}

/-- The target is looked up among the WebACLs only. -/
theorem target_congr {s' : Account rt} (same : s'.acls = s.acls) :
    s'.target listing webAclName = s.target listing webAclName := by
  rw [Account.target, Account.target, same]

/-- The target after a change of settings is the target with the change. -/
theorem target_changeSettings (aclName : Str) (change : AclSettings rt → AclSettings rt) :
    (s.changeSettings aclName change).target listing webAclName =
      (s.target listing webAclName).map (Account.changeAcl aclName change) := by
  have page : (s.changeSettings aclName change).acls.take listing.aclPage =
      (s.acls.take listing.aclPage).map (Account.changeAcl aclName change) := List.map_take.symm
  have summaries : ((s.acls.take listing.aclPage).map (Account.changeAcl aclName change)).map
      Acl.summary = (s.acls.take listing.aclPage).map Acl.summary := by
    simp [Function.comp_def]
  rw [Account.target, Account.target, page, summaries, Option.map_bind]
  congr 1
  funext name
  have names : (fun acl : Acl rt => decide (acl.name = name)) ∘ Account.changeAcl aclName change =
      fun acl => decide (acl.name = name) := by
    funext acl
    simp
  rw [List.find?_map, Function.comp_apply, names]

theorem hidden_iff {ipsetName : Str} : s.shownIpSet listing ipsetName = none ↔
    ipsetName ∉ (s.ipSets.take listing.ipSetPage).map IpSet.name := by
  rw [Account.shownIpSet, List.find?_eq_none, List.mem_map, not_exists]
  simp only [decide_eq_true_eq, not_and]

end Targets

section Dedupe

/-- Items that are known are not added. -/
theorem foldl_dedupe_known {items out : List Str} (known : ∀ item ∈ items, item ∈ out) :
    items.foldl (fun out item => if item ∈ out then out else out ++ [item]) out = out := by
  induction items with
  | nil => rfl
  | cons item rest ih =>
      rw [List.foldl_cons, if_pos (known item List.mem_cons_self)]
      exact ih fun later laterMem => known later (List.mem_cons_of_mem item laterMem)

theorem nodup_foldl_dedupe {items out : List Str} (distinct : out.Nodup) :
    (items.foldl (fun out item => if item ∈ out then out else out ++ [item]) out).Nodup := by
  induction items generalizing out with
  | nil => exact distinct
  | cons item rest ih =>
      rw [List.foldl_cons]
      apply ih
      split_ifs with old
      · exact distinct
      · apply distinct.append (List.nodup_singleton item)
        simpa using old

theorem foldl_dedupe_distinct {items out : List Str} (distinct : (out ++ items).Nodup) :
    items.foldl (fun out item => if item ∈ out then out else out ++ [item]) out =
      out ++ items := by
  induction items generalizing out with
  | nil => simp
  | cons item rest ih =>
      have fresh : item ∉ out := by
        intro old
        exact (List.nodup_append.mp distinct).2.2 item old item List.mem_cons_self rfl
      have moved : out ++ item :: rest = out ++ [item] ++ rest := by simp
      rw [List.foldl_cons, if_neg fresh, moved]
      apply ih
      rw [← moved]
      exact distinct

/-- Merging addresses that are there changes nothing. -/
theorem dedupe_dedupe_append {items more : List Str} (known : ∀ item ∈ more, item ∈ items) :
    dedupe (dedupe items ++ more) = dedupe items := by
  have distinct : (dedupe items).Nodup := nodup_foldl_dedupe List.nodup_nil
  have again : dedupe (dedupe items) = dedupe items := foldl_dedupe_distinct distinct
  rw [dedupe, List.foldl_append]
  change more.foldl _ (dedupe (dedupe items)) = dedupe items
  rw [again]
  apply foldl_dedupe_known
  intro item itemMem
  exact mem_dedupe.mpr (known item itemMem)

end Dedupe

section Ensured

variable {ipsetName : Str} {addCidrs : List Str} {retries : Int} {ipSet : IpSet}

/-- The IPSets are looked up among the IPSets only. -/
theorem shownIpSet_congr {s' : Account rt} (same : s'.ipSets = s.ipSets) :
    s'.shownIpSet listing ipsetName = s.shownIpSet listing ipsetName := by
  rw [Account.shownIpSet, Account.shownIpSet, same]

/-- A listed IPSet that has the addresses is left alone. -/
structure Account.Covers (listing : Listing rt) (s : Account rt) (ipsetName : Str)
    (addCidrs : List Str) (ipSet : IpSet) : Prop where
  shown : s.shownIpSet listing ipsetName = some ipSet
  covered : addCidrs ≠ [] → dedupe (ipSet.addresses ++ addCidrs) = ipSet.addresses

theorem Account.Covers.congr {s' : Account rt} (same : s'.ipSets = s.ipSets)
    (covers : s.Covers listing ipsetName addCidrs ipSet) :
    s'.Covers listing ipsetName addCidrs ipSet where
  shown := (shownIpSet_congr same).trans covers.shown
  covered := covers.covered

theorem Account.Covers.serve (covers : s.Covers listing ipsetName addCidrs ipSet)
    (some : addCidrs ≠ [] → 0 ≤ retries) :
    (ensureIpSet ipsetName addCidrs retries).serve (Account.answer listing) s =
      (.ok ipSet.summary, s) := by
  have merged : (if addCidrs = [] then s else s.merge ipSet addCidrs) = s := by
    split_ifs with asked
    · rfl
    · rw [Account.merge, if_pos (covers.covered asked)]
  have served := serve_ensureIpSet_shown covers.shown some
  rwa [merged] at served

/-- It is left alone also when `ensure_ip_set` has no budget and raises. -/
theorem Account.Covers.serve_same (covers : s.Covers listing ipsetName addCidrs ipSet)
    (retries : Int) : ∃ outcome,
    (ensureIpSet ipsetName addCidrs retries).serve (Account.answer listing) s = (outcome, s) := by
  by_cases budget : addCidrs ≠ [] → 0 ≤ retries
  · exact ⟨_, covers.serve budget⟩
  · rw [Classical.not_imp] at budget
    rcases serve_ensureIpSet_none covers.shown budget.1 (not_le.mp budget.2) with ⟨error, raised⟩
    exact ⟨_, raised⟩

/-- Whether a created IPSet is on the first page. -/
theorem shownIpSet_create (fresh : ipsetName ∉ s.ipSets.map IpSet.name) :
    (s.create listing ipsetName addCidrs fresh).shownIpSet listing ipsetName =
      if min (listing.place s.ipSets) s.ipSets.length < listing.ipSetPage then
        some (s.newIpSet listing ipsetName addCidrs) else none := by
  have before : ((s.ipSets.take (listing.place s.ipSets)).take listing.ipSetPage).find?
      (fun ipSet => decide (ipSet.name = ipsetName)) = none := by
    rw [List.find?_eq_none]
    intro ipSet ipSetMem
    rw [decide_eq_true_eq]
    rintro rfl
    exact fresh (List.mem_map_of_mem (List.mem_of_mem_take (List.mem_of_mem_take ipSetMem)))
  change ((s.ipSets.take (listing.place s.ipSets) ++ s.newIpSet listing ipsetName addCidrs ::
    s.ipSets.drop (listing.place s.ipSets)).take listing.ipSetPage).find? _ = _
  rw [List.take_append, List.find?_append, before, Option.none_or, List.length_take]
  split_ifs with placed
  · obtain ⟨more, left⟩ : ∃ more, listing.ipSetPage -
        min (listing.place s.ipSets) s.ipSets.length = more + 1 :=
      ⟨listing.ipSetPage - min (listing.place s.ipSets) s.ipSets.length - 1, by omega⟩
    rw [left, List.take_succ_cons]
    apply List.find?_cons_of_pos
    exact decide_eq_true rfl
  · have left : listing.ipSetPage - min (listing.place s.ipSets) s.ipSets.length = 0 := by omega
    rw [left]
    rfl

theorem mem_create (fresh : ipsetName ∉ s.ipSets.map IpSet.name) :
    ipsetName ∈ (s.create listing ipsetName addCidrs fresh).ipSets.map IpSet.name := by
  apply List.mem_map.mpr
  exact ⟨s.newIpSet listing ipsetName addCidrs,
    List.mem_append_right _ List.mem_cons_self, rfl⟩

/-- A created IPSet is found again when it is on the first page. -/
theorem covers_create (fresh : ipsetName ∉ s.ipSets.map IpSet.name)
    (placed : min (listing.place s.ipSets) s.ipSets.length < listing.ipSetPage) :
    (s.create listing ipsetName addCidrs fresh).Covers listing ipsetName addCidrs
      (s.newIpSet listing ipsetName addCidrs) where
  shown := by rw [shownIpSet_create, if_pos placed]
  covered := fun _ => dedupe_dedupe_append fun _ itemMem => itemMem

variable (addCidrs) in
/-- Addresses that were merged into a listed IPSet are there. -/
theorem covers_merge (shown : s.shownIpSet listing ipsetName = some ipSet) :
    ∃ merged, (if addCidrs = [] then s else s.merge ipSet addCidrs).Covers listing ipsetName
      addCidrs merged ∧ merged.summary = ipSet.summary := by
  by_cases asked : addCidrs = []
  · refine ⟨ipSet, ?_, rfl⟩
    rw [if_pos asked]
    exact ⟨shown, fun some => absurd asked some⟩
  · rw [if_neg asked, Account.merge]
    split_ifs with same
    · exact ⟨ipSet, ⟨shown, fun _ => same⟩, rfl⟩
    · rcases Account.mem_of_shownIpSet shown with ⟨ipSetMem, rfl⟩
      refine ⟨{ ipSet with
        addresses := dedupe (ipSet.addresses ++ addCidrs)
        lockToken := ipSet.lockToken + 1 }, ⟨?_, ?_⟩, rfl⟩
      · unfold Account.shownIpSet Account.setAddresses
        dsimp only
        rw [← List.map_take, List.find?_map]
        have sameName : ((fun other : IpSet => decide (other.name = ipSet.name)) ∘
            fun other : IpSet => if other.name = ipSet.name then
              { other with
                addresses := dedupe (ipSet.addresses ++ addCidrs)
                lockToken := other.lockToken + 1 }
            else other) = fun other => decide (other.name = ipSet.name) := by
          funext other
          rw [Function.comp_apply]
          split_ifs <;> rfl
        rw [sameName]
        have found : (s.ipSets.take listing.ipSetPage).find?
            (fun other => decide (other.name = ipSet.name)) = some ipSet := shown
        rw [found, Option.map_some, if_pos rfl]
      · intro _
        apply dedupe_dedupe_append
        intro item itemMem
        exact List.mem_append_right ipSet.addresses itemMem

variable (listing s) in
/-- What `ensure_ip_set` does, and what it does when it is called again. -/
theorem serve_ensureIpSet (ipsetName : Str) (addCidrs : List Str) (retries : Int) :
    (∃ error, (ensureIpSet ipsetName addCidrs retries).serve (Account.answer listing) s =
      (.error error, s)) ∨
    (∃ ensured ipSet, (ensureIpSet ipsetName addCidrs retries).serve (Account.answer listing) s =
        (.ok ipSet.summary, ensured) ∧ ensured.acls = s.acls ∧
      ensured.Covers listing ipsetName addCidrs ipSet) ∨
    (∃ fresh : ipsetName ∉ s.ipSets.map IpSet.name,
      ¬min (listing.place s.ipSets) s.ipSets.length < listing.ipSetPage ∧
      (ensureIpSet ipsetName addCidrs retries).serve (Account.answer listing) s =
        (.ok (s.newIpSet listing ipsetName addCidrs).summary,
          s.create listing ipsetName addCidrs fresh)) := by
  by_cases fresh : ipsetName ∉ s.ipSets.map IpSet.name
  · right
    by_cases placed : min (listing.place s.ipSets) s.ipSets.length < listing.ipSetPage
    · left
      exact ⟨_, _, serve_ensureIpSet_new fresh, rfl, covers_create fresh placed⟩
    · right
      exact ⟨fresh, placed, serve_ensureIpSet_new fresh⟩
  · cases shown : s.shownIpSet listing ipsetName with
    | none => exact Or.inl ⟨_, serve_ensureIpSet_hidden shown (not_not.mp fresh)⟩
    | some ipSet =>
        by_cases budget : addCidrs ≠ [] → 0 ≤ retries
        · right
          left
          rcases covers_merge addCidrs shown with ⟨merged, covers, sameSummary⟩
          refine ⟨_, merged, ?_, ?_, covers⟩
          · rw [sameSummary]
            exact serve_ensureIpSet_shown shown budget
          · unfold Account.merge
            split_ifs <;> rfl
        · rw [Classical.not_imp] at budget
          exact Or.inl (serve_ensureIpSet_none shown budget.1 (not_le.mp budget.2))

end Ensured

section Actions

variable {settings : ApplySettings} {acl : Acl rt} {summary : Summary}

@[simp]
theorem ipSets_dropRule (acl : Acl rt) (ruleName : Str) :
    (s.dropRule acl ruleName).ipSets = s.ipSets := by
  unfold Account.dropRule
  split_ifs <;> rfl

@[simp]
theorem ipSets_ensureRule (acl : Acl rt) (ruleName : Str) (priority : Int) (ipsetArn : Str) :
    (s.ensureRule acl ruleName priority ipsetArn).ipSets = s.ipSets := by
  unfold Account.ensureRule
  split <;> rfl

/-- Without a target nothing is applied. -/
theorem applied_unresolved (unresolved : s.target listing settings.webAclName = none) :
    ∃ error, applied listing settings s = (.error error, s) := by
  rcases serve_resolveWebAcl listing s settings.webAclName with
    ⟨acl, target, _⟩ | ⟨text, _, resolved⟩
  · rw [unresolved] at target
    cases target
  · exact ⟨_, Program.serve_bind_error resolved⟩

theorem serve_resolved (target : s.target listing settings.webAclName = some acl) :
    (resolveWebAcl settings.webAclName).serve (Account.answer listing) s =
      (.ok (acl.name, acl.id), s) := by
  rcases serve_resolveWebAcl listing s settings.webAclName with
    ⟨other, otherTarget, resolved⟩ | ⟨text, unresolved, _⟩
  · rw [target, Option.some.injEq] at otherTarget
    rw [otherTarget]
    exact resolved
  · rw [unresolved] at target
    cases target

theorem applied_ipSet_error (target : s.target listing settings.webAclName = some acl)
    {error : WafExc} {s' : Account rt}
    (raised : (ensureIpSet settings.ipsetName settings.addCidrs settings.retries).serve
      (Account.answer listing) s = (.error error, s')) :
    applied listing settings s = (.error error, s') := by
  rw [applied, applyAllowlist, Program.serve_bind_ok (serve_resolved target)]
  exact Program.serve_bind_error raised

theorem applied_ok (target : s.target listing settings.webAclName = some acl)
    (ensured : (ensureIpSet settings.ipsetName settings.addCidrs settings.retries).serve
      (Account.answer listing) s = (.ok summary, after)) (sameAcls : after.acls = s.acls)
    (budget : 0 ≤ settings.retries) (rulable : acl.Rulable settings.ruleName settings.priority) :
    ∃ evidence, applied listing settings s =
      (.ok evidence, after.ensureRule acl settings.ruleName settings.priority summary.arn) := by
  have aclMem : acl ∈ after.acls := sameAcls ▸ Account.mem_of_target target
  rcases serve_ensureAllowRule_ok listing aclMem summary.arn budget rulable with
    ⟨added, ruled⟩
  rw [applied, applyAllowlist, Program.serve_bind_ok (serve_resolved target),
    Program.serve_bind_ok ensured, Program.serve_bind_ok ruled]
  exact ⟨_, rfl⟩

theorem applied_hindered (target : s.target listing settings.webAclName = some acl)
    (ensured : (ensureIpSet settings.ipsetName settings.addCidrs settings.retries).serve
      (Account.answer listing) s = (.ok summary, after)) (sameAcls : after.acls = s.acls)
    (hindered : ¬(0 ≤ settings.retries ∧
      acl.Rulable settings.ruleName settings.priority)) :
    ∃ error, applied listing settings s = (.error error, after) := by
  have aclMem : acl ∈ after.acls := sameAcls ▸ Account.mem_of_target target
  rcases serve_ensureAllowRule_error listing aclMem summary.arn hindered with
    ⟨error, raised⟩
  rw [applied, applyAllowlist, Program.serve_bind_ok (serve_resolved target),
    Program.serve_bind_ok ensured]
  exact ⟨error, Program.serve_bind_error raised⟩

/-- A removal that returns, and what it leaves. -/
inductive Removal (listing : Listing rt) (settings : ApplySettings) (s : Account rt)
    (acl : Acl rt) : Account rt → Prop where
  | kept (hidden : s.shownIpSet listing settings.ipsetName = none) :
      Removal listing settings s acl (s.dropRule acl settings.ruleName)
  | deleted (ipSet : IpSet) (shown : s.shownIpSet listing settings.ipsetName = some ipSet)
      (free : ¬(s.dropRule acl settings.ruleName).RefersTo listing ipSet.arn) :
      Removal listing settings s acl
        ((s.dropRule acl settings.ruleName).eraseIpSet settings.ipsetName)

theorem removed_of_removal (target : s.target listing settings.webAclName = some acl)
    (budget : 0 ≤ settings.retries) (removal : Removal listing settings s acl after) :
    ∃ evidence, removed listing settings s = (.ok evidence, after) := by
  rcases serve_removeAllowRule listing settings.ruleName (Account.mem_of_target target) budget with
    ⟨dropped, droppedEq⟩
  have sameIpSets : (s.dropRule acl settings.ruleName).ipSets = s.ipSets := ipSets_dropRule acl _
  rw [removed, removeAllowlist, Program.serve_bind_ok (serve_resolved target),
    Program.serve_bind_ok droppedEq]
  cases removal with
  | kept hidden =>
      rw [← shownIpSet_congr sameIpSets] at hidden
      rw [Program.serve_bind_ok (serve_deleteIpSet_hidden hidden)]
      exact ⟨_, rfl⟩
  | deleted ipSet shown free =>
      rw [← shownIpSet_congr sameIpSets] at shown
      rw [Program.serve_bind_ok (serve_deleteIpSet_shown shown budget free)]
      exact ⟨_, rfl⟩

theorem removal_of_removed {evidence : RemoveEvidence}
    (returned : removed listing settings s = (.ok evidence, after)) :
    ∃ acl, s.target listing settings.webAclName = some acl ∧ 0 ≤ settings.retries ∧
      Removal listing settings s acl after := by
  rcases serve_resolveWebAcl listing s settings.webAclName with
    ⟨acl, target, resolved⟩ | ⟨text, _, resolved⟩
  · have aclMem := Account.mem_of_target target
    rw [removed, removeAllowlist, Program.serve_bind_ok resolved] at returned
    by_cases budget : 0 ≤ settings.retries
    · refine ⟨acl, target, budget, ?_⟩
      rcases serve_removeAllowRule listing settings.ruleName aclMem budget with
        ⟨dropped, droppedEq⟩
      have sameIpSets : (s.dropRule acl settings.ruleName).ipSets = s.ipSets :=
        ipSets_dropRule acl _
      rw [Program.serve_bind_ok droppedEq] at returned
      cases shown : s.shownIpSet listing settings.ipsetName with
      | none =>
          rw [← shownIpSet_congr sameIpSets] at shown
          rw [Program.serve_bind_ok (serve_deleteIpSet_hidden shown)] at returned
          cases returned
          rw [shownIpSet_congr sameIpSets] at shown
          exact .kept shown
      | some ipSet =>
          have shownThen := (shownIpSet_congr sameIpSets).trans shown
          by_cases free : ¬(s.dropRule acl settings.ruleName).RefersTo listing ipSet.arn
          · rw [Program.serve_bind_ok (serve_deleteIpSet_shown shownThen budget free)] at returned
            cases returned
            exact .deleted ipSet shown free
          · rcases serve_deleteIpSet_error settings.retries shownThen
              (fun kept => free kept.2) with ⟨error, raised⟩
            rw [Program.serve_bind_error raised] at returned
            cases returned
    · rcases serve_withLockRetry_none (not_le.mp budget) with ⟨text, raised⟩
      rw [removeAllowRule, Program.serve_bind_error raised] at returned
      cases returned
  · rw [removed, removeAllowlist, Program.serve_bind_error resolved] at returned
    cases returned

end Actions

section Rules

variable {settings : ApplySettings} {acl : Acl rt} {ruleName : Str} {priority : Int}

/-- The WebACL a run is about, after a change of its settings. -/
theorem target_changed {webAclName : Option Str} (change : AclSettings rt → AclSettings rt)
    (target : s.target listing webAclName = some acl) :
    (s.changeSettings acl.name change).target listing webAclName =
      some { acl with settings := change acl.settings, lockToken := acl.lockToken + 1 } := by
  rw [target_changeSettings, target, Option.map_some, Account.changeAcl, if_pos rfl]

theorem findAllowRule_append {rules : List (Rule rt)} {rule : Rule rt}
    (named : rule.name = ruleName) (absent : findAllowRule ruleName priority rules = .ok false) :
    findAllowRule ruleName priority (rules ++ [rule]) = .ok true := by
  induction rules with
  | nil => simp [findAllowRule, named]
  | cons other rest ih =>
      rw [findAllowRule] at absent
      split_ifs at absent with found taken
      · cases absent
      · rw [List.cons_append, findAllowRule, if_neg found, if_neg taken]
        exact ih absent

/-- Once the rule was ensured the scan finds it. -/
theorem target_ensureRule {webAclName : Option Str}
    (target : s.target listing webAclName = some acl) (ipsetArn : Str)
    (rulable : acl.Rulable ruleName priority) :
    ∃ ruled, (s.ensureRule acl ruleName priority ipsetArn).target listing webAclName =
        some ruled ∧ findAllowRule ruleName priority ruled.settings.rules = .ok true := by
  rcases rulable with ⟨_, present, scanned⟩
  unfold Account.ensureRule
  rw [scanned]
  cases present with
  | true => exact ⟨acl, target, scanned⟩
  | false =>
      refine ⟨_, target_changed _ target, ?_⟩
      dsimp only
      rw [AclSettings.rules_withRule _ _ (findAllowRule_eq_false scanned)]
      exact findAllowRule_append rfl scanned

/-- A rule that is found is not added. -/
theorem ensureRule_present (ipsetArn : Str)
    (present : findAllowRule ruleName priority acl.settings.rules = .ok true) :
    s.ensureRule acl ruleName priority ipsetArn = s := by
  unfold Account.ensureRule
  rw [present]

theorem AclSettings.without_absent {settings : AclSettings rt}
    (absent : ruleName ∉ settings.rules.map Rule.name) :
    settings.without ruleName = settings := by
  have kept : settings.rules.filter (fun rule => decide (rule.name ≠ ruleName)) =
      settings.rules := by
    rw [List.filter_eq_self]
    intro rule ruleMem
    rw [decide_eq_true_eq]
    rintro rfl
    exact absent (List.mem_map_of_mem ruleMem)
  cases settings
  simp only [without, mk.injEq, true_and, and_true]
  exact kept

/-- A rule that was added is taken out again. -/
theorem AclSettings.without_withRule {settings : AclSettings rt} {rule : Rule rt}
    (absent : rule.name ∉ settings.rules.map Rule.name) :
    (settings.withRule rule).without rule.name = settings := by
  have others : (settings.withRule rule).without rule.name = settings.without rule.name := by
    rw [withRule, dif_pos absent]
    simp [without]
  rw [others, without_absent absent]

end Rules

section Again

variable {settings : ApplySettings} {acl : Acl rt}

/-- The target after a removal is the target without the rule. -/
theorem target_dropRule {webAclName : Option Str} (ruleName : Str)
    (target : s.target listing webAclName = some acl) :
    ∃ dropped, (s.dropRule acl ruleName).target listing webAclName = some dropped ∧
      dropped.summary = acl.summary ∧ dropped.settings = acl.settings.without ruleName := by
  unfold Account.dropRule
  split_ifs with present
  · exact ⟨_, target_changed _ target, rfl, rfl⟩
  · exact ⟨acl, target, rfl, (AclSettings.without_absent present).symm⟩

/-- The removal of a rule that is not there changes nothing. -/
theorem dropRule_absent {ruleName : Str} (absent : ruleName ∉ acl.settings.rules.map Rule.name) :
    s.dropRule acl ruleName = s := if_neg absent

theorem notMem_without (settings : AclSettings rt) (ruleName : Str) :
    ruleName ∉ (settings.without ruleName).rules.map Rule.name := by
  intro ruleMem
  rcases List.mem_map.mp ruleMem with ⟨rule, kept, named⟩
  have other := (List.mem_filter.mp kept).2
  rw [decide_eq_true_eq] at other
  exact other named

theorem hidden_eraseIpSet (ipsetName : Str) :
    (s.eraseIpSet ipsetName).shownIpSet listing ipsetName = none := by
  rw [hidden_iff]
  intro shown
  rcases List.mem_map.mp shown with ⟨ipSet, ipSetMem, named⟩
  have kept := (List.mem_filter.mp (List.mem_of_mem_take ipSetMem)).2
  rw [decide_eq_true_eq] at kept
  exact kept named

theorem Removal.acls (removal : Removal listing settings s acl after) :
    after.acls = (s.dropRule acl settings.ruleName).acls := by
  cases removal with
  | kept hidden => rfl
  | deleted ipSet shown free => rfl

theorem Removal.hidden (removal : Removal listing settings s acl after) :
    after.shownIpSet listing settings.ipsetName = none := by
  cases removal with
  | kept hidden => exact (shownIpSet_congr (ipSets_dropRule acl settings.ruleName)).trans hidden
  | deleted ipSet shown free => exact hidden_eraseIpSet settings.ipsetName

/-- A removal that returned leaves nothing for a second one. -/
theorem removesOnce {evidence : RemoveEvidence}
    (returned : removed listing settings s = (.ok evidence, after)) :
    ∃ evidence', removed listing settings after = (.ok evidence', after) := by
  rcases removal_of_removed returned with ⟨acl, target, budget, removal⟩
  rcases target_dropRule settings.ruleName target with ⟨dropped, targetThen, _, settingsEq⟩
  rw [← target_congr removal.acls] at targetThen
  have absent := notMem_without acl.settings settings.ruleName
  rw [← settingsEq] at absent
  have again : Removal listing settings after dropped
      (after.dropRule dropped settings.ruleName) := .kept removal.hidden
  rw [dropRule_absent absent] at again
  exact removed_of_removal targetThen budget again

/-- A removal that returned removed the IPSet when the listing shows it. -/
theorem removes {evidence : RemoveEvidence}
    (shows : s.Shows listing settings)
    (returned : removed listing settings s = (.ok evidence, after)) :
    (∃ acl changed, s.target listing settings.webAclName = some acl ∧ changed ∈ after.acls ∧
      changed.summary = acl.summary ∧ changed.settings = acl.settings.without settings.ruleName) ∧
      settings.ipsetName ∉ after.ipSets.map IpSet.name := by
  rcases removal_of_removed returned with ⟨acl, target, budget, removal⟩
  rcases target_dropRule settings.ruleName target with ⟨dropped, targetThen, summaryEq, settingsEq⟩
  constructor
  · refine ⟨acl, dropped, target, ?_, summaryEq, settingsEq⟩
    rw [removal.acls]
    exact Account.mem_of_target targetThen
  · cases removal with
    | kept hidden =>
        rw [ipSets_dropRule]
        intro ipSetMem
        exact hidden_iff.mp hidden (shows.shown acl target budget ipSetMem)
    | deleted ipSet shown free =>
        intro ipSetMem
        rcases List.mem_map.mp ipSetMem with ⟨other, kept, named⟩
        have different := (List.mem_filter.mp kept).2
        rw [decide_eq_true_eq] at different
        exact different named

/-- An application that is hindered before it reaches the rule ends as it did. -/
theorem applied_hindered_again (target : s.target listing settings.webAclName = some acl)
    (hindered : ¬(0 ≤ settings.retries ∧ acl.Rulable settings.ruleName settings.priority))
    {outcome : Except WafExc Summary}
    (ensured : (ensureIpSet settings.ipsetName settings.addCidrs settings.retries).serve
      (Account.answer listing) s = (outcome, s)) :
    ∃ error, applied listing settings s = (.error error, s) := by
  cases outcome with
  | ok summary => exact applied_hindered target ensured rfl hindered
  | error error => exact ⟨error, applied_ipSet_error target ensured⟩

/-- An application that returned finds everything there when it is made again. -/
theorem applied_again {ipSet : IpSet} (target : s.target listing settings.webAclName = some acl)
    {ensured : Account rt} (sameAcls : ensured.acls = s.acls)
    (covers : ensured.Covers listing settings.ipsetName settings.addCidrs ipSet)
    (budget : 0 ≤ settings.retries)
    (rulable : acl.Rulable settings.ruleName settings.priority) :
    ∃ evidence, applied listing settings
        (ensured.ensureRule acl settings.ruleName settings.priority ipSet.arn) =
      (.ok evidence, ensured.ensureRule acl settings.ruleName settings.priority ipSet.arn) := by
  have targetThen : ensured.target listing settings.webAclName = some acl :=
    (target_congr sameAcls).trans target
  rcases target_ensureRule targetThen ipSet.arn rulable with ⟨ruled, ruledTarget, present⟩
  have coversThen := covers.congr (ipSets_ensureRule acl settings.ruleName settings.priority
    ipSet.arn)
  have rulableThen : ruled.Rulable settings.ruleName settings.priority :=
    ⟨rulable.1, true, present⟩
  rcases applied_ok ruledTarget (coversThen.serve fun _ => budget) rfl budget rulableThen with
    ⟨evidence, again⟩
  rw [ensureRule_present _ present] at again
  exact ⟨evidence, again⟩

/-- A run that raised and, made again, raises and changes nothing. -/
theorem raised_again {error error' : WafExc} {between : Account rt}
    {outcome : Except WafExc ApplyEvidence}
    (raised : applied listing settings s = (.error error, between))
    (again : applied listing settings between = (.error error', between))
    (first : applied listing settings s = (outcome, after)) :
    (applied listing settings after).2 = after ∧
      ∀ evidence, outcome = .ok evidence → ∃ evidence',
        applied listing settings after = (.ok evidence', after) := by
  rw [raised] at first
  cases first
  refine ⟨congrArg Prod.snd again, ?_⟩
  intro evidence ok
  cases ok

/-- An application changes nothing when it is made again. -/
theorem appliesOnce (shows : s.Shows listing settings) {outcome : Except WafExc ApplyEvidence}
    (first : applied listing settings s = (outcome, after)) :
    (applied listing settings after).2 = after ∧
      ∀ evidence, outcome = .ok evidence → ∃ evidence',
        applied listing settings after = (.ok evidence', after) := by
  cases target : s.target listing settings.webAclName with
  | none =>
      rcases applied_unresolved target with ⟨error, raised⟩
      exact raised_again raised raised first
  | some acl =>
      rcases serve_ensureIpSet listing s settings.ipsetName settings.addCidrs settings.retries with
        ⟨error, raised⟩ | ⟨ensured, ipSet, served, sameAcls, covers⟩ | ⟨fresh, beyond, served⟩
      · have unchanged := applied_ipSet_error target raised
        exact raised_again unchanged unchanged first
      · by_cases ready : 0 ≤ settings.retries ∧
            acl.Rulable settings.ruleName settings.priority
        · rcases applied_ok target served sameAcls ready.1 ready.2 with ⟨evidence, ok⟩
          rcases applied_again target sameAcls covers ready.1 ready.2 with ⟨evidence', again⟩
          rw [ok] at first
          cases first
          exact ⟨congrArg Prod.snd again, fun _ _ => ⟨evidence', again⟩⟩
        · rcases applied_hindered target served sameAcls ready with ⟨error, raised⟩
          rcases covers.serve_same settings.retries with ⟨_, same⟩
          have targetThen : ensured.target listing settings.webAclName = some acl :=
            (target_congr sameAcls).trans target
          rcases applied_hindered_again targetThen ready same with ⟨error', again⟩
          exact raised_again raised again first
      · have hindered : ¬(0 ≤ settings.retries ∧
            acl.Rulable settings.ruleName settings.priority) := fun ready =>
          beyond (shows.placed acl target ready.1 ready.2 fresh)
        rcases applied_hindered target served rfl hindered with ⟨error, raised⟩
        have hidden : (s.create listing settings.ipsetName settings.addCidrs fresh).shownIpSet
            listing settings.ipsetName = none := by
          rw [shownIpSet_create, if_neg beyond]
        have targetThen : (s.create listing settings.ipsetName settings.addCidrs fresh).target
            listing settings.webAclName = some acl := (target_congr rfl).trans target
        have refused := applied_ipSet_error targetThen
          (serve_ensureIpSet_hidden hidden (mem_create fresh))
        exact raised_again raised refused first

end Again

section Restored

variable {settings : ApplySettings} {acl : Acl rt} {ipsetName : Str}

/-- The WebACLs apart from the lock tokens. -/
def Account.aclContents (s : Account rt) : List (Summary × AclSettings rt) :=
  s.acls.map fun acl => (acl.summary, acl.settings)

theorem refersTo_congr {s' : Account rt} (same : s'.aclContents = s.aclContents) (arn : Str) :
    s'.RefersTo listing arn ↔ s.RefersTo listing arn := by
  have bySettings (s : Account rt) : s.RefersTo listing arn ↔ ∃ entry ∈ s.aclContents,
      ∃ rule ∈ entry.2.rules, listing.refersTo rule.body arn = true := by
    simp [Account.RefersTo, Account.aclContents]
  rw [bySettings s', bySettings s, same]

/-- Two changes of a WebACL of which the second undoes the first. -/
theorem aclContents_restored (aclMem : acl ∈ s.acls) {f g : AclSettings rt → AclSettings rt}
    (undone : g (f acl.settings) = acl.settings) :
    ((s.changeSettings acl.name f).changeSettings acl.name g).aclContents = s.aclContents := by
  unfold Account.aclContents Account.changeSettings
  dsimp only
  rw [List.map_map, List.map_map]
  apply List.map_congr_left
  intro other otherMem
  simp only [Function.comp_apply, Account.changeAcl_summary, Prod.mk.injEq, true_and]
  by_cases named : other.name = acl.name
  · have same := List.inj_on_of_nodup_map s.aclNames otherMem aclMem named
    subst same
    simp only [Account.changeAcl, if_true]
    exact undone
  · simp only [Account.changeAcl, if_neg named]

/-- Deleting a created IPSet leaves the others. -/
theorem ipSets_erase_create (addCidrs : List Str)
    (fresh : ipsetName ∉ s.ipSets.map IpSet.name) :
    ((s.create listing ipsetName addCidrs fresh).eraseIpSet ipsetName).ipSets = s.ipSets := by
  have others {ipSets : List IpSet} (among : ∀ ipSet ∈ ipSets, ipSet ∈ s.ipSets) :
      ipSets.filter (fun ipSet => decide (ipSet.name ≠ ipsetName)) = ipSets := by
    rw [List.filter_eq_self]
    intro ipSet ipSetMem
    rw [decide_eq_true_eq]
    rintro rfl
    exact fresh (List.mem_map_of_mem (among ipSet ipSetMem))
  change (s.ipSets.take (listing.place s.ipSets) ++ s.newIpSet listing ipsetName addCidrs ::
    s.ipSets.drop (listing.place s.ipSets)).filter _ = _
  have own : ¬(fun ipSet : IpSet => decide (ipSet.name ≠ ipsetName))
      (s.newIpSet listing ipsetName addCidrs) = true := by
    rw [decide_eq_true_eq, not_not]
    rfl
  rw [List.filter_append, List.filter_cons, if_neg own, others fun _ => List.mem_of_mem_take,
    others fun _ => List.mem_of_mem_drop, List.take_append_drop]

theorem findAllowRule_eq_true {ruleName : Str} {priority : Int} {rules : List (Rule rt)}
    (present : findAllowRule ruleName priority rules = .ok true) :
    ruleName ∈ rules.map Rule.name := by
  induction rules with
  | nil => cases present
  | cons rule rest ih =>
      rw [findAllowRule] at present
      rw [List.map_cons, List.mem_cons]
      split_ifs at present with named taken
      · exact Or.inl named.symm
      · exact Or.inr (ih present)

/-- An IPSet and a rule that were added are removed without a trace. -/
theorem removed_added (fresh : ¬s.RefersTo listing (listing.newArn s.ipSets))
    (target : s.target listing settings.webAclName = some acl) (budget : 0 ≤ settings.retries)
    (absentRule : settings.ruleName ∉ acl.settings.rules.map Rule.name)
    (absent : settings.ipsetName ∉ s.ipSets.map IpSet.name)
    (placed : min (listing.place s.ipSets) s.ipSets.length < listing.ipSetPage) :
    ∃ evidence final, removed listing settings
        ((s.create listing settings.ipsetName settings.addCidrs absent).addRule acl
          settings.ruleName settings.priority (listing.newArn s.ipSets)) =
      (.ok evidence, final) ∧ final.contents = s.contents := by
  let rule : Rule rt := buildAllowRule settings.ruleName settings.priority
    (listing.newArn s.ipSets)
  let created := s.create listing settings.ipsetName settings.addCidrs absent
  let added := created.changeSettings acl.name fun settings => settings.withRule rule
  let ruled : Acl rt :=
    { acl with settings := acl.settings.withRule rule, lockToken := acl.lockToken + 1 }
  have targetThen : added.target listing settings.webAclName = some ruled :=
    target_changed _ ((target_congr rfl).trans target)
  have dropped : added.dropRule ruled settings.ruleName =
      added.changeSettings acl.name fun own => own.without settings.ruleName := by
    apply if_pos
    change settings.ruleName ∈ (acl.settings.withRule rule).rules.map Rule.name
    rw [AclSettings.rules_withRule _ _ absentRule, List.map_append]
    exact List.mem_append_right _ List.mem_cons_self
  have sameAcls : (added.dropRule ruled settings.ruleName).aclContents = s.aclContents := by
    rw [dropped]
    exact aclContents_restored (s := created) (Account.mem_of_target target)
      (AclSettings.without_withRule absentRule)
  have shown : added.shownIpSet listing settings.ipsetName =
      some (s.newIpSet listing settings.ipsetName settings.addCidrs) :=
    (shownIpSet_create absent).trans (if_pos placed)
  have free : ¬(added.dropRule ruled settings.ruleName).RefersTo listing
      (listing.newArn s.ipSets) := by
    rw [refersTo_congr sameAcls]
    exact fresh
  rcases removed_of_removal targetThen budget (.deleted _ shown free) with ⟨evidence, returned⟩
  refine ⟨evidence, _, returned, ?_⟩
  have sameIpSets : ((added.dropRule ruled settings.ruleName).eraseIpSet
      settings.ipsetName).ipSets = s.ipSets := by
    rw [dropped]
    exact ipSets_erase_create settings.addCidrs absent
  unfold Account.contents
  rw [sameIpSets]
  exact congrArg _ sameAcls

/-- What was applied to an account without it is removed without a trace. -/
theorem restores (fresh : ¬s.RefersTo listing (listing.newArn s.ipSets))
    (shows : s.Shows listing settings) (without : s.Without listing settings)
    {evidence : ApplyEvidence} (returned : applied listing settings s = (.ok evidence, after)) :
    ∃ evidence' final, removed listing settings after = (.ok evidence', final) ∧
      final.contents = s.contents := by
  cases target : s.target listing settings.webAclName with
  | none =>
      rcases applied_unresolved target with ⟨error, raised⟩
      rw [raised] at returned
      cases returned
  | some acl =>
      have aclMem := Account.mem_of_target target
      have ensured : (ensureIpSet settings.ipsetName settings.addCidrs settings.retries).serve
          (Account.answer listing) s = _ := serve_ensureIpSet_new without.ipSet
      by_cases ready : 0 ≤ settings.retries ∧ acl.Rulable settings.ruleName settings.priority
      · have placed := shows.placed acl target ready.1 ready.2 without.ipSet
        rcases applied_ok target ensured rfl ready.1 ready.2 with ⟨own, ok⟩
        have absentRule := without.rule acl target
        have scanned : findAllowRule settings.ruleName settings.priority acl.settings.rules =
            .ok false := by
          rcases ready.2 with ⟨_, present, scanned⟩
          cases present with
          | true => exact absurd (findAllowRule_eq_true scanned) absentRule
          | false => exact scanned
        unfold Account.ensureRule at ok
        rw [ok, scanned] at returned
        cases returned
        exact removed_added fresh target ready.1 absentRule without.ipSet placed
      · rcases applied_hindered target ensured rfl ready with ⟨error, raised⟩
        rw [raised] at returned
        cases returned

end Restored

/-- The laws hold where the IPSet is on the first page of the listing, and only there. -/
theorem laws_iff (settings : ApplySettings)
    (fresh : ¬s.RefersTo listing (listing.newArn s.ipSets)) :
    Laws listing settings s ↔ s.Shows listing settings := by
  constructor
  · intro laws
    constructor
    · intro acl target budget taken
      by_contra beyond
      rcases removed_of_removal target budget (.kept (hidden_iff.mpr beyond)) with
        ⟨evidence, returned⟩
      have gone := (laws.removes evidence _ returned).2
      rw [ipSets_dropRule] at gone
      exact gone taken
    · intro acl target budget rulable absent
      by_contra beyond
      rcases applied_ok target (serve_ensureIpSet_new absent) rfl budget rulable with
        ⟨evidence, returned⟩
      rcases (laws.appliesOnce _ _ returned).2 evidence rfl with ⟨evidence', again⟩
      have created : (s.create listing settings.ipsetName settings.addCidrs
          absent).target listing settings.webAclName = some acl := (target_congr rfl).trans target
      rcases target_ensureRule created (s.newIpSet listing settings.ipsetName
        settings.addCidrs).summary.arn rulable with ⟨ruled, targetThen, _⟩
      have sameIpSets := ipSets_ensureRule (s := s.create listing settings.ipsetName
        settings.addCidrs absent) acl settings.ruleName settings.priority
        (s.newIpSet listing settings.ipsetName settings.addCidrs).summary.arn
      have hidden : (s.create listing settings.ipsetName settings.addCidrs absent).shownIpSet
          listing settings.ipsetName = none := (shownIpSet_create absent).trans (if_neg beyond)
      rw [← shownIpSet_congr sameIpSets] at hidden
      have taken : settings.ipsetName ∈ (s.create listing settings.ipsetName settings.addCidrs
          absent).ipSets.map IpSet.name := mem_create absent
      rw [← sameIpSets] at taken
      rw [applied_ipSet_error targetThen (serve_ensureIpSet_hidden hidden taken)] at again
      cases again
  · intro shows
    exact ⟨fun _ _ => removes shows, fun _ _ => removesOnce,
      fun without _ _ => restores fresh shows without, fun _ _ => appliesOnce shows⟩

namespace Sample

def settings : ApplySettings where
  webAclName := none
  ipsetName := str "perf-ipset"
  ruleName := str "perf-test-allow"
  priority := 0
  addCidrs := [str "203.0.113.7/32"]
  retries := 6

/-- Pages of a hundred objects, with a new IPSet at the end. -/
def hundred : Listing Runtime.whole where
  aclPage := 100
  ipSetPage := 100
  place := List.length
  newId ipSets := str "id-" ++ intStr ipSets.length
  newArn ipSets := str "arn:ipset/" ++ intStr ipSets.length
  refersTo body arn :=
    match body with
    | .obj ((_, .obj [(_, .obj [(_, .str own)])]) :: _) => decide (own = arn)
    | _ => false

/-- The WebACL of the collector, with its rate rule. -/
def acl : Acl Runtime.whole where
  name := str "adot-collector-waf"
  id := str "acl-1"
  arn := str "arn:webacl/1"
  settings := {
    defaultAction := .obj [(str "Allow", .obj [])]
    visibilityConfig := .obj [(str "MetricName", .str (str "adot-collector-waf"))]
    rules := [⟨str "rate-limit", 100, .obj [(str "Action", .obj [(str "Block", .obj [])])]⟩]
    field := fun _ => none
    distinct := by simp }
  lockToken := 0

/-- The account with a number of IPSets of others. -/
def others (count : Nat) : List IpSet :=
  (List.range count).map fun i => ⟨str "team-" ++ intStr i, str "id", str "arn:team", [], 0⟩

def account (ipSets : List IpSet) (distinct : (ipSets.map IpSet.name).Nodup) :
    Account Runtime.whole where
  ipSets := ipSets
  acls := [acl]
  ipSetNames := distinct
  aclNames := List.nodup_singleton acl.name

def perfIpSet : IpSet := ⟨str "perf-ipset", str "perf", str "arn:perf", [], 0⟩

end Sample

/-- The laws hold in an account with two IPSets. -/
theorem laws_two :
    Laws Sample.hundred Sample.settings (Sample.account (Sample.others 2) (by decide)) := by
  apply (laws_iff Sample.settings (by decide +kernel)).mpr
  constructor
  · intro _ _ _ taken
    exact absurd taken (by decide)
  · intro _ _ _ _ _
    decide

/-- An IPSet behind a hundred others is not removed. -/
theorem not_laws_behind : ¬Laws Sample.hundred Sample.settings
    (Sample.account (Sample.others 100 ++ [Sample.perfIpSet]) (by decide +kernel)) := by
  intro laws
  have target : (Sample.account (Sample.others 100 ++ [Sample.perfIpSet])
      (by decide +kernel)).target Sample.hundred Sample.settings.webAclName =
        some Sample.acl := rfl
  rcases removed_of_removal target (by decide) (.kept (by decide +kernel)) with
    ⟨evidence, returned⟩
  have gone := (laws.removes evidence _ returned).2
  rw [ipSets_dropRule] at gone
  exact gone (by decide +kernel)

end WafAllowlist
