import Mathlib.Data.List.Nodup
import TelemetryPlatform.Library.Stateful
import TelemetryPlatform.WafAllowlist.Service

/-!
# WAFv2 with any number of objects

The WebACLs and IPSets of an account as one client sees them that has no other beside
it. A reply to a listing is one page with a marker for the next, which the script does
not ask for, so that what is beyond the first page is not shown. A new IPSet has its
place among the others, and is not deleted while a rule refers to it.

Objects are addressed by name and id, and no two of a kind have one name. Every update
of an object replaces its lock token; `contents` is the account apart from the tokens.
-/

namespace WafAllowlist

open Python Interaction

/-- An item of a list whose items have distinct names is found by its name. -/
theorem find?_named {α : Type} {name : α → Str} {items : List α} {item : α}
    (distinct : (items.map name).Nodup) (itemMem : item ∈ items) (also : α → Prop)
    [DecidablePred also] (holds : also item) :
    items.find? (fun other => decide (name other = name item ∧ also other)) = some item := by
  cases found : items.find? fun other => decide (name other = name item ∧ also other) with
  | none =>
      have missed := List.find?_eq_none.mp found item itemMem
      simp [holds] at missed
  | some other =>
      have same := List.find?_some found
      rw [decide_eq_true_eq] at same
      have otherMem := List.mem_of_find?_eq_some found
      rw [List.inj_on_of_nodup_map distinct otherMem itemMem same.1]

variable (rt : Runtime)

/-- How the service lists and stores objects. -/
structure Listing where
  /-- The most objects of a reply. -/
  aclPage : Nat
  ipSetPage : Nat
  /-- The place of a new IPSet among those there are, and its identifiers. -/
  place : List IpSet → Nat
  newId : List IpSet → Str
  newArn : List IpSet → Str
  /-- The body of a rule refers to an IPSet. -/
  refersTo : rt.Value → Str → Bool

@[ext]
structure Account where
  ipSets : List IpSet
  acls : List (Acl rt)
  ipSetNames : (ipSets.map IpSet.name).Nodup
  aclNames : (acls.map Acl.name).Nodup

variable {rt}

namespace Account

variable (s : Account rt)

theorem find_acl {acl : Acl rt} (aclMem : acl ∈ s.acls) :
    s.acls.find? (fun other => decide (other.name = acl.name ∧ other.id = acl.id)) = some acl :=
  find?_named s.aclNames aclMem (fun other => other.id = acl.id) rfl

theorem find_ipSet {ipSet : IpSet} (ipSetMem : ipSet ∈ s.ipSets) :
    s.ipSets.find? (fun other => decide (other.name = ipSet.name ∧ other.id = ipSet.id)) =
      some ipSet :=
  find?_named s.ipSetNames ipSetMem (fun other => other.id = ipSet.id) rfl

/-- The account with another version of an IPSet. -/
def setAddresses (ipsetName : Str) (addresses : List Str) : Account rt where
  ipSets := s.ipSets.map fun ipSet =>
    if ipSet.name = ipsetName then
      { ipSet with addresses := addresses, lockToken := ipSet.lockToken + 1 }
    else ipSet
  acls := s.acls
  ipSetNames := by
    have names : (s.ipSets.map fun ipSet => if ipSet.name = ipsetName then
        { ipSet with addresses := addresses, lockToken := ipSet.lockToken + 1 } else ipSet).map
          IpSet.name = s.ipSets.map IpSet.name := by
      rw [List.map_map]
      apply List.map_congr_left
      intro ipSet _
      rw [Function.comp_apply]
      split <;> rfl
    rw [names]
    exact s.ipSetNames
  aclNames := s.aclNames

/-- The account with a new IPSet. -/
def insertIpSet (place : Nat) (ipSet : IpSet) (fresh : ipSet.name ∉ s.ipSets.map IpSet.name) :
    Account rt where
  ipSets := s.ipSets.take place ++ ipSet :: s.ipSets.drop place
  acls := s.acls
  ipSetNames := by
    have moved : (s.ipSets.take place ++ ipSet :: s.ipSets.drop place).Perm
        (ipSet :: (s.ipSets.take place ++ s.ipSets.drop place)) := List.perm_middle
    rw [List.take_append_drop] at moved
    rw [(moved.map IpSet.name).nodup_iff, List.map_cons]
    exact List.nodup_cons.mpr ⟨fresh, s.ipSetNames⟩
  aclNames := s.aclNames

/-- The account without an IPSet. -/
def eraseIpSet (ipsetName : Str) : Account rt where
  ipSets := s.ipSets.filter fun ipSet => ipSet.name ≠ ipsetName
  acls := s.acls
  ipSetNames := s.ipSetNames.sublist (List.filter_sublist.map _)
  aclNames := s.aclNames

/-- A WebACL with other settings. -/
def changeAcl (aclName : Str) (change : AclSettings rt → AclSettings rt) (acl : Acl rt) : Acl rt :=
  if acl.name = aclName then
    { acl with settings := change acl.settings, lockToken := acl.lockToken + 1 }
  else acl

@[simp]
theorem changeAcl_summary (aclName : Str) (change : AclSettings rt → AclSettings rt)
    (acl : Acl rt) : (changeAcl aclName change acl).summary = acl.summary := by
  unfold changeAcl
  split <;> rfl

@[simp]
theorem changeAcl_name (aclName : Str) (change : AclSettings rt → AclSettings rt)
    (acl : Acl rt) : (changeAcl aclName change acl).name = acl.name := by
  unfold changeAcl
  split <;> rfl

/-- The account with other settings of a WebACL. -/
def changeSettings (aclName : Str) (change : AclSettings rt → AclSettings rt) : Account rt where
  ipSets := s.ipSets
  acls := s.acls.map (changeAcl aclName change)
  ipSetNames := s.ipSetNames
  aclNames := by
    have names : (s.acls.map (changeAcl aclName change)).map Acl.name = s.acls.map Acl.name := by
      simp [Function.comp_def]
    rw [names]
    exact s.aclNames

/-- A rule of some WebACL refers to an IPSet. -/
def RefersTo (listing : Listing rt) (arn : Str) : Prop :=
  ∃ acl ∈ s.acls, ∃ rule ∈ acl.settings.rules, listing.refersTo rule.body arn = true

instance (listing : Listing rt) (arn : Str) : Decidable (s.RefersTo listing arn) := by
  unfold RefersTo
  infer_instance

/-- The account apart from the lock tokens. -/
def contents : List (Summary × List Str) × List (Summary × AclSettings rt) :=
  (s.ipSets.map fun ipSet => (ipSet.summary, ipSet.addresses),
    s.acls.map fun acl => (acl.summary, acl.settings))

end Account

def associatedItem : ApiError :=
  .clientError (str "WAFAssociatedItemException") (str "A rule refers to the item.")

/-- What the service does on a call. -/
def Account.answer (listing : Listing rt) (s : Account rt) :
    (call : WafCall rt) → call.Reply rt × Account rt
  | .listWebAcls => (.ok ((s.acls.take listing.aclPage).map Acl.summary), s)
  | .listIpSets => (.ok ((s.ipSets.take listing.ipSetPage).map IpSet.summary), s)
  | .createIpSet name addresses =>
      if fresh : name ∉ s.ipSets.map IpSet.name then
        let ipSet : IpSet := ⟨name, listing.newId s.ipSets, listing.newArn s.ipSets, addresses, 0⟩
        (.ok ipSet.summary, s.insertIpSet (listing.place s.ipSets) ipSet fresh)
      else (.error duplicateItem, s)
  | .getIpSet name id =>
      match s.ipSets.find? fun ipSet => ipSet.name = name ∧ ipSet.id = id with
      | some ipSet => (.ok (ipSet.addresses, ipSet.lockToken), s)
      | none => (.error nonexistent, s)
  | .updateIpSet name id addresses lockToken =>
      match s.ipSets.find? fun ipSet => ipSet.name = name ∧ ipSet.id = id with
      | some ipSet =>
          if lockToken = ipSet.lockToken then (.ok (), s.setAddresses name addresses)
          else (.error staleToken, s)
      | none => (.error nonexistent, s)
  | .deleteIpSet name id lockToken =>
      match s.ipSets.find? fun ipSet => ipSet.name = name ∧ ipSet.id = id with
      | some ipSet =>
          if lockToken = ipSet.lockToken then
            if s.RefersTo listing ipSet.arn then (.error associatedItem, s)
            else (.ok (), s.eraseIpSet name)
          else (.error staleToken, s)
      | none => (.error nonexistent, s)
  | .getWebAcl name id =>
      match s.acls.find? fun acl => acl.name = name ∧ acl.id = id with
      | some acl => (.ok (acl.settings.document, acl.lockToken), s)
      | none => (.error nonexistent, s)
  | .updateWebAcl name id webAcl lockToken =>
      match s.acls.find? fun acl => acl.name = name ∧ acl.id = id with
      | some acl =>
          if lockToken = acl.lockToken then
            if distinct : (webAcl.rules.map Rule.name).Nodup then
              (.ok (), s.changeSettings name fun _ => AclSettings.ofDocument webAcl distinct)
            else (.error invalidParameter, s)
          else (.error staleToken, s)
      | none => (.error nonexistent, s)

end WafAllowlist
