import TelemetryPlatform.BranchLock.Operations
import TelemetryPlatform.Library.Hereditary
import TelemetryPlatform.Library.WholeRuntime

/-!
# The settings a lock cycle keeps

GitHub shows a protection rule in one encoding and takes it in another: a flag is
shown as an object with a member `enabled` and sent as a boolean, an actor is shown
as an object and sent as a name. `Encoding` is the difference, and `settingsOf?`
reads the settings of a rule from a document in either of them. The request for a
rule replaces the whole of it: a setting that the document leaves out is reset.

The scripts send back what `afterPut` describes, and this is the rule that was
read exactly when it is `Carried`.
-/

namespace BranchLock

open Python Interaction

section Settings

/-- The users, teams and apps a rule names. -/
structure Actors where
  users : List Str
  teams : List Str
  apps : List Str

structure StatusChecks where
  strict : Bool
  contexts : List Str
  /-- The checks that only one app may report, with the id of the app. -/
  boundChecks : List (Str × Int)

structure ReviewRule where
  dismissStaleReviews : Bool
  requireCodeOwnerReviews : Bool
  requiredApprovingReviewCount : Int
  requireLastPushApproval : Bool
  dismissalRestrictions : Option Actors
  bypassPullRequestAllowances : Option Actors

/-- The settings of a branch protection rule. -/
structure Settings where
  requiredStatusChecks : Option StatusChecks
  enforceAdmins : Bool
  requiredPullRequestReviews : Option ReviewRule
  restrictions : Option Actors
  requiredLinearHistory : Bool
  allowForcePushes : Bool
  allowDeletions : Bool
  blockCreations : Bool
  requiredConversationResolution : Bool
  lockBranch : Bool
  allowForkSyncing : Bool

end Settings

section Encodings

variable (rt : Runtime)

/-- How a document writes flags and the names of actors. -/
structure Encoding where
  flag : rt.Value → Option Bool
  /-- The name of an actor that is known by this member. -/
  name : String → rt.Value → Option Str

/-- A member of an object, or what a missing one stands for. -/
def member? {α : Type} (entries : List (Str × rt.Value)) (key : String) (reset : α)
    (read : rt.Value → Option α) : Option α :=
  match dictGet? entries (str key) with
  | none => some reset
  | some value => read value

def bool? : rt.Value → Option Bool
  | .bool value => some value
  | _ => none

def int? : rt.Value → Option Int
  | .int value => some value
  | _ => none

def string? : rt.Value → Option Str
  | .str text => some text
  | _ => none

/-- A part of a rule that `null` switches off. -/
def unlessNull? {α : Type} (read : rt.Value → Option α) : rt.Value → Option (Option α)
  | .null => some none
  | value => (read value).map some

/-- The encoding of the response of `GET …/protection`. -/
def responseEncoding : Encoding rt where
  flag
    | .obj rule => member? rt rule "enabled" false (bool? rt)
    | _ => none
  name key
    | .obj actor =>
        match dictGet? actor (str key) with
        | some (.str name) => some name
        | _ => none
    | _ => none

/-- The encoding of the request `PUT …/protection`. -/
def requestEncoding : Encoding rt where
  flag := bool? rt
  name _ := string? rt

def names? (encoding : Encoding rt) (key : String) : rt.Value → Option (List Str)
  | .arr items => items.mapM (encoding.name key)
  | _ => none

def actors? (encoding : Encoding rt) : rt.Value → Option Actors
  | .obj entries => do
      let users ← member? rt entries "users" [] (names? rt encoding "login")
      let teams ← member? rt entries "teams" [] (names? rt encoding "slug")
      let apps ← member? rt entries "apps" [] (names? rt encoding "slug")
      return ⟨users, teams, apps⟩
  | _ => none

def strings? : rt.Value → Option (List Str)
  | .arr items => items.mapM (string? rt)
  | _ => none

/-- A status check, with the app it is bound to if it is bound to one. -/
def boundCheck? : rt.Value → Option (Option (Str × Int))
  | .obj check => do
      let context ← member? rt check "context" [] (string? rt)
      let appId ← member? rt check "app_id" none (unlessNull? rt (int? rt))
      return appId.map fun id => (context, id)
  | _ => none

def boundChecks? : rt.Value → Option (List (Str × Int))
  | .arr items => (items.mapM (boundCheck? rt)).map fun checks => checks.filterMap id
  | _ => none

def statusChecks? : rt.Value → Option StatusChecks
  | .obj entries => do
      let strict ← member? rt entries "strict" false (bool? rt)
      let contexts ← member? rt entries "contexts" [] (strings? rt)
      let boundChecks ← member? rt entries "checks" [] (boundChecks? rt)
      return ⟨strict, contexts, boundChecks⟩
  | _ => none

def reviewRule? (encoding : Encoding rt) : rt.Value → Option ReviewRule
  | .obj entries => do
      let dismissStaleReviews ← member? rt entries "dismiss_stale_reviews" false (bool? rt)
      let requireCodeOwnerReviews ←
        member? rt entries "require_code_owner_reviews" false (bool? rt)
      let requiredApprovingReviewCount ←
        member? rt entries "required_approving_review_count" 0 (int? rt)
      let requireLastPushApproval ←
        member? rt entries "require_last_push_approval" false (bool? rt)
      let dismissalRestrictions ←
        member? rt entries "dismissal_restrictions" none (unlessNull? rt (actors? rt encoding))
      let bypassPullRequestAllowances ← member? rt entries "bypass_pull_request_allowances" none
        (unlessNull? rt (actors? rt encoding))
      return ⟨dismissStaleReviews, requireCodeOwnerReviews, requiredApprovingReviewCount,
        requireLastPushApproval, dismissalRestrictions, bypassPullRequestAllowances⟩
  | _ => none

/-- The settings a document of the documented shape shows or sets. -/
def settingsOf? (encoding : Encoding rt) : rt.Value → Option Settings
  | .obj entries => do
      let flag (key : String) := member? rt entries key false encoding.flag
      let requiredStatusChecks ← member? rt entries "required_status_checks" none
        (unlessNull? rt (statusChecks? rt))
      let enforceAdmins ← flag "enforce_admins"
      let requiredPullRequestReviews ← member? rt entries "required_pull_request_reviews" none
        (unlessNull? rt (reviewRule? rt encoding))
      let restrictions ← member? rt entries "restrictions" none
        (unlessNull? rt (actors? rt encoding))
      let requiredLinearHistory ← flag "required_linear_history"
      let allowForcePushes ← flag "allow_force_pushes"
      let allowDeletions ← flag "allow_deletions"
      let blockCreations ← flag "block_creations"
      let requiredConversationResolution ← flag "required_conversation_resolution"
      let lockBranch ← flag "lock_branch"
      let allowForkSyncing ← flag "allow_fork_syncing"
      return ⟨requiredStatusChecks, enforceAdmins, requiredPullRequestReviews, restrictions,
        requiredLinearHistory, allowForcePushes, allowDeletions, blockCreations,
        requiredConversationResolution, lockBranch, allowForkSyncing⟩
  | _ => none

end Encodings

section Effect

/-- The rule a request of the scripts leaves behind. -/
def afterPut (settings : Settings) (lock : Bool) : Settings :=
  { settings with
    requiredStatusChecks := settings.requiredStatusChecks.map fun checks =>
      { checks with boundChecks := [] }
    requiredPullRequestReviews := settings.requiredPullRequestReviews.map fun reviews =>
      { reviews with
        requireLastPushApproval := false
        dismissalRestrictions := none
        bypassPullRequestAllowances := none }
    blockCreations := false
    allowForkSyncing := false
    lockBranch := lock }

/-- The rule has none of the settings that the scripts do not send back. -/
structure Carried (settings : Settings) : Prop where
  checks : ∀ checks ∈ settings.requiredStatusChecks, checks.boundChecks = []
  reviews : ∀ reviews ∈ settings.requiredPullRequestReviews,
    reviews.requireLastPushApproval = false ∧ reviews.dismissalRestrictions = none ∧
      reviews.bypassPullRequestAllowances = none
  creations : settings.blockCreations = false
  forkSyncing : settings.allowForkSyncing = false

theorem afterPut_eq_iff (settings : Settings) (lock : Bool) :
    afterPut settings lock = { settings with lockBranch := lock } ↔ Carried settings := by
  rcases settings with ⟨checks, admins, reviews, restrictions, history, pushes, deletions,
    creations, conversations, locked, syncing⟩
  simp only [afterPut, Settings.mk.injEq, true_and]
  constructor
  · rintro ⟨checksEq, reviewsEq, rfl, rfl⟩
    refine ⟨?_, ?_, rfl, rfl⟩
    · rintro found rfl
      simp only [Option.map_some, Option.some.injEq] at checksEq
      rw [← checksEq]
    · rintro found rfl
      simp only [Option.map_some, Option.some.injEq] at reviewsEq
      rw [← reviewsEq]
      exact ⟨rfl, rfl, rfl⟩
  · rintro ⟨checksUnbound, reviewsPlain, rfl, rfl⟩
    refine ⟨?_, ?_, rfl, rfl⟩
    · rcases checks with _ | ⟨strict, contexts, bound⟩
      · rfl
      · have unbound : bound = [] := checksUnbound _ rfl
        rw [unbound, Option.map_some]
    · rcases reviews with _ | ⟨stale, owners, count, lastPush, dismissal, bypass⟩
      · rfl
      · rcases reviewsPlain _ rfl with ⟨lastPushEq, dismissalEq, bypassEq⟩
        simp only at lastPushEq dismissalEq bypassEq
        rw [Option.map_some, lastPushEq, dismissalEq, bypassEq]

end Effect

section Request

variable (rt : Runtime)

/-- A list of names, as the scripts send it. -/
def namesDocument (names : List Str) : rt.Value := .arr (names.map .str)

def checksDocument (checks : StatusChecks) : rt.Value :=
  .obj [(str "strict", .bool checks.strict), (str "contexts", namesDocument rt checks.contexts)]

def reviewsDocument (reviews : ReviewRule) : rt.Value :=
  .obj [(str "dismiss_stale_reviews", .bool reviews.dismissStaleReviews),
    (str "require_code_owner_reviews", .bool reviews.requireCodeOwnerReviews),
    (str "required_approving_review_count", .int reviews.requiredApprovingReviewCount)]

def actorsDocument (actors : Actors) : rt.Value :=
  .obj [(str "users", namesDocument rt actors.users), (str "teams", namesDocument rt actors.teams),
    (str "apps", namesDocument rt actors.apps)]

/-- The request the scripts send for a rule with these settings. -/
def requestFields (settings : Settings) (lock : Bool) : List (Str × rt.Value) :=
  [(str "required_status_checks",
      (settings.requiredStatusChecks.map (checksDocument rt)).getD .null),
    (str "enforce_admins", .bool settings.enforceAdmins),
    (str "required_pull_request_reviews",
      (settings.requiredPullRequestReviews.map (reviewsDocument rt)).getD .null),
    (str "restrictions", (settings.restrictions.map (actorsDocument rt)).getD .null),
    (str "required_linear_history", .bool settings.requiredLinearHistory),
    (str "allow_force_pushes", .bool settings.allowForcePushes),
    (str "allow_deletions", .bool settings.allowDeletions),
    (str "required_conversation_resolution", .bool settings.requiredConversationResolution),
    (str "lock_branch", .bool lock)]

end Request

section Reading

variable {rt : Runtime} {entries : List (Str × rt.Value)}

/-- A member that can be read has the value the source's default gives it. -/
theorem member?_eq_some {α : Type} {key : String} {reset found : α} {read : rt.Value → Option α}
    (shown : member? rt entries key reset read = some found) (default : rt.Value)
    (readsDefault : read default = some reset) :
    read ((dictGet? entries (str key)).getD default) = some found := by
  simp only [member?] at shown
  cases present : dictGet? entries (str key) with
  | none =>
      simp only [present] at shown
      rw [← shown]
      exact readsDefault
  | some value =>
      simp only [present] at shown
      exact shown

theorem bool?_eq_some {value : rt.Value} {found : Bool} :
    bool? rt value = some found ↔ value = .bool found := by
  cases value <;> simp [bool?]

theorem int?_eq_some {value : rt.Value} {found : Int} :
    int? rt value = some found ↔ value = .int found := by
  cases value <;> simp [int?]

theorem string?_eq_some {value : rt.Value} {found : Str} :
    string? rt value = some found ↔ value = .str found := by
  cases value <;> simp [string?]

theorem unlessNull?_eq_some {α : Type} {read : rt.Value → Option α} {value : rt.Value}
    {found : Option α} (shown : unlessNull? rt read value = some found) :
    (value = .null ∧ found = none) ∨ value ≠ .null ∧ ∃ part, read value = some part ∧
      found = some part := by
  by_cases isNull : value = .null
  · subst isNull
    cases shown
    exact Or.inl ⟨rfl, rfl⟩
  · simp only [unlessNull?] at shown
    rcases Option.map_eq_some_iff.mp shown with ⟨part, partRead, rfl⟩
    exact Or.inr ⟨isNull, part, partRead, rfl⟩

/-- A part of the rule is rebuilt from what the response shows of it. -/
theorem rebuildUnlessNone_eq {α : Type} {key : String} {read : rt.Value → Option α}
    {found : Option α} (shown : member? rt entries key none (unlessNull? rt read) = some found)
    {rebuild : rt.Value → Except Exc rt.Value} {document : α → rt.Value}
    (rebuilds : ∀ value part, read value = some part → rebuild value = .ok (document part)) :
    rebuildUnlessNone rt (.obj entries) key rebuild = .ok ((found.map document).getD .null) := by
  have value := member?_eq_some shown .null rfl
  simp only [rebuildUnlessNone, Json.get, ok_bind]
  rcases unlessNull?_eq_some value with ⟨isNull, rfl⟩ | ⟨notNull, part, partRead, rfl⟩
  · rw [isNull]
    rfl
  · split
    · next isNull => exact absurd isNull notNull
    · exact rebuilds _ part partRead

/-- A flag is re-sent as the response shows it. -/
theorem enabledField_eq {key : String} {enabled : Bool}
    (shown : member? rt entries key false (responseEncoding rt).flag = some enabled) :
    enabledField rt (.obj entries) key = .ok (.bool enabled) := by
  have value := member?_eq_some shown (.obj []) rfl
  simp only [enabledField, Json.getD, ok_bind]
  cases rule : (dictGet? entries (str key)).getD (.obj []) with
  | obj members =>
      rw [rule] at value
      have flag := bool?_eq_some.mp (member?_eq_some value (.bool false) rfl)
      simp only [flag]
  | null => simp [rule, responseEncoding] at value
  | bool found => simp [rule, responseEncoding] at value
  | int found => simp [rule, responseEncoding] at value
  | float found => simp [rule, responseEncoding] at value
  | str found => simp [rule, responseEncoding] at value
  | arr found => simp [rule, responseEncoding] at value

theorem mapM_subscript_eq {items : List rt.Value} {key : String} {names : List Str}
    (shown : items.mapM ((responseEncoding rt).name key) = some names) :
    items.mapM (fun item => item.subscript (str key)) = .ok (names.map Json.str) := by
  induction items generalizing names with
  | nil =>
      cases shown
      rfl
  | cons item items ih =>
      simp only [List.mapM_cons, Option.bind_eq_bind, Option.bind_eq_some_iff, Option.pure_def,
        Option.some.injEq] at shown
      rcases shown with ⟨name, nameShown, rest, restShown, rfl⟩
      have found : item.subscript (str key) = .ok (.str name) := by
        cases item with
        | obj actor =>
            simp only [responseEncoding] at nameShown
            split at nameShown
            · next present =>
                cases nameShown
                simp only [Json.subscript, present]
            · cases nameShown
        | null => cases nameShown
        | bool found => cases nameShown
        | int found => cases nameShown
        | float found => cases nameShown
        | str found => cases nameShown
        | arr found => cases nameShown
      rw [List.mapM_cons, found, ih restShown]
      rfl

/-- The names of the actors are re-sent as the response shows them. -/
theorem namesOf_eq {field key : String} {names : List Str}
    (shown : member? rt entries field [] (names? rt (responseEncoding rt) key) = some names) :
    namesOf rt (.obj entries) field key = .ok (namesDocument rt names) := by
  have value := member?_eq_some shown (.arr []) rfl
  simp only [namesOf, Json.getD, ok_bind]
  cases listed : (dictGet? entries (str field)).getD (.arr []) with
  | arr items =>
      rw [listed] at value
      simp only [Json.iterate, ok_bind, mapM_subscript_eq value]
      rfl
  | null => simp [listed, names?] at value
  | bool found => simp [listed, names?] at value
  | int found => simp [listed, names?] at value
  | float found => simp [listed, names?] at value
  | str found => simp [listed, names?] at value
  | obj found => simp [listed, names?] at value

theorem strings?_eq_some {value : rt.Value} {texts : List Str}
    (shown : strings? rt value = some texts) : value = namesDocument rt texts := by
  cases value with
  | arr items =>
      simp only [strings?] at shown
      rw [namesDocument, Json.arr.injEq]
      induction items generalizing texts with
      | nil =>
          cases shown
          rfl
      | cons item items ih =>
          simp only [List.mapM_cons, Option.bind_eq_bind, Option.bind_eq_some_iff,
            Option.pure_def, Option.some.injEq] at shown
          rcases shown with ⟨text, textShown, rest, restShown, rfl⟩
          rw [string?_eq_some.mp textShown, ih restShown]
          rfl
  | null => cases shown
  | bool found => cases shown
  | int found => cases shown
  | float found => cases shown
  | str found => cases shown
  | obj found => cases shown

end Reading

section Sending

variable {rt : Runtime} {protection : rt.Value} {settings : Settings}

variable (rt) in
theorem depth_namesDocument (names : List Str) : (namesDocument rt names).depth ≤ 1 := by
  have each : Json.depth.depthItems (names.map (Json.str : Str → rt.Value)) ≤ 0 := by
    apply Json.depthItems_le_iff.mpr
    intro item itemMem
    rcases List.mem_map.mp itemMem with ⟨name, _, rfl⟩
    exact Nat.le_refl 0
  simp only [namesDocument, Json.depth]
  omega

theorem depth_checksDocument (checks : StatusChecks) : (checksDocument rt checks).depth ≤ 2 := by
  have contexts := depth_namesDocument rt checks.contexts
  apply Json.depth_obj_le (by omega)
  simp only [List.forall_mem_cons, Json.depth]
  refine ⟨by omega, by omega, ?_⟩
  simp

theorem depth_reviewsDocument (reviews : ReviewRule) : (reviewsDocument rt reviews).depth ≤ 2 := by
  apply Json.depth_obj_le (by omega)
  simp [Json.depth]

theorem depth_actorsDocument (actors : Actors) : (actorsDocument rt actors).depth ≤ 2 := by
  apply Json.depth_obj_le (by omega)
  intro entry entryMem
  simp only [List.mem_cons, List.not_mem_nil, or_false] at entryMem
  rcases entryMem with rfl | rfl | rfl
  · exact Nat.succ_le_succ (depth_namesDocument rt actors.users)
  · exact Nat.succ_le_succ (depth_namesDocument rt actors.teams)
  · exact Nat.succ_le_succ (depth_namesDocument rt actors.apps)

theorem depth_part_le {α : Type} {part : Option α} {document : α → rt.Value}
    (each : ∀ found, (document found).depth ≤ 2) : ((part.map document).getD .null).depth ≤ 2 := by
  rcases part with _ | found
  · exact Nat.zero_le 2
  · exact each found

variable (rt settings) in
/-- The request nests three levels deep at most. -/
theorem depth_requestFields (lock : Bool) :
    (Json.obj (requestFields rt settings lock) : rt.Value).depth ≤ 3 := by
  apply Json.depth_obj_le (by omega)
  intro entry entryMem
  simp only [requestFields, List.mem_cons, List.not_mem_nil, or_false] at entryMem
  rcases entryMem with rfl | rfl | rfl | rfl | rfl | rfl | rfl | rfl | rfl
  · exact Nat.succ_le_succ (depth_part_le depth_checksDocument)
  · exact Nat.succ_le_succ (Nat.zero_le 2)
  · exact Nat.succ_le_succ (depth_part_le depth_reviewsDocument)
  · exact Nat.succ_le_succ (depth_part_le depth_actorsDocument)
  · exact Nat.succ_le_succ (Nat.zero_le 2)
  · exact Nat.succ_le_succ (Nat.zero_le 2)
  · exact Nat.succ_le_succ (Nat.zero_le 2)
  · exact Nat.succ_le_succ (Nat.zero_le 2)
  · exact Nat.succ_le_succ (Nat.zero_le 2)

/-- The status checks of a response as the scripts rebuild them. -/
theorem rebuild_checks {value : rt.Value} {checks : StatusChecks}
    (shown : statusChecks? rt value = some checks) :
    (do
      let strict ← value.getD (str "strict") (.bool false)
      let contexts ← value.getD (str "contexts") (.arr [])
      return .obj [(str "strict", strict), (str "contexts", contexts)] : Except Exc rt.Value) =
        .ok (checksDocument rt checks) := by
  cases value with
  | obj entries =>
      simp only [statusChecks?, Option.bind_eq_bind, Option.bind_eq_some_iff, Option.pure_def,
        Option.some.injEq] at shown
      rcases shown with ⟨strict, strictShown, contexts, contextsShown, bound, _, rfl⟩
      have strictRead := bool?_eq_some.mp (member?_eq_some strictShown (.bool false) rfl)
      have contextsRead := strings?_eq_some (member?_eq_some contextsShown (.arr []) rfl)
      simp only [Json.getD, ok_bind, strictRead, contextsRead]
      rfl
  | null => cases shown
  | bool found => cases shown
  | int found => cases shown
  | float found => cases shown
  | str found => cases shown
  | arr found => cases shown

/-- The review rule of a response as the scripts rebuild it. -/
theorem rebuild_reviews {value : rt.Value} {reviews : ReviewRule}
    (shown : reviewRule? rt (responseEncoding rt) value = some reviews) :
    (do
      let dismiss ← value.getD (str "dismiss_stale_reviews") (.bool false)
      let owners ← value.getD (str "require_code_owner_reviews") (.bool false)
      let count ← value.getD (str "required_approving_review_count") (.int 0)
      return .obj [(str "dismiss_stale_reviews", dismiss),
        (str "require_code_owner_reviews", owners),
        (str "required_approving_review_count", count)] : Except Exc rt.Value) =
        .ok (reviewsDocument rt reviews) := by
  cases value with
  | obj entries =>
      simp only [reviewRule?, Option.bind_eq_bind, Option.bind_eq_some_iff, Option.pure_def,
        Option.some.injEq] at shown
      rcases shown with ⟨dismiss, dismissShown, owners, ownersShown, count, countShown, lastPush, _,
        dismissal, _, bypass, _, rfl⟩
      have dismissRead := bool?_eq_some.mp (member?_eq_some dismissShown (.bool false) rfl)
      have ownersRead := bool?_eq_some.mp (member?_eq_some ownersShown (.bool false) rfl)
      have countRead := int?_eq_some.mp (member?_eq_some countShown (.int 0) rfl)
      simp only [Json.getD, ok_bind, dismissRead, ownersRead, countRead]
      rfl
  | null => cases shown
  | bool found => cases shown
  | int found => cases shown
  | float found => cases shown
  | str found => cases shown
  | arr found => cases shown

/-- The actors a response names as the scripts rebuild them. -/
theorem rebuild_actors {value : rt.Value} {actors : Actors}
    (shown : actors? rt (responseEncoding rt) value = some actors) :
    (do
      let users ← namesOf rt value "users" "login"
      let teams ← namesOf rt value "teams" "slug"
      let apps ← namesOf rt value "apps" "slug"
      return .obj [(str "users", users), (str "teams", teams), (str "apps", apps)] :
        Except Exc rt.Value) = .ok (actorsDocument rt actors) := by
  cases value with
  | obj entries =>
      simp only [actors?, Option.bind_eq_bind, Option.bind_eq_some_iff, Option.pure_def,
        Option.some.injEq] at shown
      rcases shown with ⟨users, usersShown, teams, teamsShown, apps, appsShown, rfl⟩
      simp only [namesOf_eq usersShown, namesOf_eq teamsShown, namesOf_eq appsShown, ok_bind]
      rfl
  | null => cases shown
  | bool found => cases shown
  | int found => cases shown
  | float found => cases shown
  | str found => cases shown
  | arr found => cases shown

/-- What the scripts send for a rule of the documented shape. -/
theorem protectionPutBody_eq (deep : 3 ≤ rt.dumpsDepth)
    (shown : settingsOf? rt (responseEncoding rt) protection = some settings) (lock : Bool) :
    protectionPutBody rt protection lock = .ok (.obj (requestFields rt settings lock)) := by
  have shallow := Nat.le_trans (depth_requestFields rt settings lock) deep
  cases protection with
  | obj entries =>
      simp only [settingsOf?, Option.bind_eq_bind, Option.bind_eq_some_iff, Option.pure_def,
        Option.some.injEq] at shown
      rcases shown with ⟨checks, checksShown, admins, adminsShown, reviews, reviewsShown,
        restrictions, restrictionsShown, history, historyShown, pushes, pushesShown, deletions,
        deletionsShown, creations, _, conversations, conversationsShown, locked, _, syncing, _,
        rfl⟩
      have checksRebuilt := rebuildUnlessNone_eq checksShown fun _ _ => rebuild_checks
      have reviewsRebuilt := rebuildUnlessNone_eq reviewsShown fun _ _ => rebuild_reviews
      have restrictionsRebuilt := rebuildUnlessNone_eq restrictionsShown fun _ _ => rebuild_actors
      simp only [requestFields] at shallow ⊢
      simp only [protectionPutBody, checksRebuilt, reviewsRebuilt, restrictionsRebuilt,
        enabledField_eq adminsShown, enabledField_eq historyShown, enabledField_eq pushesShown,
        enabledField_eq deletionsShown, enabledField_eq conversationsShown, ok_bind,
        Runtime.dumps]
      rw [if_pos shallow]
      rfl
  | null => cases shown
  | bool found => cases shown
  | int found => cases shown
  | float found => cases shown
  | str found => cases shown
  | arr found => cases shown

end Sending

section Receiving

variable {rt : Runtime}

theorem str_eq_str {first second : String} : str first = str second ↔ first = second := by
  constructor
  · intro same
    apply String.toList_injective
    exact List.map_injective_iff.mpr (fun _ _ charEq => Chr.char.inj charEq) same
  · rintro rfl
    rfl

theorem strings?_namesDocument (names : List Str) :
    strings? rt (namesDocument rt names) = some names := by
  simp only [strings?, namesDocument]
  induction names with
  | nil => rfl
  | cons name names ih => simp [string?, ih]

theorem names?_namesDocument (key : String) (names : List Str) :
    names? rt (requestEncoding rt) key (namesDocument rt names) = some names :=
  strings?_namesDocument names

theorem statusChecks?_checksDocument (checks : StatusChecks) :
    statusChecks? rt (checksDocument rt checks) = some { checks with boundChecks := [] } := by
  simp [statusChecks?, checksDocument, member?, dictGet?, str_eq_str, bool?,
    strings?_namesDocument]

theorem reviewRule?_reviewsDocument (reviews : ReviewRule) :
    reviewRule? rt (requestEncoding rt) (reviewsDocument rt reviews) = some { reviews with
      requireLastPushApproval := false
      dismissalRestrictions := none
      bypassPullRequestAllowances := none } := by
  simp [reviewRule?, reviewsDocument, member?, dictGet?, str_eq_str, bool?, int?]

theorem actors?_actorsDocument (actors : Actors) :
    actors? rt (requestEncoding rt) (actorsDocument rt actors) = some actors := by
  simp [actors?, actorsDocument, member?, dictGet?, str_eq_str, names?_namesDocument]

/-- An optional part of the request is read as what is left of it. -/
theorem unlessNull?_getD {α : Type} {read : rt.Value → Option α} {document : α → rt.Value}
    {left : α → α} (reads : ∀ found, read (document found) = some (left found))
    (notNull : ∀ found, document found ≠ .null) (part : Option α) :
    unlessNull? rt read ((part.map document).getD .null) = some (part.map left) := by
  rcases part with _ | found
  · rfl
  · rw [Option.map_some, Option.getD_some, unlessNull?, reads]
    · rfl
    · exact notNull found

/-- The rule that GitHub is left with after a request of the scripts. -/
theorem settingsOf?_requestFields (settings : Settings) (lock : Bool) :
    settingsOf? rt (requestEncoding rt) (.obj (requestFields rt settings lock)) =
      some (afterPut settings lock) := by
  have checks : unlessNull? rt (statusChecks? rt)
      ((settings.requiredStatusChecks.map (checksDocument rt)).getD .null) = _ :=
    unlessNull?_getD statusChecks?_checksDocument (fun _ => nofun) settings.requiredStatusChecks
  have reviews : unlessNull? rt (reviewRule? rt (requestEncoding rt))
      ((settings.requiredPullRequestReviews.map (reviewsDocument rt)).getD .null) = _ :=
    unlessNull?_getD reviewRule?_reviewsDocument (fun _ => nofun)
      settings.requiredPullRequestReviews
  have restrictions : unlessNull? rt (actors? rt (requestEncoding rt))
      ((settings.restrictions.map (actorsDocument rt)).getD .null) = _ :=
    unlessNull?_getD actors?_actorsDocument (fun _ => nofun) settings.restrictions
  have flag (value : Bool) : (requestEncoding rt).flag (.bool value) = some value := rfl
  simp only [settingsOf?, requestFields, member?, dictGet?, str_eq_str, String.reduceEq, if_true,
    if_false, checks, reviews, restrictions, flag, Option.bind_eq_bind, Option.bind_some,
    Option.pure_def, Option.map_id']
  rfl

end Receiving

section Cycle

variable {rt : Runtime} {repo branch : Str}

/-- What a call does to the protection rule of the branch, and how it shows the rule. -/
def SettingsExchange (before : Settings) (event : GhEvent rt) (after : Settings) : Prop :=
  match event with
  | ⟨.run (.getProtection _ _), result⟩ =>
      (result.returncode = 0 → ∃ protection, rt.loads result.stdout = .ok protection ∧
        settingsOf? rt (responseEncoding rt) protection = some before) ∧
      after = before
  | ⟨.run (.putProtection _ _ body), result⟩ =>
      if result.returncode = 0 then settingsOf? rt (requestEncoding rt) body = some after
      else after = before
  | ⟨.time, _⟩ | ⟨.run (.patchVariable _ _ _), _⟩ | ⟨.run (.postVariable _ _ _), _⟩
  | ⟨.run (.getVariable _ _), _⟩ | ⟨.run (.deleteVariable _ _), _⟩
  | ⟨.run (.workflowRuns _ _ _), _⟩ => after = before

/-- The rule is locked for a release and unlocked after it. -/
def lockCycle (rt : Runtime) (repo branch : Str) : Gh rt Unit := do
  enableBranchProtection rt repo branch
  disableBranchLock rt repo branch

/-- A toggle that returns has re-sent the rule it read. -/
theorem putLockBranch_returns {lock : Bool} {failure : String} {log : List (GhEvent rt)}
    (ran : (putLockBranch rt lock failure repo branch).Runs log (.ok ())) :
    ∃ (read put : CompletedProcess) (protection body : rt.Value),
      log = [⟨.run (.getProtection repo branch), read⟩,
        ⟨.run (.putProtection repo branch body), put⟩] ∧
      read.returncode = 0 ∧ rt.loads read.stdout = .ok protection ∧
      protectionPutBody rt protection lock = .ok body ∧ put.returncode = 0 := by
  rw [putLockBranch, Program.runs_bind_ok] at ran
  rcases ran with ⟨protection, first, rest, rfl, readRan, afterRead⟩
  rcases getBranchProtection_cases readRan with
    ⟨read, rfl, ⟨⟨_, impossible⟩, _⟩ | ⟨_, same, served, loaded⟩⟩
  · cases impossible
  cases same
  simp only [Program.runs_ofExcept_bind, run_bind, Program.runs_call] at afterRead
  rcases afterRead with ⟨_, _, _, impossible⟩ | ⟨body, built, put, tail, rfl, afterPut⟩
  · cases impossible
  refine ⟨read, put, protection, body, ?_⟩
  by_cases done : put.returncode = 0
  · simp only [done, ne_eq, not_true_eq_false, if_false, Program.pure_eq_ret,
      Program.runs_ret] at afterPut
    rcases afterPut with ⟨rfl, _⟩
    exact ⟨rfl, served, loaded, built, done⟩
  · simp [done] at afterPut

/-- A toggle that returns leaves the rule without what the scripts do not send. -/
theorem afterPut_of_runs (deep : 3 ≤ rt.dumpsDepth) {lock : Bool} {failure : String}
    {log : List (GhEvent rt)} {before after : Settings}
    (ran : (putLockBranch rt lock failure repo branch).Runs log (.ok ()))
    (exchanged : Transition.Path SettingsExchange before log after) :
    after = afterPut before lock := by
  rcases putLockBranch_returns ran with
    ⟨read, put, protection, body, rfl, served, loaded, built, done⟩
  simp only [Transition.path_cons, Transition.path_nil, SettingsExchange, done, if_true]
    at exchanged
  rcases exchanged with ⟨middle, ⟨shows, rfl⟩, last, received, rfl⟩
  rcases shows served with ⟨other, otherLoaded, shown⟩
  rw [loaded, Except.ok.injEq] at otherLoaded
  subst otherLoaded
  rw [protectionPutBody_eq deep shown, Except.ok.injEq] at built
  subst built
  rw [settingsOf?_requestFields, Option.some.injEq] at received
  exact received.symm

theorem afterPut_afterPut (settings : Settings) (first second : Bool) :
    afterPut (afterPut settings first) second = afterPut settings second := by
  simp [afterPut, Option.map_map, Function.comp_def]

/-- A lock cycle that completes leaves the rule without what the scripts do not send. -/
theorem afterPut_of_lockCycle (deep : 3 ≤ rt.dumpsDepth) {log : List (GhEvent rt)}
    {before after : Settings} (ran : (lockCycle rt repo branch).Runs log (.ok ()))
    (exchanged : Transition.Path SettingsExchange before log after) :
    after = afterPut before false := by
  rw [lockCycle, Program.runs_bind_ok] at ran
  rcases ran with ⟨_, first, second, rfl, enabled, disabled⟩
  rcases Transition.path_append.mp exchanged with ⟨middle, lockedPath, unlockedPath⟩
  have locked : middle = afterPut before true := afterPut_of_runs deep enabled lockedPath
  have unlocked : after = afterPut middle false := afterPut_of_runs deep disabled unlockedPath
  rw [unlocked, locked, afterPut_afterPut]

/--
The request for a rule sets what the response shows, but for the lock, and a lock
cycle leaves the rule unlocked and otherwise as it was, exactly when the rule has
none of the settings that the scripts do not send back.
-/
theorem settings_carried_iff (deep : 3 ≤ rt.dumpsDepth) {protection : rt.Value}
    {settings : Settings}
    (shown : settingsOf? rt (responseEncoding rt) protection = some settings) :
    (∀ lock, (∃ body, protectionPutBody rt protection lock = .ok body ∧
        settingsOf? rt (requestEncoding rt) body = some { settings with lockBranch := lock }) ↔
          Carried settings) ∧
      ∀ repo branch log after, (lockCycle rt repo branch).Runs log (.ok ()) →
        Transition.Path SettingsExchange settings log after →
          (after = { settings with lockBranch := false } ↔ Carried settings) := by
  refine ⟨?_, ?_⟩
  · intro lock
    rw [← afterPut_eq_iff settings lock, protectionPutBody_eq deep shown]
    constructor
    · rintro ⟨body, built, received⟩
      rw [← Except.ok.inj built, settingsOf?_requestFields, Option.some.injEq] at received
      exact received
    · intro same
      exact ⟨_, rfl, by rw [settingsOf?_requestFields, same]⟩
  · intro repo branch log after ran exchanged
    rw [afterPut_of_lockCycle deep ran exchanged]
    exact afterPut_eq_iff settings false

end Cycle

namespace Sample

/-- A rule with a check that is bound to an app and with blocked creations. -/
def shownRule : Runtime.whole.Value :=
  .obj [
    (str "required_status_checks", .obj [(str "strict", .bool true),
      (str "contexts", .arr [.str (str "ci")]),
      (str "checks", .arr [.obj [(str "context", .str (str "ci")), (str "app_id", .int 15368)]])]),
    (str "enforce_admins", .obj [(str "enabled", .bool true)]),
    (str "block_creations", .obj [(str "enabled", .bool true)]),
    (str "lock_branch", .obj [(str "enabled", .bool false)])]

def ruleSettings : Settings where
  requiredStatusChecks := some ⟨true, [str "ci"], [(str "ci", 15368)]⟩
  enforceAdmins := true
  requiredPullRequestReviews := none
  restrictions := none
  requiredLinearHistory := false
  allowForcePushes := false
  allowDeletions := false
  blockCreations := true
  requiredConversationResolution := false
  lockBranch := false
  allowForkSyncing := false

theorem settingsOf?_shownRule :
    settingsOf? Runtime.whole (responseEncoding Runtime.whole) shownRule = some ruleSettings := by
  rfl

end Sample

theorem settings_carried_iff_shownRule :
    (∀ lock, (∃ body, protectionPutBody Runtime.whole Sample.shownRule lock = .ok body ∧
        settingsOf? Runtime.whole (requestEncoding Runtime.whole) body =
          some { Sample.ruleSettings with lockBranch := lock }) ↔ Carried Sample.ruleSettings) ∧
      ∀ repo branch log after, (lockCycle Runtime.whole repo branch).Runs log (.ok ()) →
        Transition.Path SettingsExchange Sample.ruleSettings log after →
          (after = { Sample.ruleSettings with lockBranch := false } ↔
            Carried Sample.ruleSettings) :=
  settings_carried_iff (by decide) Sample.settingsOf?_shownRule

/-- Locking a branch unblocks creations and unbinds its status checks. -/
theorem blocked_creations_reset :
    ¬∀ (rt : Runtime) (protection : rt.Value) (settings : Settings), 3 ≤ rt.dumpsDepth →
      settingsOf? rt (responseEncoding rt) protection = some settings →
        ∀ lock, ∃ body, protectionPutBody rt protection lock = .ok body ∧
          settingsOf? rt (requestEncoding rt) body = some { settings with lockBranch := lock } := by
  intro carried
  have deep : 3 ≤ Runtime.whole.dumpsDepth := by decide
  rcases carried Runtime.whole _ _ deep Sample.settingsOf?_shownRule true with
    ⟨body, built, received⟩
  rw [protectionPutBody_eq deep Sample.settingsOf?_shownRule, Except.ok.injEq] at built
  rw [← built, settingsOf?_requestFields, Option.some.injEq, afterPut_eq_iff] at received
  cases received.creations

end BranchLock
