import TelemetryPlatform.Deploy.Cover
import TelemetryPlatform.Deploy.DeployRole

/-!
# Which role a scope is applied under

`Applicable` says which scopes may be applied in one run, in terms of the accounts their
units resolve to: one service account at most besides the DNS owner, and a registered
role for every account that occurs. `ScopeRule` says what the resolution owes to such a
scope. `scopeRule_iff` says when it pays: the region is read off the first unit alone,
and the lines are written one by one, so the rule breaks for a scope that spans regions
and for a role whose name cannot be written.
-/

namespace Deploy

open Python

section Definitions

variable (rt : Runtime) (files : ConfigFiles) (onDemand : Bool)

/-- The account is registered with a role and CI may apply it. -/
def Registered (accountId roleName : Str) : Prop :=
  ∃ accounts entry ciDeploy role, rt.loads files.accounts = .ok (.obj accounts) ∧
    dictGet? accounts accountId = some (.obj entry) ∧
    dictGet? entry ciDeployKey = some ciDeploy ∧
    (rt.truth ciDeploy = true ∨ onDemand = true ∧ ∃ eligible,
      dictGet? entry ciDeployOnDemandKey = some eligible ∧ rt.truth eligible = true) ∧
    dictGet? entry deployRoleNameKey = some role ∧ rt.strOf role = .ok roleName

/-- The account id of the DNS owner under the configuration. -/
def dnsOwnerOf : Except DeployError Str := do
  let envAccounts ← rt.loads files.envAccounts
  dnsOwnerAccountIdOf rt envAccounts

/-- The scope may be applied: its units resolve, to these regions and accounts. -/
structure Applicable (units : List Str) (dnsOwner : Str) (resolved : List (Str × Str)) :
    Prop where
  owner : dnsOwnerOf rt files = .ok dnsOwner
  resolves : units.mapM (resolveUnit rt files) = .ok resolved
  oneService : ∀ pair ∈ resolved, ∀ other ∈ resolved, pair.2 ≠ dnsOwner → other.2 ≠ dnsOwner →
    pair.2 = other.2
  registered : ∀ pair ∈ resolved, ∃ roleName, Registered rt files onDemand pair.2 roleName

/-- Units of a service account and units of the DNS owner occur together. -/
def BothKinds (dnsOwner : Str) (resolved : List (Str × Str)) : Prop :=
  (∃ pair ∈ resolved, pair.2 = dnsOwner) ∧ ∃ pair ∈ resolved, pair.2 ≠ dnsOwner

/-- What the lines say about an applicable scope. -/
structure Outputs (units : List Str) (dnsOwner : Str) (resolved : List (Str × Str))
    (written : List (Str × Str)) (accountId region roleName : Str) : Prop where
  lines : ∃ needsDnsWriter dnsWriterArn, written = [(roleArnKey, buildRoleArn accountId roleName),
      (awsRegionKey, region), (targetAccountIdKey, accountId),
      (needsDnsWriterKey, needsDnsWriter), (dnsWriterArnKey, dnsWriterArn)] ∧
    ((BothKinds dnsOwner resolved ∧ needsDnsWriter = str "true" ∧
        ∃ writerName, Registered rt files onDemand dnsOwner writerName ∧
          dnsWriterArn = buildRoleArn dnsOwner writerName) ∨
      (¬BothKinds dnsOwner resolved ∧ needsDnsWriter = str "false" ∧ dnsWriterArn = []))
  account : (accountId ≠ dnsOwner ∧ ∃ pair ∈ resolved, pair.2 = accountId) ∨
    (accountId = dnsOwner ∧ ∀ pair ∈ resolved, pair.2 = dnsOwner)
  role : Registered rt files onDemand accountId roleName
  region : ∀ pair ∈ resolved, pair.1 = region
  row : ∀ flags, findIncludeDirs flags = units → ∃ rows row,
    partition rt files flags modeApply onDemand = .ok rows ∧ row ∈ rows ∧
      row.accountId = accountId ∧ row.roleArn = buildRoleArn accountId roleName

/-- The lines are written exactly for the applicable scopes, whole and with the right values. -/
structure ScopeRule (units : List Str) (written : List (Str × Str))
    (outcome : Except ResolveError Unit) : Prop where
  returns : outcome = .ok () ↔ ∃ dnsOwner resolved,
    Applicable rt files onDemand units dnsOwner resolved
  outputs : outcome = .ok () → ∃ dnsOwner resolved accountId region roleName,
    Applicable rt files onDemand units dnsOwner resolved ∧
      Outputs rt files onDemand units dnsOwner resolved written accountId region roleName
  silent : ∀ error, outcome = .error error → written = []

/-- The units lie in one region, and the roles of their accounts can be written. -/
def Uniform (resolved : List (Str × Str)) : Prop :=
  (∀ pair ∈ resolved, ∀ other ∈ resolved, pair.1 = other.1) ∧
    ∀ pair ∈ resolved, ∀ roleName, Registered rt files onDemand pair.2 roleName →
      Encodable pair.2 ∧ Encodable roleName

end Definitions

variable {rt : Runtime} {files : ConfigFiles} {onDemand : Bool}

section Roles

/-- A key is contained and has a value exactly in a dictionary. -/
theorem subscript_eq_ok {value found : rt.Value} {key : Str} :
    value.subscript key = .ok found ↔
      ∃ entries, value = .obj entries ∧ dictGet? entries key = some found := by
  cases value with
  | obj entries =>
      simp only [Json.subscript, Json.obj.injEq, exists_eq_left']
      cases dictGet? entries key <;> simp
  | _ => simp [Json.subscript]

theorem contains_eq_true {entries : List (Str × rt.Value)} {key : Str} :
    (Json.obj entries : rt.Value).contains key = .ok true ↔
      ∃ found, dictGet? entries key = some found := by
  simp only [Json.contains, Except.ok.injEq]
  exact Option.isSome_iff_exists

/-- When CI may apply an account whose entry says whether it is deployed. -/
theorem accountAllowsCiApply_eq_true {entry : List (Str × rt.Value)} {ciDeploy : rt.Value}
    (declared : dictGet? entry ciDeployKey = some ciDeploy) :
    accountAllowsCiApply rt (.obj entry) onDemand = .ok true ↔
      rt.truth ciDeploy = true ∨ onDemand = true ∧ ∃ eligible,
        dictGet? entry ciDeployOnDemandKey = some eligible ∧ rt.truth eligible = true := by
  have got : (Json.obj entry : rt.Value).subscript ciDeployKey = .ok ciDeploy :=
    subscript_eq_ok.mpr ⟨entry, rfl, declared⟩
  simp only [accountAllowsCiApply, got, ok_bind]
  by_cases deployed : rt.truth ciDeploy = true
  · simp [deployed, pure, Except.pure]
  · cases onDemand with
    | false => simp [deployed, pure, Except.pure]
    | true =>
        simp only [deployed, Json.getD]
        cases dictGet? entry ciDeployOnDemandKey with
        | none => simp [Runtime.truth, ok_bind, pure, Except.pure]
        | some eligible => simp [ok_bind, pure, Except.pure]

theorem subscript_obj {entries : List (Str × rt.Value)} {key : Str} {found : rt.Value}
    (looked : dictGet? entries key = some found) :
    (Json.obj entries : rt.Value).subscript key = .ok found :=
  subscript_eq_ok.mpr ⟨entries, rfl, looked⟩

theorem contains_obj {entries : List (Str × rt.Value)} {key : Str} {found : rt.Value}
    (looked : dictGet? entries key = some found) :
    (Json.obj entries : rt.Value).contains key = .ok true :=
  contains_eq_true.mpr ⟨found, looked⟩

/-- The resolution loads the role of an account exactly when it is registered. -/
theorem loadDeployRoleName_eq_ok {accountId roleName : Str} :
    loadDeployRoleName rt files accountId onDemand = .ok roleName ↔
      Registered rt files onDemand accountId roleName := by
  constructor
  · intro loaded
    simp only [loadDeployRoleName, loadAccountEntry, bind_eq_ok, lift_eq_ok] at loaded
    rcases loaded with ⟨entry, ⟨accounts, accountsLoaded, known, contained, loaded⟩, role, gotRole,
      written⟩
    cases known with
    | false => cases loaded
    | true =>
        simp only [Bool.not_true, Bool.false_eq_true, if_false, bind_eq_ok, lift_eq_ok] at loaded
        rcases loaded with ⟨_, found, hasRole, containsRole, loaded⟩
        cases hasRole with
        | false => cases loaded
        | true =>
            simp only [Bool.not_true, Bool.false_eq_true, if_false, bind_eq_ok, lift_eq_ok]
              at loaded
            rcases loaded with ⟨hasDeploy, containsDeploy, loaded⟩
            cases hasDeploy with
            | false => cases loaded
            | true =>
                simp only [Bool.not_true, Bool.false_eq_true, if_false, bind_eq_ok, lift_eq_ok]
                  at loaded
                rcases loaded with ⟨allows, allowed, loaded⟩
                cases allows with
                | false =>
                    simp only [Bool.not_false, if_true, bind_eq_ok, lift_eq_ok] at loaded
                    rcases loaded with ⟨_, _, _, _, _, raised, _⟩
                    cases raised
                | true =>
                    cases loaded
                    rcases subscript_eq_ok.mp found with ⟨entries, rfl, looked⟩
                    rcases subscript_eq_ok.mp gotRole with ⟨fields, rfl, lookedRole⟩
                    rcases contains_eq_true.mp containsDeploy with ⟨ciDeploy, declared⟩
                    exact ⟨entries, fields, ciDeploy, role, accountsLoaded, looked, declared,
                      (accountAllowsCiApply_eq_true declared).mp allowed, lookedRole, written⟩
  · rintro ⟨accounts, entry, ciDeploy, role, loaded, looked, declared, allowed, hasRole, written⟩
    have allows := (accountAllowsCiApply_eq_true declared).mpr allowed
    simp [loadDeployRoleName, loadAccountEntry, loaded, contains_obj looked, subscript_obj looked,
      contains_obj declared, contains_obj hasRole, subscript_obj hasRole, allows, written, ok_bind,
      pure, Except.pure]

/-- The partition of the apply lane loads the role of the same accounts. -/
theorem loadRoleName_of_registered {accounts : rt.Value} {accountId name : Str} (path : Str)
    (loaded : rt.loads files.accounts = .ok accounts)
    (registered : Registered rt files onDemand accountId name) :
    loadRoleName rt accountId accounts modeApply path onDemand = .ok name := by
  rcases registered with ⟨entries, entry, ciDeploy, role, loaded', looked, declared, allowed,
    hasRole, written⟩
  rw [loaded] at loaded'
  cases loaded'
  have allows := (accountAllowsCiApply_eq_true declared).mpr allowed
  simp [loadRoleName, contains_obj looked, subscript_obj looked, contains_obj declared,
    contains_obj hasRole, subscript_obj hasRole, allows, written, ok_bind]

end Roles

section Accounts

variable {dnsOwner : Str} {resolved : List (Str × Str)}

theorem mem_serviceAccounts {accountId : Str} :
    accountId ∈ serviceAccounts dnsOwner resolved ↔
      accountId ≠ dnsOwner ∧ ∃ pair ∈ resolved, pair.2 = accountId := by
  simp only [serviceAccounts, List.mem_dedup, List.mem_filter, List.mem_map, decide_eq_true_eq]
  exact and_comm

/-- A scope is mixed when it has more than one service account. -/
theorem serviceAccounts_length :
    ¬1 < (serviceAccounts dnsOwner resolved).length ↔
      ∀ pair ∈ resolved, ∀ other ∈ resolved, pair.2 ≠ dnsOwner → other.2 ≠ dnsOwner →
        pair.2 = other.2 := by
  have nodup : (serviceAccounts dnsOwner resolved).Nodup := List.nodup_dedup _
  constructor
  · intro few pair pairMem other otherMem service otherService
    have first := mem_serviceAccounts.mpr ⟨service, pair, pairMem, rfl⟩
    have second := mem_serviceAccounts.mpr ⟨otherService, other, otherMem, rfl⟩
    cases services : serviceAccounts dnsOwner resolved with
    | nil =>
        rw [services] at first
        cases first
    | cons account rest =>
        rw [services, List.length_cons] at few
        have single : rest = [] := List.length_eq_zero_iff.mp (by omega)
        rw [services, single, List.mem_singleton] at first second
        rw [first, second]
  · intro oneService many
    cases services : serviceAccounts dnsOwner resolved with
    | nil => simp [services] at many
    | cons account rest =>
        cases rest with
        | nil => simp [services] at many
        | cons other rest =>
            rw [services, List.nodup_cons] at nodup
            have first : account ∈ serviceAccounts dnsOwner resolved := by simp [services]
            have second : other ∈ serviceAccounts dnsOwner resolved := by simp [services]
            rcases mem_serviceAccounts.mp first with ⟨service, pair, pairMem, rfl⟩
            rcases mem_serviceAccounts.mp second with ⟨otherService, pair', pairMem', rfl⟩
            apply nodup.1
            rw [oneService pair pairMem pair' pairMem' service otherService]
            exact List.mem_cons_self

/-- The account whose role the run assumes. -/
def primaryAccount (dnsOwner : Str) (resolved : List (Str × Str)) : Str :=
  (serviceAccounts dnsOwner resolved).head?.getD dnsOwner

/-- The service account if there is one, and the DNS owner otherwise. -/
theorem primaryAccount_spec (dnsOwner : Str) (resolved : List (Str × Str)) :
    (primaryAccount dnsOwner resolved ≠ dnsOwner ∧
        ∃ pair ∈ resolved, pair.2 = primaryAccount dnsOwner resolved) ∨
      (primaryAccount dnsOwner resolved = dnsOwner ∧ ∀ pair ∈ resolved, pair.2 = dnsOwner) := by
  cases services : serviceAccounts dnsOwner resolved with
  | nil =>
      right
      refine ⟨by simp [primaryAccount, services], fun pair pairMem => ?_⟩
      by_contra service
      have found := mem_serviceAccounts.mpr ⟨service, pair, pairMem, rfl⟩
      rw [services] at found
      cases found
  | cons account rest =>
      left
      have same : primaryAccount dnsOwner resolved = account := by simp [primaryAccount, services]
      rw [same]
      apply mem_serviceAccounts.mp
      simp [services]

theorem needsDnsWriter_iff :
    (!(serviceAccounts dnsOwner resolved).isEmpty &&
        decide (dnsOwner ∈ resolved.map Prod.snd)) = true ↔ BothKinds dnsOwner resolved := by
  rw [Bool.and_eq_true, Bool.not_eq_true', List.isEmpty_eq_false_iff_exists_mem,
    decide_eq_true_eq, List.mem_map, BothKinds, and_comm]
  apply and_congr_right
  intro _
  constructor
  · rintro ⟨account, accountMem⟩
    rcases mem_serviceAccounts.mp accountMem with ⟨service, pair, pairMem, rfl⟩
    exact ⟨pair, pairMem, service⟩
  · rintro ⟨pair, pairMem, service⟩
    exact ⟨pair.2, mem_serviceAccounts.mpr ⟨service, pair, pairMem, rfl⟩⟩

/-- The accounts of a scope are the primary one and, next to a service account, the DNS owner. -/
theorem forall_accounts_iff (holds : Str → Prop) (nonempty : resolved ≠ [])
    (oneService : ∀ pair ∈ resolved, ∀ other ∈ resolved, pair.2 ≠ dnsOwner →
      other.2 ≠ dnsOwner → pair.2 = other.2) :
    (∀ pair ∈ resolved, holds pair.2) ↔
      holds (primaryAccount dnsOwner resolved) ∧
        (BothKinds dnsOwner resolved → holds dnsOwner) := by
  constructor
  · intro all
    constructor
    · rcases primaryAccount_spec dnsOwner resolved with
        ⟨_, pair, pairMem, same⟩ | ⟨same, owned⟩
      · exact same ▸ all pair pairMem
      · rcases List.exists_mem_of_ne_nil resolved nonempty with ⟨pair, pairMem⟩
        rw [same, ← owned pair pairMem]
        exact all pair pairMem
    · rintro ⟨⟨pair, pairMem, same⟩, _⟩
      exact same ▸ all pair pairMem
  · rintro ⟨primary, owner⟩ pair pairMem
    by_cases owned : pair.2 = dnsOwner
    · rcases primaryAccount_spec dnsOwner resolved with
        ⟨service, other, otherMem, same⟩ | ⟨same, _⟩
      · rw [owned]
        exact owner ⟨⟨pair, pairMem, owned⟩, other, otherMem, same ▸ service⟩
      · rw [owned, ← same]
        exact primary
    · rcases primaryAccount_spec dnsOwner resolved with
        ⟨service, other, otherMem, same⟩ | ⟨_, all⟩
      · rw [oneService pair pairMem other otherMem owned (same ▸ service), same]
        exact primary
      · exact absurd (all pair pairMem) owned

end Accounts

@[simp]
theorem liftResolve_ok {α : Type} (value : α) :
    (liftM (Except.ok value : Except DeployError α) : Except ResolveError α) = .ok value := rfl

@[simp]
theorem liftBuiltin_ok {α : Type} (value : α) :
    (liftM (Except.ok value : Except Exc α) : Except ResolveError α) = .ok value := rfl

theorem liftResolve_eq_ok {α : Type} {result : Except DeployError α} {value : α} :
    (liftM result : Except ResolveError α) = .ok value ↔ result = .ok value := by
  cases result with
  | ok found => simp
  | error error => exact ⟨nofun, nofun⟩

theorem liftBuiltin_eq_ok {α : Type} {result : Except Exc α} {value : α} :
    (liftM result : Except ResolveError α) = .ok value ↔ result = .ok value := by
  cases result with
  | ok found => simp
  | error error => exact ⟨nofun, nofun⟩

section Resolution

variable {unitPath includeDirFlags : Option Str} {units : List Str} {dnsOwner : Str}
  {resolved lines : List (Str × Str)}

theorem scopePaths_ne_nil (scope : scopePaths unitPath includeDirFlags = .ok units) :
    units ≠ [] := by
  unfold scopePaths at scope
  split at scope
  · rw [extractAllUnitPaths] at scope
    split at scope
    · cases scope
    · next nonempty =>
        cases scope
        exact nonempty
  · cases scope
    simp
  · cases scope

/-- With the configuration loaded, resolving the units is resolving them under the documents. -/
theorem mapM_resolveUnit {envAccounts domains : rt.Value}
    (envLoaded : rt.loads files.envAccounts = .ok envAccounts)
    (domainsLoaded : rt.loads files.domains = .ok domains) :
    units.mapM (resolveUnit rt files) =
      units.mapM fun unit => resolveAccountId rt unit envAccounts domains := by
  apply mapM_congr
  intro unit _
  simp [resolveUnit, envLoaded, domainsLoaded, ok_bind]

/-- The lines of a scope: what they are made of when they are computed. -/
def LinesOf (rt : Runtime) (files : ConfigFiles) (onDemand : Bool) (dnsOwner : Str)
    (resolved lines : List (Str × Str)) : Prop :=
  ∃ roleName needsDnsWriter dnsWriterArn,
    Registered rt files onDemand (primaryAccount dnsOwner resolved) roleName ∧
    lines = [(roleArnKey, buildRoleArn (primaryAccount dnsOwner resolved) roleName),
      (awsRegionKey, (resolved.head?.map Prod.fst).getD []),
      (targetAccountIdKey, primaryAccount dnsOwner resolved),
      (needsDnsWriterKey, needsDnsWriter), (dnsWriterArnKey, dnsWriterArn)] ∧
    ((BothKinds dnsOwner resolved ∧ needsDnsWriter = str "true" ∧
        ∃ writerName, Registered rt files onDemand dnsOwner writerName ∧
          dnsWriterArn = buildRoleArn dnsOwner writerName) ∨
      (¬BothKinds dnsOwner resolved ∧ needsDnsWriter = str "false" ∧ dnsWriterArn = []))

theorem mapM_ne_nil {α β ε : Type} {f : α → Except ε β} {items : List α} {results : List β}
    (looped : items.mapM f = .ok results) (nonempty : items ≠ []) : results ≠ [] := by
  rintro rfl
  exact nonempty (List.forall₂_nil_right_iff.mp (forall₂_of_mapM looped))

/-- The chained role is loaded where both kinds of accounts occur. -/
theorem dnsWriterArnOf_eq_ok {arn : Str} :
    dnsWriterArnOf rt files dnsOwner (!(serviceAccounts dnsOwner resolved).isEmpty &&
        decide (dnsOwner ∈ resolved.map Prod.snd)) onDemand = .ok arn ↔
      (BothKinds dnsOwner resolved ∧ ∃ writerName,
        Registered rt files onDemand dnsOwner writerName ∧
          arn = buildRoleArn dnsOwner writerName) ∨
      (¬BothKinds dnsOwner resolved ∧ arn = []) := by
  rw [dnsWriterArnOf, ← needsDnsWriter_iff]
  split
  · next needs =>
      simp only [bind_eq_ok, loadDeployRoleName_eq_ok, needs, true_and, not_true_eq_false,
        false_and, or_false]
      apply exists_congr
      intro writerName
      apply and_congr_right
      intro _
      constructor
      · intro returned
        cases returned
        rfl
      · rintro rfl
        rfl
  · next needs =>
      simp only [needs, Bool.false_eq_true, false_and, not_false_eq_true, true_and, false_or]
      constructor
      · intro returned
        cases returned
        rfl
      · rintro rfl
        rfl

/-- Lines are computed for applicable scopes only. -/
theorem applicable_of_resolveOutputs (scope : scopePaths unitPath includeDirFlags = .ok units)
    (computed : resolveOutputs rt files unitPath includeDirFlags onDemand = .ok lines) :
    ∃ dnsOwner resolved, Applicable rt files onDemand units dnsOwner resolved ∧
      LinesOf rt files onDemand dnsOwner resolved lines := by
  simp only [resolveOutputs, bind_eq_ok, liftResolve_eq_ok, liftBuiltin_eq_ok] at computed
  rcases computed with ⟨envAccounts, envLoaded, domains, domainsLoaded, dnsOwner, owner, allPaths,
    scope', resolved, looped, computed⟩
  rw [scope] at scope'
  cases scope'
  split at computed
  · simp only [bind_eq_ok] at computed
    rcases computed with ⟨_, raised, _⟩
    cases raised
  next few =>
  have oneService := serviceAccounts_length.mp few
  simp only [bind_eq_ok, liftResolve_eq_ok] at computed
  rcases computed with ⟨roleName, roleLoaded, dnsWriterArn, writerLoaded, returned⟩
  cases returned
  have role := loadDeployRoleName_eq_ok.mp roleLoaded
  have nonempty := mapM_ne_nil looped (scopePaths_ne_nil scope)
  have writer := dnsWriterArnOf_eq_ok.mp writerLoaded
  refine ⟨dnsOwner, resolved, ⟨?_, ?_, oneService, ?_⟩, roleName, _, dnsWriterArn, role, rfl, ?_⟩
  · simp [dnsOwnerOf, envLoaded, owner, ok_bind]
  · rw [mapM_resolveUnit envLoaded domainsLoaded]
    exact looped
  · apply (forall_accounts_iff (fun account => ∃ roleName,
      Registered rt files onDemand account roleName) nonempty oneService).mpr
    refine ⟨⟨roleName, role⟩, fun both => ?_⟩
    rcases writer with ⟨_, writerName, registered, _⟩ | ⟨single, _⟩
    · exact ⟨writerName, registered⟩
    · exact absurd both single
  · rcases writer with ⟨both, writerName, registered, rfl⟩ | ⟨single, rfl⟩
    · exact Or.inl ⟨both, if_pos (needsDnsWriter_iff.mpr both), writerName, registered, rfl⟩
    · exact Or.inr ⟨single, if_neg fun needs => single (needsDnsWriter_iff.mp needs), rfl⟩

/-- A unit that resolves has read the domains. -/
theorem domains_of_resolves (resolves : units.mapM (resolveUnit rt files) = .ok resolved)
    (nonempty : units ≠ []) : ∃ domains, rt.loads files.domains = .ok domains := by
  rcases List.exists_mem_of_ne_nil units nonempty with ⟨unit, unitMem⟩
  rcases exists_mapM_eq_ok.mp ⟨resolved, resolves⟩ unit unitMem with ⟨pair, found⟩
  simp only [resolveUnit, bind_eq_ok, lift_eq_ok] at found
  rcases found with ⟨_, _, domains, domainsLoaded, _⟩
  exact ⟨domains, domainsLoaded⟩

/-- Lines are computed for every applicable scope. -/
theorem resolveOutputs_of_applicable (scope : scopePaths unitPath includeDirFlags = .ok units)
    (applicable : Applicable rt files onDemand units dnsOwner resolved) :
    ∃ lines, resolveOutputs rt files unitPath includeDirFlags onDemand = .ok lines := by
  have owner := applicable.owner
  have resolves := applicable.resolves
  have nonempty := mapM_ne_nil resolves (scopePaths_ne_nil scope)
  rcases (forall_accounts_iff (fun account => ∃ roleName,
    Registered rt files onDemand account roleName) nonempty applicable.oneService).mp
    applicable.registered with ⟨⟨roleName, role⟩, writer⟩
  have few := serviceAccounts_length.mpr applicable.oneService
  have writerLoads : ∃ arn, dnsWriterArnOf rt files dnsOwner
      (!(serviceAccounts dnsOwner resolved).isEmpty &&
        decide (dnsOwner ∈ resolved.map Prod.snd)) onDemand = .ok arn := by
    by_cases both : BothKinds dnsOwner resolved
    · rcases writer both with ⟨writerName, registered⟩
      exact ⟨_, dnsWriterArnOf_eq_ok.mpr (Or.inl ⟨both, writerName, registered, rfl⟩)⟩
    · exact ⟨_, dnsWriterArnOf_eq_ok.mpr (Or.inr ⟨both, rfl⟩)⟩
  rcases writerLoads with ⟨arn, writerLoads⟩
  simp only [dnsOwnerOf, bind_eq_ok, lift_eq_ok] at owner
  rcases owner with ⟨envAccounts, envLoaded, owner⟩
  rcases domains_of_resolves resolves (scopePaths_ne_nil scope) with ⟨domains, domainsLoaded⟩
  rw [mapM_resolveUnit envLoaded domainsLoaded] at resolves
  cases computed : resolveOutputs rt files unitPath includeDirFlags onDemand with
  | ok lines => exact ⟨lines, rfl⟩
  | error error =>
      have loaded := loadDeployRoleName_eq_ok.mpr role
      rw [primaryAccount] at loaded
      simp only [resolveOutputs, envLoaded, domainsLoaded, owner, scope, resolves, few, loaded,
        writerLoads, liftResolve_ok, liftBuiltin_ok, ok_bind, if_false] at computed
      cases computed

end Resolution

section Agreement

variable {units : List Str} {dnsOwner flags : Str} {resolved : List (Str × Str)}

/-- Every account that has units has a region. -/
def HasRegions (envAccounts domains : rt.Value) (units : List Str) (groups : Groups) : Prop :=
  ∀ unit ∈ units, ∀ pair, resolveAccountId rt unit envAccounts domains = .ok pair →
    (dictGet? groups.regionByAccount pair.2).isSome

theorem hasRegions_append {envAccounts domains : rt.Value} {groups next : Groups} {unit : Str}
    (known : HasRegions envAccounts domains units groups)
    (added : addUnit rt envAccounts domains groups unit = .ok next) :
    HasRegions envAccounts domains (units ++ [unit]) next := by
  intro other otherMem pair found
  rcases bind_eq_ok.mp added with ⟨⟨region, accountId⟩, resolved, result⟩
  cases result
  simp only [dictSetDefault]
  rcases List.mem_append.mp otherMem with old | new
  · have before := known other old pair found
    split
    · exact before
    · rw [dictGet?_dictSet]
      split
      · rfl
      · exact before
  · have same := List.mem_singleton.mp new
    subst same
    rw [resolved] at found
    cases found
    split
    · assumption
    · rw [dictGet?_dictSet, if_pos rfl]
      rfl

theorem hasRegions_of_foldlM {envAccounts domains : rt.Value} {groups : Groups}
    (looped : units.foldlM (addUnit rt envAccounts domains) ⟨[], []⟩ = .ok groups) :
    HasRegions envAccounts domains units groups := by
  have start : HasRegions envAccounts domains [] ⟨[], []⟩ := by simp [HasRegions]
  have all := foldlM_invariant (HasRegions envAccounts domains)
    (fun done state unit next => hasRegions_append) start looped
  rw [List.nil_append] at all
  exact all

/-- Units that resolve are grouped. -/
theorem exists_groups {envAccounts domains : rt.Value}
    (resolvesEach : ∀ unit ∈ units, ∃ pair ∈ resolved,
      resolveAccountId rt unit envAccounts domains = .ok pair) :
    ∃ groups, units.foldlM (addUnit rt envAccounts domains) ⟨[], []⟩ = .ok groups := by
  apply exists_foldlM_ok
  intro unit unitMem groups
  rcases resolvesEach unit unitMem with ⟨_, _, found⟩
  exact ⟨_, by rw [addUnit, found]; rfl⟩

/-- The groups of an applicable scope make rows: each account has a role, a region and units. -/
theorem exists_rows {envAccounts domains accounts : rt.Value}
    (applicable : Applicable rt files onDemand units dnsOwner resolved)
    (accountsLoaded : rt.loads files.accounts = .ok accounts)
    (resolvesEach : ∀ unit ∈ units, ∃ pair ∈ resolved,
      resolveAccountId rt unit envAccounts domains = .ok pair)
    (looped : units.foldlM (addUnit rt envAccounts domains) ⟨[], []⟩ = .ok groups) :
    ∃ rows, ((groups.byAccount.map Prod.fst).mergeSort strLe).mapM (rowOf rt accounts
      files.accountsJsonPath dnsOwner modeApply onDemand groups) = .ok rows := by
  rcases placed_of_foldlM looped with ⟨pairs, units_pairs, placed, grouped⟩
  apply exists_mapM_eq_ok.mpr
  intro accountId keyMem
  rw [(List.mergeSort_perm _ _).mem_iff] at keyMem
  have unitsKnown := dictGet?_isSome.mpr keyMem
  rw [grouped.keys] at keyMem
  rcases List.mem_map.mp keyMem with ⟨placedPair, placedMem, rfl⟩
  rcases placed placedPair placedMem with ⟨region, found⟩
  have unitMem : placedPair.2 ∈ units := by
    rw [← units_pairs]
    exact List.mem_map_of_mem placedMem
  rcases resolvesEach placedPair.2 unitMem with ⟨other, otherMem, found'⟩
  rw [found] at found'
  cases found'
  rcases applicable.registered _ otherMem with ⟨otherName, otherRegistered⟩
  have role := loadRoleName_of_registered files.accountsJsonPath accountsLoaded otherRegistered
  have regions := hasRegions_of_foldlM looped
  rcases Option.isSome_iff_exists.mp (regions _ unitMem _ found) with ⟨_, regionKnown⟩
  rcases Option.isSome_iff_exists.mp unitsKnown with ⟨_, unitsKnown⟩
  exact ⟨_, by simp only [rowOf, role, dictItem, regionKnown, unitsKnown, ok_bind, lift_ok]; rfl⟩

/-- The partition of the apply lane has a row for every account of an applicable scope. -/
theorem row_of_applicable (applicable : Applicable rt files onDemand units dnsOwner resolved)
    (units_eq : findIncludeDirs flags = units) {pair : Str × Str} (pairMem : pair ∈ resolved)
    {name : Str} (registered : Registered rt files onDemand pair.2 name) :
    ∃ rows row, partition rt files flags modeApply onDemand = .ok rows ∧ row ∈ rows ∧
      row.accountId = pair.2 ∧ row.roleArn = buildRoleArn pair.2 name := by
  have resolves := applicable.resolves
  have owner := applicable.owner
  rcases exists_of_mem_forall₂ (forall₂_of_mapM resolves) pairMem with ⟨unit, unitMem, found⟩
  simp only [dnsOwnerOf, bind_eq_ok, lift_eq_ok] at owner
  rcases owner with ⟨envAccounts, envLoaded, owner⟩
  rcases domains_of_resolves resolves (List.ne_nil_of_mem unitMem) with ⟨domains, domainsLoaded⟩
  have accountsLoad : ∃ accounts, rt.loads files.accounts = .ok accounts := by
    rcases registered with ⟨accounts, _, _, _, loaded, _⟩
    exact ⟨_, loaded⟩
  rcases accountsLoad with ⟨accounts, accountsLoaded⟩
  rw [mapM_resolveUnit envLoaded domainsLoaded] at resolves
  have each := forall₂_of_mapM resolves
  have resolvesEach : ∀ unit ∈ units, ∃ pair ∈ resolved,
      resolveAccountId rt unit envAccounts domains = .ok pair := by
    intro unit unitMem
    exact exists_of_mem_forall₂ each.flip unitMem
  rcases exists_groups resolvesEach with ⟨groups, looped⟩
  rcases placed_of_foldlM looped with ⟨pairs, units_pairs, placed, grouped⟩
  rcases exists_rows applicable accountsLoaded resolvesEach looped with ⟨rows, made⟩
  have partitioned : partition rt files flags modeApply onDemand = .ok rows := by
    have known : ¬(modeApply ≠ modePlan ∧ modeApply ≠ modeApply) := fun both => both.2 rfl
    have solid : ¬strip flags = [] := by
      intro stripped
      rw [← units_eq, findIncludeDirs_of_renders (.nil (isGap_of_strip stripped))] at unitMem
      cases unitMem
    have extracted : extractAllUnitPaths flags = .ok units := by
      rw [extractAllUnitPaths, units_eq, if_neg (List.ne_nil_of_mem unitMem)]
    simp only [partition, if_neg known, if_neg solid, envLoaded, domainsLoaded, accountsLoaded,
      owner, extracted, looped, lift_ok, ok_bind]
    exact made
  have keyMem : pair.2 ∈ (groups.byAccount.map Prod.fst).mergeSort strLe := by
    rw [(List.mergeSort_perm _ _).mem_iff, grouped.keys]
    rw [← units_pairs] at unitMem
    rcases List.mem_map.mp unitMem with ⟨placedPair, placedMem, rfl⟩
    rcases placed placedPair placedMem with ⟨region, found'⟩
    rw [resolveUnit, envLoaded, domainsLoaded] at found
    simp only [lift_ok, ok_bind, found', Except.ok.injEq] at found
    rw [← found]
    exact List.mem_map_of_mem placedMem
  rcases exists_of_mem_forall₂ (forall₂_of_mapM made).flip keyMem with ⟨row, rowMem, rowMade⟩
  rcases rowOf_eq_ok rowMade with ⟨account_eq, _, roleName, roleLoaded, arn_eq⟩
  rw [loadRoleName_of_registered files.accountsJsonPath accountsLoaded registered] at roleLoaded
  cases roleLoaded
  exact ⟨rows, row, partitioned, rowMem, account_eq, arn_eq⟩

end Agreement

section Writing

variable {lines : List (Str × Str)}

/-- The lines are written when all of them have an encoding. -/
theorem writeOutputs_eq_ok :
    (writeOutputs lines).2 = .ok () ↔ ∀ line ∈ lines, Encodable line.1 ∧ Encodable line.2 := by
  induction lines with
  | nil => simp [writeOutputs]
  | cons line lines ih =>
      rcases line with ⟨key, value⟩
      rw [List.forall_mem_cons, ← ih]
      have whole : Encodable (key ++ str "=" ++ value ++ str "\n") ↔
          Encodable key ∧ Encodable value := by simp
      rw [← whole]
      by_cases encodable : Encodable (key ++ str "=" ++ value ++ str "\n")
      · rcases encode_eq_ok encodable with ⟨bytes, encoded⟩
        simp only [writeOutputs, encoded, encodable, true_and]
      · simp only [writeOutputs, encode_eq_error encodable, encodable, false_and, reduceCtorEq]

theorem writeOutputs_written (wrote : (writeOutputs lines).2 = .ok ()) :
    (writeOutputs lines).1 = lines := by
  induction lines with
  | nil => rfl
  | cons line lines ih =>
      rcases line with ⟨key, value⟩
      simp only [writeOutputs] at wrote ⊢
      split at wrote
      · cases wrote
      · exact congrArg _ (ih wrote)

theorem isScalar_of_isRegion {segment : Str} (region : isRegion segment = true) :
    Encodable segment := by
  have scalar {c : Chr} (small : c.code < 0x80) : c.isScalar = true := by
    cases c with
    | char scalar => rfl
    | surrogate unit =>
        simp only [Chr.code] at small
        omega
  have lower {c : Chr} (found : isLower c = true) : c.isScalar = true := by
    simp only [isLower, Bool.and_eq_true, decide_eq_true_eq] at found
    exact scalar (by omega)
  have decimal {c : Chr} (found : isDecimal c = true) : c.isScalar = true := by
    simp only [isDecimal, Bool.and_eq_true, decide_eq_true_eq] at found
    exact scalar (by omega)
  cases segment with
  | nil => simp
  | cons first rest =>
      simp only [isRegion] at region
      split at region
      · cases region
      · next dash name split =>
          simp only [Bool.and_eq_true, decide_eq_true_eq, List.all_eq_true, Bool.or_eq_true]
            at region
          rcases region with ⟨⟨⟨⟨firstLower, _⟩, rfl⟩, _⟩, all⟩
          rw [encodable_cons]
          refine ⟨lower firstLower, fun c cMem => ?_⟩
          rw [← List.mem_reverse,
            ← List.takeWhile_append_dropWhile (p := isDecimal) (l := rest.reverse), split,
            List.mem_append, List.mem_cons] at cMem
          rcases cMem with digit | rfl | named
          · exact decimal (List.mem_takeWhile_imp digit)
          · rfl
          · rcases all c named with (isLower | isDecimal) | rfl
            · exact lower isLower
            · exact decimal isDecimal
            · rfl

theorem isRegion_of_matchUnitPath {text : Str} {path : UnitPath}
    (found : matchUnitPath text = some path) : isRegion path.region = true := by
  simp only [matchUnitPath, Option.bind_eq_bind, Option.bind_eq_some_iff] at found
  rcases found with ⟨tail, _, found⟩
  split at found
  · split at found
    · next matched =>
        simp only [Option.bind_eq_some_iff] at found
        rcases found with ⟨_, _, returned⟩
        cases returned
        exact matched.1
    · cases found
  · cases found

theorem isRegion_of_searchUnitPath {text : Str} {path : UnitPath}
    (found : searchUnitPath text = some path) : isRegion path.region = true := by
  induction text with
  | nil => cases found
  | cons c rest ih =>
      rw [searchUnitPath] at found
      cases here : matchUnitPath (c :: rest) with
      | none =>
          rw [here] at found
          exact ih found
      | some matched =>
          rw [here] at found
          cases found
          exact isRegion_of_matchUnitPath here

/-- The region of a unit that resolves is plain text. -/
theorem encodable_region {unit : Str} {pair : Str × Str}
    (resolved : resolveUnit rt files unit = .ok pair) : Encodable pair.1 := by
  simp only [resolveUnit, resolveAccountId, bind_eq_ok, lift_eq_ok] at resolved
  rcases resolved with ⟨_, _, _, _, path, parsed, _, _, _, _, resolved⟩
  have region_eq : pair.1 = path.region := by
    split at resolved
    · simp only [bind_eq_ok] at resolved
      rcases resolved with ⟨_, _, returned⟩
      cases returned
      rfl
    · simp only [bind_eq_ok] at resolved
      rcases resolved with ⟨_, _, returned⟩
      cases returned
      rfl
  rw [region_eq]
  rw [parseUnitPath] at parsed
  split at parsed
  · next searched =>
      cases parsed
      exact isScalar_of_isRegion (isRegion_of_searchUnitPath searched)
  · cases parsed

end Writing

section Rule

variable {units : List Str} {dnsOwner dnsOwner' : Str} {resolved resolved' lines : List (Str × Str)}

theorem Registered.unique {accountId first second : Str}
    (left : Registered rt files onDemand accountId first)
    (right : Registered rt files onDemand accountId second) : first = second := by
  rw [← loadDeployRoleName_eq_ok] at left right
  rw [left] at right
  exact Except.ok.inj right

/-- The configuration fixes what the units of a scope resolve to. -/
theorem Applicable.unique (left : Applicable rt files onDemand units dnsOwner resolved)
    (right : Applicable rt files onDemand units dnsOwner' resolved') :
    dnsOwner = dnsOwner' ∧ resolved = resolved' :=
  ⟨Except.ok.inj (left.owner.symm.trans right.owner),
    Except.ok.inj (left.resolves.symm.trans right.resolves)⟩

theorem encodable_buildRoleArn {accountId roleName : Str} :
    Encodable (buildRoleArn accountId roleName) ↔ Encodable accountId ∧ Encodable roleName := by
  simp [buildRoleArn]

/-- The lines of a scope can be written exactly when the roles of its accounts can. -/
theorem writeOutputs_of_linesOf (applicable : Applicable rt files onDemand units dnsOwner resolved)
    (nonempty : resolved ≠ []) (computed : LinesOf rt files onDemand dnsOwner resolved lines) :
    (writeOutputs lines).2 = .ok () ↔ ∀ pair ∈ resolved, ∀ roleName,
      Registered rt files onDemand pair.2 roleName → Encodable pair.2 ∧ Encodable roleName := by
  rw [writeOutputs_eq_ok, forall_accounts_iff (fun account => ∀ roleName,
    Registered rt files onDemand account roleName → Encodable account ∧ Encodable roleName)
    nonempty applicable.oneService]
  rcases computed with ⟨roleName, needsDnsWriter, dnsWriterArn, role, rfl, writer⟩
  have region : Encodable ((resolved.head?.map Prod.fst).getD []) := by
    cases resolved with
    | nil => simp
    | cons pair rest =>
        have pairMem : pair ∈ pair :: rest := List.mem_cons_self
        rcases exists_of_mem_forall₂ (forall₂_of_mapM applicable.resolves) pairMem with
          ⟨unit, _, found⟩
        exact encodable_region found
  have keys : Encodable roleArnKey ∧ Encodable awsRegionKey ∧ Encodable targetAccountIdKey ∧
      Encodable needsDnsWriterKey ∧ Encodable dnsWriterArnKey := by
    decide
  have primary : (∀ other, Registered rt files onDemand (primaryAccount dnsOwner resolved) other →
      Encodable (primaryAccount dnsOwner resolved) ∧ Encodable other) ↔
        Encodable (primaryAccount dnsOwner resolved) ∧ Encodable roleName := by
    constructor
    · exact fun all => all roleName role
    · intro both other registered
      rw [registered.unique role]
      exact both
  have chained : (BothKinds dnsOwner resolved → ∀ other,
      Registered rt files onDemand dnsOwner other → Encodable dnsOwner ∧ Encodable other) ↔
        Encodable dnsWriterArn := by
    rcases writer with ⟨both, _, writerName, registered, rfl⟩ | ⟨single, _, rfl⟩
    · rw [encodable_buildRoleArn]
      constructor
      · exact fun all => all both writerName registered
      · intro encodable _ other otherRegistered
        rw [otherRegistered.unique registered]
        exact encodable
    · simp [single]
  have flag : Encodable needsDnsWriter := by
    rcases writer with ⟨_, rfl, _⟩ | ⟨_, rfl, _⟩
    · simp
    · simp
  rw [primary, chained]
  simp only [List.forall_mem_cons, encodable_buildRoleArn, keys, region, flag, true_and, and_true]
  constructor
  · rintro ⟨arn, _, writerArn, _⟩
    exact ⟨arn, writerArn⟩
  · rintro ⟨arn, writerArn⟩
    exact ⟨arn, arn.1, writerArn, nofun⟩

/-- In one region the lines say what the rule asks for. -/
theorem outputs_of_linesOf (applicable : Applicable rt files onDemand units dnsOwner resolved)
    (nonempty : resolved ≠ [])
    (oneRegion : ∀ pair ∈ resolved, ∀ other ∈ resolved, pair.1 = other.1)
    (computed : LinesOf rt files onDemand dnsOwner resolved lines) :
    ∃ accountId region roleName,
      Outputs rt files onDemand units dnsOwner resolved lines accountId region roleName := by
  rcases computed with ⟨roleName, needsDnsWriter, dnsWriterArn, role, lines_eq, writer⟩
  refine ⟨_, _, roleName, ⟨needsDnsWriter, dnsWriterArn, lines_eq, writer⟩,
    primaryAccount_spec dnsOwner resolved, role, ?_, ?_⟩
  · cases resolved with
    | nil => exact absurd rfl nonempty
    | cons first rest => exact fun pair pairMem => oneRegion pair pairMem first List.mem_cons_self
  · intro flags units_eq
    have occurs : ∃ pair ∈ resolved, pair.2 = primaryAccount dnsOwner resolved := by
      rcases primaryAccount_spec dnsOwner resolved with ⟨_, occurs⟩ | ⟨same, owned⟩
      · exact occurs
      · rcases List.exists_mem_of_ne_nil resolved nonempty with ⟨pair, pairMem⟩
        exact ⟨pair, pairMem, (owned pair pairMem).trans same.symm⟩
    rcases occurs with ⟨pair, pairMem, same⟩
    rw [← same] at role ⊢
    exact row_of_applicable applicable units_eq pairMem role

end Rule

/--
For every configuration, lane and scope: the resolution keeps the rule exactly when the
units of the scope, if it may be applied, lie in one region and the roles of their
accounts can be written to the output file.
-/
theorem scopeRule_iff (rt : Runtime) (files : ConfigFiles) (unitPath includeDirFlags : Option Str)
    (onDemand : Bool) {units : List Str}
    (scope : scopePaths unitPath includeDirFlags = .ok units) :
    ScopeRule rt files onDemand units
        (resolveDeployRole rt files unitPath includeDirFlags onDemand).1
        (resolveDeployRole rt files unitPath includeDirFlags onDemand).2 ↔
      ∀ dnsOwner resolved, Applicable rt files onDemand units dnsOwner resolved →
        Uniform rt files onDemand resolved := by
  constructor
  · intro rule dnsOwner resolved applicable
    have returned := rule.returns.mpr ⟨dnsOwner, resolved, applicable⟩
    have nonempty := mapM_ne_nil applicable.resolves (scopePaths_ne_nil scope)
    constructor
    · rcases rule.outputs returned with ⟨dnsOwner', resolved', _, region, _, applicable', outputs⟩
      rcases applicable.unique applicable' with ⟨rfl, rfl⟩
      intro pair pairMem other otherMem
      rw [outputs.region pair pairMem, outputs.region other otherMem]
    · rcases resolveOutputs_of_applicable scope applicable with ⟨lines, computed⟩
      rcases applicable_of_resolveOutputs scope computed with
        ⟨dnsOwner', resolved', applicable', linesOf⟩
      rcases applicable.unique applicable' with ⟨rfl, rfl⟩
      rw [resolveDeployRole, computed] at returned
      exact (writeOutputs_of_linesOf applicable nonempty linesOf).mp returned
  · intro uniform
    cases computed : resolveOutputs rt files unitPath includeDirFlags onDemand with
    | error error =>
        rw [resolveDeployRole, computed]
        refine ⟨⟨nofun, ?_⟩, nofun, fun _ _ => rfl⟩
        rintro ⟨dnsOwner, resolved, applicable⟩
        rcases resolveOutputs_of_applicable scope applicable with ⟨lines, computed'⟩
        rw [computed] at computed'
        cases computed'
    | ok lines =>
        rcases applicable_of_resolveOutputs scope computed with
          ⟨dnsOwner, resolved, applicable, linesOf⟩
        have nonempty := mapM_ne_nil applicable.resolves (scopePaths_ne_nil scope)
        rcases uniform dnsOwner resolved applicable with ⟨oneRegion, encodable⟩
        have wrote := (writeOutputs_of_linesOf applicable nonempty linesOf).mpr encodable
        rw [resolveDeployRole, computed]
        dsimp only
        rw [wrote, writeOutputs_written wrote]
        refine ⟨⟨fun _ => ⟨dnsOwner, resolved, applicable⟩, fun _ => rfl⟩, fun _ => ?_, nofun⟩
        rcases outputs_of_linesOf applicable nonempty oneRegion linesOf with
          ⟨accountId, region, roleName, outputs⟩
        exact ⟨dnsOwner, resolved, accountId, region, roleName, applicable, outputs⟩

namespace Sample

def westUnit : Str := str "live/telemetry/us-west-2/sandbox/000/lake"

theorem resolve_units : ([unit, westUnit].mapM (resolveUnit Runtime.whole common)).toOption =
    some [(str "us-east-1", str "111111111111"), (str "us-west-2", str "111111111111")] := by
  decide +kernel

/-- Two units of one region. -/
def eastUnits : List Str := [unit, str "live/telemetry/us-east-1/sandbox/000/collector"]

theorem scopePaths_eastUnits :
    (scopePaths none (some (reassembleFlags eastUnits))).toOption = some eastUnits := by
  decide +kernel

theorem resolve_eastUnits : (eastUnits.mapM (resolveUnit Runtime.whole common)).toOption =
    some [(str "us-east-1", str "111111111111"), (str "us-east-1", str "111111111111")] := by
  decide +kernel

theorem role_unit : (loadDeployRoleName Runtime.whole common (str "111111111111") false).toOption =
    some (str "deploy") := by
  decide +kernel

theorem returns_units : (resolveDeployRole Runtime.whole common none
    (some (reassembleFlags [unit, westUnit])) false).2.toOption = some () := by
  decide +kernel

theorem eq_ok_of_toOption {ε α : Type} {result : Except ε α} {value : α}
    (found : result.toOption = some value) : result = .ok value := by
  cases result with
  | ok other => exact congrArg _ (Option.some.inj found)
  | error error => cases found

end Sample

theorem scopeRule_eastUnits : ScopeRule Runtime.whole Sample.common false Sample.eastUnits
    (resolveDeployRole Runtime.whole Sample.common none
      (some (reassembleFlags Sample.eastUnits)) false).1
    (resolveDeployRole Runtime.whole Sample.common none
      (some (reassembleFlags Sample.eastUnits)) false).2 := by
  apply (scopeRule_iff Runtime.whole Sample.common none
    (some (reassembleFlags Sample.eastUnits)) false
    (Sample.eq_ok_of_toOption Sample.scopePaths_eastUnits)).mpr
  intro dnsOwner resolved applicable
  have resolves := Sample.eq_ok_of_toOption Sample.resolve_eastUnits
  rw [applicable.resolves] at resolves
  cases resolves
  constructor
  · decide
  · intro pair pairMem roleName registered
    have account : pair.2 = str "111111111111" := by
      rcases List.mem_pair.mp pairMem with rfl | rfl <;> rfl
    have role := Sample.eq_ok_of_toOption Sample.role_unit
    rw [account, ← loadDeployRoleName_eq_ok, role] at registered
    cases registered
    rw [account]
    decide

/-- A scope of two regions is written with the region of its first unit. -/
theorem not_scopeRule_regions : ¬ScopeRule Runtime.whole Sample.common false
    [Sample.unit, Sample.westUnit]
    (resolveDeployRole Runtime.whole Sample.common none
      (some (reassembleFlags [Sample.unit, Sample.westUnit])) false).1
    (resolveDeployRole Runtime.whole Sample.common none
      (some (reassembleFlags [Sample.unit, Sample.westUnit])) false).2 := by
  intro rule
  have returned := Sample.eq_ok_of_toOption Sample.returns_units
  rcases rule.outputs returned with ⟨_, resolved, _, region, _, applicable, outputs⟩
  have resolves := Sample.eq_ok_of_toOption Sample.resolve_units
  rw [applicable.resolves] at resolves
  cases resolves
  have east := outputs.region _ List.mem_cons_self
  have west := outputs.region _ (List.mem_cons_of_mem _ List.mem_cons_self)
  rw [← east] at west
  revert west
  decide

end Deploy
