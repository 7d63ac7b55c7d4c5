import Mathlib.Data.List.Sort
import TelemetryPlatform.Deploy.Scope
import TelemetryPlatform.Library.WholeRuntime

/-!
# The matrix covers the scope

Each row of the matrix runs its units under the role of one account, so a unit
that is dropped, doubled or put into the row of another account is applied wrongly
or not at all. `partition_covers` says that the rows are an exact cover of the
scope by the accounts its units resolve to, that there are no rows when an account
fails, and that the filter of the apply lane agrees with the partition: what it
keeps is never refused as local-only.
-/

namespace Deploy

open Python

variable {rt : Runtime} {files : ConfigFiles}

@[simp]
theorem lift_ok {α : Type} (value : α) :
    (liftM (Except.ok value : Except Exc α) : Except DeployError α) = .ok value := rfl

@[simp]
theorem lift_error {α : Type} (error : Exc) :
    (liftM (Except.error error : Except Exc α) : Except DeployError α) =
      .error (.builtin error) := rfl

theorem lift_eq_ok {α : Type} {result : Except Exc α} {value : α} :
    (liftM result : Except DeployError α) = .ok value ↔ result = .ok value := by
  cases result <;> simp

variable (rt files) in
/-- The region and the account of a unit under the configuration. -/
def resolveUnit (unit : Str) : Except DeployError (Str × Str) := do
  let envAccounts ← rt.loads files.envAccounts
  let domains ← rt.loads files.domains
  resolveAccountId rt unit envAccounts domains

variable (rt files) in
/-- The role of an account under the configuration. -/
def roleName (mode : Str) (onDemand : Bool) (accountId : Str) : Except DeployError Str := do
  let accounts ← rt.loads files.accounts
  loadRoleName rt accountId accounts mode files.accountsJsonPath onDemand

variable (rt files) in
/-- The unit resolves to the account. -/
def resolvesTo (accountId unit : Str) : Bool :=
  match resolveUnit rt files unit with
  | .ok resolved => resolved.2 = accountId
  | .error _ => false

section Groups

variable {envAccounts domains : rt.Value}

/-- The units done so far, each with the account it resolved to, and their groups. -/
def Placed (envAccounts domains : rt.Value) (units : List Str) (groups : Groups) : Prop :=
  ∃ placed : List (Str × Str), placed.map Prod.snd = units ∧
    (∀ pair ∈ placed, ∃ region,
      resolveAccountId rt pair.2 envAccounts domains = .ok (region, pair.1)) ∧
    Grouped placed groups.byAccount

theorem placed_nil : Placed envAccounts domains [] ⟨[], []⟩ :=
  ⟨[], rfl, by simp, .nil⟩

theorem placed_append {units : List Str} {groups next : Groups} {unit : Str}
    (placed : Placed envAccounts domains units groups)
    (added : addUnit rt envAccounts domains groups unit = .ok next) :
    Placed envAccounts domains (units ++ [unit]) next := by
  rcases placed with ⟨pairs, rfl, resolved, grouped⟩
  rcases bind_eq_ok.mp added with ⟨⟨region, accountId⟩, found, result⟩
  cases result
  refine ⟨pairs ++ [(accountId, unit)], by simp, ?_, grouped.append accountId unit⟩
  intro pair pairMem
  rcases List.mem_append.mp pairMem with old | new
  · exact resolved pair old
  · rw [List.mem_singleton.mp new]
    exact ⟨region, found⟩

/-- The loop over the units places each of them under the account it resolves to. -/
theorem placed_of_foldlM {units : List Str} {groups : Groups}
    (looped : units.foldlM (addUnit rt envAccounts domains) ⟨[], []⟩ = .ok groups) :
    Placed envAccounts domains units groups := by
  have placed := foldlM_invariant (Placed envAccounts domains)
    (fun done state unit next => placed_append) placed_nil looped
  simpa using placed

end Groups

section Partition

variable {flags mode : Str} {onDemand : Bool}

/-- What a partition that returns has read and computed. -/
theorem partition_eq_ok {rows : List Row}
    (partitioned : partition rt files flags mode onDemand = .ok rows) :
    (IsGap flags ∧ rows = []) ∨
      ∃ envAccounts domains accounts dnsOwnerAccountId groups,
        rt.loads files.envAccounts = .ok envAccounts ∧ rt.loads files.domains = .ok domains ∧
        rt.loads files.accounts = .ok accounts ∧
        (findIncludeDirs flags).foldlM (addUnit rt envAccounts domains) ⟨[], []⟩ = .ok groups ∧
        ((groups.byAccount.map Prod.fst).mergeSort strLe).mapM (rowOf rt accounts
          files.accountsJsonPath dnsOwnerAccountId mode onDemand groups) = .ok rows := by
  rw [partition] at partitioned
  split at partitioned
  · cases partitioned
  · split at partitioned
    · next stripped =>
        cases partitioned
        exact Or.inl ⟨isGap_of_strip stripped, rfl⟩
    · simp only [bind_eq_ok, lift_eq_ok] at partitioned
      rcases partitioned with ⟨envAccounts, envLoaded, domains, domainsLoaded, accounts,
        accountsLoaded, owner, _, units, extracted, groups, looped, rowsMade⟩
      rw [extractAllUnitPaths_eq_ok extracted] at looped
      exact Or.inr ⟨envAccounts, domains, accounts, owner, groups, envLoaded, domainsLoaded,
        accountsLoaded, looped, rowsMade⟩

/-- What the row of an account says. -/
theorem rowOf_eq_ok {accounts : rt.Value} {path owner accountId : Str} {groups : Groups}
    {row : Row} (made : rowOf rt accounts path owner mode onDemand groups accountId = .ok row) :
    row.accountId = accountId ∧
      row.includeDirFlags = reassembleFlags ((dictGet? groups.byAccount accountId).getD []) ∧
      ∃ roleName, loadRoleName rt accountId accounts mode path onDemand = .ok roleName ∧
        row.roleArn = buildRoleArn accountId roleName := by
  simp only [rowOf, bind_eq_ok, lift_eq_ok] at made
  rcases made with ⟨roleName, loaded, region, _, units, found, row_eq⟩
  cases row_eq
  rw [dictItem] at found
  split at found
  · next grouped =>
      cases found
      rw [grouped]
      exact ⟨rfl, rfl, roleName, loaded, rfl⟩
  · cases found

variable (rt files) in
/-- The rows are an exact cover of the units by account. -/
structure ExactCover (units : List Str) (rows : List Row) : Prop where
  distinct : (rows.map Row.accountId).Nodup
  resolved : ∀ row ∈ rows, ∀ unit ∈ findIncludeDirs row.includeDirFlags,
    ∃ region, resolveUnit rt files unit = .ok (region, row.accountId)
  ordered : ∀ row ∈ rows, findIncludeDirs row.includeDirFlags =
    units.filter (resolvesTo rt files row.accountId)
  covers : (rows.flatMap fun row => findIncludeDirs row.includeDirFlags).Perm units

theorem ExactCover.nil : ExactCover rt files [] [] :=
  ⟨List.nodup_nil, by simp, by simp, .refl _⟩

/-- The values of an account among placed units are the units that resolve to it. -/
theorem valuesAt_eq_filter {pairs : List (Str × Str)} {accountId : Str}
    (resolved : ∀ pair ∈ pairs, ∃ region, resolveUnit rt files pair.2 = .ok (region, pair.1)) :
    valuesAt pairs accountId = (pairs.map Prod.snd).filter (resolvesTo rt files accountId) := by
  rw [valuesAt, List.filter_map]
  congr 1
  apply List.filter_congr
  intro pair pairMem
  rcases resolved pair pairMem with ⟨region, found⟩
  simp [resolvesTo, found]

/-- A partition that returns covers the units of its scope. -/
theorem exactCover_of_partition {units : List Str} {rows : List Row}
    (units_eq : findIncludeDirs flags = units)
    (partitioned : partition rt files flags mode onDemand = .ok rows) :
    ExactCover rt files units rows := by
  rcases partition_eq_ok partitioned with ⟨isGap, rfl⟩ |
    ⟨envAccounts, domains, accounts, owner, groups, envLoaded, domainsLoaded, _, looped, made⟩
  · have none : units = [] := by
      rw [← units_eq, findIncludeDirs_of_renders (.nil isGap)]
    rw [none]
    exact .nil
  · rw [units_eq] at looped
    rcases placed_of_foldlM looped with ⟨pairs, units_pairs, placed, grouped⟩
    have resolved : ∀ pair ∈ pairs, ∃ region,
        resolveUnit rt files pair.2 = .ok (region, pair.1) := by
      intro pair pairMem
      rcases placed pair pairMem with ⟨region, found⟩
      exact ⟨region, by simp [resolveUnit, envLoaded, domainsLoaded, found, bind, Except.bind]⟩
    have solid := isUnitPath_of_findIncludeDirs flags
    rw [units_eq, ← units_pairs] at solid
    have each := forall₂_of_mapM made
    have sorted := List.mergeSort_perm (groups.byAccount.map Prod.fst) strLe
    have unitsAt {accountId : Str} {row : Row} (rowMade : rowOf rt accounts
        files.accountsJsonPath owner mode onDemand groups accountId = .ok row) :
        findIncludeDirs row.includeDirFlags = valuesAt pairs accountId := by
      rw [(rowOf_eq_ok rowMade).2.1, grouped.values]
      apply findIncludeDirs_of_renders
      apply renders_reassembleFlags
      intro unit unitMem
      rcases List.mem_map.mp unitMem with ⟨pair, pairMem, rfl⟩
      exact solid pair.2 (List.mem_map_of_mem (List.mem_filter.mp pairMem).1)
    have ordered : ∀ row ∈ rows, findIncludeDirs row.includeDirFlags =
        units.filter (resolvesTo rt files row.accountId) := by
      intro row rowMem
      rcases exists_of_mem_forall₂ each rowMem with ⟨accountId, _, rowMade⟩
      rw [unitsAt rowMade, (rowOf_eq_ok rowMade).1, ← units_pairs]
      exact valuesAt_eq_filter resolved
    constructor
    · have accounts_eq : rows.map Row.accountId =
          ((groups.byAccount.map Prod.fst).mergeSort strLe).map id :=
        map_eq_map_of_forall₂ each fun _ _ rowMade => (rowOf_eq_ok rowMade).1
      rw [accounts_eq, List.map_id, sorted.nodup_iff]
      exact grouped.nodup
    · intro row rowMem unit unitMem
      rw [ordered row rowMem] at unitMem
      have found := (List.mem_filter.mp unitMem).2
      rw [resolvesTo] at found
      split at found
      · next resolvedUnit found' =>
          have account_eq : resolvedUnit.2 = row.accountId := by simpa using found
          exact ⟨resolvedUnit.1, by rw [found', ← account_eq]⟩
      · cases found
    · exact ordered
    · have flattened : (rows.flatMap fun row => findIncludeDirs row.includeDirFlags) =
          ((groups.byAccount.map Prod.fst).mergeSort strLe).flatMap (valuesAt pairs) := by
        rw [List.flatMap_def, List.flatMap_def, map_eq_map_of_forall₂ each fun _ _ => unitsAt]
      rw [flattened, ← units_pairs]
      apply flatMap_valuesAt_perm
      · rw [sorted.nodup_iff]
        exact grouped.nodup
      · intro pair pairMem
        rw [sorted.mem_iff, grouped.keys]
        exact List.mem_map_of_mem pairMem

variable (rt files mode onDemand) in
/-- The unit has no account, or its account has no role in the mode. -/
def Failing (unit : Str) : Prop :=
  (∃ error, resolveUnit rt files unit = .error error) ∨
    ∃ region accountId error, resolveUnit rt files unit = .ok (region, accountId) ∧
      roleName rt files mode onDemand accountId = .error error

/-- One failing unit is enough to leave the scope without rows. -/
theorem partition_raises {units : List Str} {unit : Str} (renders : Renders units flags)
    (unitMem : unit ∈ units) (failing : Failing rt files mode onDemand unit) :
    ∃ error, partition rt files flags mode onDemand = .error error := by
  cases partitioned : partition rt files flags mode onDemand with
  | error error => exact ⟨error, rfl⟩
  | ok rows =>
      exfalso
      have units_eq : findIncludeDirs flags = units := findIncludeDirs_of_renders renders
      rcases partition_eq_ok partitioned with ⟨isGap, _⟩ | ⟨envAccounts, domains, accounts, owner,
        groups, envLoaded, domainsLoaded, accountsLoaded, looped, made⟩
      · rw [← units_eq, findIncludeDirs_of_renders (.nil isGap)] at unitMem
        cases unitMem
      · rw [units_eq] at looped
        rcases placed_of_foldlM looped with ⟨pairs, rfl, placed, grouped⟩
        rcases List.mem_map.mp unitMem with ⟨pair, pairMem, rfl⟩
        rcases placed pair pairMem with ⟨region, found⟩
        have resolved : resolveUnit rt files pair.2 = .ok (region, pair.1) := by
          simp [resolveUnit, envLoaded, domainsLoaded, found, bind, Except.bind]
        have accountMem : pair.1 ∈ (groups.byAccount.map Prod.fst).mergeSort strLe := by
          rw [(List.mergeSort_perm _ _).mem_iff, grouped.keys]
          exact List.mem_map_of_mem pairMem
        rcases exists_mapM_eq_ok.mp ⟨rows, made⟩ pair.1 accountMem with ⟨row, rowMade⟩
        rcases (rowOf_eq_ok rowMade).2.2 with ⟨name, loaded, _⟩
        rcases failing with ⟨error, raised⟩ | ⟨region', accountId, error, resolved', raised⟩
        · rw [resolved] at raised
          cases raised
        · rw [resolved] at resolved'
          cases resolved'
          simp [roleName, accountsLoaded, loaded, bind, Except.bind] at raised

end Partition

section Agreement

/-- The computation does not refuse an account as local-only. -/
def NotForbidden {α : Type} (result : Except DeployError α) : Prop :=
  ∀ text, result ≠ .error (.ciDeployForbidden text)

variable {α β : Type}

@[simp]
theorem notForbidden_ok {value : α} : NotForbidden (.ok value) := nofun

@[simp]
theorem notForbidden_pure {value : α} : NotForbidden (pure value) := nofun

@[simp]
theorem notForbidden_error {error : DeployError} :
    NotForbidden (.error error : Except DeployError α) ↔ ∀ text,
        error ≠ .ciDeployForbidden text := by
  simp [NotForbidden]

@[simp]
theorem notForbidden_throw {error : DeployError} :
    NotForbidden (throw error : Except DeployError α) ↔
      ∀ text, error ≠ .ciDeployForbidden text := notForbidden_error

@[simp]
theorem notForbidden_lift {result : Except Exc α} :
    NotForbidden (liftM result : Except DeployError α) := by
  cases result <;> simp

@[simp]
theorem notForbidden_bind {first : Except DeployError α} {next : α → Except DeployError β} :
    NotForbidden (first >>= next) ↔
      NotForbidden first ∧ ∀ value, first = .ok value → NotForbidden (next value) := by
  cases first <;> simp [bind, Except.bind]

@[simp]
theorem notForbidden_map {f : α → β} {result : Except DeployError α} :
    NotForbidden (f <$> result) ↔ NotForbidden result := by
  cases result <;> simp [Functor.map, Except.map]

@[simp]
theorem notForbidden_ite {condition : Prop} [Decidable condition]
    {left right : Except DeployError α} :
    NotForbidden (if condition then left else right) ↔
      (condition → NotForbidden left) ∧ (¬condition → NotForbidden right) := by
  split <;> simp_all

theorem notForbidden_mapM {f : α → Except DeployError β} {items : List α}
    (each : ∀ item ∈ items, NotForbidden (f item)) : NotForbidden (items.mapM f) := by
  induction items with
  | nil => simp
  | cons item items ih =>
      rcases List.forall_mem_cons.mp each with ⟨first, others⟩
      simp [first, ih others]

theorem notForbidden_foldlM {σ : Type} {step : σ → α → Except DeployError σ} {items : List α}
    {state : σ} (each : ∀ state item, NotForbidden (step state item)) :
    NotForbidden (items.foldlM step state) := by
  induction items generalizing state with
  | nil => simp
  | cons item items ih => simp [each, ih]

theorem parseUnitPath_notForbidden {unitPath : Str} : NotForbidden (parseUnitPath unitPath) := by
  rw [parseUnitPath]
  split <;> simp

theorem envsAccount_notForbidden {envs : rt.Value} {unitPath env : Str} :
    NotForbidden (envsAccount rt envs unitPath env) := by
  simp [envsAccount]

theorem dnsOwnerAccount_notForbidden {dnsOwner : rt.Value} {unitPath : Str} :
    NotForbidden (dnsOwnerAccount rt dnsOwner unitPath) := by
  simp [dnsOwnerAccount]

theorem resolveBootstrap_notForbidden {envs dnsOwner : rt.Value} {unitPath rest : Str} :
    NotForbidden (resolveBootstrap rt envs dnsOwner unitPath rest) := by
  simp [resolveBootstrap, envsAccount_notForbidden, dnsOwnerAccount_notForbidden]

theorem resolveEnvTree_notForbidden {envs dnsOwner domains : rt.Value} {unitPath env rest : Str} :
    NotForbidden (resolveEnvTree rt envs dnsOwner domains unitPath env rest) := by
  simp only [resolveEnvTree, notForbidden_ite, dnsOwnerAccount_notForbidden,
    envsAccount_notForbidden, notForbidden_bind, notForbidden_lift, true_and,
    implies_true, and_true]
  intro _ _ dom _
  split <;> simp [envsAccount_notForbidden, dnsOwnerAccount_notForbidden]

/-- Only the role of an account can be refused as local-only, not its resolution. -/
theorem resolveAccountId_notForbidden {unitPath : Str} {envAccounts domains : rt.Value} :
    NotForbidden (resolveAccountId rt unitPath envAccounts domains) := by
  simp [resolveAccountId, parseUnitPath_notForbidden, resolveBootstrap_notForbidden,
    resolveEnvTree_notForbidden]

theorem extractAllUnitPaths_notForbidden {flags : Str} :
    NotForbidden (extractAllUnitPaths flags) := by
  simp [extractAllUnitPaths]

/-- An account the filter lets through is not refused. -/
theorem loadRoleName_notForbidden {accountId path source mode : Str} {accounts : rt.Value}
    {onDemand : Bool}
    (deployable : isAccountCiDeployable rt accountId accounts source onDemand = .ok true) :
    NotForbidden (loadRoleName rt accountId accounts mode path onDemand) := by
  simp only [isAccountCiDeployable, bind_eq_ok, lift_eq_ok] at deployable
  rcases deployable with ⟨known, contained, deployable⟩
  cases known with
  | false => cases deployable
  | true =>
      simp only [Bool.not_true, Bool.false_eq_true, if_false, bind_eq_ok, lift_eq_ok] at deployable
      rcases deployable with ⟨entry, found, declared, declares, deployable⟩
      cases declared with
      | false => cases deployable
      | true =>
          have allowed : accountAllowsCiApply rt entry onDemand = .ok true := by
            simpa [lift_eq_ok] using deployable
          simp [loadRoleName, contained, found, declares, allowed]

/-- The filter has sorted the units done so far by whether CI may apply their account. -/
structure Sorted (rt : Runtime) (files : ConfigFiles) (onDemand : Bool)
    (envAccounts domains accounts : rt.Value) (units : List Str)
    (split : List Str × List (Str × Str)) : Prop where
  kept : split.1.Sublist units
  skipped : (split.2.map Prod.fst).Sublist units
  covers : (split.1 ++ split.2.map Prod.fst).Perm units
  deployable : ∀ unit ∈ split.1, ∃ region accountId,
    resolveAccountId rt unit envAccounts domains = .ok (region, accountId) ∧
      isAccountCiDeployable rt accountId accounts files.accountsJsonPath onDemand = .ok true
  localOnly : ∀ pair ∈ split.2, ∃ region,
    resolveAccountId rt pair.1 envAccounts domains = .ok (region, pair.2) ∧
      isAccountCiDeployable rt pair.2 accounts files.accountsJsonPath onDemand = .ok false

variable {envAccounts domains accounts : rt.Value} {onDemand : Bool}

theorem sorted_nil : Sorted rt files onDemand envAccounts domains accounts [] ([], []) :=
  ⟨.refl _, .refl _, .refl _, by simp, by simp⟩

theorem sorted_append {units : List Str} {split next : List Str × List (Str × Str)} {unit : Str}
    (sorted : Sorted rt files onDemand envAccounts domains accounts units split)
    (classified : classify rt files envAccounts domains accounts onDemand split unit = .ok next) :
    Sorted rt files onDemand envAccounts domains accounts (units ++ [unit]) next := by
  simp only [classify, bind_eq_ok] at classified
  rcases classified with ⟨⟨region, accountId⟩, resolved, keeps, deployable, result⟩
  have single : [unit].Sublist [unit] := .refl _
  cases keeps with
  | true =>
      cases result
      refine ⟨sorted.kept.append single, sorted.skipped.trans (List.sublist_append_left _ _), ?_,
        ?_, sorted.localOnly⟩
      · have moved : (split.1 ++ [unit] ++ split.2.map Prod.fst).Perm
            (split.1 ++ split.2.map Prod.fst ++ [unit]) := by
          rw [List.append_assoc, List.append_assoc]
          exact List.perm_append_comm.append_left _
        exact moved.trans (sorted.covers.append_right _)
      · intro other otherMem
        rcases List.mem_append.mp otherMem with old | new
        · exact sorted.deployable other old
        · rw [List.mem_singleton.mp new]
          exact ⟨region, accountId, resolved, deployable⟩
  | false =>
      cases result
      refine ⟨sorted.kept.trans (List.sublist_append_left _ _), ?_, ?_, sorted.deployable, ?_⟩
      · rw [List.map_append]
        exact sorted.skipped.append single
      · rw [List.map_append, ← List.append_assoc]
        exact sorted.covers.append_right _
      · intro other otherMem
        rcases List.mem_append.mp otherMem with old | new
        · exact sorted.localOnly other old
        · rw [List.mem_singleton.mp new]
          exact ⟨region, resolved, deployable⟩

/-- What the filter has read and computed when it returns. -/
theorem sorted_of_partitionByCiDeploy {flags : Str} {split : List Str × List (Str × Str)}
    (filtered : partitionByCiDeploy rt files flags onDemand = .ok split) :
    ∃ envAccounts domains accounts, rt.loads files.envAccounts = .ok envAccounts ∧
      rt.loads files.domains = .ok domains ∧ rt.loads files.accounts = .ok accounts ∧
      Sorted rt files onDemand envAccounts domains accounts (findIncludeDirs flags) split := by
  simp only [partitionByCiDeploy, bind_eq_ok, lift_eq_ok] at filtered
  rcases filtered with ⟨envAccounts, envLoaded, domains, domainsLoaded, accounts, accountsLoaded,
    units, extracted, looped⟩
  have sorted := foldlM_invariant (Sorted rt files onDemand envAccounts domains accounts)
    (fun done state unit next => sorted_append) sorted_nil looped
  rw [List.nil_append, extractAllUnitPaths_eq_ok extracted] at sorted
  exact ⟨envAccounts, domains, accounts, envLoaded, domainsLoaded, accountsLoaded, sorted⟩

/-- The apply lane does not refuse the units the filter kept. -/
theorem partition_notForbidden {flags keptFlags mode : Str} {split : List Str × List (Str × Str)}
    (filtered : partitionByCiDeploy rt files flags onDemand = .ok split)
    (renders : Renders split.1 keptFlags) :
    NotForbidden (partition rt files keptFlags mode onDemand) := by
  rcases sorted_of_partitionByCiDeploy filtered with ⟨envAccounts, domains, accounts, envLoaded,
    domainsLoaded, accountsLoaded, sorted⟩
  simp only [partition, notForbidden_ite, notForbidden_throw, notForbidden_pure, notForbidden_bind,
    notForbidden_lift, extractAllUnitPaths_notForbidden, implies_true, true_and, reduceCtorEq,
    lift_eq_ok]
  refine ⟨fun _ => ⟨nofun, fun _ impossible => impossible.elim⟩, fun _ => ?_⟩
  intro _ env envLoaded' dom domainsLoaded' acc accountsLoaded' owner _ units extracted
  rw [envLoaded] at envLoaded'
  rw [domainsLoaded] at domainsLoaded'
  rw [accountsLoaded] at accountsLoaded'
  cases envLoaded'
  cases domainsLoaded'
  cases accountsLoaded'
  rw [extractAllUnitPaths_eq_ok extracted, findIncludeDirs_of_renders renders]
  constructor
  · apply notForbidden_foldlM
    intro groups unit
    simp [addUnit, resolveAccountId_notForbidden]
  · intro groups looped
    apply notForbidden_mapM
    intro accountId accountMem
    rcases placed_of_foldlM looped with ⟨pairs, units_pairs, placed, grouped⟩
    rw [(List.mergeSort_perm _ _).mem_iff, grouped.keys] at accountMem
    rcases List.mem_map.mp accountMem with ⟨pair, pairMem, rfl⟩
    rcases placed pair pairMem with ⟨region, found⟩
    have unitMem : pair.2 ∈ split.1 := by
      rw [← units_pairs]
      exact List.mem_map_of_mem pairMem
    rcases sorted.deployable pair.2 unitMem with ⟨region', accountId, resolved, deployable⟩
    rw [found] at resolved
    cases resolved
    simp [rowOf, loadRoleName_notForbidden deployable]

end Agreement

/--
For every configuration, scope, mode and lane: the rows of the matrix are an exact
cover of the scope by account, a failing unit leaves it without rows, and the units
the filter keeps, with those it skips, are the scope and are never refused as
local-only.
-/
theorem partition_covers (rt : Runtime) (files : ConfigFiles) (mode : Str) (onDemand : Bool)
    {units : List Str} {flags : Str} (renders : Renders units flags) :
    (∀ rows, partition rt files flags mode onDemand = .ok rows → ExactCover rt files units rows) ∧
      (∀ unit ∈ units, Failing rt files mode onDemand unit →
        ∃ error, partition rt files flags mode onDemand = .error error) ∧
      ∀ kept skipped, partitionByCiDeploy rt files flags onDemand = .ok (kept, skipped) →
        (Renders kept (reassembleFlags kept) ∧ ∀ keptFlags, Renders kept keptFlags →
          ∀ text, partition rt files keptFlags modeApply onDemand ≠
            .error (.ciDeployForbidden text)) ∧
        kept.Sublist units ∧ (skipped.map Prod.fst).Sublist units ∧
        (kept ++ skipped.map Prod.fst).Perm units ∧
        ∀ pair ∈ skipped, ∃ region, resolveUnit rt files pair.1 = .ok (region, pair.2) := by
  refine ⟨fun rows => exactCover_of_partition (findIncludeDirs_of_renders renders),
    fun unit unitMem => partition_raises renders unitMem, ?_⟩
  intro kept skipped filtered
  rcases sorted_of_partitionByCiDeploy filtered with ⟨envAccounts, domains, accounts, envLoaded,
    domainsLoaded, _, sorted⟩
  rw [findIncludeDirs_of_renders renders] at sorted
  refine ⟨⟨?_, fun keptFlags keptRenders => partition_notForbidden filtered keptRenders⟩,
    sorted.kept, sorted.skipped, sorted.covers, ?_⟩
  · apply renders_reassembleFlags
    intro unit unitMem
    exact renders.isUnitPath unit (sorted.kept.subset unitMem)
  · intro pair pairMem
    rcases sorted.localOnly pair pairMem with ⟨region, resolved, _⟩
    exact ⟨region, by simp [resolveUnit, envLoaded, domainsLoaded, resolved, bind, Except.bind]⟩

namespace Sample

@[irreducible]
def common : ConfigFiles where
  envAccounts :=
    str ("\x7b\"envs\":\x7b\"sandbox\":\x7b\"account_id\":\"111111111111\"\x7d\x7d\x7d")
  domains := str "\x7b\x7d"
  accounts := str ("\x7b\"111111111111\":\x7b\"ci_deploy\":true," ++
    "\"deploy_role_name\":\"deploy\"\x7d\x7d")
  accountsJsonPath := str "common/accounts.json"

def unit : Str := str "live/telemetry/us-east-1/sandbox/000/lake"

/-- The sandbox and the qa environment, in an account each. -/
@[irreducible]
def twoEnvironments : ConfigFiles where
  envAccounts :=
    str ("\x7b\"envs\":\x7b\"sandbox\":\x7b\"account_id\":\"111111111111\"\x7d," ++
      "\"qa\":\x7b\"account_id\":\"222222222222\"\x7d\x7d\x7d")
  domains := str "\x7b\x7d"
  accounts := str ("\x7b\"111111111111\":\x7b\"ci_deploy\":true," ++
    "\"deploy_role_name\":\"deploy\"\x7d," ++
    "\"222222222222\":\x7b\"ci_deploy\":true,\"deploy_role_name\":\"deploy-qa\"\x7d\x7d")
  accountsJsonPath := str "common/accounts.json"

/-- Units of both environments in turn. -/
def units : List Str :=
  [str "live/telemetry/us-east-1/qa/000/lake", unit,
    str "live/telemetry/us-east-1/qa/000/collector",
    str "live/telemetry/us-west-2/sandbox/000/lake"]

theorem renders_units : Renders units (reassembleFlags units) := by
  apply renders_reassembleFlags
  simp only [units, List.forall_mem_cons, List.not_mem_nil, false_implies, implies_true, and_true]
  exact ⟨⟨by decide, by decide +kernel⟩, ⟨by decide, by decide +kernel⟩,
    ⟨by decide, by decide +kernel⟩, ⟨by decide, by decide +kernel⟩⟩

/-- An order of texts that the kernel can compute. -/
theorem mergeSort_strLe (texts : List Str) :
    texts.mergeSort strLe = texts.insertionSort fun first second => strLe first second = true := by
  have trans : IsTrans Str fun first second => strLe first second = true := ⟨strLe_trans⟩
  have total : Std.Total fun first second : Str => strLe first second = true :=
    ⟨fun first second => by simpa using strLe_total first second⟩
  have antisymm : Std.Antisymm fun first second : Str => strLe first second = true :=
    ⟨fun _ _ => strLe_antisymm⟩
  have sorts := List.mergeSort_eq_insertionSort
    (fun first second : Str => strLe first second = true) texts
  simpa using sorts

theorem partition_units :
    (partition Runtime.whole twoEnvironments (reassembleFlags units) modeApply false).toOption.map
      (List.map Row.accountId) = some [str "111111111111", str "222222222222"] := by
  simp only [partition, mergeSort_strLe]
  decide +kernel

end Sample

theorem partition_covers_units :
    ∃ rows, rows.map Row.accountId = [str "111111111111", str "222222222222"] ∧
      ExactCover Runtime.whole Sample.twoEnvironments Sample.units rows := by
  have covered := partition_covers Runtime.whole Sample.twoEnvironments modeApply false
    Sample.renders_units
  have accounts := Sample.partition_units
  cases partitioned : partition Runtime.whole Sample.twoEnvironments
      (reassembleFlags Sample.units) modeApply false with
  | error error => simp [partitioned, Except.toOption] at accounts
  | ok rows =>
      refine ⟨rows, ?_, covered.1 rows partitioned⟩
      simpa [partitioned, Except.toOption] using accounts

end Deploy
