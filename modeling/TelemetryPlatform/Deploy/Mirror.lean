import TelemetryPlatform.Deploy.AccountFiles
import TelemetryPlatform.Library.WholeRuntime

/-!
# The resolver against the account files

`resolve_deploy_role.py` takes the tier of a unit from the words in its path, Terragrunt
from the nearest `account.hcl`. Where the two are of one kind (`LiveUnit.Alike`), the
resolver returns the account that the file defines, with one difference: a unit of the
`dns_owner` or the `pretty` tier of an environment without a row is resolved although its
file aborts.
-/

namespace Deploy

open Python

variable {rt : Runtime}

section Path

def treeRoot : Str := str "live/telemetry/"

/-- No end of the tree's root is a beginning of it. -/
theorem not_begins_drop : ∀ k < 15, 0 < k → ¬treeRoot.drop k <+: treeRoot := by
  decide

/-- Before the tree no match begins. -/
theorem not_begins_above {above rest : Str} (outside : ¬treeRoot <:+: above)
    (nonempty : above ≠ []) :
    ¬treeRoot <+: above ++ (treeRoot ++ rest) := by
  intro begins
  have length_root : treeRoot.length = 15 := by decide
  by_cases long : treeRoot.length ≤ above.length
  · have inside := List.prefix_of_prefix_length_le begins (List.prefix_append above _) long
    exact outside inside.isInfix
  · have within := List.prefix_of_prefix_length_le (List.prefix_append above _) begins (by omega)
    rcases within with ⟨tail, split⟩
    have tail_eq : tail = treeRoot.drop above.length := by
      rw [← split, List.drop_left]
    have overlaps : tail <+: treeRoot ++ rest := by
      apply (List.prefix_append_right_inj above).mp
      rw [split]
      exact begins
    have short : tail.length ≤ treeRoot.length := by
      rw [← split, List.length_append]
      omega
    have inside := List.prefix_of_prefix_length_le overlaps (List.prefix_append treeRoot rest) short
    rw [tail_eq] at inside
    exact not_begins_drop above.length (by omega) (List.length_pos_of_ne_nil nonempty) inside

theorem slash_not_mem_of_isRegion {region : Str} (isRegion : isRegion region = true) :
    slash ∉ region := by
  cases region with
  | nil => exact List.not_mem_nil
  | cons first rest =>
      simp only [Deploy.isRegion] at isRegion
      split at isRegion
      · cases isRegion
      · next dash name split =>
          simp only [Bool.and_eq_true, decide_eq_true_eq, List.all_eq_true] at isRegion
          rcases isRegion with ⟨⟨⟨⟨firstLower, _⟩, rfl⟩, _⟩, all⟩
          intro slashMem
          rcases List.mem_cons.mp slashMem with rfl | slashMem
          · exact absurd firstLower (by decide)
          · rw [← List.mem_reverse,
              ← List.takeWhile_append_dropWhile (p := isDecimal) (l := rest.reverse), split,
              List.mem_append, List.mem_cons] at slashMem
            rcases slashMem with digits | dash | inName
            · exact absurd (List.mem_takeWhile_imp digits) (by decide)
            · exact absurd dash (by decide)
            · exact absurd (all slash inName) (by decide)

theorem forall_ne_slash {name : Str} (plain : slash ∉ name) :
    ∀ c ∈ name, decide (c ≠ slash) = true := by
  intro c cMem
  simpa using ne_of_mem_of_not_mem cMem plain

theorem takeWhile_slash {name rest : Str} (plain : slash ∉ name) :
    (name ++ slash :: rest).takeWhile (· ≠ slash) = name := by
  rw [List.takeWhile_append_of_pos (forall_ne_slash plain)]
  simp

theorem dropWhile_slash {name rest : Str} (plain : slash ∉ name) :
    (name ++ slash :: rest).dropWhile (· ≠ slash) = slash :: rest := by
  rw [List.dropWhile_append_of_pos (forall_ne_slash plain)]
  simp

theorem scanRest_name {name rest : Str} (plain : slash ∉ name) (oneLine : .char '\n' ∉ name) :
    scanRest (name ++ slash :: rest) = some (name, slash :: rest) := by
  induction name with
  | nil => simp [scanRest]
  | cons c name ih =>
      have noSlash : c ≠ slash := fun same => plain (same ▸ List.mem_cons_self)
      have noLine : c ≠ .char '\n' := fun same => oneLine (same ▸ List.mem_cons_self)
      have rest := ih (fun later => plain (List.mem_cons_of_mem _ later))
        fun later => oneLine (List.mem_cons_of_mem _ later)
      simp [scanRest, noSlash, noLine, rest]

theorem intercalate_names {first : Str} {below : List Str} (nested : below ≠ []) :
    [slash].intercalate (first :: below) = first ++ slash :: [slash].intercalate below := by
  rw [List.intercalate_cons_of_ne_nil nested]
  simp

/-- The names of directories do not begin with a slash. -/
theorem dropWhile_names {below : List Str} (named : ∀ name ∈ below, IsName name)
    (nested : below ≠ []) :
    (slash :: [slash].intercalate below).dropWhile (· = slash) = [slash].intercalate below := by
  rcases List.exists_cons_of_ne_nil nested with ⟨name, rest, rfl⟩
  rcases named name List.mem_cons_self with ⟨nonempty, plain, -⟩
  rcases List.exists_cons_of_ne_nil nonempty with ⟨c, name, rfl⟩
  have noSlash : c ≠ slash := fun same => plain (same ▸ List.mem_cons_self)
  cases rest with
  | nil => simp [noSlash]
  | cons second rest => simp [List.intercalate_cons_cons, noSlash]

theorem matchUnitPath_path (unit : LiveUnit) :
    matchUnitPath (treeRoot ++ (unit.region ++
      slash :: [slash].intercalate (unit.first :: unit.below))) =
      some ⟨unit.region, unit.first, [slash].intercalate unit.below⟩ := by
  rcases List.forall_mem_cons.mp unit.named with ⟨⟨firstNonempty, firstPlain, firstLine⟩, named⟩
  have regionPlain := slash_not_mem_of_isRegion unit.isRegion
  have dropped : (treeRoot ++ (unit.region ++
      slash :: [slash].intercalate (unit.first :: unit.below))).dropPrefix? treeRoot =
      some (unit.region ++ slash :: [slash].intercalate (unit.first :: unit.below)) :=
    dropPrefix?_eq_some.mpr rfl
  rcases List.exists_cons_of_ne_nil firstNonempty with ⟨c, first, first_eq⟩
  have firstSlash : c ≠ slash := fun same => firstPlain (by simp [first_eq, same])
  have scanned : scanRest (first ++ slash :: [slash].intercalate unit.below) =
      some (first, slash :: [slash].intercalate unit.below) := by
    apply scanRest_name
    · exact fun later => firstPlain (by simp [first_eq, later])
    · exact fun later => firstLine (by simp [first_eq, later])
  rw [treeRoot] at dropped
  rw [matchUnitPath, treeRoot, dropped, Option.bind_eq_bind, Option.bind_some,
    takeWhile_slash regionPlain, dropWhile_slash regionPlain, intercalate_names unit.nested,
    first_eq]
  simp only [List.cons_append, unit.isRegion, true_and, firstSlash, ne_eq, not_false_eq_true,
    if_true, scanned, Option.bind_eq_bind, Option.bind_some, dropWhile_names named unit.nested,
    Option.pure_def]

theorem searchUnitPath_of_match {text : Str} {found : UnitPath}
    (matched : matchUnitPath text = some found) : searchUnitPath text = some found := by
  cases text with
  | nil => cases matched
  | cons c rest => rw [searchUnitPath, matched, Option.orElse_some]

theorem searchUnitPath_of_none {c : Chr} {rest : Str} (none : matchUnitPath (c :: rest) = none) :
    searchUnitPath (c :: rest) = searchUnitPath rest := by
  rw [searchUnitPath, none, Option.orElse_none]

theorem matchUnitPath_of_not_begins {text : Str} (begins : ¬treeRoot <+: text) :
    matchUnitPath text = none := by
  have dropped := dropPrefix?_eq_none.mpr begins
  rw [treeRoot] at dropped
  rw [matchUnitPath, dropped, Option.bind_eq_bind, Option.bind_none]

theorem searchUnitPath_above {above rest : Str} (outside : ¬treeRoot <:+: above) {found : UnitPath}
    (matched : matchUnitPath (treeRoot ++ rest) = some found) :
    searchUnitPath (above ++ (treeRoot ++ rest)) = some found := by
  induction above with
  | nil => exact searchUnitPath_of_match matched
  | cons c above ih =>
      have begins : ¬treeRoot <+: c :: above ++ (treeRoot ++ rest) :=
        not_begins_above outside (List.cons_ne_nil c above)
      rw [List.cons_append] at begins ⊢
      rw [searchUnitPath_of_none (matchUnitPath_of_not_begins begins)]
      apply ih
      intro inside
      exact outside (inside.trans (List.suffix_cons c above).isInfix)

/-- What the resolver parses in the path of a unit. -/
theorem parseUnitPath_path (unit : LiveUnit) :
    parseUnitPath unit.path = .ok ⟨unit.region, unit.first, [slash].intercalate unit.below⟩ := by
  have found := searchUnitPath_above unit.outside (matchUnitPath_path unit)
  rw [treeRoot] at found
  rw [parseUnitPath, LiveUnit.path, found]

end Path

section Accounts

/-- Which rows name the account of a unit. -/
inductive Kind where
  | service
  | dnsOwner
  | pretty
  | bootstrap (roleDir : Str)
deriving DecidableEq

def AccountFile.kind : AccountFile → Kind
  | .service | .shared => .service
  | .dnsOwner => .dnsOwner
  | .pretty => .pretty
  | .bootstrap roleDir => .bootstrap roleDir

/-- The kind of a unit by the words in its path. -/
def LiveUnit.kind (unit : LiveUnit) : Kind :=
  if unit.first = bootstrapSegment then .bootstrap (unit.below.headD [])
  else if dnsOwnerSegment ∈ unit.below then .dnsOwner
  else if prettySegment ∈ unit.below then .pretty
  else .service

namespace CommonConfig

variable (config : CommonConfig rt)

def EnvAccount (env accountId : Str) : Prop :=
  ∃ entries, dictGet? config.envs env = some (.obj entries) ∧
    dictGet? entries (str "account_id") = some (.str accountId)

/-- The environment has a row. -/
def Lists (env : Str) : Prop := (dictGet? config.envs env).isSome = true

/-- Whether the pretty apex of an environment is its service apex. -/
def InZone (env : Str) (inZone : Bool) : Prop :=
  ∃ entries prettyApex serviceApex, dictGet? config.domains env = some (.obj entries) ∧
    dictGet? entries (str "dns_pretty_apex") = some (.str prettyApex) ∧
    dictGet? entries (str "dns_service_apex") = some (.str serviceApex) ∧
    inZone = decide (prettyApex = serviceApex)

/-- The account of a kind for an environment. -/
def Account (env accountId : Str) : Kind → Prop
  | .service => config.EnvAccount env accountId
  | .dnsOwner => accountId = config.ownerId
  | .pretty => config.InZone env true ∧ config.EnvAccount env accountId ∨
      config.InZone env false ∧ accountId = config.ownerId
  | .bootstrap roleDir =>
      if bootstrapRole roleDir = dnsOwnerRole then accountId = config.ownerId
      else config.EnvAccount (bootstrapRole roleDir) accountId

end CommonConfig

variable {config : CommonConfig rt} {path env accountId : Str}

theorem envsAccount_eq_ok :
    envsAccount rt (.obj config.envs) path env = .ok accountId ↔
        config.EnvAccount env accountId := by
  simp only [envsAccount, Json.contains, Json.subscript, CommonConfig.EnvAccount]
  cases found : dictGet? config.envs env with
  | none =>
      simp only [Option.isSome_none, lift_ok, ok_bind, reduceCtorEq, false_and, exists_false,
        iff_false]
      rintro ⟨⟩
  | some row =>
      rcases config.envRows env row found with ⟨entries, other, _, _, rfl, other_eq, -⟩
      simp [ok_bind, other_eq, Runtime.strOf]

theorem dnsOwnerAccount_eq_ok :
    dnsOwnerAccount rt (.obj config.dnsOwner) path = .ok accountId ↔
        accountId = config.ownerId := by
  have found := config.ownerId_eq
  simp only [dnsOwnerAccount, Json.contains, Json.subscript, found]
  simp only [Option.isSome_some, lift_ok, ok_bind, Bool.not_true, Bool.false_eq_true, if_false,
    Runtime.strOf, Except.ok.injEq]
  exact eq_comm

theorem prettyAccount_iff {domainCfg : List (Str × rt.Value)} {prettyApex serviceApex : Str}
    (domainFound : dictGet? config.domains env = some (.obj domainCfg))
    (pretty_eq : dictGet? domainCfg (str "dns_pretty_apex") = some (.str prettyApex))
    (service_eq : dictGet? domainCfg (str "dns_service_apex") = some (.str serviceApex)) :
    config.Account env accountId .pretty ↔
      if prettyApex = serviceApex then config.EnvAccount env accountId
      else accountId = config.ownerId := by
  have inZone (inZone : Bool) : config.InZone env inZone ↔
      inZone = decide (prettyApex = serviceApex) := by
    simp [CommonConfig.InZone, domainFound, pretty_eq, service_eq]
  simp only [CommonConfig.Account, inZone]
  split_ifs with same
  · simp [same]
  · simp [same]

theorem resolveEnvTree_eq_ok {rest : Str} {segments : List Str}
    (split : rest.splitOn slash = segments) :
    resolveEnvTree rt (.obj config.envs) (.obj config.dnsOwner) (.obj config.domains) path env
        rest = .ok accountId ↔
      config.Account env accountId (if dnsOwnerSegment ∈ segments then .dnsOwner
        else if prettySegment ∈ segments then .pretty else .service) := by
  simp only [resolveEnvTree, split]
  split_ifs with isDnsOwner isPretty
  · exact dnsOwnerAccount_eq_ok
  · simp only [Json.get, lift_ok, ok_bind]
    cases found : dictGet? config.domains env with
    | none =>
        simp only [Option.getD_none, CommonConfig.Account, CommonConfig.InZone, found]
        constructor
        · rintro ⟨⟩
        · rintro (⟨⟨_, _, _, ⟨⟩, _⟩, _⟩ | ⟨⟨_, _, _, ⟨⟩, _⟩, _⟩)
    | some row =>
        rcases config.domainRows env row found with
          ⟨entries, prettyApex, serviceApex, rfl, pretty_eq, service_eq⟩
        rw [prettyAccount_iff found pretty_eq service_eq]
        simp only [Option.getD_some, pretty_eq, service_eq]
        by_cases same : prettyApex = serviceApex
        · subst same
          have equal : rt.eq (.str prettyApex) (.str prettyApex) = true := by
            simp [Runtime.eq, Runtime.eqPlain]
          simp [ok_bind, equal, envsAccount_eq_ok]
        · have differs : rt.eq (.str prettyApex) (.str serviceApex) = false := by
            simp [Runtime.eq, Runtime.eqPlain, same]
          simp [ok_bind, differs, same, dnsOwnerAccount_eq_ok]
  · exact envsAccount_eq_ok

theorem takeWhile_names {below : List Str} (named : ∀ name ∈ below, IsName name)
    (nested : below ≠ []) :
    ([slash].intercalate below).takeWhile (· ≠ slash) = below.headD [] := by
  rcases List.exists_cons_of_ne_nil nested with ⟨name, rest, rfl⟩
  have plain := (named name List.mem_cons_self).2.1
  cases rest with
  | nil =>
      rw [List.intercalate_singleton, List.takeWhile_eq_self_iff.mpr (forall_ne_slash plain)]
      rfl
  | cons second rest =>
      rw [intercalate_names (by simp), takeWhile_slash plain]
      rfl

theorem resolveBootstrap_eq_ok {rest roleDir : Str} (isRole : rest.takeWhile (· ≠ slash) = roleDir)
    (nonempty : roleDir ≠ []) :
    resolveBootstrap rt (.obj config.envs) (.obj config.dnsOwner) path rest = .ok accountId ↔
      config.Account env accountId (.bootstrap roleDir) := by
  simp only [resolveBootstrap, isRole, if_neg nonempty, CommonConfig.Account]
  split_ifs
  · exact dnsOwnerAccount_eq_ok
  · exact envsAccount_eq_ok

theorem pair_eq_ok {program : Except DeployError Str} {region other : Str} :
    (program >>= fun accountId => (pure (region, accountId) : Except DeployError (Str × Str))) =
        .ok (other, accountId) ↔
      other = region ∧ program = .ok accountId := by
  rw [bind_eq_ok]
  constructor
  · rintro ⟨value, resolved, same⟩
    cases same
    exact ⟨rfl, resolved⟩
  · rintro ⟨rfl, resolved⟩
    exact ⟨accountId, resolved, rfl⟩

/-- What the resolver returns for a unit. -/
theorem resolveAccountId_eq_ok {unit : LiveUnit} {region : Str} :
    resolveAccountId rt unit.path (.obj config.envAccounts) (.obj config.domains) =
        .ok (region, accountId) ↔
      region = unit.region ∧ config.Account unit.first accountId unit.kind := by
  have named := (List.forall_mem_cons.mp unit.named).2
  have split : ([slash].intercalate unit.below).splitOn slash = unit.below :=
    List.splitOn_intercalate slash (fun name nameMem => (named name nameMem).2.1) unit.nested
  have roleNonempty : unit.below.headD [] ≠ [] := by
    rcases List.exists_cons_of_ne_nil unit.nested with ⟨name, rest, below_eq⟩
    rw [below_eq] at named ⊢
    exact (named name List.mem_cons_self).1
  simp only [resolveAccountId, parseUnitPath_path, ok_bind, Json.getD, config.envs_eq,
    config.dnsOwner_eq, Option.getD_some, lift_ok, LiveUnit.kind]
  split_ifs with isBootstrap isDnsOwner isPretty
  · rw [pair_eq_ok]
    exact and_congr_right' (resolveBootstrap_eq_ok (takeWhile_names named unit.nested) roleNonempty)
  · rw [pair_eq_ok, resolveEnvTree_eq_ok split, if_pos isDnsOwner]
  · rw [pair_eq_ok, resolveEnvTree_eq_ok split, if_neg isDnsOwner, if_pos isPretty]
  · rw [pair_eq_ok, resolveEnvTree_eq_ok split, if_neg isDnsOwner, if_neg isPretty]

end Accounts

section Files

variable {config : CommonConfig rt} {env accountId message : Str} {row : rt.Value}

theorem rowOrAbort_envs : rowOrAbort rt (.obj config.envs) env message = .ok row ↔
    dictGet? config.envs env = some row := by
  rw [rowOrAbort]
  cases found : dictGet? config.envs env with
  | none => simp
  | some other =>
      rcases config.envRows env other found with ⟨entries, _, _, _, rfl, -⟩
      simp

theorem rowOrAbort_domains : rowOrAbort rt (.obj config.domains) env message = .ok row ↔
    dictGet? config.domains env = some row := by
  rw [rowOrAbort]
  cases found : dictGet? config.domains env with
  | none => simp
  | some other =>
      rcases config.domainRows env other found with ⟨entries, _, _, rfl, -⟩
      simp

theorem envEntry_eq_ok {advice : String} :
    envEntry rt (.obj config.envAccounts) env advice = .ok row ↔
    dictGet? config.envs env = some row := by
  simp only [envEntry, member, config.envs_eq, ok_bind, rowOrAbort_envs]

/-- A file defines the account of a unit. -/
def FileDefines (config : CommonConfig rt) (file : AccountFile) (env accountId : Str) : Prop :=
  ∃ locals, fileLocals rt file env (.obj config.envAccounts) (.obj config.domains) = .ok locals ∧
    locals.awsAccountId = .str accountId

theorem rowLocals_iff (found : dictGet? config.envs env = some row) :
    (∃ locals, rowLocals rt row = .ok locals ∧ locals.awsAccountId = .str accountId) ↔
      config.EnvAccount env accountId := by
  rcases config.envRows env row found with
    ⟨entries, other, profile, pinned, rfl, other_eq, profile_eq, pinned_eq, -⟩
  simp [rowLocals, member, other_eq, profile_eq, pinned_eq, ok_bind, CommonConfig.EnvAccount, found,
    pure, Except.pure]

theorem dnsOwnerLocals_iff :
    (∃ locals, dnsOwnerLocals rt (.obj config.envAccounts) = .ok locals ∧
      locals.awsAccountId = .str accountId) ↔ accountId = config.ownerId := by
  rcases config.ownerProfile with ⟨profile, profile_eq⟩
  have id_eq := config.ownerId_eq
  rw [eq_comm (b := config.ownerId)]
  simp [dnsOwnerLocals, member, config.dnsOwner_eq, id_eq, profile_eq, ok_bind, pure, Except.pure]

theorem exists_pinned (found : dictGet? config.envs env = some row) :
    ∃ pinned, member rt row (str "use_pinned_module_sources") = .ok pinned := by
  rcases config.envRows env row found with ⟨entries, _, _, pinned, rfl, -, -, pinned_eq, -⟩
  exact ⟨.bool pinned, by simp only [member, pinned_eq]⟩

/-- The row of an entry that is looked up. -/
theorem entryLocals_iff {entry : Except HclError rt.Value} {key : Str}
    (entry_eq : ∀ row, entry = .ok row ↔ dictGet? config.envs key = some row) :
    (∃ locals, (entry >>= rowLocals rt) = .ok locals ∧ locals.awsAccountId = .str accountId) ↔
      config.EnvAccount key accountId := by
  constructor
  · rintro ⟨locals, evaluated, defined⟩
    rcases bind_eq_ok.mp evaluated with ⟨row, found, rowEvaluated⟩
    exact (rowLocals_iff ((entry_eq row).mp found)).mp ⟨locals, rowEvaluated, defined⟩
  · rintro ⟨entries, found, id_eq⟩
    rcases (rowLocals_iff found).mpr ⟨entries, found, id_eq⟩ with ⟨locals, rowEvaluated, defined⟩
    exact ⟨locals, bind_eq_ok.mpr ⟨_, (entry_eq _).mpr found, rowEvaluated⟩, defined⟩

theorem prettyLocals_eq {domainCfg : List (Str × rt.Value)} {prettyApex serviceApex : Str}
    (domainFound : dictGet? config.domains env = some (.obj domainCfg))
    (pretty_eq : dictGet? domainCfg (str "dns_pretty_apex") = some (.str prettyApex))
    (service_eq : dictGet? domainCfg (str "dns_service_apex") = some (.str serviceApex))
    (envFound : dictGet? config.envs env = some row) :
    fileLocals rt .pretty env (.obj config.envAccounts) (.obj config.domains) =
      if prettyApex = serviceApex then rowLocals rt row
      else dnsOwnerLocals rt (.obj config.envAccounts) := by
  rcases exists_pinned envFound with ⟨pinned, pinned_eq⟩
  have compared : rt.eq (.str prettyApex) (.str serviceApex) =
      decide (prettyApex = serviceApex) := by
    simp [Runtime.eq, Runtime.eqPlain]
  have prettyMember : member rt (.obj domainCfg) (str "dns_pretty_apex") =
      .ok (.str prettyApex) := by
    simp only [member, pretty_eq]
  have serviceMember : member rt (.obj domainCfg) (str "dns_service_apex") =
      .ok (.str serviceApex) := by
    simp only [member, service_eq]
  simp only [fileLocals, rowOrAbort_domains.mpr domainFound, envEntry_eq_ok.mpr envFound,
    prettyMember, serviceMember, pinned_eq, ok_bind, compared, decide_eq_true_eq]

theorem fileDefines_pretty :
    FileDefines config .pretty env accountId ↔
      config.Account env accountId .pretty ∧ config.Lists env := by
  cases domainFound : dictGet? config.domains env with
  | none =>
      constructor
      · rintro ⟨locals, evaluated, -⟩
        rcases bind_eq_ok.mp evaluated with ⟨domainCfg, found, -⟩
        rw [rowOrAbort_domains, domainFound] at found
        cases found
      · rintro ⟨⟨⟨_, _, _, found, -⟩, -⟩ | ⟨⟨_, _, _, found, -⟩, -⟩, -⟩
        · rw [domainFound] at found
          cases found
        · rw [domainFound] at found
          cases found
  | some domainCfg =>
      rcases config.domainRows env domainCfg domainFound with
        ⟨entries, prettyApex, serviceApex, rfl, pretty_eq, service_eq⟩
      rw [prettyAccount_iff domainFound pretty_eq service_eq, CommonConfig.Lists]
      cases envFound : dictGet? config.envs env with
      | none =>
          simp only [Option.isSome_none, Bool.false_eq_true, and_false, iff_false]
          rintro ⟨locals, evaluated, -⟩
          rcases bind_eq_ok.mp evaluated with ⟨_, -, rest⟩
          rcases bind_eq_ok.mp rest with ⟨row, found, -⟩
          rw [envEntry_eq_ok, envFound] at found
          cases found
      | some row =>
          simp only [FileDefines, prettyLocals_eq domainFound pretty_eq service_eq envFound,
            Option.isSome_some, and_true]
          split_ifs
          · exact rowLocals_iff envFound
          · exact dnsOwnerLocals_iff

/-- What a file defines, and when it is evaluated at all. -/
theorem fileDefines_iff {file : AccountFile} :
    FileDefines config file env accountId ↔ config.Account env accountId file.kind ∧
      (file.kind = .dnsOwner ∨ file.kind = .pretty → config.Lists env) := by
  cases file with
  | service =>
      simp only [FileDefines, fileLocals, entryLocals_iff fun _ => envEntry_eq_ok,
        AccountFile.kind, CommonConfig.Account]
      simp
  | shared =>
      simp only [FileDefines, fileLocals, entryLocals_iff fun _ => envEntry_eq_ok,
        AccountFile.kind, CommonConfig.Account]
      simp
  | dnsOwner =>
      simp only [AccountFile.kind, CommonConfig.Account, true_or, forall_const]
      constructor
      · rintro ⟨locals, evaluated, defined⟩
        rcases bind_eq_ok.mp evaluated with ⟨owner, ownerEvaluated, rest⟩
        rcases bind_eq_ok.mp rest with ⟨row, found, rest⟩
        rcases bind_eq_ok.mp rest with ⟨_, _, same⟩
        cases same
        refine ⟨dnsOwnerLocals_iff.mp ⟨_, ownerEvaluated, defined⟩, ?_⟩
        rw [CommonConfig.Lists, envEntry_eq_ok.mp found]
        rfl
      · rintro ⟨isOwner, lists⟩
        rcases dnsOwnerLocals_iff.mpr isOwner with ⟨locals, ownerEvaluated, defined⟩
        rcases Option.isSome_iff_exists.mp lists with ⟨row, found⟩
        rcases exists_pinned found with ⟨pinned, pinned_eq⟩
        refine ⟨locals, ?_, defined⟩
        simp only [fileLocals, ownerEvaluated, ok_bind, envEntry_eq_ok.mpr found, pinned_eq]
        rfl
  | pretty =>
      rw [fileDefines_pretty]
      simp [AccountFile.kind]
  | bootstrap roleDir =>
      have role : trimsuffix roleDir bootstrapRoleSuffix = bootstrapRole roleDir := rfl
      simp only [FileDefines, fileLocals, role, AccountFile.kind, CommonConfig.Account]
      split_ifs
      · simp [dnsOwnerLocals_iff]
      · have envs_eq : member rt (.obj config.envAccounts) (str "envs") =
            .ok (.obj config.envs) := by
          simp only [member, config.envs_eq]
        simp only [envs_eq, ok_bind, entryLocals_iff fun _ => rowOrAbort_envs]
        simp

end Files

section Mirror

variable (config : CommonConfig rt) (unit : LiveUnit)

/-- The path and the tree agree on the rows that name the unit's account. -/
def LiveUnit.Alike : Prop := unit.accountFile.map AccountFile.kind = some unit.kind

/-- The unit reads an account. -/
def Defines (accountId : Str) : Prop :=
  ∃ locals, accountLocals rt unit (.obj config.envAccounts) (.obj config.domains) = .ok locals ∧
    locals.awsAccountId = .str accountId

/-- What the resolver returns is what the unit reads. -/
def Mirrors : Prop :=
  ∀ region accountId,
    resolveAccountId rt unit.path (.obj config.envAccounts) (.obj config.domains) =
        .ok (region, accountId) ↔
      region = unit.region ∧ Defines config unit accountId

/-- A unit of a tier in the owner's account, of an environment without a row. -/
def Stray (accountId : Str) : Prop :=
  ¬config.Lists unit.first ∧ accountId = config.ownerId ∧
    (unit.kind = .dnsOwner ∨ unit.kind = .pretty ∧ config.InZone unit.first false)

variable {config unit} {region accountId : Str}

theorem defines_iff (alike : unit.Alike) : Defines config unit accountId ↔
    config.Account unit.first accountId unit.kind ∧
      (unit.kind = .dnsOwner ∨ unit.kind = .pretty → config.Lists unit.first) := by
  rcases Option.map_eq_some_iff.mp alike with ⟨file, found, sameKind⟩
  rw [← sameKind, ← fileDefines_iff, Defines, accountLocals, found]
  rfl

theorem not_envAccount (unlisted : ¬config.Lists unit.first) :
    ¬config.EnvAccount unit.first accountId := by
  rintro ⟨entries, found, -⟩
  apply unlisted
  rw [CommonConfig.Lists, found]
  rfl

/-- A row for one environment, in account `1` and with the pretty apex `a`; the owner has `2`. -/
def twoAccounts (rt : Runtime) (env serviceApex : Str) : CommonConfig rt where
  envAccounts :=
    [(str "envs", .obj [(env, .obj [(str "account_id", .str (str "1")),
      (str "aws_profile", .str (str "env")), (str "use_pinned_module_sources", .bool false)])]),
    (str "dns_owner", .obj [(str "account_id", .str (str "2")),
      (str "aws_profile", .str (str "owner"))])]
  domains := [(env, .obj [(str "dns_pretty_apex", .str (str "a")),
    (str "dns_service_apex", .str serviceApex)])]
  envs := [(env, .obj [(str "account_id", .str (str "1")),
    (str "aws_profile", .str (str "env")), (str "use_pinned_module_sources", .bool false)])]
  dnsOwner := [(str "account_id", .str (str "2")), (str "aws_profile", .str (str "owner"))]
  ownerId := str "2"
  envs_eq := by simp [dictGet?]
  dnsOwner_eq := by simp [dictGet?, str]
  ownerId_eq := by simp [dictGet?]
  ownerProfile := ⟨str "owner", by simp [dictGet?, str]⟩
  envRows := by
    intro other row found
    simp only [dictGet?] at found
    split_ifs at found
    cases found
    exact ⟨_, str "1", str "env", false, rfl, by simp [dictGet?], by simp [dictGet?, str],
      by simp [dictGet?, str], by simp⟩
  domainRows := by
    intro other row found
    simp only [dictGet?] at found
    split_ifs at found
    cases found
    exact ⟨_, str "a", serviceApex, rfl, by simp [dictGet?], by simp [dictGet?, str]⟩

theorem lists_twoAccounts (env serviceApex : Str) : (twoAccounts rt env serviceApex).Lists env := by
  simp [CommonConfig.Lists, twoAccounts, dictGet?]

/--
Where path and tree agree, the resolver returns the account that the nearest `account.hcl`
defines, or the owner's account for a stray unit, whose file aborts.
-/
theorem resolved_iff (alike : unit.Alike) :
    resolveAccountId rt unit.path (.obj config.envAccounts) (.obj config.domains) =
        .ok (region, accountId) ↔
      region = unit.region ∧ (Defines config unit accountId ∨ Stray config unit accountId) := by
  rw [resolveAccountId_eq_ok, defines_iff alike]
  apply and_congr_right'
  constructor
  · intro account
    by_cases lists : config.Lists unit.first
    · exact .inl ⟨account, fun _ => lists⟩
    · cases kind : unit.kind with
      | service =>
          rw [kind] at account
          exact absurd account (not_envAccount lists)
      | dnsOwner =>
          rw [kind] at account
          exact .inr ⟨lists, account, .inl kind⟩
      | pretty =>
          rw [kind] at account
          rcases account with ⟨-, account⟩ | ⟨outOfZone, isOwner⟩
          · exact absurd account (not_envAccount lists)
          · exact .inr ⟨lists, isOwner, .inr ⟨kind, outOfZone⟩⟩
      | bootstrap roleDir =>
          rw [kind] at account
          exact .inl ⟨account, by simp⟩
  · rintro (⟨account, -⟩ | ⟨-, isOwner, kind | ⟨kind, outOfZone⟩⟩)
    · exact account
    · rw [kind]
      exact isOwner
    · rw [kind]
      exact .inr ⟨outOfZone, isOwner⟩

def delegationUnit : LiveUnit where
  above := str "terragrunt/"
  region := str "us-east-1"
  first := str "prod"
  below := [singletonsSegment, dnsOwnerSegment, str "dns-delegation"]
  outside := by decide
  isRegion := by decide
  named := by simp [IsName, singletonsSegment, dnsOwnerSegment, str, slash]
  nested := by simp

theorem alike_delegationUnit : delegationUnit.Alike := by
  rw [LiveUnit.Alike]
  decide

theorem resolved_delegationUnit :
    resolveAccountId .whole delegationUnit.path
      (.obj (twoAccounts .whole (str "qa") (str "a")).envAccounts)
      (.obj (twoAccounts .whole (str "qa") (str "a")).domains) =
        .ok (str "us-east-1", str "2") := by
  apply (resolved_iff alike_delegationUnit).mpr
  refine ⟨rfl, .inr ⟨?_, rfl, .inl ?_⟩⟩
  · simp [CommonConfig.Lists, twoAccounts, dictGet?, delegationUnit, str]
  · decide

theorem service_twoAccounts {env serviceApex : Str} :
    (twoAccounts rt env serviceApex).Account env accountId .service ↔ accountId = str "1" := by
  simp [CommonConfig.Account, CommonConfig.EnvAccount, twoAccounts, dictGet?, eq_comm]

theorem dnsOwner_twoAccounts {env serviceApex : Str} :
    (twoAccounts rt env serviceApex).Account env accountId .dnsOwner ↔ accountId = str "2" :=
  Iff.rfl

theorem pretty_twoAccounts {env serviceApex : Str} :
    (twoAccounts rt env serviceApex).Account env accountId .pretty ↔
      accountId = if str "a" = serviceApex then str "1" else str "2" := by
  have account : (twoAccounts rt env serviceApex).Account env accountId .pretty ↔
      if str "a" = serviceApex then (twoAccounts rt env serviceApex).EnvAccount env accountId
      else accountId = str "2" := by
    apply prettyAccount_iff
    · simp only [twoAccounts, dictGet?, if_true]
      rfl
    · simp [dictGet?]
    · simp [dictGet?, str]
  rw [account]
  split_ifs
  · exact service_twoAccounts
  · exact Iff.rfl

/-- The kinds of an environment's tree are told apart by the accounts they name. -/
theorem kind_of_accounts {env : Str} {first second : Kind}
    (firstTier : ∀ roleDir, first ≠ .bootstrap roleDir)
    (secondTier : ∀ roleDir, second ≠ .bootstrap roleDir)
    (same : ∀ serviceApex accountId, (twoAccounts rt env serviceApex).Account env accountId first ↔
      (twoAccounts rt env serviceApex).Account env accountId second) : first = second := by
  have inZone := same (str "a") (str "1")
  have outOfZone := same (str "b") (str "1")
  have apart : str "1" ≠ str "2" := by decide
  have apexes : str "a" ≠ str "b" := by decide
  rcases first with _ | _ | _ | roleDir
  · rcases second with _ | _ | _ | other
    · rfl
    · simp [service_twoAccounts, dnsOwner_twoAccounts, apart] at inZone
    · simp [service_twoAccounts, pretty_twoAccounts, apart, apexes] at outOfZone
    · exact absurd rfl (secondTier other)
  · rcases second with _ | _ | _ | other
    · simp [service_twoAccounts, dnsOwner_twoAccounts, apart] at inZone
    · rfl
    · simp [dnsOwner_twoAccounts, pretty_twoAccounts, apart] at inZone
    · exact absurd rfl (secondTier other)
  · rcases second with _ | _ | _ | other
    · simp [service_twoAccounts, pretty_twoAccounts, apart, apexes] at outOfZone
    · simp [dnsOwner_twoAccounts, pretty_twoAccounts, apart] at inZone
    · rfl
    · exact absurd rfl (secondTier other)
  · exact absurd rfl (firstTier roleDir)

theorem accountFileAt_env {first : Str} (notBootstrap : first ≠ bootstrapSegment) (dir : List Str) :
    accountFileAt first dir =
      if dir = [] then some .service
      else if dir = [singletonsSegment, sharedSegment] then some .shared
      else if dir = [singletonsSegment, dnsOwnerSegment] then some .dnsOwner
      else if dir = [singletonsSegment, prettySegment] then some .pretty
      else none := by
  unfold accountFileAt
  simp only [if_neg notBootstrap]

/-- Above every directory of an environment there is a file, and none of a role. -/
theorem exists_nearestFrom {first : Str} (notBootstrap : first ≠ bootstrapSegment)
    (dirs : List Str) : ∃ file, nearestFrom first dirs = some file ∧
      ∀ roleDir, file.kind ≠ .bootstrap roleDir := by
  have tier (dir : List Str) : ∀ file, accountFileAt first dir = some file →
      ∀ roleDir, file.kind ≠ .bootstrap roleDir := by
    intro file found roleDir
    rw [accountFileAt_env notBootstrap] at found
    split_ifs at found
    all_goals
      cases found
      simp [AccountFile.kind]
  induction dirs with
  | nil =>
      have found : accountFileAt first [] = some .service := by
        rw [accountFileAt_env notBootstrap, if_pos rfl]
      exact ⟨.service, found, tier [] _ found⟩
  | cons name above ih =>
      rw [nearestFrom]
      cases found : accountFileAt first (name :: above).reverse with
      | none => exact ih
      | some file => exact ⟨file, rfl, tier _ file found⟩

/-- Under `bootstrap` only the directories of the roles have a file. -/
theorem accountFileAt_bootstrap {dir : List Str} (apart : dir.length ≠ 1) :
    accountFileAt bootstrapSegment dir = none := by
  match dir with
  | [] => rfl
  | [_] => exact absurd rfl apart
  | _ :: _ :: _ => rfl

/-- The file of a role is the nearest one for what is below it. -/
theorem nearestFrom_bootstrap (roleDir : Str) (dirs : List Str) :
    nearestFrom bootstrapSegment (dirs ++ [roleDir]) = some (.bootstrap roleDir) := by
  induction dirs with
  | nil => rfl
  | cons name dirs ih =>
      have none : accountFileAt bootstrapSegment (name :: (dirs ++ [roleDir])).reverse = .none := by
        apply accountFileAt_bootstrap
        simp
      rw [List.cons_append, nearestFrom, none, Option.none_or, ih]

theorem alike_bootstrap {roleDir name : Str} {below : List Str}
    (isBootstrap : unit.first = bootstrapSegment)
    (below_eq : unit.below = roleDir :: name :: below) :
    unit.Alike := by
  have nested : (roleDir :: name :: below).reverse.tail =
      (name :: below).reverse.tail ++ [roleDir] := by
    rw [List.reverse_cons, List.tail_append_of_ne_nil (by simp)]
  simp only [LiveUnit.Alike, LiveUnit.accountFile, LiveUnit.kind, isBootstrap, below_eq, nested,
    nearestFrom_bootstrap, if_true, List.headD_cons, Option.map_some, AccountFile.kind]

/-- A unit at the place of a role is resolved, and has no file above it. -/
theorem not_mirrors_role {roleDir : Str} (isBootstrap : unit.first = bootstrapSegment)
    (below_eq : unit.below = [roleDir]) :
    ∃ config : CommonConfig rt, ¬Mirrors config unit := by
  refine ⟨twoAccounts rt (bootstrapRole roleDir) (str "a"), ?_⟩
  intro mirrors
  have resolved : ∃ accountId, (twoAccounts rt (bootstrapRole roleDir) (str "a")).Account
      unit.first accountId unit.kind := by
    simp only [LiveUnit.kind, isBootstrap, if_true, below_eq, List.headD_cons, CommonConfig.Account]
    split_ifs
    · exact ⟨_, rfl⟩
    · exact ⟨str "1", service_twoAccounts.mpr rfl⟩
  rcases resolved with ⟨accountId, account⟩
  have defines := ((mirrors unit.region accountId).mp (resolveAccountId_eq_ok.mpr ⟨rfl, account⟩)).2
  rcases defines with ⟨locals, evaluated, -⟩
  have noFile : unit.accountFile = none := by
    rw [LiveUnit.accountFile, below_eq, isBootstrap]
    exact accountFileAt_bootstrap (by simp)
  rw [accountLocals, noFile] at evaluated
  cases evaluated

theorem unit_kind_ne_bootstrap (notBootstrap : unit.first ≠ bootstrapSegment) (roleDir : Str) :
    unit.kind ≠ .bootstrap roleDir := by
  rw [LiveUnit.kind, if_neg notBootstrap]
  split_ifs
  all_goals simp

/-- Where the resolver mirrors a unit of an environment, the accounts tell its kind. -/
theorem alike_of_mirrors (notBootstrap : unit.first ≠ bootstrapSegment)
    (mirrors : ∀ config : CommonConfig rt, config.Lists unit.first → Mirrors config unit) :
    unit.Alike := by
  rcases exists_nearestFrom notBootstrap unit.below.reverse.tail with ⟨file, found, tier⟩
  have accountFile : unit.accountFile = some file := found
  rw [LiveUnit.Alike, accountFile, Option.map_some, Option.some_inj]
  apply @kind_of_accounts rt unit.first _ _ tier (unit_kind_ne_bootstrap notBootstrap)
  intro serviceApex accountId
  have lists : (twoAccounts rt unit.first serviceApex).Lists unit.first :=
    lists_twoAccounts unit.first serviceApex
  have same := mirrors _ lists unit.region accountId
  rw [resolveAccountId_eq_ok, Defines, accountLocals, accountFile] at same
  have defined : FileDefines (twoAccounts rt unit.first serviceApex) file unit.first accountId ↔
      (twoAccounts rt unit.first serviceApex).Account unit.first accountId file.kind := by
    rw [fileDefines_iff]
    exact and_iff_left fun _ => lists
  rw [← defined, FileDefines]
  simpa using same.symm

theorem mirrors_of_alike (alike : unit.Alike)
    (listed : unit.first = bootstrapSegment ∨ config.Lists unit.first) : Mirrors config unit := by
  intro region accountId
  rw [resolveAccountId_eq_ok, defines_iff alike]
  apply and_congr_right'
  constructor
  · intro account
    refine ⟨account, ?_⟩
    intro ownerTier
    rcases listed with isBootstrap | lists
    · rw [LiveUnit.kind, if_pos isBootstrap] at ownerTier
      simp at ownerTier
    · exact lists
  · exact And.left

/--
The resolver returns what Terragrunt reads, on every configuration that lists the unit's
environment, exactly if path and tree agree on the unit.
-/
theorem mirrors_iff (rt : Runtime) (unit : LiveUnit) :
    (∀ config : CommonConfig rt, unit.first = bootstrapSegment ∨ config.Lists unit.first →
      Mirrors config unit) ↔ unit.Alike := by
  constructor
  · intro mirrors
    by_cases isBootstrap : unit.first = bootstrapSegment
    · rcases List.exists_cons_of_ne_nil unit.nested with ⟨roleDir, below, below_eq⟩
      cases below with
      | nil =>
          have differs : ∃ config : CommonConfig rt, ¬Mirrors config unit :=
            not_mirrors_role isBootstrap below_eq
          rcases differs with ⟨config, differs⟩
          exact absurd (mirrors config (.inl isBootstrap)) differs
      | cons name below => exact alike_bootstrap isBootstrap below_eq
    · exact alike_of_mirrors isBootstrap fun config lists => mirrors config (.inr lists)
  · intro alike config listed
    exact mirrors_of_alike alike listed

end Mirror

end Deploy
