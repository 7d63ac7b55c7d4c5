import TelemetryPlatform.Sweep.DeleteMode

/-!
# Check mode

A run of check mode probes each resource of its inventory once, lists what Cost
Explorer has, writes the report and exits with the number of its entries. The shell
sees this number modulo 256.
-/

namespace Sweep

open Python Interaction

variable {rt : Runtime} {digits : DigitTable} {settings : Settings} {runId : Option Str}

section Probes

/-- The probe of one resource: whether it counts as residue. -/
abbrev Probe := Program.Piece Call Call.Reply Resource Bool

/-- The resources whose probes count them. -/
def live (probes : List Probe) : List Resource :=
  (probes.filter fun probe => probe.value).map Program.Piece.input

variable (settings) in
/-- Every resource is probed once, in the order of the inventory. -/
def Probed (resources : List Resource) (probes : List Probe) : Prop :=
  probes.map Program.Piece.input = resources ∧
    ∀ probe ∈ probes, (isResidue settings probe.input).Runs probe.log (.ok probe.value)

variable (rt digits settings runId) in
/-- What the sweep without a run id finds in Cost Explorer. -/
def Listed (now : DateTime) (log : List SweepEvent) (items : List CeItem) : Prop :=
  match runId with
  | some _ => log = [] ∧ items = []
  | none => ∃ minAge subscriptions monitors, getMinAgeMinutes rt settings = .ok minAge ∧
      log = [⟨.api .getAnomalySubscriptions, .ok subscriptions⟩,
        ⟨.api .getAnomalyMonitors, .ok monitors⟩] ∧
      items = subscriptions.filter (ceSwept digits minAge now ceSubscriptionNamePrefixes
          ceSubscriptionNameSuffixes) ++
        monitors.filter (ceSwept digits minAge now ceMonitorNamePrefixes ceMonitorNameSuffixes)

def ceFound (item : CeItem) : Entry := ⟨item.arn, str "ce", .found, some item.name⟩

theorem kept_probes (probes : List Probe) :
    kept (probes.map Program.Piece.input) (probes.map Program.Piece.value) = live probes := by
  rw [kept, List.zip_map']
  simp [live, List.filter_map, Function.comp_def]

/-- A request to the AWS API. -/
def IsApi : Call → Prop
  | .api _ => True
  | .now | .writeReport _ => False

end Probes

section CostExplorer

theorem runs_ceAct_check {delete : CeItem → ApiCall} {items : List CeItem}
    {log : List SweepEvent} {outcome : Except Raised (List Entry)}
    (ran : (items.mapM fun item => ceAct .check item (delete item)).Runs log outcome) :
    log = [] ∧ outcome = .ok (items.map ceFound) := by
  induction items generalizing log outcome with
  | nil => exact ran
  | cons item items ih =>
      rw [List.mapM_cons] at ran
      rcases Program.runs_bind.mp ran with ⟨_, _, impossible⟩ | ⟨_, _, _, rfl, acted, ran⟩
      · cases impossible.2
      rcases acted with ⟨rfl, acted⟩
      cases acted
      rcases Program.runs_bind.mp ran with ⟨_, _, stopped⟩ | ⟨_, _, _, rfl, others, ran⟩
      · cases (ih stopped).2
      rcases ih others with ⟨rfl, same⟩
      cases same
      exact ran

theorem isApi_of_isCostExplorer {call : Call} (ce : IsCostExplorer call) : IsApi call := by
  cases call with
  | api call => trivial
  | now => exact ce
  | writeReport report => exact ce

/-- In check mode the items of Cost Explorer are reported as they are listed. -/
theorem runs_ceEntries_check {now : DateTime} {log : List SweepEvent}
    {outcome : Except Halt (List Entry)}
    (ran : (ceEntries rt digits settings .check runId now).Runs log outcome) :
    (∃ items, Listed rt digits settings runId now log items ∧
        outcome = .ok (items.map ceFound)) ∨
      ∃ halt, outcome = .error halt ∧ halt.Fails ∧ ∀ event ∈ log, IsApi event.request := by
  cases runId with
  | some id =>
      rcases ran with ⟨rfl, rfl⟩
      exact Or.inl ⟨[], ⟨rfl, rfl⟩, rfl⟩
  | none =>
      simp only [ceEntries, Option.isNone_none, if_true] at ran
      rw [Program.runs_bind] at ran
      rcases ran with ⟨halt, rfl, stopped⟩ | ⟨minAge, _, second, rfl, parsed, ran⟩
      · rcases runs_uncaughtExc stopped with ⟨rfl, ⟨_, _, impossible⟩ | ⟨_, _, same⟩⟩
        · cases impossible
        · cases same
          exact Or.inr ⟨_, rfl, trivial, by simp⟩
      rcases runs_uncaughtExc parsed with ⟨rfl, ⟨_, minAge_eq, same⟩ | ⟨_, _, impossible⟩⟩
      swap
      · cases impossible
      cases same
      rcases Program.runs_handle.mp ran with ⟨entries, rfl, swept⟩ |
        ⟨error, first, _, rfl, stopped, rfl, rfl⟩
      · unfold sweepCeAnomalyMonitors at swept
        simp only [Program.runs_bind_ok, Program.pure_eq_ret, Program.runs_ret] at swept
        rcases swept with ⟨subscriptions, _, _, rfl, listed, _, _, _, rfl, acted,
          monitors, _, _, rfl, listedToo, _, _, _, rfl, actedToo, rfl, same⟩
        rcases runs_ceAct_check acted with ⟨rfl, first_eq⟩
        rcases runs_ceAct_check actedToo with ⟨rfl, second_eq⟩
        cases first_eq
        cases second_eq
        cases same
        rcases runs_api_ok listed with rfl
        rcases runs_api_ok listedToo with rfl
        refine Or.inl ⟨_, ⟨minAge, subscriptions, monitors, minAge_eq, rfl, rfl⟩, ?_⟩
        rw [List.map_append]
      · refine Or.inr ⟨_, rfl, trivial, fun event eventMem => ?_⟩
        rw [List.append_nil] at eventMem
        exact isApi_of_isCostExplorer
          (sweepCeAnomalyMonitors_issuesOnly.allowed_of_runs stopped event eventMem)

end CostExplorer

section Issued

theorem attempt_bind_issuesOnly {α : Type} {call : ApiCall}
    {next : Except Fault (Response call) → Aws α}
    (each : ∀ reply, (next reply).IssuesOnly IsApi) :
    (attempt call >>= next).IssuesOnly IsApi := ⟨trivial, each⟩

theorem probed_issuesOnly {α : Type} {goneCodes : List Str} {isGone : α → Bool}
    {reply : Except Fault α} : (probed goneCodes isGone reply).IssuesOnly IsApi := by
  cases reply with
  | ok described => trivial
  | error fault =>
      cases fault with
      | client code => trivial
      | other => trivial

theorem isKmsKeyInPendingDeletion_issuesOnly {arn : Str} :
    (isKmsKeyInPendingDeletion arn).IssuesOnly IsApi := by
  unfold isKmsKeyInPendingDeletion
  split
  · trivial
  · exact attempt_bind_issuesOnly fun _ => probed_issuesOnly

theorem isGone_issuesOnly {arn : Str} : (isGone arn).IssuesOnly IsApi := by
  unfold isGone
  dsimp only
  refine Program.issuesOnly_ite.mpr ⟨fun _ => isKmsKeyInPendingDeletion_issuesOnly, fun _ => ?_⟩
  refine Program.issuesOnly_ite.mpr ⟨fun _ => ?_, fun _ => trivial⟩
  refine Program.issuesOnly_ite.mpr
    ⟨fun _ => attempt_bind_issuesOnly fun _ => probed_issuesOnly, fun _ => ?_⟩
  refine Program.issuesOnly_ite.mpr
    ⟨fun _ => attempt_bind_issuesOnly fun _ => probed_issuesOnly, fun _ => ?_⟩
  refine Program.issuesOnly_ite.mpr
    ⟨fun _ => attempt_bind_issuesOnly fun _ => probed_issuesOnly, fun _ => ?_⟩
  exact Program.issuesOnly_ite.mpr
    ⟨fun _ => attempt_bind_issuesOnly fun _ => probed_issuesOnly, fun _ => trivial⟩

theorem activeUnlessClientError_issuesOnly {α : Type} {isActive : α → Bool}
    {reply : Except Fault α} : (activeUnlessClientError isActive reply).IssuesOnly IsApi := by
  cases reply with
  | ok described => trivial
  | error fault =>
      cases fault with
      | client code => trivial
      | other => trivial

theorem ecsIsLive_issuesOnly {arn : Str} : (ecsIsLive arn).IssuesOnly IsApi := by
  unfold ecsIsLive
  split
  · exact attempt_bind_issuesOnly fun _ => activeUnlessClientError_issuesOnly
  · split
    · exact attempt_bind_issuesOnly fun _ => activeUnlessClientError_issuesOnly
    · split
      · exact attempt_bind_issuesOnly fun _ => activeUnlessClientError_issuesOnly
      · trivial

theorem cloudFrontIsLive_issuesOnly {arn : Str} : (cloudFrontIsLive arn).IssuesOnly IsApi := by
  refine attempt_bind_issuesOnly fun reply => ?_
  cases reply with
  | ok described => trivial
  | error fault =>
      cases fault with
      | client code =>
          dsimp only
          split <;> trivial
      | other => trivial

theorem cognitoIdpIsLive_issuesOnly {arn : Str} : (cognitoIdpIsLive arn).IssuesOnly IsApi := by
  have read : (poolIdAndRegion arn).IssuesOnly IsApi := by
    unfold poolIdAndRegion
    cases (arn.splitOn colon)[3]? with
    | none => trivial
    | some region => cases splitOnce (str ":userpool/") arn <;> trivial
  refine read.bind fun pool => attempt_bind_issuesOnly fun reply => ?_
  cases reply with
  | ok described => trivial
  | error fault =>
      dsimp only
      split <;> trivial

theorem isResidue_issuesOnly {resource : Resource} :
    (isResidue settings resource).IssuesOnly IsApi := by
  unfold isResidue
  refine isGone_issuesOnly.bind fun gone => ?_
  have reportsLive : (handlerReportsLive settings resource.arn).IssuesOnly IsApi := by
    unfold handlerReportsLive
    split
    · next handler found =>
        rcases Option.map_eq_some_iff.mp found with ⟨service, _, rfl⟩
        cases service with
        | cloudfront => exact cloudFrontIsLive_issuesOnly
        | ecs => exact ecsIsLive_issuesOnly
        | cognitoIdp => exact cognitoIdpIsLive_issuesOnly
        | _ => trivial
    · trivial
  cases gone with
  | true => trivial
  | false => exact reportsLive

end Issued

section Status

/-- A run of check mode behind the gate: it breaks off without a report, or probes every resource,
reports what is left over and exits with the number of its entries. -/
theorem runs_checkMode {account : Str} {now : DateTime} {resources : List Resource}
    {log : List SweepEvent} {outcome : Except Halt Int}
    (ran : (checkMode rt digits settings account runId now resources).Runs log outcome) :
    (∃ halt, outcome = .error halt ∧ halt.Fails ∧ ∀ event ∈ log, IsApi event.request) ∨
      ∃ probes ceLog items report, Probed settings resources probes ∧
        Listed rt digits settings runId now ceLog items ∧
        log = probes.flatMap Program.Piece.log ++ ceLog ++ [⟨.writeReport report, ()⟩] ∧
        report.found = (live probes).map foundEntry ++ items.map ceFound ∧
        outcome = .ok report.found.length := by
  unfold checkMode at ran
  rw [Program.runs_bind] at ran
  have only : (uncaughtIn (resources.mapM (isResidue settings))).IssuesOnly IsApi :=
    (Program.issuesOnly_mapM fun _ _ => isResidue_issuesOnly).handle fun _ => trivial
  rcases ran with ⟨halt, rfl, stopped⟩ | ⟨flags, first, rest, rfl, probing, ran⟩
  · refine Or.inl ⟨halt, rfl, ?_, only.allowed_of_runs stopped⟩
    rcases Program.runs_handle.mp stopped with ⟨_, impossible, _⟩ | ⟨_, _, _, _, _, _, same⟩
    · cases impossible
    · cases same
      trivial
  rcases Program.runs_handle.mp probing with ⟨_, same, looped⟩ | ⟨_, _, _, _, _, _, impossible⟩
  swap
  · cases impossible
  cases same
  rcases Program.runs_mapM_ok.mp looped with ⟨probes, inputs_eq, rfl, rfl, each⟩
  rw [Program.runs_bind] at ran
  rcases ran with ⟨halt, rfl, stopped⟩ | ⟨entries, ceLog, last, rfl, listing, ran⟩
  · rcases runs_ceEntries_check stopped with ⟨_, _, impossible⟩ | ⟨_, same, fails, onlyApi⟩
    · cases impossible
    cases same
    refine Or.inl ⟨halt, rfl, fails, fun event eventMem => ?_⟩
    rcases List.mem_append.mp eventMem with inProbes | inCe
    · exact only.allowed_of_runs probing event inProbes
    · exact onlyApi event inCe
  rcases runs_ceEntries_check listing with ⟨items, listed, same⟩ | ⟨_, impossible, _⟩
  swap
  · cases impossible
  cases same
  rcases ran with ⟨⟨⟩, last, rfl, rfl, rfl⟩
  refine Or.inr ⟨probes, ceLog, items, _, ⟨inputs_eq, each⟩, listed,
    (List.append_assoc _ _ _).symm, ?_, rfl⟩
  rw [← inputs_eq, kept_probes]

/-- The report was written, and it lists nothing. -/
def ReportsNothing (log : List SweepEvent) : Prop :=
  ∃ report, ⟨.writeReport report, ()⟩ ∈ log ∧ report.found = []

variable (rt digits settings runId) in
/-- The probes and the listings in the log show a number of resources and items to be left over. -/
def LeftOver (log : List SweepEvent) (count : Nat) : Prop :=
  ∃ account now enumerated resources probes ceLog items report,
    Sweepable rt digits settings runId now enumerated resources ∧
      Probed settings resources probes ∧ Listed rt digits settings runId now ceLog items ∧
      log = ⟨.api .getCallerIdentity, .ok account⟩ :: enumeration runId now enumerated ++
        (probes.flatMap Program.Piece.log ++ ceLog ++ [⟨.writeReport report, ()⟩]) ∧
      count = (live probes).length + items.length

theorem not_reportsNothing_of_fails {log : List SweepEvent}
    (onlyApi : ∀ event ∈ log, event.request = .now ∨ IsApi event.request) :
    ¬ReportsNothing log := by
  rintro ⟨report, reportMem, _⟩
  rcases onlyApi _ reportMem with impossible | impossible
  · cases impossible
  · exact impossible

theorem reportsNothing_iff {log : List SweepEvent} {report : Report}
    (onlyApi : ∀ event ∈ log, event.request = .now ∨ IsApi event.request) :
    ReportsNothing (log ++ [⟨.writeReport report, ()⟩]) ↔ report.found = [] := by
  constructor
  · rintro ⟨written, writtenMem, nothing⟩
    rcases List.mem_append.mp writtenMem with inLog | last
    · exact False.elim (not_reportsNothing_of_fails onlyApi ⟨written, inLog, nothing⟩)
    · cases List.mem_singleton.mp last
      exact nothing
  · exact fun nothing => ⟨report, by simp, nothing⟩

theorem sweepable_unique {now : DateTime} {enumerated resources resources' : List Resource}
    (swept : Sweepable rt digits settings runId now enumerated resources)
    (swept' : Sweepable rt digits settings runId now enumerated resources') :
    resources = resources' := by
  cases runId with
  | some id => exact swept.trans swept'.symm
  | none =>
      rcases swept with ⟨minAge, minAge_eq, rfl⟩
      rcases swept' with ⟨minAge', minAge_eq', rfl⟩
      cases minAge_eq.symm.trans minAge_eq'
      rfl

theorem exitStatus_eq_zero {count : Nat} :
    exitStatus (.ok (count : Int)) = 0 ↔ count % 256 = 0 := by
  simp only [exitStatus]
  omega

theorem listed_unique {now : DateTime} {log : List SweepEvent} {items items' : List CeItem}
    (listed : Listed rt digits settings runId now log items)
    (listed' : Listed rt digits settings runId now log items') : items = items' := by
  cases runId with
  | some id => exact listed.2.trans listed'.2.symm
  | none =>
      rcases listed with ⟨minAge, subscriptions, monitors, minAge_eq, rfl, rfl⟩
      rcases listed' with ⟨minAge', subscriptions', monitors', minAge_eq', same, rfl⟩
      cases minAge_eq.symm.trans minAge_eq'
      simp only [List.cons.injEq, Event.mk.injEq, heq_eq_eq, Except.ok.injEq, true_and] at same
      rcases same with ⟨rfl, rfl, _⟩
      rfl

/-- A log shows one number of resources and items only. -/
theorem leftOver_unique {log : List SweepEvent} {count count' : Nat}
    (shown : LeftOver rt digits settings runId log count)
    (shown' : LeftOver rt digits settings runId log count') : count = count' := by
  rcases shown with ⟨account, now, enumerated, resources, probes, ceLog, items, report, swept,
    ⟨inputs_eq, each⟩, listed, rfl, rfl⟩
  rcases shown' with ⟨account', now', enumerated', resources', probes', ceLog', items', report',
    swept', ⟨inputs_eq', each'⟩, listed', same, rfl⟩
  simp only [enumeration, List.cons_append, List.nil_append, List.cons.injEq, Event.mk.injEq,
    heq_eq_eq, Except.ok.injEq, true_and] at same
  rcases same with ⟨rfl, rfl, rfl, same⟩
  cases sweepable_unique swept swept'
  have probing := Program.runs_mapM_ok.mpr ⟨probes, inputs_eq, rfl, rfl, each⟩
  have probing' := Program.runs_mapM_ok.mpr ⟨probes', inputs_eq', rfl, rfl, each'⟩
  rw [List.append_assoc, List.append_assoc] at same
  rcases Program.runs_unique_of_append probing probing' same with ⟨_, rest_eq, values_eq⟩
  have live_eq : live probes = live probes' := by
    rw [← kept_probes, ← kept_probes, inputs_eq, inputs_eq', Except.ok.inj values_eq]
  cases (List.append_inj' rest_eq rfl).1
  rw [live_eq, listed_unique listed listed']

theorem IsOpening.request {event : SweepEvent} (opening : IsOpening rt settings runId event) :
    event.request = .now ∨ IsApi event.request := by
  cases opening with
  | identity reply => exact Or.inr trivial
  | clock now => exact Or.inl rfl
  | refused fault => exact Or.inr trivial
  | unjudged enumerated misconfigured => exact Or.inr trivial

theorem request_of_enumeration {account : Str} {now : DateTime} {enumerated : List Resource}
    {rest : List SweepEvent} (onlyApi : ∀ event ∈ rest, IsApi event.request) :
    ∀ event ∈ ⟨.api .getCallerIdentity, .ok account⟩ :: enumeration runId now enumerated ++ rest,
      event.request = .now ∨ IsApi event.request := by
  intro event eventMem
  rcases List.mem_append.mp eventMem with opening | inRest
  · simp only [enumeration, List.mem_cons, List.not_mem_nil, or_false] at opening
    rcases opening with rfl | rfl | rfl
    · exact Or.inr trivial
    · exact Or.inl rfl
    · exact Or.inr trivial
  · exact Or.inr (onlyApi event inRest)

theorem Listed.isApi {now : DateTime} {log : List SweepEvent} {items : List CeItem}
    (listed : Listed rt digits settings runId now log items) :
    ∀ event ∈ log, IsApi event.request := by
  cases runId with
  | some id => simp [listed.1]
  | none =>
      rcases listed with ⟨_, subscriptions, monitors, _, rfl, _⟩
      simp [IsApi]

theorem Probed.isApi {resources : List Resource} {probes : List Probe}
    (probed : Probed settings resources probes) :
    ∀ event ∈ probes.flatMap Program.Piece.log, IsApi event.request := by
  intro event eventMem
  rcases List.mem_flatMap.mp eventMem with ⟨probe, probeMem, eventMem⟩
  exact isResidue_issuesOnly.allowed_of_runs (probed.2 probe probeMem) event eventMem

/-- A run of check mode breaks off before its report, or has the shape of `LeftOver`. -/
theorem runs_main_report {log : List SweepEvent} {outcome : Except Halt Int}
    (ran : (main rt digits settings .check runId).Runs log outcome) :
    (exitStatus outcome = 1 ∧ ∀ event ∈ log, event.request = .now ∨ IsApi event.request) ∨
      ∃ account now enumerated resources probes ceLog items report,
        Sweepable rt digits settings runId now enumerated resources ∧
          Probed settings resources probes ∧ Listed rt digits settings runId now ceLog items ∧
          log = ⟨.api .getCallerIdentity, .ok account⟩ :: enumeration runId now enumerated ++
            (probes.flatMap Program.Piece.log ++ ceLog ++ [⟨.writeReport report, ()⟩]) ∧
          report.found = (live probes).map foundEntry ++ items.map ceFound ∧
          outcome = .ok report.found.length := by
  rcases (runs_main ran).2 with ⟨halt, rfl, fails, opening⟩ |
    ⟨account, now, enumerated, resources, rest, rfl, swept, behind⟩
  · exact Or.inl ⟨fails.exitStatus, fun event eventMem => (opening event eventMem).request⟩
  rcases runs_checkMode behind with ⟨halt, rfl, fails, isApi⟩ |
    ⟨probes, ceLog, items, report, probed, listed, rfl, found_eq, rfl⟩
  · exact Or.inl ⟨fails.exitStatus, request_of_enumeration isApi⟩
  · exact Or.inr ⟨account, now, enumerated, resources, probes, ceLog, items, report, swept, probed,
      listed, rfl, found_eq, rfl⟩

/-- A run of check mode breaks off with a failure and without a report, or shows what is left over,
reports it and exits with its number. -/
theorem runs_main_check {log : List SweepEvent} {outcome : Except Halt Int}
    (ran : (main rt digits settings .check runId).Runs log outcome) :
    (exitStatus outcome = 1 ∧ ¬ReportsNothing log ∧
        ∀ count, ¬LeftOver rt digits settings runId log count) ∨
      ∃ count : Nat, LeftOver rt digits settings runId log count ∧ outcome = .ok count ∧
        (ReportsNothing log ↔ count = 0) := by
  rcases runs_main_report ran with ⟨status, onlyApi⟩ | ⟨account, now, enumerated, resources, probes,
    ceLog, items, report, swept, probed, listed, rfl, found_eq, rfl⟩
  · refine Or.inl ⟨status, not_reportsNothing_of_fails onlyApi, ?_⟩
    rintro count ⟨_, _, _, _, _, _, _, report, _, _, _, rfl, _⟩
    rcases onlyApi ⟨.writeReport report, ()⟩ (by simp) with impossible | impossible
    · cases impossible
    · exact impossible
  · have count_eq : report.found.length = (live probes).length + items.length := by
      rw [found_eq, List.length_append, List.length_map, List.length_map]
    refine Or.inr ⟨report.found.length, ⟨account, now, enumerated, resources, probes, ceLog, items,
      report, swept, probed, listed, rfl, count_eq⟩, rfl, ?_⟩
    rw [← List.append_assoc, reportsNothing_iff, List.length_eq_zero_iff]
    apply request_of_enumeration
    intro event eventMem
    rcases List.mem_append.mp eventMem with inProbes | inCe
    · exact probed.isApi event inProbes
    · exact listed.isApi event inCe

/-- The exit status of check mode is zero exactly for an empty report, unless the number of what is
left over is a multiple of 256. -/
theorem main_check_status_iff {log : List SweepEvent} {outcome : Except Halt Int}
    (ran : (main rt digits settings .check runId).Runs log outcome) :
    (exitStatus outcome = 0 ↔ ReportsNothing log) ↔
      ∀ count, LeftOver rt digits settings runId log count → count = 0 ∨ count % 256 ≠ 0 := by
  rcases runs_main_check ran with ⟨status, notReported, notShown⟩ |
    ⟨count, shown, rfl, reported⟩
  · refine iff_of_true ?_ fun count shown => False.elim (notShown count shown)
    rw [status]
    exact iff_of_false Nat.one_ne_zero notReported
  · rw [exitStatus_eq_zero, reported]
    constructor
    · rintro faithful other shown'
      rw [leftOver_unique shown' shown]
      by_cases isZero : count % 256 = 0
      · exact Or.inl (faithful.mp isZero)
      · exact Or.inr isZero
    · intro holds
      rcases holds count shown with rfl | notMultiple
      · simp
      · refine iff_of_false notMultiple ?_
        rintro rfl
        exact notMultiple rfl

end Status

namespace Sample

def topics : List Resource :=
  List.replicate 256 ⟨str "arn:aws:sns:us-east-1:222222222222:alerts", []⟩

/-- A check that finds 256 topics. -/
theorem exists_check : ∃ log outcome,
    (main Runtime.whole DigitTable.latin sandbox .check (some (str "tt-1"))).Runs log outcome ∧
      (exitStatus outcome = 0 ∧ outcome.toOption = some 256) ∧
      ∀ event ∈ log, event.reply = services ⟨0, by decide⟩ topics event.request :=
  Program.exists_run _ _ (fun outcome => exitStatus outcome = 0 ∧ outcome.toOption = some 256)
    (by decide +kernel)

end Sample

theorem main_check_status_iff_check : ∃ log outcome,
    exitStatus outcome = 0 ∧ ((exitStatus outcome = 0 ↔ ReportsNothing log) ↔
      ∀ count, LeftOver Runtime.whole DigitTable.latin Sample.sandbox (some (str "tt-1"))
      log count →
        count = 0 ∨ count % 256 ≠ 0) := by
  rcases Sample.exists_check with ⟨log, outcome, ran, ⟨status, _⟩, _⟩
  exact ⟨log, outcome, status, main_check_status_iff ran⟩

/-- With 256 resources left over the shell sees a success. -/
theorem main_check_masks_256 : ∃ log outcome,
    (main Runtime.whole DigitTable.latin Sample.sandbox .check (some (str "tt-1"))).Runs log
        outcome ∧
      exitStatus outcome = 0 ∧ ¬ReportsNothing log := by
  rcases Sample.exists_check with ⟨log, outcome, ran, ⟨status, code_eq⟩, _⟩
  refine ⟨log, outcome, ran, status, ?_⟩
  rcases runs_main_check ran with ⟨failed, _, _⟩ | ⟨count, _, rfl, reported⟩
  · rw [status] at failed
    cases failed
  · rw [reported]
    rintro rfl
    cases code_eq

end Sweep
