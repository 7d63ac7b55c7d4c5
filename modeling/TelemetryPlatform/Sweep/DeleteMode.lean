import TelemetryPlatform.Library.WholeRuntime
import TelemetryPlatform.Sweep.Passes

/-!
# Delete mode

The gate lets only an account of the allowlist pass, behind it delete mode makes at
most the configured number of passes, and it ends with status zero only if the last
pass left nothing undone.
-/

namespace Sweep

open Python Interaction

variable {rt : Runtime} {digits : DigitTable} {settings : Settings} {runId : Option Str}

section Gate

variable (rt settings) in
/-- The file of accounts gives the account one of the roles that may be swept. -/
def IsAllowed (account : Str) : Prop :=
  ∃ text accounts row role, settings.accountsJson = some text ∧
    rt.loads text = .ok (.obj accounts) ∧ (account, row) ∈ accounts ∧
    row.get (str "account_role") = .ok (.str role) ∧ role ∈ allowedRoles

theorem hasAllowedRole_eq_true {row : rt.Value} (allowed : hasAllowedRole rt row = .ok true) :
    ∃ role, row.get (str "account_role") = .ok (.str role) ∧ role ∈ allowedRoles := by
  unfold hasAllowedRole at allowed
  cases got : row.get (str "account_role") with
  | error error =>
      rw [got] at allowed
      cases allowed
  | ok value =>
      rw [got] at allowed
      cases value with
      | str role =>
          have contained := Except.ok.inj allowed
          rw [List.contains_iff_mem] at contained
          exact ⟨role, rfl, contained⟩
      | _ => cases allowed

theorem runs_loadAllowlist {log : List SweepEvent} {outcome : Except Halt (List Str)}
    (ran : (loadAllowlist rt settings).Runs log outcome) :
    log = [] ∧ ((∃ allowlist, outcome = .ok allowlist ∧
        ∀ account ∈ allowlist, IsAllowed rt settings account) ∨
      ∃ halt, outcome = .error halt ∧ halt.Fails) := by
  unfold loadAllowlist at ran
  split at ran
  · rcases ran with ⟨rfl, rfl⟩
    exact ⟨rfl, Or.inr ⟨_, rfl, rfl⟩⟩
  · next text text_eq =>
      split at ran
      · rcases ran with ⟨rfl, rfl⟩
        exact ⟨rfl, Or.inr ⟨_, rfl, rfl⟩⟩
      · rcases ran with ⟨rfl, rfl⟩
        exact ⟨rfl, Or.inr ⟨_, rfl, trivial⟩⟩
      · next accounts loaded =>
          rw [Program.runs_bind] at ran
          rcases ran with ⟨halt, rfl, stopped⟩ | ⟨flags, first, second, rfl, flagged, rfl, rfl⟩
          · rcases runs_uncaughtExc stopped with ⟨rfl, ⟨_, _, impossible⟩ | ⟨_, _, same⟩⟩
            · cases impossible
            · cases same
              exact ⟨rfl, Or.inr ⟨_, rfl, trivial⟩⟩
          · rcases runs_uncaughtExc flagged with ⟨rfl, ⟨_, looped, same⟩ | ⟨_, _, impossible⟩⟩
            · cases same
              refine ⟨rfl, Or.inl ⟨_, rfl, ?_⟩⟩
              intro account accountMem
              rcases List.mem_map.mp accountMem with ⟨⟨⟨name, row⟩, flag⟩, pairMem, rfl⟩
              rcases List.mem_filter.mp pairMem with ⟨zipMem, flag_eq⟩
              have each := (List.forall₂_iff_zip.mp (forall₂_of_mapM looped)).2 zipMem
              rw [show flag = true from flag_eq] at each
              rcases hasAllowedRole_eq_true each with ⟨role, got, roleMem⟩
              exact ⟨text, accounts, row, role, text_eq, loaded, (List.of_mem_zip zipMem).1, got,
                roleMem⟩
            · cases impossible
      · rcases ran with ⟨rfl, rfl⟩
        exact ⟨rfl, Or.inr ⟨_, rfl, trivial⟩⟩

/-- The gate asks who the caller is and nothing else, and opens to an allowed account only. -/
theorem runs_authorizedAccount {log : List SweepEvent} {outcome : Except Halt Str}
    (ran : (authorizedAccount rt settings).Runs log outcome) :
    (∃ account, outcome = .ok account ∧ log = [⟨.api .getCallerIdentity, .ok account⟩] ∧
        IsAllowed rt settings account) ∨
      ∃ halt, outcome = .error halt ∧ halt.Fails ∧
        ∀ event ∈ log, event.request = .api .getCallerIdentity := by
  unfold authorizedAccount at ran
  rw [Program.runs_bind] at ran
  rcases ran with ⟨halt, rfl, stopped⟩ | ⟨allowlist, first, rest, rfl, loaded, ran⟩
  · rcases runs_loadAllowlist stopped with ⟨rfl, ⟨_, impossible, _⟩ | ⟨_, same, fails⟩⟩
    · cases impossible
    · cases same
      exact Or.inr ⟨halt, rfl, fails, by simp⟩
  rcases runs_loadAllowlist loaded with ⟨rfl, ⟨_, same, allowed⟩ | ⟨_, impossible, _⟩⟩
  swap
  · cases impossible
  cases same
  rcases ran with ⟨reply, rest, rfl, ran⟩
  cases reply with
  | error fault =>
      rcases ran with ⟨rfl, rfl⟩
      exact Or.inr ⟨_, rfl, trivial, by simp⟩
  | ok account =>
      change (if account ∈ allowlist then Program.ret account else Program.raise (.exit 1) :
        Script Str).Runs rest outcome at ran
      split at ran
      · next accountMem =>
          rcases ran with ⟨rfl, rfl⟩
          exact Or.inl ⟨account, rfl, rfl, allowed account accountMem⟩
      · rcases ran with ⟨rfl, rfl⟩
        exact Or.inr ⟨_, rfl, rfl, by simp⟩

variable (rt settings) in
/-- Nothing but the identity of the caller is asked for unless the account is allowed. -/
def Gated (log : List SweepEvent) : Prop :=
  ∀ event ∈ log, event.request ≠ .api .getCallerIdentity → ∃ account rest,
    log = ⟨.api .getCallerIdentity, .ok account⟩ :: rest ∧ IsAllowed rt settings account

/-- A run of either mode fails before it has an inventory, or is a run of the mode behind the gate
and the first enumeration. -/
theorem runs_main {mode : Mode} {log : List SweepEvent} {outcome : Except Halt Int}
    (ran : (main rt digits settings mode runId).Runs log outcome) :
    Gated rt settings log ∧
      ((∃ halt, outcome = .error halt ∧ halt.Fails ∧
          ∀ event ∈ log, IsOpening rt settings runId event) ∨
        ∃ account now enumerated resources rest,
          log = ⟨.api .getCallerIdentity, .ok account⟩ :: enumeration runId now enumerated ++ rest ∧
            Sweepable rt digits settings runId now enumerated resources ∧
            (match mode with
              | .check => checkMode rt digits settings account runId now resources
              | .delete => deleteMode rt digits settings account runId now resources).Runs
                rest outcome) := by
  unfold main at ran
  rw [Program.runs_bind] at ran
  rcases ran with ⟨halt, rfl, stopped⟩ | ⟨account, first, rest, rfl, opened, ran⟩
  · rcases runs_authorizedAccount stopped with ⟨_, impossible, _⟩ | ⟨_, same, fails, asksOnly⟩
    · cases impossible
    cases same
    refine ⟨fun event eventMem other => False.elim (other (asksOnly event eventMem)),
      Or.inl ⟨halt, rfl, fails, ?_⟩⟩
    rintro ⟨request, reply⟩ eventMem
    cases asksOnly _ eventMem
    exact .identity reply
  rcases runs_authorizedAccount opened with ⟨_, same, rfl, allowed⟩ | ⟨_, impossible, _⟩
  swap
  · cases impossible
  cases same
  refine ⟨fun _ _ _ => ⟨account, rest, rfl, allowed⟩, ?_⟩
  rcases ran with ⟨now, rest, rfl, ran⟩
  change (enumerateAndSpare rt digits settings runId now >>= fun resources => match mode with
    | .check => checkMode rt digits settings account runId now resources
    | .delete => deleteMode rt digits settings account runId now resources).Runs
      rest outcome at ran
  rw [Program.runs_bind] at ran
  rcases ran with ⟨halt, rfl, stopped⟩ | ⟨resources, first, second, rfl, enumerates, ran⟩
  · rcases runs_enumerateAndSpare stopped with
      ⟨_, _, _, impossible, _⟩ | ⟨_, same, fails, opening⟩
    · cases impossible
    cases same
    refine Or.inl ⟨halt, rfl, fails, fun event eventMem => ?_⟩
    rcases List.mem_cons.mp eventMem with rfl | later
    · exact .identity _
    rcases List.mem_cons.mp later with rfl | later
    · exact .clock now
    · exact opening event later
  · rcases runs_enumerateAndSpare enumerates with
      ⟨enumerated, _, rfl, same, swept⟩ | ⟨_, impossible, _⟩
    · cases same
      refine Or.inr ⟨account, now, enumerated, resources, second, rfl, swept, ?_⟩
      cases mode with
      | check => exact ran
      | delete => exact ran
    · cases impossible

end Gate

section CostExplorer

/-- A deletion in Cost Explorer. -/
def IsCeDeletion : Call → Prop
  | .api (.deleteAnomalySubscription _) | .api (.deleteAnomalyMonitor _) => True
  | _ => False

/-- Cost Explorer refuses a deletion, and not because there is nothing left to delete. -/
def CeFailed (event : SweepEvent) : Prop :=
  IsCeDeletion event.request ∧ ∃ fault, faultOf event = some fault ∧
    ∀ code, fault = .client code → isBenignNotFound code = false

/-- An item that is not recorded as failed was deleted, or there was nothing left to delete. -/
theorem runs_ceAct {item : CeItem} {delete : ApiCall} {log : List SweepEvent} {entry : Entry}
    (ran : (ceAct .delete item delete).Runs log (.ok entry)) (fine : isBad entry = false) :
    ∃ reply, log = [⟨.api delete, reply⟩] ∧ ∀ fault, reply = .error fault →
      ∃ code, fault = .client code ∧ isBenignNotFound code := by
  rcases ran with ⟨reply, rest, rfl, answered⟩
  cases reply with
  | ok response =>
      rw [answered.1]
      exact ⟨_, rfl, nofun⟩
  | error fault =>
      cases fault with
      | other => cases answered.2
      | client code =>
          rcases answered with ⟨rfl, same⟩
          refine ⟨_, rfl, fun fault fault_eq => ⟨code, (Except.error.inj fault_eq).symm, ?_⟩⟩
          by_contra notBenign
          rw [Bool.not_eq_true] at notBenign
          rw [Except.ok.inj same, notBenign] at fine
          cases fine

theorem ceAct_issuesOnly {mode : Mode} {item : CeItem} {delete : ApiCall}
    (ce : IsCostExplorer (.api delete)) :
    (ceAct mode item delete).IssuesOnly IsCostExplorer := by
  cases mode with
  | check => trivial
  | delete =>
      refine ⟨ce, fun reply => ?_⟩
      cases reply with
      | ok response => trivial
      | error fault =>
          cases fault with
          | client code => trivial
          | other => trivial

theorem sweepCeAnomalyMonitors_issuesOnly {mode : Mode} {minAge : Int} {now : DateTime} :
    (sweepCeAnomalyMonitors digits mode minAge now).IssuesOnly IsCostExplorer := by
  have listing {call : ApiCall} (ce : IsCostExplorer (.api call)) :
      (api call).IssuesOnly IsCostExplorer :=
    ⟨ce, fun reply => Program.issuesOnly_ofExcept⟩
  refine Program.IssuesOnly.bind (listing trivial) fun subscriptions => ?_
  refine Program.IssuesOnly.bind (Program.issuesOnly_mapM fun _ _ => ceAct_issuesOnly trivial)
    fun subscriptionEntries => ?_
  refine Program.IssuesOnly.bind (listing trivial) fun monitors => ?_
  exact Program.IssuesOnly.bind (Program.issuesOnly_mapM fun _ _ => ceAct_issuesOnly trivial)
    fun monitorEntries => trivial

/-- No deletion failed where no entry says so. -/
theorem not_ceFailed_of_mapM {delete : CeItem → ApiCall} {items : List CeItem}
    {log : List SweepEvent} {entries : List Entry}
    (ran : (items.mapM fun item => ceAct .delete item (delete item)).Runs log (.ok entries))
    (fine : ∀ entry ∈ entries, isBad entry = false) : ∀ event ∈ log, ¬CeFailed event := by
  rcases Program.runs_mapM_ok.mp ran with ⟨pieces, rfl, rfl, rfl, each⟩
  rintro event eventMem ⟨_, fault, faulted, notBenign⟩
  rcases List.mem_flatMap.mp eventMem with ⟨piece, pieceMem, eventMem⟩
  rcases runs_ceAct (each piece pieceMem) (fine _ (List.mem_map_of_mem pieceMem)) with
    ⟨reply, log_eq, benign⟩
  rw [log_eq, List.mem_singleton] at eventMem
  subst eventMem
  cases reply with
  | ok response => cases faulted
  | error refused =>
      cases faulted
      rcases benign _ rfl with ⟨code, code_eq, isBenign⟩
      rw [notBenign code code_eq] at isBenign
      cases isBenign

theorem runs_api_ok {call : ApiCall} {log : List SweepEvent} {response : Response call}
    (ran : (api call).Runs log (.ok response)) : log = [⟨.api call, .ok response⟩] := by
  rcases ran with ⟨reply, rest, rfl, answered⟩
  rcases Program.runs_ofExcept.mp answered with ⟨rfl, same⟩
  cases reply with
  | ok found =>
      cases same
      rfl
  | error fault => cases same

theorem runs_api_answer (call : ApiCall) (response : Response call) :
    (api call).Runs [⟨.api call, .ok response⟩] (.ok response) :=
  ⟨_, [], rfl, rfl, rfl⟩

theorem not_ceFailed_of_api {call : ApiCall} {log : List SweepEvent} {outcome}
    (ran : (api call).Runs log outcome) (other : ¬IsCeDeletion (.api call)) :
    ∀ event ∈ log, ¬CeFailed event := by
  rcases ran with ⟨reply, rest, rfl, answered⟩
  rcases Program.runs_ofExcept.mp answered with ⟨rfl, _⟩
  rintro event eventMem ⟨deletion, _⟩
  rw [List.mem_singleton.mp eventMem] at deletion
  exact other deletion

theorem not_ceFailed_append {first second : List SweepEvent}
    (left : ∀ event ∈ first, ¬CeFailed event) (right : ∀ event ∈ second, ¬CeFailed event) :
    ∀ event ∈ first ++ second, ¬CeFailed event := by
  intro event eventMem
  rcases List.mem_append.mp eventMem with inFirst | inSecond
  · exact left event inFirst
  · exact right event inSecond

theorem not_ceFailed_of_sweep {minAge : Int} {now : DateTime} {log : List SweepEvent}
    {entries : List Entry}
    (ran : (sweepCeAnomalyMonitors digits .delete minAge now).Runs log (.ok entries))
    (fine : ∀ entry ∈ entries, isBad entry = false) : ∀ event ∈ log, ¬CeFailed event := by
  unfold sweepCeAnomalyMonitors at ran
  simp only [Program.runs_bind_ok, Program.pure_eq_ret, Program.runs_ret] at ran
  rcases ran with ⟨subscriptions, _, _, rfl, listed, subscriptionEntries, _, _, rfl, swept,
    monitors, _, _, rfl, listedToo, monitorEntries, _, _, rfl, sweptToo, rfl, same⟩
  rw [Except.ok.inj same] at fine
  refine not_ceFailed_append (not_ceFailed_of_api listed (by rintro ⟨⟩)) ?_
  refine not_ceFailed_append (not_ceFailed_of_mapM swept fun entry entryMem =>
    fine entry (List.mem_append_left _ entryMem)) ?_
  refine not_ceFailed_append (not_ceFailed_of_api listedToo (by rintro ⟨⟩)) ?_
  refine not_ceFailed_append (not_ceFailed_of_mapM sweptToo fun entry entryMem =>
    fine entry (List.mem_append_right _ entryMem)) ?_
  simp

/-- What delete mode does in Cost Explorer is no part of a pass, and where its entries say that
nothing failed, nothing did. -/
theorem runs_ceEntries {now : DateTime} {log : List SweepEvent}
    {outcome : Except Halt (List Entry)}
    (ran : (ceEntries rt digits settings .delete runId now).Runs log outcome) :
    (∀ event ∈ log, IsClosing event.request) ∧
      ((∃ halt, outcome = .error halt ∧ halt.Fails) ∨ ∃ entries, outcome = .ok entries ∧
        ((∀ entry ∈ entries, isBad entry = false) → ∀ event ∈ log, ¬CeFailed event)) := by
  cases runId with
  | some id =>
      rcases ran with ⟨rfl, rfl⟩
      exact ⟨by simp, Or.inr ⟨_, rfl, by simp⟩⟩
  | none =>
      simp only [ceEntries, Option.isNone_none, if_true] at ran
      rw [Program.runs_bind] at ran
      rcases ran with ⟨halt, rfl, stopped⟩ | ⟨minAge, _, second, rfl, parsed, ran⟩
      · rcases runs_uncaughtExc stopped with ⟨rfl, ⟨_, _, impossible⟩ | ⟨_, _, same⟩⟩
        · cases impossible
        · cases same
          exact ⟨by simp, Or.inl ⟨_, rfl, trivial⟩⟩
      · rcases runs_uncaughtExc parsed with ⟨rfl, _⟩
        have closing (minAge : Int) : (uncaughtIn
            (sweepCeAnomalyMonitors digits .delete minAge now)).IssuesOnly IsCostExplorer :=
          sweepCeAnomalyMonitors_issuesOnly.handle fun _ => trivial
        refine ⟨fun event eventMem => Or.inl ((closing minAge).allowed_of_runs ran event eventMem),
          ?_⟩
        rcases Program.runs_handle.mp ran with ⟨entries, rfl, swept⟩ |
          ⟨error, _, _, _, _, rfl, rfl⟩
        · exact Or.inr ⟨entries, rfl, not_ceFailed_of_sweep swept⟩
        · exact Or.inl ⟨_, rfl, trivial⟩

end CostExplorer

section DeleteMode

variable (settings) in
/-- A dispatch that leaves nothing to do: the handler returned an action that is no failure, or
what it raised shows that the resource is gone or cannot be deleted on its own. -/
inductive Dispatch.Succeeded (dispatch : Dispatch) : Prop
  | returned (handler : Handler)
      (found : handlers settings.pollTimeout (servicePrefixFromArn dispatch.input.arn) =
        some handler)
      (ran : (handler.delete dispatch.input.arn).Runs dispatch.log
        (.ok dispatch.value.1.action))
      (fine : isBad dispatch.value.1 = false)
  | alreadyDeleted (handler : Handler) (code : Str)
      (found : handlers settings.pollTimeout (servicePrefixFromArn dispatch.input.arn) =
        some handler)
      (ran : (handler.delete dispatch.input.arn).Runs dispatch.log (.error (.clientError code)))
      (benign : isBenignNotFound code) (recorded : dispatch.value.1.action = .alreadyDeleted)
  | skippedDefaultSg (handler : Handler) (groupId : Str)
      (found : handlers settings.pollTimeout (servicePrefixFromArn dispatch.input.arn) =
        some handler)
      (ran : (handler.delete dispatch.input.arn).Runs dispatch.log
        (.error (.defaultSecurityGroupSkip groupId)))
      (recorded : dispatch.value.1.action = .skippedDefaultSg)

theorem Dispatch.succeeded {isFinalPass : Bool} {dispatch : Dispatch}
    (ran : (dispatchDelete settings isFinalPass dispatch.input).Runs dispatch.log
      (.ok dispatch.value))
    (settled : dispatch.value.2 = false) (fine : isBad dispatch.value.1 = false) :
    dispatch.Succeeded settings := by
  rcases dispatch with ⟨resource, log, entry, defer⟩
  dsimp only at ran settled fine
  rcases runs_dispatchDelete ran with
    ⟨_, action_eq, _⟩ | ⟨handler, outcome, found, deleted, recorded⟩
  · simp [isBad, action_eq] at fine
  subst settled
  cases outcome with
  | ok action =>
      have action_eq := congrArg Prod.fst recorded
      dsimp only [recordedAs] at action_eq
      subst action_eq
      exact .returned handler found deleted fine
  | error error =>
      change (entry.action, false) = classify isFinalPass error at recorded
      unfold classify at recorded
      split at recorded
      · exact .skippedDefaultSg handler _ found deleted (congrArg Prod.fst recorded)
      · split at recorded
        · next benign =>
            exact .alreadyDeleted handler _ found deleted benign (congrArg Prod.fst recorded)
        · split at recorded
          · cases congrArg Prod.snd recorded
          · have action_eq := congrArg Prod.fst recorded
            simp [isBad, show entry.action = .failed from action_eq] at fine
      · have action_eq := congrArg Prod.fst recorded
        simp [isBad, show entry.action = .failed from action_eq] at fine

variable (rt digits settings runId) in
/-- A run of delete mode as a sequence of passes, with nothing but bookkeeping around them. -/
structure Sound (log : List SweepEvent) (outcome : Except Halt Int) (before : List SweepEvent)
    (passes : List Pass) (after : List SweepEvent) : Prop where
  log_eq : log = before ++ passes.flatMap (Pass.log runId) ++ after
  before_opening : ∀ event ∈ before, IsOpening rt settings runId event
  after_bookkeeping : ∀ event ∈ after, IsBookkeeping rt settings runId event
  faithful : ∀ pass ∈ passes, pass.Faithful rt digits settings runId
  bounded : passes ≠ [] →
    ∃ maxPasses, getMaxDeletePasses rt settings = .ok maxPasses ∧ passes.length ≤ maxPasses
  /-- With status zero, the last pass and Cost Explorer left nothing undone. -/
  drained : exitStatus outcome = 0 → ∃ last, passes.getLast? = some last ∧
    (∀ dispatch ∈ last.dispatches, dispatch.Succeeded settings) ∧ ∀ event ∈ after, ¬CeFailed event

/-- A run that ends before the first pass. -/
theorem Sound.of_fails {log : List SweepEvent} {halt : Halt} (fails : halt.Fails)
    (opening : ∀ event ∈ log, IsOpening rt settings runId event) :
    Sound rt digits settings runId log (.error halt) log [] [] where
  log_eq := by simp
  before_opening := opening
  after_bookkeeping := by simp
  faithful := by simp
  bounded := by simp
  drained status := by
    rw [fails.exitStatus] at status
    cases status

/-- What comes ahead of a run leaves its passes as they are. -/
theorem Sound.prepend {log before after : List SweepEvent} {outcome : Except Halt Int}
    {passes : List Pass} (sound : Sound rt digits settings runId log outcome before passes after)
    {first : List SweepEvent} (opening : ∀ event ∈ first, IsOpening rt settings runId event) :
    Sound rt digits settings runId (first ++ log) outcome (first ++ before) passes after where
  log_eq := by rw [sound.log_eq, List.append_assoc, List.append_assoc, List.append_assoc]
  before_opening event eventMem := by
    rcases List.mem_append.mp eventMem with inFirst | inBefore
    · exact opening event inFirst
    · exact sound.before_opening event inBefore
  after_bookkeeping := sound.after_bookkeeping
  faithful := sound.faithful
  bounded := sound.bounded
  drained := sound.drained

theorem getMaxDeletePasses_pos {maxPasses : Nat}
    (configured : getMaxDeletePasses rt settings = .ok maxPasses) :
    ∃ passes, maxPasses = passes + 1 := by
  unfold getMaxDeletePasses at configured
  have positive : 0 < maxPasses := by
    split at configured
    · have value_eq := Except.ok.inj configured
      omega
    · split at configured
      · have value_eq := Except.ok.inj configured
        omega
      · split at configured
        · have value_eq := Except.ok.inj configured
          omega
        · cases configured
  exact ⟨maxPasses - 1, by omega⟩

theorem closing_of_report {report : Report} {log : List SweepEvent}
    (closing : ∀ event ∈ log, IsClosing event.request) :
    ∀ event ∈ log ++ [⟨.writeReport report, ()⟩], IsClosing event.request := by
  intro event eventMem
  rcases List.mem_append.mp eventMem with inLog | last
  · exact closing event inLog
  · rw [List.mem_singleton.mp last]
    exact Or.inr ⟨report, rfl⟩

/-- The part of delete mode after its passes: Cost Explorer and the report. -/
theorem runs_afterPasses {account : Str} {now : DateTime} {foundEntries : List Entry}
    {log : List SweepEvent} {outcome : Except Halt Int}
    (ran : (do
      let entries ← ceEntries rt digits settings .delete runId now
      let found := foundEntries ++ entries
      Program.perform
        (Call.writeReport ⟨account, .delete, runId, found, (found.filter isBad).length⟩)
      if found.any isBad then return 1
      return 0 : Script Int).Runs log outcome) :
    (∀ event ∈ log, IsClosing event.request) ∧ (exitStatus outcome = 0 →
      (∀ entry ∈ foundEntries, isBad entry = false) ∧ ∀ event ∈ log, ¬CeFailed event) := by
  rw [Program.runs_bind] at ran
  rcases ran with ⟨halt, rfl, stopped⟩ | ⟨entries, first, second, rfl, swept, ran⟩
  · rcases runs_ceEntries stopped with ⟨closing, ⟨_, same, fails⟩ | ⟨_, impossible, _⟩⟩
    · cases same
      refine ⟨closing, fun status => ?_⟩
      rw [fails.exitStatus] at status
      cases status
    · cases impossible
  · rcases runs_ceEntries swept with ⟨closing, ⟨_, impossible, _⟩ | ⟨_, same, fine⟩⟩
    · cases impossible
    cases same
    rcases ran with ⟨⟨⟩, rest, rfl, ended⟩
    change (if (foundEntries ++ entries).any isBad then Program.ret 1 else Program.ret 0 :
      Script Int).Runs rest outcome at ended
    split at ended
    · rcases ended with ⟨rfl, rfl⟩
      exact ⟨fun event eventMem => closing_of_report closing event eventMem, nofun⟩
    · next allFine =>
        rcases ended with ⟨rfl, rfl⟩
        rw [List.any_eq_true, not_exists] at allFine
        have each : ∀ entry ∈ foundEntries ++ entries, isBad entry = false := by
          intro entry entryMem
          rw [Bool.eq_false_iff]
          exact fun bad => allFine entry ⟨entryMem, bad⟩
        refine ⟨fun event eventMem => closing_of_report closing event eventMem, ?_⟩
        refine fun _ => ⟨fun entry entryMem => each entry (List.mem_append_left _ entryMem), ?_⟩
        refine not_ceFailed_append (fine fun entry entryMem =>
          each entry (List.mem_append_right _ entryMem)) ?_
        simp [CeFailed, IsCeDeletion]

/-- Delete mode behind the gate, with the first inventory enumerated. -/
theorem runs_deleteMode {account : Str} {now : DateTime} {enumerated resources : List Resource}
    {log : List SweepEvent} {outcome : Except Halt Int}
    (swept : Sweepable rt digits settings runId now enumerated resources)
    (ran : (deleteMode rt digits settings account runId now resources).Runs log outcome) :
    ∃ before passes after, Sound rt digits settings runId
      (enumeration runId now enumerated ++ log) outcome before passes after := by
  unfold deleteMode at ran
  rw [Program.runs_bind] at ran
  rcases ran with ⟨halt, rfl, stopped⟩ | ⟨maxPasses, first, rest, rfl, configured, ran⟩
  · rcases runs_uncaughtExc stopped with ⟨rfl, ⟨_, _, impossible⟩ | ⟨error, failed, same⟩⟩
    · cases impossible
    · cases same
      rw [List.append_nil]
      refine ⟨_, _, _, Sound.of_fails trivial fun event eventMem => ?_⟩
      rcases List.mem_cons.mp eventMem with rfl | later
      · exact .clock now
      · rw [List.mem_singleton.mp later]
        exact .unjudged enumerated (Or.inr ⟨error, failed⟩)
  rcases runs_uncaughtExc configured with ⟨rfl, ⟨_, configured_eq, same⟩ | ⟨_, _, impossible⟩⟩
  swap
  · cases impossible
  cases same
  rcases getMaxDeletePasses_pos configured_eq with ⟨bound, rfl⟩
  rw [List.nil_append]
  rw [Program.runs_bind] at ran
  rcases ran with ⟨halt, rfl, stopped⟩ | ⟨foundEntries, first, second, rfl, looped, ran⟩
  · rcases runs_deletePasses swept stopped with
      ⟨done, last, after, log_eq, length_le, faithful, opening, ⟨impossible, _⟩ |
        ⟨_, same, fails⟩⟩
    · cases impossible
    cases same
    refine ⟨[], done ++ [last], after, ?_, by simp, fun event eventMem =>
      Or.inl (opening event eventMem), faithful, ?_, ?_⟩
    · rw [log_eq, List.nil_append]
    · refine fun _ => ⟨_, configured_eq, ?_⟩
      rw [List.length_append, List.length_singleton]
      omega
    · intro status
      rw [fails.exitStatus] at status
      cases status
  · rcases runs_deletePasses swept looped with
      ⟨done, last, _, log_eq, length_le, faithful, _, ⟨same, settled, rfl⟩ | ⟨_, impossible, _⟩⟩
    swap
    · cases impossible
    cases same
    rcases runs_afterPasses ran with ⟨closing, drained⟩
    refine ⟨[], done ++ [last], second, ?_, by simp, fun event eventMem =>
      Or.inr (closing event eventMem), faithful, ?_, ?_⟩
    · rw [← List.append_assoc, log_eq, List.nil_append, List.append_nil]
    · refine fun _ => ⟨_, configured_eq, ?_⟩
      rw [List.length_append, List.length_singleton]
      omega
    · intro status
      rcases drained status with ⟨fine, clean⟩
      refine ⟨last, by simp, ?_, clean⟩
      intro dispatch dispatchMem
      rcases faithful last (by simp) with ⟨_, _, _, _, _, dispatched⟩
      exact Dispatch.succeeded (dispatched dispatch dispatchMem) (settled dispatch dispatchMem)
        (fine _ (List.mem_map_of_mem dispatchMem))

theorem runs_main_delete {log : List SweepEvent} {outcome : Except Halt Int}
    (ran : (main rt digits settings .delete runId).Runs log outcome) :
    ∃ before passes after, Sound rt digits settings runId log outcome before passes after := by
  rcases (runs_main ran).2 with ⟨halt, rfl, fails, opening⟩ |
    ⟨account, now, enumerated, resources, rest, rfl, swept, behind⟩
  · exact ⟨_, _, _, Sound.of_fails fails opening⟩
  · rcases runs_deleteMode swept behind with ⟨before, passes, after, sound⟩
    have gate : ∀ event ∈ [(⟨.api .getCallerIdentity, .ok account⟩ : SweepEvent)],
        IsOpening rt settings runId event := List.forall_mem_singleton.mpr (.identity _)
    exact ⟨_, _, _, sound.prepend gate⟩

/-- Delete mode makes no request of an account that is not allowed; it runs at most the configured
number of passes, each over all it may sweep and in the order of the tiers; and it ends with status
zero only if the last pass and Cost Explorer left nothing undone. -/
theorem main_delete_sound {log : List SweepEvent} {outcome : Except Halt Int}
    (ran : (main rt digits settings .delete runId).Runs log outcome) :
    Gated rt settings log ∧
      ∃ before passes after, Sound rt digits settings runId log outcome before passes after :=
  ⟨(runs_main ran).1, runs_main_delete ran⟩

end DeleteMode

namespace Sample

/-- One account that may be swept. The definition is for the kernel to evaluate only: with it,
unification would run the sweep. -/
@[irreducible]
def sandbox : Settings where
  -- an object that gives one account the role sandbox
  accountsJson := some
    (str "\x7b\"222222222222\": \x7b\"account_role\": \"sandbox\"\x7d\x7d")
  minAgeMinutes := none
  maxDeletePasses := none
  defaultMinAgeMinutes := 120
  defaultMaxDeletePasses := 6
  pollTimeout := str "300"

/-- The services in a sweep that finds some resources: topics and log groups are deleted, and other
requests about them fail. -/
def services (now : DateTime) (resources : List Resource) :
    (request : Call) → Call.Reply request
  | .api .getCallerIdentity => .ok (str "222222222222")
  | .api (.getResources _) => .ok resources
  | .api (.deleteTopic _) => .ok ()
  | .api (.deleteLogGroup _) => .ok ()
  | .api .getAnomalySubscriptions => .ok []
  | .api .getAnomalyMonitors => .ok []
  | .api _ => .error .other
  | .now => now
  | .writeReport _ => ()

/-- What a run left behind: the bucket cannot be deleted. -/
def leftBehind : List Resource :=
  [⟨str "arn:aws:sns:us-east-1:222222222222:alerts", []⟩,
    ⟨str "arn:aws:s3:::tt-1-data-lake", []⟩,
    ⟨str "arn:aws:logs:us-east-1:222222222222:log-group:/aws/lambda/tt-1-cwl-split", []⟩,
    ⟨str "arn:aws:sns:us-east-1:222222222222:reports", []⟩]

/-- The sweep of the run. -/
theorem exists_sweepOfRun : ∃ log outcome,
    (main Runtime.whole DigitTable.latin sandbox .delete (some (str "tt-1"))).Runs log outcome ∧
      exitStatus outcome = 1 ∧
      ∀ event ∈ log, event.reply = services ⟨0, by decide⟩ leftBehind event.request :=
  Program.exists_run _ _ (fun outcome => exitStatus outcome = 1) (by decide +kernel)

end Sample

theorem main_delete_sound_sweepOfRun : ∃ log outcome,
    exitStatus outcome = 1 ∧ Gated Runtime.whole Sample.sandbox log ∧
      ∃ before passes after, Sound Runtime.whole DigitTable.latin Sample.sandbox
        (some (str "tt-1")) log outcome before passes after := by
  rcases Sample.exists_sweepOfRun with ⟨log, outcome, ran, status, _⟩
  exact ⟨log, outcome, status, main_delete_sound ran⟩

end Sweep
