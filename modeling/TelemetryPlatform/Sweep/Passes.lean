import TelemetryPlatform.Library.Grouping
import TelemetryPlatform.Sweep.Main

/-!
# The passes of delete mode

Every run of delete mode behind its gate is a sequence of passes, each of them an
enumeration with the clock reading it is judged by and the dispatch of what the
enumeration leaves to sweep, one resource after the other and in the order of the
tiers. Only bookkeeping happens before, between and after them.
-/

namespace Sweep

open Python Interaction

variable {rt : Runtime} {digits : DigitTable} {settings : Settings} {runId : Option Str}

/-- The dispatch of one resource in a pass. -/
abbrev Dispatch := Program.Piece Call Call.Reply Resource (Entry × Bool)

/-- One pass: its clock reading, its inventory and its dispatches. -/
structure Pass where
  now : DateTime
  enumerated : List Resource
  dispatches : List Dispatch

/-- The clock reading and the enumeration. -/
def enumeration (runId : Option Str) (now : DateTime) (enumerated : List Resource) :
    List SweepEvent :=
  [⟨.now, now⟩, ⟨.api (.getResources runId), .ok enumerated⟩]

def Pass.log (runId : Option Str) (pass : Pass) : List SweepEvent :=
  enumeration runId pass.now pass.enumerated ++ pass.dispatches.flatMap Program.Piece.log

variable (rt digits settings runId) in
/-- What is left of an inventory to sweep: all of it in the sweep of one run, and in the global
one what no run in flight has. -/
def Sweepable (now : DateTime) (enumerated sweepable : List Resource) : Prop :=
  match runId with
  | some _ => sweepable = enumerated
  | none => ∃ minAge, getMinAgeMinutes rt settings = .ok minAge ∧
      sweepable = enumerated.filter fun resource => !isInFlight digits minAge now resource

variable (settings) in
/-- The dispatches of a list of resources, each of them a run of `dispatchDelete`. -/
def Dispatched (isFinalPass : Bool) (dispatches : List Dispatch) : Prop :=
  ∀ dispatch ∈ dispatches,
    (dispatchDelete settings isFinalPass dispatch.input).Runs dispatch.log (.ok dispatch.value)

variable (rt digits settings runId) in
/-- A pass dispatches each resource it may sweep once, tier after tier. -/
def Pass.Faithful (pass : Pass) : Prop :=
  ∃ sweepable isFinalPass, Sweepable rt digits settings runId pass.now pass.enumerated sweepable ∧
    (pass.dispatches.map Program.Piece.input).Perm sweepable ∧
    (pass.dispatches.map Program.Piece.input).Pairwise (fun first second =>
      tier first ≤ tier second) ∧
    Dispatched settings isFinalPass pass.dispatches

/-- The requests of the sweep of Cost Explorer. -/
def IsCostExplorer : Call → Prop
  | .api .getAnomalySubscriptions | .api .getAnomalyMonitors
  | .api (.deleteAnomalySubscription _) | .api (.deleteAnomalyMonitor _) => True
  | .api _ | .now | .writeReport _ => False

/-- What delete mode asks for after its passes: the sweep of Cost Explorer and the report. -/
def IsClosing (call : Call) : Prop :=
  IsCostExplorer call ∨ ∃ report, call = .writeReport report

variable (rt settings) in
/-- A setting that delete mode reads is no number. -/
def Misconfigured : Prop :=
  (∃ error, getMinAgeMinutes rt settings = .error error) ∨
    ∃ error, getMaxDeletePasses rt settings = .error error

variable (rt settings runId) in
/-- An event ahead of a pass that does not come about: the gate, the clock, and an enumeration that
is answered with a fault or cannot be judged for want of a setting. -/
inductive IsOpening : SweepEvent → Prop
  | identity (reply : Call.Reply (.api .getCallerIdentity)) :
      IsOpening ⟨.api .getCallerIdentity, reply⟩
  | clock (now : DateTime) : IsOpening ⟨.now, now⟩
  | refused (fault : Fault) : IsOpening ⟨.api (.getResources runId), .error fault⟩
  | unjudged (enumerated : List Resource) (misconfigured : Misconfigured rt settings) :
      IsOpening ⟨.api (.getResources runId), .ok enumerated⟩

variable (rt settings runId) in
/-- An event that is no part of a pass. -/
def IsBookkeeping (event : SweepEvent) : Prop :=
  IsOpening rt settings runId event ∨ IsClosing event.request

section Tiers

theorem tier_le (resource : Resource) : tier resource ≤ 3 := by
  unfold tier
  split_ifs <;> decide

theorem ordered_perm (resources : List Resource) : (ordered resources).Perm resources := by
  have grouped : ordered resources =
      [0, 1, 2, 3].flatMap (valuesAt (resources.map fun resource =>
          (tier resource, resource))) := by
    apply List.flatMap_congr
    intro n _
    simp [valuesAt, List.filter_map, Function.comp_def]
  have covers : ∀ pair ∈ resources.map fun resource => (tier resource, resource),
      pair.1 ∈ [0, 1, 2, 3] := by
    intro pair pairMem
    rcases List.mem_map.mp pairMem with ⟨resource, _, rfl⟩
    have bound := tier_le resource
    simp only [List.mem_cons, List.not_mem_nil, or_false]
    omega
  have perm := flatMap_valuesAt_perm (by decide) covers
  rw [grouped]
  simpa [Function.comp_def] using perm

theorem ordered_pairwise (resources : List Resource) :
    (ordered resources).Pairwise fun first second => tier first ≤ tier second := by
  rw [ordered, List.pairwise_flatMap]
  constructor
  · intro n _
    apply List.Pairwise.imp_of_mem _ (List.pairwise_of_forall (fun _ _ => trivial))
    intro first second firstMem secondMem _
    have firstTier := (List.mem_filter.mp firstMem).2
    have secondTier := (List.mem_filter.mp secondMem).2
    simp only [decide_eq_true_eq] at firstTier secondTier
    omega
  · have ascending : [0, 1, 2, 3].Pairwise (· ≤ ·) := by decide
    refine ascending.imp ?_
    intro low high le first firstMem second secondMem
    have firstTier := (List.mem_filter.mp firstMem).2
    have secondTier := (List.mem_filter.mp secondMem).2
    simp only [decide_eq_true_eq] at firstTier secondTier
    omega

end Tiers

section Dispatching

variable {isFinalPass : Bool} {resource : Resource} {log : List SweepEvent}

/-- A dispatch always returns: every exception of a handler is classified. -/
theorem dispatchDelete_returns {error : Halt}
    (ran : (dispatchDelete settings isFinalPass resource).Runs log (.error error)) : False := by
  unfold dispatchDelete at ran
  dsimp only at ran
  cases found : handlers settings.pollTimeout (servicePrefixFromArn resource.arn) with
  | none =>
      rw [found] at ran
      cases ran.2
  | some handler =>
      rw [found] at ran
      simp only [Program.runs_bind, Program.runs_handle] at ran
      rcases ran with ⟨_, _, ⟨_, impossible, _⟩ | ⟨_, _, _, _, _, classified⟩⟩ |
        ⟨_, _, _, _, _, returned⟩
      · cases impossible
      · cases classified.2
      · cases returned.2

/-- What the way a handler ends is recorded as. -/
def recordedAs (isFinalPass : Bool) : Except Raised Action → Action × Bool
  | .ok action => (action, false)
  | .error error => classify isFinalPass error

/-- A dispatch finds no handler, or is the run of one, whose exceptions are classified. -/
theorem runs_dispatchDelete {entry : Entry} {defer : Bool}
    (ran : (dispatchDelete settings isFinalPass resource).Runs log (.ok (entry, defer))) :
    (handlers settings.pollTimeout (servicePrefixFromArn resource.arn) = none ∧
        entry.action = .reportedUnsupported ∧ defer = false) ∨
      ∃ handler outcome,
        handlers settings.pollTimeout (servicePrefixFromArn resource.arn) = some handler ∧
          (handler.delete resource.arn).Runs log outcome ∧
          (entry.action, defer) = recordedAs isFinalPass outcome := by
  unfold dispatchDelete at ran
  dsimp only at ran
  cases found : handlers settings.pollTimeout (servicePrefixFromArn resource.arn) with
  | none =>
      rw [found] at ran
      cases ran.2
      exact Or.inl ⟨rfl, rfl, rfl⟩
  | some handler =>
      rw [found] at ran
      refine Or.inr ⟨handler, ?_⟩
      simp only [Program.runs_bind_ok, Program.runs_handle, Program.pure_eq_ret,
        Program.runs_ret] at ran
      rcases ran with ⟨⟨action, defer'⟩, first, second, rfl, handled, rfl, returned⟩
      rw [Except.ok.injEq, Prod.mk.injEq] at returned
      rcases returned with ⟨rfl, rfl⟩
      rw [List.append_nil]
      rcases handled with ⟨_, same, _, part, _, rfl, deleted, rfl, returned⟩ |
        ⟨error, part, _, rfl, raised, rfl, classified⟩
      · cases same
        cases returned
        rw [List.append_nil]
        exact ⟨.ok action, rfl, deleted, rfl⟩
      · rw [Except.ok.injEq] at classified
        rw [List.append_nil]
        rw [Program.runs_bind] at raised
        rcases raised with ⟨_, same, raised⟩ | ⟨_, _, _, _, _, _, impossible⟩
        · cases same
          exact ⟨.error error, rfl, raised, classified⟩
        · cases impossible

theorem classify_of_final {error : Raised} : (classify true error).2 = false := by
  unfold classify
  split
  · rfl
  · split
    · rfl
    · simp
  · rfl

/-- Nothing is put off in the final pass. -/
theorem not_deferred_of_final {entry : Entry} {defer : Bool}
    (ran : (dispatchDelete settings true resource).Runs log (.ok (entry, defer))) :
    defer = false := by
  rcases runs_dispatchDelete ran with ⟨_, _, rfl⟩ | ⟨_, outcome, _, _, entry_eq⟩
  · rfl
  · have defer_eq := congrArg Prod.snd entry_eq
    cases outcome with
    | ok action => exact defer_eq
    | error error => exact defer_eq.trans classify_of_final

/-- A pass runs through its resources, and returns what it recorded and what it put off. -/
theorem runs_deletePass {resources : List Resource}
    {outcome : Except Halt (List Entry × List Resource)}
    (ran : (deletePass settings isFinalPass resources).Runs log outcome) :
    ∃ dispatches : List Dispatch, dispatches.map Program.Piece.input = ordered resources ∧
      log = dispatches.flatMap Program.Piece.log ∧ Dispatched settings isFinalPass dispatches ∧
      outcome = .ok
        ((dispatches.filter fun dispatch => !dispatch.value.2).map fun dispatch =>
            dispatch.value.1,
          (dispatches.filter fun dispatch => dispatch.value.2).map Program.Piece.input) := by
  unfold deletePass at ran
  rw [Program.runs_bind] at ran
  rcases ran with ⟨error, rfl, stopped⟩ | ⟨results, first, second, rfl, looped, rfl, rfl⟩
  · rcases Program.runs_mapM_error stopped with ⟨_, _, _, raised⟩
    exact False.elim (dispatchDelete_returns raised)
  · rcases Program.runs_mapM_ok.mp looped with ⟨dispatches, inputs_eq, rfl, rfl, each⟩
    refine ⟨dispatches, inputs_eq, List.append_nil _, each, ?_⟩
    rw [← inputs_eq, List.zip_map']
    simp [List.filter_map, Function.comp_def]

end Dispatching

section Loop

/-- An exit that the shell sees as a failure. -/
def Halt.Fails : Halt → Prop
  | .exit code => code = 1
  | .uncaught _ => True

theorem Halt.Fails.exitStatus {halt : Halt} (fails : halt.Fails) :
    exitStatus (.error halt) = 1 := by
  cases halt with
  | exit code =>
      rw [show code = 1 from fails]
      rfl
  | uncaught error => rfl

theorem runs_uncaughtExc {α : Type} {result : Except Exc α} {log : List SweepEvent}
    {outcome : Except Halt α} (ran : (uncaughtExc result).Runs log outcome) :
    log = [] ∧ ((∃ value, result = .ok value ∧ outcome = .ok value) ∨
      ∃ error, result = .error error ∧ outcome = .error (.uncaught (.builtin error))) := by
  unfold uncaughtExc at ran
  rw [Program.runs_ofExcept] at ran
  rcases ran with ⟨rfl, rfl⟩
  cases result with
  | ok value => exact ⟨rfl, Or.inl ⟨value, rfl, rfl⟩⟩
  | error error => exact ⟨rfl, Or.inr ⟨error, rfl, rfl⟩⟩

theorem runs_enumerateResources {log : List SweepEvent} {outcome : Except Halt (List Resource)}
    (ran : (enumerateResources runId).Runs log outcome) :
    (∃ resources, log = [⟨.api (.getResources runId), .ok resources⟩] ∧ outcome = .ok resources) ∨
      ∃ fault halt, log = [⟨.api (.getResources runId), .error fault⟩] ∧
        outcome = .error halt ∧ halt.Fails := by
  rcases ran with ⟨reply, rest, rfl, answered⟩
  cases reply with
  | ok resources =>
      rcases answered with ⟨rfl, rfl⟩
      exact Or.inl ⟨resources, rfl, rfl⟩
  | error fault =>
      cases fault with
      | other =>
          rcases answered with ⟨rfl, rfl⟩
          exact Or.inr ⟨_, _, rfl, rfl, trivial⟩
      | client code =>
          change (if code ∈ throttlingCodes then Program.raise (.exit 1)
            else Program.raise (.uncaught (.clientError code)) : Script (List Resource)).Runs
              rest outcome at answered
          split at answered
          · rcases answered with ⟨rfl, rfl⟩
            exact Or.inr ⟨_, _, rfl, rfl, rfl⟩
          · rcases answered with ⟨rfl, rfl⟩
            exact Or.inr ⟨_, _, rfl, rfl, trivial⟩

/-- An enumeration ends in an inventory, or ends the script. -/
theorem runs_enumerateAndSpare {now : DateTime} {log : List SweepEvent}
    {outcome : Except Halt (List Resource)}
    (ran : (enumerateAndSpare rt digits settings runId now).Runs log outcome) :
    (∃ enumerated sweepable, log = [⟨.api (.getResources runId), .ok enumerated⟩] ∧
        outcome = .ok sweepable ∧ Sweepable rt digits settings runId now enumerated sweepable) ∨
      ∃ halt, outcome = .error halt ∧ halt.Fails ∧
        ∀ event ∈ log, IsOpening rt settings runId event := by
  unfold enumerateAndSpare at ran
  rw [Program.runs_bind] at ran
  rcases ran with ⟨halt, rfl, stopped⟩ | ⟨resources, first, second, rfl, answered, spared⟩
  · rcases runs_enumerateResources stopped with ⟨_, _, impossible⟩ | ⟨_, _, rfl, same, fails⟩
    · cases impossible
    · cases same
      refine Or.inr ⟨halt, rfl, fails, ?_⟩
      exact List.forall_mem_singleton.mpr (.refused _)
  · rcases runs_enumerateResources answered with ⟨_, rfl, same⟩ | ⟨_, _, _, impossible, _⟩
    swap
    · cases impossible
    cases same
    cases runId with
    | some id =>
        rcases spared with ⟨rfl, rfl⟩
        exact Or.inl ⟨_, _, rfl, rfl, rfl⟩
    | none =>
        simp only [Option.isNone_none, if_true] at spared
        rw [Program.runs_bind] at spared
        rcases spared with ⟨halt, rfl, stopped⟩ | ⟨minAge, first, last, rfl, parsed, rfl, rfl⟩
        · rcases runs_uncaughtExc stopped with ⟨rfl, ⟨_, _, impossible⟩ | ⟨error, failed, same⟩⟩
          · cases impossible
          · cases same
            refine Or.inr ⟨_, rfl, trivial, ?_⟩
            exact List.forall_mem_singleton.mpr (.unjudged _ (Or.inl ⟨error, failed⟩))
        · rcases runs_uncaughtExc parsed with ⟨rfl, ⟨_, minAge_eq, same⟩ | ⟨_, _, impossible⟩⟩
          · cases same
            refine Or.inl ⟨_, _, rfl, rfl, _, minAge_eq, ?_⟩
            rw [partitionByMinAge, List.partition_eq_filter_filter]
          · cases impossible

/-- The entries of the resources a pass dispatches. -/
def Pass.entries (pass : Pass) : List Entry := pass.dispatches.map fun dispatch => dispatch.value.1

/-- A pass puts nothing off. -/
def Pass.Settled (pass : Pass) : Prop := ∀ dispatch ∈ pass.dispatches, dispatch.value.2 = false

/-- The dispatches of a pass over what an enumeration leaves make up a faithful pass. -/
theorem faithful_of_dispatched {isFinalPass : Bool} {now : DateTime}
    {enumerated resources : List Resource} {dispatches : List Dispatch}
    (swept : Sweepable rt digits settings runId now enumerated resources)
    (inputs_eq : dispatches.map Program.Piece.input = ordered resources)
    (dispatched : Dispatched settings isFinalPass dispatches) :
    Pass.Faithful rt digits settings runId ⟨now, enumerated, dispatches⟩ := by
  refine ⟨resources, isFinalPass, swept, ?_, ?_, dispatched⟩
  · rw [inputs_eq]
    exact ordered_perm resources
  · rw [inputs_eq]
    exact ordered_pairwise resources

/-- What one round of the loop does: it stops at an empty inventory, stops after a pass that puts
nothing off, or goes on with the next enumeration. -/
theorem runs_deletePasses_succ {passes : Nat} {resources : List Resource} {log : List SweepEvent}
    {outcome : Except Halt (List Entry)}
    (ran : (deletePasses rt digits settings runId (passes + 1) resources).Runs log outcome) :
    ∃ dispatches : List Dispatch, dispatches.map Program.Piece.input = ordered resources ∧
      Dispatched settings (passes = 0) dispatches ∧
      ((log = dispatches.flatMap Program.Piece.log ∧
          (∀ dispatch ∈ dispatches, dispatch.value.2 = false) ∧
          outcome = .ok (dispatches.map fun dispatch => dispatch.value.1)) ∨
        (passes ≠ 0 ∧ ∃ rest, log = dispatches.flatMap Program.Piece.log ++ rest ∧
          (do
            let now ← Program.perform Call.now
            let resources ← enumerateAndSpare rt digits settings runId now
            deletePasses rt digits settings runId passes resources : Script _).Runs
              rest outcome)) := by
  rw [deletePasses] at ran
  by_cases empty : resources = []
  · rw [if_pos empty] at ran
    rcases ran with ⟨rfl, rfl⟩
    subst empty
    exact ⟨[], rfl, by simp [Dispatched], Or.inl ⟨rfl, by simp, rfl⟩⟩
  rw [if_neg empty, Program.runs_bind] at ran
  rcases ran with ⟨halt, rfl, stopped⟩ | ⟨⟨entries, pending⟩, first, second, rfl, swept, ran⟩
  · rcases runs_deletePass stopped with ⟨_, _, _, _, impossible⟩
    cases impossible
  rcases runs_deletePass swept with ⟨dispatches, inputs_eq, rfl, dispatched, same⟩
  simp only [Except.ok.injEq, Prod.mk.injEq] at same
  rcases same with ⟨rfl, rfl⟩
  refine ⟨dispatches, inputs_eq, dispatched, ?_⟩
  dsimp only at ran
  split at ran
  · next stable =>
      rcases ran with ⟨rfl, rfl⟩
      have settled : ∀ dispatch ∈ dispatches, dispatch.value.2 = false := by
        intro dispatch dispatchMem
        rcases stable with isFinal | none_pending
        · have ended := dispatched dispatch dispatchMem
          rw [decide_eq_true isFinal] at ended
          exact not_deferred_of_final ended
        · rw [List.map_eq_nil_iff, List.filter_eq_nil_iff] at none_pending
          exact Bool.eq_false_iff.mpr (none_pending dispatch dispatchMem)
      refine Or.inl ⟨List.append_nil _, settled, ?_⟩
      rw [List.filter_eq_self.mpr]
      intro dispatch dispatchMem
      rw [settled dispatch dispatchMem]
      rfl
  · next unstable =>
      rw [not_or] at unstable
      exact Or.inr ⟨unstable.1, second, rfl, ran⟩

/-- The loop over the passes, whose first inventory has been enumerated already: the last pass
puts nothing off, and its entries are what the loop returns. -/
theorem runs_deletePasses {passes : Nat} {now : DateTime} {enumerated resources : List Resource}
    {log : List SweepEvent} {outcome : Except Halt (List Entry)}
    (swept : Sweepable rt digits settings runId now enumerated resources)
    (ran : (deletePasses rt digits settings runId (passes + 1) resources).Runs log outcome) :
    ∃ (done : List Pass) (last : Pass) (after : List SweepEvent),
      enumeration runId now enumerated ++ log =
          (done ++ [last]).flatMap (Pass.log runId) ++ after ∧
        done.length ≤ passes ∧
        (∀ pass ∈ done ++ [last], pass.Faithful rt digits settings runId) ∧
        (∀ event ∈ after, IsOpening rt settings runId event) ∧
        ((outcome = .ok last.entries ∧ last.Settled ∧ after = []) ∨
          ∃ halt, outcome = .error halt ∧ halt.Fails) := by
  induction passes generalizing now enumerated resources log with
  | zero =>
      rcases runs_deletePasses_succ ran with
        ⟨dispatches, inputs_eq, dispatched, ⟨rfl, settled, rfl⟩ | ⟨impossible, _⟩⟩
      · refine ⟨[], ⟨now, enumerated, dispatches⟩, [], ?_, Nat.le_refl _, ?_, ?_,
          Or.inl ⟨rfl, settled, rfl⟩⟩
        · simp [Pass.log]
        · simpa using faithful_of_dispatched swept inputs_eq dispatched
        · simp
      · exact False.elim (impossible rfl)
  | succ passes ih =>
      rcases runs_deletePasses_succ ran with
        ⟨dispatches, inputs_eq, dispatched, ⟨rfl, settled, rfl⟩ | ⟨_, tail, rfl, continued⟩⟩
      · refine ⟨[], ⟨now, enumerated, dispatches⟩, [], ?_, Nat.zero_le _, ?_, ?_,
          Or.inl ⟨rfl, settled, rfl⟩⟩
        · simp [Pass.log]
        · simpa using faithful_of_dispatched swept inputs_eq dispatched
        · simp
      have faithful := faithful_of_dispatched swept inputs_eq dispatched
      rcases continued with ⟨next, rest, rfl, later⟩
      change (enumerateAndSpare rt digits settings runId next >>= fun others =>
        deletePasses rt digits settings runId (passes + 1) others).Runs rest outcome at later
      rw [Program.runs_bind] at later
      rcases later with ⟨halt, rfl, stopped⟩ | ⟨others, first, second, rfl, enumerates, looped⟩
      · rcases runs_enumerateAndSpare stopped with
          ⟨_, _, _, impossible, _⟩ | ⟨_, same, fails, opening⟩
        · cases impossible
        · cases same
          refine ⟨[], ⟨now, enumerated, dispatches⟩, ⟨.now, next⟩ :: rest, ?_, Nat.zero_le _, ?_,
            ?_, Or.inr ⟨halt, rfl, fails⟩⟩
          · simp [Pass.log]
          · simpa using faithful
          · intro event eventMem
            rcases List.mem_cons.mp eventMem with rfl | eventMem
            · exact .clock next
            · exact opening event eventMem
      · rcases runs_enumerateAndSpare enumerates with
          ⟨inventory, _, rfl, same, sweptNext⟩ | ⟨_, impossible, _⟩
        · cases same
          rcases ih sweptNext looped with
            ⟨done, last, after, log_eq, bound, faithfulRest, opening, ended⟩
          refine ⟨⟨now, enumerated, dispatches⟩ :: done, last, after, ?_,
            Nat.succ_le_succ bound, ?_, opening, ended⟩
          · change _ = ((⟨now, enumerated, dispatches⟩ : Pass) :: (done ++ [last])).flatMap
              (Pass.log runId) ++ after
            rw [List.flatMap_cons, List.append_assoc, ← log_eq]
            simp [Pass.log, enumeration]
          · intro pass passMem
            rcases List.mem_cons.mp passMem with rfl | passMem
            · exact faithful
            · exact faithfulRest pass passMem
        · cases impossible

end Loop

end Sweep
