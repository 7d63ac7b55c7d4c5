import TelemetryPlatform.Sweep.Arn

/-!
# How a handler treats an ARN

A handler acts on one resource, which it reads out of the text of the ARN, or
raises at once, or returns without a call. `handling` says which, and `Acts` what a
program that acts on a resource does: it does not return before the resource has
been disposed of, it only calls about the resource and what belongs to it, and a
fault it has no use for ends it.
-/

namespace Sweep

open Python Interaction

section Events

/-- A resource is a part of another one, or points to it. -/
def Target.PartOf : Target → Target → Prop
  | .listener _, .loadBalancer _ => True
  | .table holder _, .database name => holder = name
  | .kmsAlias _, .kmsKey _ => True
  | _, _ => False

/-- A call about a resource, or about what belongs to it. -/
def About (target : Target) (call : ApiCall) : Prop :=
  ∀ found ∈ subject call, found = target ∨ found.PartOf target

/-- The response to a describe call shows its resource gone or going. -/
def ShowsGone : (call : ApiCall) → Response call → Prop
  | .describeNatGateways _, states | .describeVpcEndpoints _, states =>
      states = [] ∨ ∃ state ∈ states, state ∈ deletedStates
  | .describeFlowLogs _, flowLogs => flowLogs = []
  | .describeKey _, keyState => keyState ∈ kmsPendingDeletionStates
  | .describeClusters _, statuses | .describeServices _ _, statuses =>
      firstIsActive statuses = false
  | .describeTaskDefinition _, status => status ≠ str "ACTIVE"
  | _, _ => False

/-- A call about the resource was carried out that deletes it or shows it gone. -/
def Disposes (target : Target) : SweepEvent → Prop
  | ⟨.api call, .ok response⟩ =>
      subject call = some target ∧ (isDeletion call ∨ ShowsGone call response)
  | _ => False

/-- The faults a handler acting on a resource goes on after. -/
def absorbs (target : Target) (call : ApiCall) (fault : Fault) : Bool :=
  match target, call, fault with
  | .kmsKey _, .deleteAlias _, fault => fault.hasCode "NotFoundException"
  | .kmsKey _, .describeKey _, .client _ => true
  | .hostedZone _, .getHostedZone _, .client _ => true
  | .flowLog _, .deleteFlowLogs _, fault => fault.hasCode "InvalidFlowLogId.NotFound"
  | .securityGroup _, .describeSecurityGroups _, .client _ => true
  | .vpcEndpoint _, .describeVpcEndpoints _, fault
  | .vpcEndpoint _, .deleteVpcEndpoints _, fault =>
      fault.hasCode "InvalidVpcEndpointId.NotFound"
  | .userPool _ _, .deleteUserPoolDomain _ _ _, fault =>
      fault.hasCode "ResourceNotFoundException"
  | _, _, _ => false

end Events

section Serving

variable {α β : Type} {target : Target} {tells : α → Bool}

/-- A program that calls about a resource only, and that a fault it does not absorb ends: it
raises, or returns a value that tells of it. -/
def Serves (target : Target) (tells : α → Bool) : Aws α → Prop
  | .ret value => tells value = false
  | .raise error => ∀ code, error ≠ .clientError code
  | .call (.api request) next =>
      About target request ∧ (∀ response, Serves target tells (next (.ok response))) ∧
        ∀ fault,
          if absorbs target request fault then Serves target tells (next (.error fault))
          else
            (∃ error, next (.error fault) = .raise error ∧
                ∀ code, error = .clientError code → fault = .client code) ∨
              ∃ value code, next (.error fault) = .ret value ∧ tells value ∧
                fault = .client code ∧ isBenignNotFound code
  | .call _ _ => False

@[simp]
theorem serves_ret {value : α} : Serves target tells (.ret value) ↔ tells value = false := Iff.rfl

@[simp]
theorem serves_raise {error : Raised} :
    Serves target tells (.raise error) ↔ ∀ code, error ≠ .clientError code := Iff.rfl

theorem ofFault_eq_clientError {fault : Fault} {code : Str} :
    Raised.ofFault fault = .clientError code → fault = .client code := by
  cases fault with
  | client found =>
      intro same
      cases same
      rfl
  | other => exact nofun

theorem Serves.bind {first : Aws α} {next : α → Aws β} {tells : β → Bool}
    (serves : Serves target (fun _ => false) first)
    (rest : ∀ value, Serves target tells (next value)) : Serves target tells (first >>= next) := by
  induction first with
  | ret value => exact rest value
  | raise error => exact serves
  | call request continue_ ih =>
      cases request with
      | api request =>
          rcases serves with ⟨about, answered, failed⟩
          refine ⟨about, fun response => ih _ (answered response), fun fault => ?_⟩
          have faulted := failed fault
          split at faulted
          · next absorbed =>
              rw [if_pos absorbed]
              exact ih _ faulted
          · next unabsorbed =>
              rw [if_neg unabsorbed]
              rcases faulted with ⟨error, raised, origin⟩ | ⟨_, _, _, impossible, _⟩
              · exact Or.inl ⟨error, congrArg (Program.bind · next) raised, origin⟩
              · cases impossible
      | now => exact serves
      | writeReport report => exact serves

/-- A call whose fault is raised. -/
theorem serves_api {call : ApiCall} (about : About target call)
    (unabsorbed : ∀ fault, absorbs target call fault = false) :
    Serves target (fun _ => false) (api call) := by
  refine ⟨about, fun _ => rfl, fun fault => ?_⟩
  rw [if_neg (by simp [unabsorbed fault])]
  exact Or.inl ⟨.ofFault fault, rfl, fun _ => ofFault_eq_clientError⟩

theorem Fault.hasCode_iff {fault : Fault} {code : String} :
    fault.hasCode code ↔ fault = .client (str code) := by
  cases fault with
  | client found => simp [Fault.hasCode]
  | other => simp [Fault.hasCode]

/-- A call whose fault is raised unless it has one code. -/
theorem serves_unless {call : ApiCall} (code : String) {next : Except Fault (Response call) → Aws α}
    (about : About target call)
    (absorbed : ∀ fault, absorbs target call fault = fault.hasCode code)
    (answered : ∀ response, Serves target tells (next (.ok response)))
    (tolerated : Serves target tells (next (.error (.client (str code)))))
    (raised : ∀ fault, fault.hasCode code = false →
      next (.error fault) = .raise (.ofFault fault)) :
    Serves target tells (attempt call >>= next) := by
  refine ⟨about, answered, fun fault => ?_⟩
  cases known : fault.hasCode code with
  | true =>
      rw [if_pos ((absorbed fault).trans known), Fault.hasCode_iff.mp known]
      exact tolerated
  | false =>
      rw [if_neg (by simp [absorbed, known])]
      exact Or.inl ⟨.ofFault fault, raised fault known, fun _ => ofFault_eq_clientError⟩

/-- A call that shows by one code that the resource is gone. -/
theorem serves_telling {call : ApiCall} (code : String) {next : Except Fault (Response call) →
    Aws α}
    {value : α} (about : About target call)
    (unabsorbed : ∀ fault, absorbs target call fault = false)
    (benign : isBenignNotFound (str code))
    (answered : ∀ response, Serves target tells (next (.ok response)))
    (told : next (.error (.client (str code))) = .ret value) (telling : tells value)
    (raised : ∀ fault, fault.hasCode code = false →
      next (.error fault) = .raise (.ofFault fault)) :
    Serves target tells (attempt call >>= next) := by
  refine ⟨about, answered, fun fault => ?_⟩
  rw [if_neg (by simp [unabsorbed])]
  cases known : fault.hasCode code with
  | true =>
      have fault_eq := Fault.hasCode_iff.mp known
      subst fault_eq
      exact Or.inr ⟨value, str code, told, telling, rfl, benign⟩
  | false => exact Or.inl ⟨.ofFault fault, raised fault known, fun _ => ofFault_eq_clientError⟩

theorem serves_forM {items : List α} {body : α → Aws Unit}
    (each : ∀ item, Serves target (fun _ => false) (body item)) :
    Serves target (fun _ => false) (items.forM body) := by
  induction items with
  | nil => rfl
  | cons item items ih => exact (each item).bind fun _ => ih

theorem Serves.about_of_runs {program : Aws α} {log : List SweepEvent} {outcome : Except Raised α}
    (serves : Serves target tells program) (ran : program.Runs log outcome) :
    ∀ event ∈ log, ∃ call, event.request = .api call ∧ About target call := by
  induction program generalizing log with
  | ret value => simp [ran.1]
  | raise error => simp [ran.1]
  | call request next ih =>
      rcases ran with ⟨reply, rest, rfl, ran⟩
      cases request with
      | api request =>
          rcases serves with ⟨about, answered, failed⟩
          intro event eventMem
          rcases List.mem_cons.mp eventMem with rfl | later
          · exact ⟨request, rfl, about⟩
          · cases reply with
            | ok response => exact ih _ (answered response) ran event later
            | error fault =>
                have faulted := failed fault
                split at faulted
                · exact ih _ faulted ran event later
                · rcases faulted with ⟨error, ended, _⟩ | ⟨value, _, ended, _⟩
                  · rw [ended] at ran
                    simp [ran.1] at later
                  · rw [ended] at ran
                    simp [ran.1] at later
      | now => exact False.elim serves
      | writeReport report => exact False.elim serves

/-- The outcome tells of a not-found fault. -/
def TellsNotFound (tells : α → Bool) : Except Raised α → Prop
  | .ok value => tells value
  | .error (.clientError code) => isBenignNotFound code
  | .error _ => False

/-- An outcome that tells of a not-found fault comes from the last call, whose fault was not
absorbed; every fault before it was. -/
theorem Serves.last_of_runs {program : Aws α} {log : List SweepEvent} {outcome : Except Raised α}
    (serves : Serves target tells program) (ran : program.Runs log outcome)
    (told : TellsNotFound tells outcome) :
    ∃ before request code, log = before ++ [⟨.api request, .error (.client code)⟩] ∧
      isBenignNotFound code ∧ absorbs target request (.client code) = false ∧
        ∀ call fault, ⟨.api call, .error fault⟩ ∈ before → absorbs target call fault := by
  induction program generalizing log with
  | ret value =>
      rw [ran.2] at told
      simp only [TellsNotFound] at told
      exact absurd (told.symm.trans serves) (by decide)
  | raise error =>
      rw [ran.2] at told
      cases error with
      | clientError code => exact absurd rfl (serves code)
      | _ => exact False.elim told
  | call request next ih =>
      rcases ran with ⟨reply, rest, rfl, ran⟩
      cases request with
      | now => exact False.elim serves
      | writeReport report => exact False.elim serves
      | api request =>
          rcases serves with ⟨_, answered, failed⟩
          cases reply with
          | ok response =>
              rcases ih _ (answered response) ran with ⟨before, last, code, rfl, rest⟩
              refine ⟨⟨.api request, .ok response⟩ :: before, last, code, rfl, rest.1, rest.2.1, ?_⟩
              intro call fault eventMem
              rcases List.mem_cons.mp eventMem with same | later
              · cases same
              · exact rest.2.2 call fault later
          | error fault =>
              have faulted := failed fault
              split at faulted
              · next absorbed =>
                  rcases ih _ faulted ran with ⟨before, last, code, rfl, rest⟩
                  refine ⟨⟨.api request, .error fault⟩ :: before, last, code, rfl, rest.1,
                    rest.2.1, ?_⟩
                  intro call fault eventMem
                  rcases List.mem_cons.mp eventMem with same | later
                  · cases same
                    exact absorbed
                  · exact rest.2.2 call fault later
              · next unabsorbed =>
                  have ended : ∃ code, rest = [] ∧ fault = .client code ∧
                      isBenignNotFound code := by
                    rcases faulted with ⟨error, raised, origin⟩ | ⟨_, code, returned, _, benign⟩
                    · rw [raised] at ran
                      rw [ran.2] at told
                      cases error with
                      | clientError code => exact ⟨code, ran.1, origin code rfl, told⟩
                      | _ => exact False.elim told
                    · rw [returned] at ran
                      exact ⟨code, ran.1, benign⟩
                  rcases ended with ⟨code, rfl, rfl, benign⟩
                  exact ⟨[], request, code, rfl, benign, by simpa using unabsorbed, by simp⟩

end Serving

section Acting

instance (call : ApiCall) : Inhabited (Response call) := by
  cases call <;> exact inferInstance

/-- The replies of an account in which every call succeeds and every listing is empty. -/
def calmReply : (call : Call) → Call.Reply call
  | .api _ => .ok default
  | .now => ⟨0, by decide⟩
  | .writeReport _ => ()

/-- A key is scheduled for deletion; everything else is deleted. -/
def Target.outcome : Target → Action
  | .kmsKey _ => .scheduled
  | _ => .deleted

/-- A fault, or the end of the resource. -/
def Settles (target : Target) (event : SweepEvent) : Prop :=
  (∃ fault, faultOf event = some fault) ∨ Disposes target event

/-- A program that deletes a resource. -/
structure Acts (program : Aws Action) (target : Target) : Prop where
  serves : Serves target (fun action => action = .alreadyDeleted) program
  settles : program.Ensures (Settles target)
  calm : (program.answer calmReply).2 = .ok target.outcome

variable {α : Type} {target : Target} {call : ApiCall}

theorem settles_api_bind {next : Response call → Aws α}
    (answered : ∀ response, Disposes target ⟨.api call, .ok response⟩ ∨
      (next response).Ensures (Settles target)) :
    (api call >>= next).Ensures (Settles target) := by
  intro reply
  cases reply with
  | ok response =>
      rcases answered response with disposes | ensures
      · exact Or.inl (Or.inr disposes)
      · exact Or.inr ensures
  | error fault => exact Or.inl (Or.inl ⟨fault, rfl⟩)

theorem settles_attempt_bind {next : Except Fault (Response call) → Aws α}
    (answered : ∀ response, Disposes target ⟨.api call, .ok response⟩ ∨
      (next (.ok response)).Ensures (Settles target)) :
    (attempt call >>= next).Ensures (Settles target) := by
  intro reply
  cases reply with
  | ok response =>
      rcases answered response with disposes | ensures
      · exact Or.inl (Or.inr disposes)
      · exact Or.inr ensures
  | error fault => exact Or.inl (Or.inl ⟨fault, rfl⟩)

/-- The call that deletes the resource settles it. -/
theorem settles_api (subject_eq : subject call = some target) (deletes : isDeletion call) :
    (api call).Ensures (Settles target) := by
  intro reply
  cases reply with
  | ok response => exact Or.inl (Or.inr ⟨subject_eq, Or.inl deletes⟩)
  | error fault => exact Or.inl (Or.inl ⟨fault, rfl⟩)

theorem settles_deletion {next : Response call → Aws α} (subject_eq : subject call = some target)
    (deletes : isDeletion call) : (api call >>= next).Ensures (Settles target) :=
  (settles_api subject_eq deletes).bind

theorem about_of_subject (subject_eq : subject call = some target) : About target call := by
  intro found foundMem
  rw [subject_eq] at foundMem
  exact Or.inl (Option.some.inj foundMem).symm

theorem about_of_none (subject_eq : subject call = none) : About target call := by
  intro found foundMem
  rw [subject_eq] at foundMem
  cases foundMem

/-- Most handlers delete the resource in one call. -/
theorem acts_of_deletion (subject_eq : subject call = some target) (deletes : isDeletion call)
    (unabsorbed : ∀ fault, absorbs target call fault = false)
    (outcome : target.outcome = .deleted) :
    Acts (api call >>= fun _ => pure .deleted) target where
  serves := (serves_api (about_of_subject subject_eq) unabsorbed).bind fun _ => rfl
  settles := settles_deletion subject_eq deletes
  calm := by
    rw [outcome]
    rfl

end Acting

end Sweep
