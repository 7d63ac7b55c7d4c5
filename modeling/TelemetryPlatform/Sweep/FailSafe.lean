import TelemetryPlatform.Sweep.Addressing

/-!
# Matched but not acted on

The sweep relies on its handlers to say `deleted` only of what they deleted, and to
raise on what they have no deletion path for. With every call carried out, a handler
meets this on an ARN exactly when it acts on the resource the ARN names, or refuses
the ARN.
-/

namespace Sweep

open Python Interaction

section Registry

variable {arn : Arn}

theorem servicePrefixFromArn_text : servicePrefixFromArn arn.text = arn.service.servicePrefix := by
  have long : ¬(arn.text.splitOn colon).length < 6 := by
    have nonempty := List.length_pos_of_ne_nil (List.splitOn_ne_nil colon arn.resource)
    rw [arn.splitOn_text]
    simp only [List.length_cons]
    omega
  rw [servicePrefixFromArn, if_neg long, field_text]
  rfl

/-- The handler found for an ARN is the one of its service. -/
theorem handlers_text (pollTimeout : Str) :
    handlers pollTimeout (servicePrefixFromArn arn.text) =
      some (handlerOf pollTimeout arn.service) := by
  rw [servicePrefixFromArn_text, handlers]
  cases arn.service <;> rfl

end Registry

/-- With every call of the handler carried out, `deleted` is said of a resource that a call
deleted or showed gone, and an ARN without a deletion path raises. -/
def FailSafe (pollTimeout : Str) (arn : Arn) : Prop :=
  ∀ handler ∈ handlers pollTimeout (servicePrefixFromArn arn.text), ∀ log outcome,
    (handler.delete arn.text).Runs log outcome → (∀ event ∈ log, faultOf event = none) →
      match targetOf arn with
      | some target => outcome = .ok .deleted → ∃ event ∈ log, Disposes target event
      | none => ∃ error, outcome = .error error

section Runs

variable {arn : Arn} {target : Target} {program : Aws Action} {log : List SweepEvent}

/-- A program that returns without a fault has disposed of its resource. -/
theorem Acts.exists_disposes (acts : Acts program target) {action : Action}
    (ran : program.Runs log (.ok action)) (faultless : ∀ event ∈ log, faultOf event = none) :
    ∃ event ∈ log, Disposes target event := by
  rcases acts.settles.exists_of_runs ran with ⟨event, eventMem, ⟨fault, faulty⟩ | disposes⟩
  · rw [faultless event eventMem] at faulty
    cases faulty
  · exact ⟨event, eventMem, disposes⟩

/-- A run in which every call is carried out. -/
theorem Acts.exists_run (acts : Acts program target) :
    ∃ log, program.Runs log (.ok target.outcome) ∧ ∀ event ∈ log, faultOf event = none := by
  have ran := Program.runs_answer calmReply program
  rw [acts.calm] at ran
  refine ⟨_, ran, fun event eventMem => ?_⟩
  have replied := Program.answer_replies calmReply program event eventMem
  rcases event with ⟨request, reply⟩
  dsimp only at replied
  subst replied
  cases request <;> rfl

theorem Acts.subject_of_disposes (acts : Acts program target) {other : Target}
    {outcome : Except Raised Action} (ran : program.Runs log outcome)
    {event : SweepEvent} (eventMem : event ∈ log) (disposes : Disposes other event) :
    other = target ∨ other.PartOf target := by
  rcases acts.serves.about_of_runs ran event eventMem with ⟨call, request_eq, about⟩
  rcases event with ⟨request, reply⟩
  dsimp only at request_eq
  subst request_eq
  cases reply with
  | ok response => exact about other disposes.1
  | error fault => exact False.elim disposes

theorem failSafe_of_acts (named : targetOf arn = some target) (pollTimeout : Str)
    (acts : Acts ((handlerOf pollTimeout arn.service).delete arn.text) target) :
    FailSafe pollTimeout arn := by
  intro handler found log outcome ran faultless
  rw [handlers_text] at found
  cases found
  rw [named]
  rintro rfl
  exact acts.exists_disposes ran faultless

/-- Acting on something else is reported as the deletion of the resource. -/
theorem not_failSafe_of_acts {found : Target} (pollTimeout : Str)
    (acts : Acts ((handlerOf pollTimeout arn.service).delete arn.text) found)
    (other : ∀ target, targetOf arn = some target →
      found ≠ target ∧ found.outcome = .deleted ∧ ¬target.PartOf found) :
    ¬FailSafe pollTimeout arn := by
  intro safe
  rcases acts.exists_run with ⟨log, ran, faultless⟩
  have met := safe _ (handlers_text pollTimeout) log _ ran faultless
  cases named : targetOf arn with
  | none =>
      rw [named] at met
      rcases met with ⟨error, impossible⟩
      cases impossible
  | some target =>
      rcases other target named with ⟨different, outcome, notPart⟩
      rw [named] at met
      rcases met (congrArg _ outcome) with ⟨event, eventMem, disposes⟩
      rcases acts.subject_of_disposes ran eventMem disposes with same | isPart
      · exact different same.symm
      · exact notPart isPart

theorem not_failSafe_of_idles (pollTimeout : Str)
    (idles : (handlerOf pollTimeout arn.service).delete arn.text = pure .deleted) :
    ¬FailSafe pollTimeout arn := by
  intro safe
  have met := safe _ (handlers_text pollTimeout) [] (.ok .deleted)
    (by rw [idles]; exact ⟨rfl, rfl⟩) (fun _ absurdMem => absurd absurdMem List.not_mem_nil)
  cases named : targetOf arn with
  | none =>
      rw [named] at met
      rcases met with ⟨error, impossible⟩
      cases impossible
  | some target =>
      rw [named] at met
      rcases met rfl with ⟨event, eventMem, _⟩
      cases eventMem

end Runs

/-- The handlers are fail-safe exactly on the ARNs they read rightly or refuse. -/
theorem failSafe_iff (pollTimeout : Str) (arn : Arn) :
    FailSafe pollTimeout arn ↔
      ((targetOf arn).isSome ∧ ¬Misread arn) ∨ Refused arn := by
  have describes := handling_correct pollTimeout arn.service arn.text
  cases handled : handling arn.service arn.text with
  | rejects =>
      have refused := handling_eq_rejects.mp handled
      refine iff_of_true ?_ (Or.inr refused)
      rw [handled] at describes
      rcases describes with ⟨error, raises, _⟩
      intro handler found log outcome ran _
      rw [handlers_text] at found
      cases found
      rw [raises] at ran
      cases targetOf arn with
      | none => exact ⟨error, ran.2⟩
      | some target =>
          rintro rfl
          cases ran.2
  | idles =>
      rw [handled] at describes
      refine iff_of_false (not_failSafe_of_idles pollTimeout describes) ?_
      rintro (⟨isNamed, rightly⟩ | refused)
      · rcases Option.isSome_iff_exists.mp isNamed with ⟨target, named⟩
        rw [handling_of_target named rightly] at handled
        cases handled
      · rw [handling_eq_rejects.mpr refused] at handled
        cases handled
  | acts found =>
      rw [handled] at describes
      have notRefused : ¬Refused arn := by
        intro refused
        rw [handling_eq_rejects.mpr refused] at handled
        cases handled
      by_cases rightly : (targetOf arn).isSome ∧ ¬Misread arn
      · refine iff_of_true ?_ (Or.inl rightly)
        rcases Option.isSome_iff_exists.mp rightly.1 with ⟨target, named⟩
        rw [handling_of_target named rightly.2] at handled
        cases handled
        exact failSafe_of_acts named pollTimeout describes
      · refine iff_of_false ?_ (not_or.mpr ⟨rightly, notRefused⟩)
        apply not_failSafe_of_acts pollTimeout describes
        intro target named
        have misread : Misread arn := by
          by_contra notMisread
          exact rightly ⟨by rw [named]; rfl, notMisread⟩
        rcases handling_of_misread named misread with ⟨other, handled', apart⟩
        rw [handled] at handled'
        cases handled'
        exact apart

namespace Sample

/-- `arn:aws:iam::222222222222:user/ci`, for which there is no deletion path. -/
def user : Arn where
  partition := str "aws"
  service := .iam
  region := []
  account := str "222222222222"
  resource := str "user/ci"
  isPartition := isPartition_aws
  isRegion := ⟨by decide, by decide, Or.inl rfl⟩
  isAccount := by
    intro c cMem
    have all : ∀ c ∈ str "222222222222", c = .char '2' := by decide
    exact ⟨'2', all c cMem, by decide⟩

end Sample

/-- An IAM user is reported as deleted and left alone. -/
theorem user_reported_deleted : ¬FailSafe (str "300") Sample.user := by
  have describes := handling_correct (str "300") .iam Sample.user.text
  have idles : handling .iam Sample.user.text = .idles := by decide +kernel
  rw [idles] at describes
  exact not_failSafe_of_idles _ describes

end Sweep
