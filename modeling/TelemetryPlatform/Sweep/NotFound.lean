import TelemetryPlatform.Sweep.FailSafe
import TelemetryPlatform.Sweep.Passes

/-!
# Already deleted

`dispatchDelete` takes a not-found code for proof that the resource is gone,
whichever call of the handler raised it. The record is right exactly when the
handler reads the ARN rightly and no call about anything else was answered with
such a code, but for the two kinds the handlers themselves pass over.
-/

namespace Sweep

open Python Interaction

section Attribution

/-- The log ends in a not-found fault of a call about the resource the ARN names. -/
def Attributed (arn : Arn) (log : List SweepEvent) : Prop :=
  ∃ before request code, log = before ++ [⟨.api request, .error (.client code)⟩] ∧
    isBenignNotFound code ∧ ∃ target, targetOf arn = some target ∧ subject request = some target

/-- The not-found codes a handler passes over: an alias of a key, and the domain of a user pool,
that another actor has removed. -/
def PassedOver (target : Target) (call : ApiCall) (code : Str) : Prop :=
  match target, call with
  | .kmsKey _, .deleteAlias _ => code = str "NotFoundException"
  | .userPool _ _, .deleteUserPoolDomain _ _ _ => code = str "ResourceNotFoundException"
  | _, _ => False

/-- A call about something other than the resource was answered with a not-found code that the
handler does not pass over. -/
def HelperNotFound (target : Target) (event : SweepEvent) : Prop :=
  ∃ call code, event = ⟨.api call, .error (.client code)⟩ ∧ isBenignNotFound code ∧
    subject call ≠ some target ∧ ¬PassedOver target call code

/-- A call about the resource, or one that takes it for a key or a pool. -/
theorem passedOver_of_absorbs {target : Target} {call : ApiCall} {code : Str}
    (absorbed : absorbs target call (.client code)) (aside : subject call ≠ some target)
    (about : About target call) : PassedOver target call code := by
  have own : ∀ found, subject call = some found → ¬found.PartOf target → False := by
    intro found found_eq notPart
    rcases about found found_eq with rfl | isPart
    · exact aside found_eq
    · exact notPart isPart
  unfold absorbs at absorbed
  split at absorbed
  · exact Fault.client.inj (Fault.hasCode_iff.mp absorbed)
  · exact False.elim (own _ rfl id)
  · exact False.elim (own _ rfl id)
  · exact False.elim (own _ rfl id)
  · exact False.elim (own _ rfl id)
  · exact False.elim (own _ rfl id)
  · exact False.elim (own _ rfl id)
  · exact Fault.client.inj (Fault.hasCode_iff.mp absorbed)
  · cases absorbed

theorem absorbs_of_passedOver {target : Target} {call : ApiCall} {code : Str}
    (passed : PassedOver target call code) : absorbs target call (.client code) := by
  unfold PassedOver at passed
  split at passed
  · exact Fault.hasCode_iff.mpr (congrArg Fault.client passed)
  · exact Fault.hasCode_iff.mpr (congrArg Fault.client passed)
  · exact False.elim passed

variable {target : Target} {program : Aws Action} {log : List SweepEvent}
  {outcome : Except Raised Action}

/-- A record from a handler that acts on the resource the ARN names. -/
theorem attributed_iff_of_acts {arn : Arn} (named : targetOf arn = some target)
    (acts : Acts program target) (ran : program.Runs log outcome)
    (told : TellsNotFound (fun action => decide (action = Action.alreadyDeleted)) outcome) :
    Attributed arn log ↔ ∀ event ∈ log, ¬HelperNotFound target event := by
  have about := acts.serves.about_of_runs ran
  rcases acts.serves.last_of_runs ran told with
    ⟨before, request, code, rfl, benign, unabsorbed, earlier⟩
  by_cases own : subject request = some target
  · refine iff_of_true ⟨before, request, code, rfl, benign, target, named, own⟩ ?_
    rintro event eventMem ⟨call, code', rfl, _, aside, notPassed⟩
    rcases List.mem_append.mp eventMem with inBefore | last
    · rcases about _ eventMem with ⟨_, same, aboutCall⟩
      cases same
      exact notPassed (passedOver_of_absorbs (earlier _ _ inBefore) aside aboutCall)
    · cases List.mem_singleton.mp last
      exact aside own
  · refine iff_of_false ?_ ?_
    · rintro ⟨_, _, _, log_eq, _, target', named', subject_eq⟩
      cases (List.append_inj_right' log_eq rfl)
      rw [named, Option.some.injEq] at named'
      rw [named'] at own
      exact own subject_eq
    · intro none
      apply none ⟨.api request, .error (.client code)⟩ (by simp)
      refine ⟨request, code, rfl, benign, own, fun passed => ?_⟩
      rw [absorbs_of_passedOver passed] at unabsorbed
      cases unabsorbed

/-- A handler that acts on something else is told of something else. -/
theorem not_attributed_of_acts {arn : Arn} {found : Target}
    (other : ∀ target, targetOf arn = some target → found ≠ target ∧ ¬target.PartOf found)
    (acts : Acts program found) (ran : program.Runs log outcome) : ¬Attributed arn log := by
  rintro ⟨before, request, code, rfl, _, target, named, subject_eq⟩
  rcases acts.serves.about_of_runs ran ⟨.api request, .error (.client code)⟩ (by simp) with
    ⟨_, same, about⟩
  cases same
  rcases other target named with ⟨different, notPart⟩
  rcases about target subject_eq with rfl | isPart
  · exact different rfl
  · exact notPart isPart

end Attribution

section Records

variable {settings : Settings} {arn : Arn} {resource : Resource} {isFinalPass : Bool}
  {log : List SweepEvent} {entry : Entry} {defer : Bool}

theorem classify_alreadyDeleted {error : Raised}
    (recorded : (classify isFinalPass error).1 = .alreadyDeleted) :
    ∃ code, error = .clientError code ∧ isBenignNotFound code := by
  unfold classify at recorded
  split at recorded
  · cases recorded
  · next code =>
      split at recorded
      · next benign => exact ⟨code, rfl, benign⟩
      · split at recorded
        · cases recorded
        · cases recorded
  · cases recorded

/-- A dispatch of a resource of a service is the run of its handler. -/
theorem runs_dispatchDelete_text (arn_eq : resource.arn = arn.text)
    (ran : (dispatchDelete settings isFinalPass resource).Runs log (.ok (entry, defer))) :
    ∃ outcome, ((handlerOf settings.pollTimeout arn.service).delete arn.text).Runs log outcome ∧
      (entry.action, defer) = recordedAs isFinalPass outcome := by
  have found : handlers settings.pollTimeout (servicePrefixFromArn arn.text) =
      some (handlerOf settings.pollTimeout arn.service) := handlers_text settings.pollTimeout
  rw [← arn_eq] at found
  rcases runs_dispatchDelete ran with ⟨none_eq, _⟩ | ⟨handler, outcome, some_eq, deleted, entry_eq⟩
  · rw [found] at none_eq
    cases none_eq
  · rw [found] at some_eq
    rw [← Option.some.inj some_eq, arn_eq] at deleted
    exact ⟨outcome, deleted, entry_eq⟩

/-- A record of `already-deleted` comes from a run of the handler that tells of it. -/
theorem runs_of_alreadyDeleted (arn_eq : resource.arn = arn.text)
    (ran : (dispatchDelete settings isFinalPass resource).Runs log (.ok (entry, defer)))
    (recorded : entry.action = .alreadyDeleted) :
    ∃ outcome, ((handlerOf settings.pollTimeout arn.service).delete arn.text).Runs log outcome ∧
      TellsNotFound (fun action => decide (action = Action.alreadyDeleted)) outcome := by
  rcases runs_dispatchDelete_text arn_eq ran with ⟨outcome, deleted, entry_eq⟩
  refine ⟨outcome, deleted, ?_⟩
  have action_eq := congrArg Prod.fst entry_eq
  rw [recorded] at action_eq
  cases outcome with
  | ok action => exact decide_eq_true action_eq.symm
  | error error =>
      rcases classify_alreadyDeleted action_eq.symm with ⟨code, rfl, benign⟩
      exact benign

/-- A record of `already-deleted` stems from the resource itself exactly when its handler reads
the ARN rightly and no other call was answered with a not-found code. -/
theorem attributed_iff (arn_eq : resource.arn = arn.text)
    (ran : (dispatchDelete settings isFinalPass resource).Runs log (.ok (entry, defer)))
    (recorded : entry.action = .alreadyDeleted) :
    Attributed arn log ↔
      ∃ target, targetOf arn = some target ∧ ¬Misread arn ∧
        ∀ event ∈ log, ¬HelperNotFound target event := by
  rcases runs_of_alreadyDeleted arn_eq ran recorded with ⟨outcome, deleted, told⟩
  have describes := handling_correct settings.pollTimeout arn.service arn.text
  cases handled : handling arn.service arn.text with
  | rejects =>
      rw [handled] at describes
      rcases describes with ⟨error, raises, notClient⟩
      rw [raises] at deleted
      rw [deleted.2] at told
      cases error with
      | clientError code => exact absurd rfl (notClient code)
      | _ => exact False.elim told
  | idles =>
      rw [handled] at describes
      rw [show (handlerOf settings.pollTimeout arn.service).delete arn.text = pure .deleted
        from describes] at deleted
      rw [deleted.2] at told
      cases told
  | acts found =>
      rw [handled] at describes
      by_cases rightly : ∃ target, targetOf arn = some target ∧ ¬Misread arn
      · rcases rightly with ⟨target, named, rightly⟩
        rw [handling_of_target named rightly, Handling.acts.injEq] at handled
        subst handled
        rw [attributed_iff_of_acts named describes deleted told]
        constructor
        · exact fun none => ⟨target, named, rightly, none⟩
        · rintro ⟨target', named', _, none⟩
          rw [named, Option.some.injEq] at named'
          rwa [named']
      · refine iff_of_false ?_ ?_
        · apply not_attributed_of_acts (fun target named => ?_) describes deleted
          have misread : Misread arn := by
            by_contra notMisread
            exact rightly ⟨target, named, notMisread⟩
          rcases handling_of_misread named misread with ⟨other, handled', different, _, notPart⟩
          rw [handled] at handled'
          cases handled'
          exact ⟨different, notPart⟩
        · rintro ⟨target, named, notMisread, _⟩
          exact rightly ⟨target, named, notMisread⟩

end Records

namespace Sample

def settings : Settings where
  accountsJson := none
  minAgeMinutes := none
  maxDeletePasses := none
  defaultMinAgeMinutes := 120
  defaultMaxDeletePasses := 6
  pollTimeout := str "300"

/-- `arn:aws:sns:us-east-1:222222222222:alerts`. -/
def topic : Arn where
  partition := str "aws"
  service := .sns
  region := str "us-east-1"
  account := str "222222222222"
  resource := str "alerts"
  isPartition := isPartition_aws
  isRegion := isRegion_usEast1
  isAccount := user.isAccount

/-- `arn:aws:glue:us-east-1:222222222222:database/lake`. -/
def database : Arn where
  partition := str "aws"
  service := .glue
  region := str "us-east-1"
  account := str "222222222222"
  resource := str "database/lake"
  isPartition := isPartition_aws
  isRegion := topic.isRegion
  isAccount := user.isAccount

/-- Another sweep deletes the database while its tables are deleted. -/
def racedLog : List SweepEvent :=
  [⟨.api (.getTables (str "lake")), .ok [str "events", str "metrics"]⟩,
    ⟨.api (.deleteTable (str "lake") (str "events")), .ok ()⟩,
    ⟨.api (.deleteTable (str "lake") (str "metrics")), .ok ()⟩,
    ⟨.api (.deleteDatabase (str "lake")),
      .error (.client (str "EntityNotFoundException"))⟩]

/-- A table of the database is gone by the time it is deleted. -/
def databaseLog : List SweepEvent :=
  [⟨.api (.getTables (str "lake")), .ok [str "events"]⟩,
    ⟨.api (.deleteTable (str "lake") (str "events")),
      .error (.client (str "EntityNotFoundException"))⟩]

end Sample

/-- A dispatch of the database is the run of its handler. -/
theorem runs_dispatchDelete_database {log : List SweepEvent}
    (ran : (glueDelete Sample.database.text).Runs log
      (.error (.clientError (str "EntityNotFoundException")))) :
    (dispatchDelete Sample.settings false ⟨Sample.database.text, []⟩).Runs log
      (.ok (⟨Sample.database.text, str "glue", .alreadyDeleted, none⟩, false)) := by
  have service : servicePrefixFromArn Sample.database.text = str "glue" := servicePrefixFromArn_text
  unfold dispatchDelete
  dsimp only
  rw [handlers_text, service]
  refine Program.runs_bind_ok.mpr ⟨(.alreadyDeleted, false), log, [], by simp, ?_, rfl, rfl⟩
  refine Program.runs_handle.mpr (Or.inr ⟨_, log, [], by simp,
    Program.runs_bind.mpr (Or.inl ⟨_, rfl, ran⟩), rfl, congrArg Except.ok ?_⟩)
  decide

theorem glueDelete_database : glueDelete Sample.database.text = do
    let tables ← api (.getTables (str "lake"))
    tables.forM fun table => api (.deleteTable (str "lake") table)
    api (.deleteDatabase (str "lake"))
    return .deleted := by
  have isDatabase : Sample.database.ofType "database" = some (str "lake") := by decide
  have read : splitOnce (str ":database/") Sample.database.text =
      some (Sample.database.header, str "lake") := splitOnce_of_ofType isDatabase rfl (by decide)
  rw [glueDelete, read]

theorem runs_raced : (dispatchDelete Sample.settings false ⟨Sample.database.text, []⟩).Runs
    Sample.racedLog (.ok (⟨Sample.database.text, str "glue", .alreadyDeleted, none⟩, false)) := by
  apply runs_dispatchDelete_database
  rw [glueDelete_database]
  exact ⟨_, _, rfl, _, _, rfl, _, _, rfl, _, _, rfl, rfl, rfl⟩

theorem attributed_iff_database :
    Attributed Sample.database Sample.racedLog ↔
      ∃ target, targetOf Sample.database = some target ∧ ¬Misread Sample.database ∧
        ∀ event ∈ Sample.racedLog, ¬HelperNotFound target event :=
  attributed_iff rfl runs_raced rfl

theorem runs_database : (dispatchDelete Sample.settings false ⟨Sample.database.text, []⟩).Runs
    Sample.databaseLog (.ok (⟨Sample.database.text, str "glue", .alreadyDeleted, none⟩,
        false)) := by
  apply runs_dispatchDelete_database
  rw [glueDelete_database]
  exact ⟨_, _, rfl, _, _, rfl, rfl, rfl⟩

/-- A table that is gone makes a database `already-deleted` whose deletion was never tried. -/
theorem database_leak_masked :
    ∃ (resource : Resource) (log : List SweepEvent) (entry : Entry),
      (dispatchDelete Sample.settings false resource).Runs log (.ok (entry, false)) ∧
        resource.arn = Sample.database.text ∧ entry.action = .alreadyDeleted ∧
        ¬Attributed Sample.database log := by
  refine ⟨_, _, _, runs_database, rfl, rfl, ?_⟩
  rintro ⟨before, request, code, log_eq, _, target, named, subject_eq⟩
  have last := congrArg List.getLast? log_eq
  rw [List.getLast?_append, List.getLast?_singleton] at last
  cases last
  have isDatabase : targetOf Sample.database = some (.database (str "lake")) := by decide
  rw [isDatabase] at named
  cases named
  cases subject_eq

end Sweep
