import TelemetryPlatform.Library.Program
import TelemetryPlatform.Terragrunt.BucketNames

/-!
# The cleanup of the Athena workgroups

`scripts/athena_workgroup_cleanup.py` lists the workgroups of an account page by page,
selects the ones of the analytics service of an environment, and deletes them together
with their query history, so that a later destroy finds them gone.

The name of a workgroup is the namespace of its unit with `-analytics` behind it, whatever
the service of the unit is. The selection looks for the two words anywhere in a name.
`Separated` says of the listed names that the words are found in no others than the names
of the analytics service of the environment, and `cleanup_confined_iff` that nothing less
keeps the cleanup inside the environment.
-/

namespace AthenaCleanup

open Python Interaction Terragrunt

section Client

structure WorkGroup where
  name : Option Str

structure ListResponse where
  workGroups : Option (List WorkGroup)
  nextToken : Option Str

inductive AthenaExc where
  /-- A `ClientError`, by the `Code` and the `Message` of its response. -/
  | client (code message : Option Str)
  /-- An exception without a response. -/
  | other (text : Str)
  /-- The loop over the pages did not end within the rounds it was given. -/
  | unfinished
deriving DecidableEq

inductive AthenaCall where
  | listWorkGroups (nextToken : Option Str)
  | deleteWorkGroup (workGroup : Str) (recursiveDeleteOption : Bool)

/-- What a call returns when it does not raise. -/
@[reducible]
def AthenaCall.Result : AthenaCall → Type
  | .listWorkGroups _ => ListResponse
  | .deleteWorkGroup _ _ => Unit

@[reducible]
def AthenaCall.Reply (call : AthenaCall) : Type := Except AthenaExc call.Result

abbrev Athena := Program AthenaCall AthenaCall.Reply AthenaExc

abbrev AthenaEvent := Event AthenaCall AthenaCall.Reply

/-- A method of the client. -/
def send (call : AthenaCall) : Athena call.Result := do
  match ← Program.perform call with
  | .ok result => return result
  | .error exc => throw exc

end Client

section Script

def analyticsSegment : Str := str "analytics"

/-- The names that a page lists. -/
def ListResponse.names (response : ListResponse) : List Str :=
  (response.workGroups.getD []).map fun group => group.name.getD []

/-- One round of the loop over the groups of a page. -/
def collect (env : Str) (names : List Str) (name : Str) : List Str :=
  if Contains analyticsSegment name ∧ Contains env name ∧ name ∉ names then names ++ [name]
  else names

/-- The loop of `discover_analytics_workgroups`, for a number of rounds. The set `seen` has the
items of `names`. -/
def discoverAnalyticsWorkgroups (env : Str) : Nat → Option Str → List Str → Athena (List Str)
  | 0, _, _ => throw .unfinished
  | rounds + 1, token, names => do
      let response ← send (.listWorkGroups token)
      let names := response.names.foldl (collect env) names
      match response.nextToken with
      | some (c :: rest) => discoverAnalyticsWorkgroups env rounds (some (c :: rest)) names
      | _ => return names

/-- `_is_absent_error`. -/
def isAbsentError : AthenaExc → Bool
  | .client code message =>
      let code := code.getD []
      if code ∈ [str "ResourceNotFoundException", str "EntityNotFoundException"] then true
      else
        let message := lower (message.getD [])
        code = str "InvalidRequestException" ∧
          (Contains (str "not found") message ∨ Contains (str "does not exist") message)
  | _ => false

/-- `delete_workgroup`: whether the workgroup was there to be deleted. -/
def deleteWorkgroup (name : Str) : Athena Bool :=
  tryCatch (do
    send (.deleteWorkGroup name true)
    return true) fun exc => if isAbsentError exc then return false else throw exc

structure Evidence where
  env : Str
  discovered : List Str
  deleted : List Str
  alreadyAbsent : List Str

/-- One round of the loop of `cleanup`. -/
def deleteOne (lists : List Str × List Str) (name : Str) : Athena (List Str × List Str) := do
  if ← deleteWorkgroup name then
    return (lists.1 ++ [name], lists.2)
  else
    return (lists.1, lists.2 ++ [name])

/-- `cleanup`, for a number of pages. -/
def cleanup (rounds : Nat) (env : Str) : Athena Evidence := do
  let discovered ← discoverAnalyticsWorkgroups env rounds none []
  let (deleted, alreadyAbsent) ← discovered.foldlM deleteOne ([], [])
  return ⟨env, discovered, deleted, alreadyAbsent⟩

end Script

section Listing

/-- The calls and replies of a listing that answers with the pages. -/
def listingLog : Option Str → List ListResponse → List AthenaEvent
  | _, [] => []
  | token, page :: pages =>
      ⟨.listWorkGroups token, .ok page⟩ :: listingLog page.nextToken pages

/-- There is a next page. -/
def ListResponse.Continues (page : ListResponse) : Prop :=
    ∃ c rest, page.nextToken = some (c :: rest)

/-- Every page but the last one names a next page. -/
inductive Paginated : List ListResponse → Prop
  | last {page : ListResponse} (ends : ¬page.Continues) : Paginated [page]
  | page {page : ListResponse} {pages : List ListResponse} (continues : page.Continues)
      (paginated : Paginated pages) : Paginated (page :: pages)

def listedNames (pages : List ListResponse) : List Str := pages.flatMap ListResponse.names

variable {env : Str} {names : List Str}

theorem runs_send_ok {α : Type} {call : AthenaCall} {result : call.Result}
    {next : call.Result → Athena α} {log : List AthenaEvent} {outcome : Except AthenaExc α} :
    (send call >>= next).Runs (⟨call, .ok result⟩ :: log) outcome ↔
      (next result).Runs log outcome := by
  simp only [send, Program.perform_bind, Program.call_bind, Program.runs_call]
  constructor
  · rintro ⟨reply, rest, same, ran⟩
    rcases List.cons.inj same with ⟨event, rfl⟩
    cases event
    exact ran
  · intro ran
    exact ⟨.ok result, log, rfl, ran⟩

/-- The names that are selected from the pages of a listing are collected in one pass. -/
theorem runs_discover {α : Type} {next : List Str → Athena α} {pages : List ListResponse}
    (paginated : Paginated pages) {rounds : Nat} (enough : pages.length ≤ rounds)
    {token : Option Str} {log : List AthenaEvent} {outcome : Except AthenaExc α} :
    (discoverAnalyticsWorkgroups env rounds token names >>= next).Runs
        (listingLog token pages ++ log) outcome ↔
      (next ((listedNames pages).foldl (collect env) names)).Runs log outcome := by
  induction paginated generalizing rounds token names with
  | @last page ends =>
      rcases Nat.exists_eq_succ_of_ne_zero (Nat.ne_of_gt enough) with ⟨rounds, rfl⟩
      rw [discoverAnalyticsWorkgroups, bind_assoc]
      simp only [listingLog, List.cons_append, List.nil_append, listedNames, List.flatMap_cons,
        List.flatMap_nil, List.append_nil]
      rw [runs_send_ok]
      split
      · next c rest more => exact absurd ⟨c, rest, more⟩ ends
      · rfl
  | @page page pages continues _ ih =>
      rcases Nat.exists_eq_succ_of_ne_zero (Nat.ne_of_gt (Nat.lt_of_lt_of_le
        (Nat.succ_pos pages.length) enough)) with ⟨rounds, rfl⟩
      rcases continues with ⟨c, rest, more⟩
      rw [discoverAnalyticsWorkgroups, bind_assoc]
      simp only [listingLog, List.cons_append, listedNames, List.flatMap_cons, List.foldl_append]
      rw [runs_send_ok, more]
      exact ih (Nat.le_of_succ_le_succ enough)

/-- The selection keeps what was collected, and adds each name that has the two words once. -/
theorem foldl_collect {listed : List Str} (distinct : names.Nodup) :
    (listed.foldl (collect env) names).Nodup ∧
      ∀ name, name ∈ listed.foldl (collect env) names ↔
        name ∈ names ∨ name ∈ listed ∧ Contains analyticsSegment name ∧ Contains env name := by
  induction listed generalizing names with
  | nil => simpa using distinct
  | cons first listed ih =>
      rw [List.foldl_cons, collect]
      split
      · next selected =>
          rcases selected with ⟨analytics, own, new⟩
          have distinct : (names ++ [first]).Nodup := by
            rw [List.nodup_append_comm]
            exact List.nodup_cons.mpr ⟨new, distinct⟩
          rcases ih distinct with ⟨distinct, member⟩
          refine ⟨distinct, fun name => ?_⟩
          rw [member, List.mem_append, List.mem_singleton, List.mem_cons]
          constructor
          · rintro ((old | rfl) | ⟨later, words⟩)
            · exact Or.inl old
            · exact Or.inr ⟨Or.inl rfl, analytics, own⟩
            · exact Or.inr ⟨Or.inr later, words⟩
          · rintro (old | ⟨rfl | later, words⟩)
            · exact Or.inl (Or.inl old)
            · exact Or.inl (Or.inr rfl)
            · exact Or.inr ⟨later, words⟩
      · next rejected =>
          rcases ih distinct with ⟨distinct, member⟩
          refine ⟨distinct, fun name => ?_⟩
          rw [member, List.mem_cons]
          constructor
          · rintro (old | ⟨later, words⟩)
            · exact Or.inl old
            · exact Or.inr ⟨Or.inr later, words⟩
          · rintro (old | ⟨rfl | later, words⟩)
            · exact Or.inl old
            · left
              by_contra new
              exact rejected ⟨words.1, words.2, new⟩
            · exact Or.inr ⟨later, words⟩

end Listing

section Deletions

/-- The workgroups that a log asks to delete, whatever is in them. -/
def deletions (log : List AthenaEvent) : List Str :=
  log.filterMap fun event => match event with
    | ⟨.deleteWorkGroup name true, _⟩ => some name
    | _ => none

/-- The workgroups whose deletion a log reports. -/
def deletedNames (log : List AthenaEvent) : List Str :=
  log.filterMap fun event => match event with
    | ⟨.deleteWorkGroup name _, .ok _⟩ => some name
    | _ => none

/-- The workgroups that a log reports to be absent. -/
def absentNames (log : List AthenaEvent) : List Str :=
  log.filterMap fun event => match event with
    | ⟨.deleteWorkGroup name _, .error exc⟩ => if isAbsentError exc then some name else none
    | _ => none

/-- The errors of a log other than those of absent workgroups. -/
def failures (log : List AthenaEvent) : List AthenaExc :=
  log.filterMap fun event => match event with
    | ⟨_, .error exc⟩ => if isAbsentError exc then none else some exc
    | _ => none

variable {log : List AthenaEvent} {name : Str}

/-- The three ways a deletion goes. -/
theorem runs_deleteWorkgroup {outcome : Except AthenaExc Bool} :
    (deleteWorkgroup name).Runs log outcome ↔
      (log = [⟨.deleteWorkGroup name true, .ok ()⟩] ∧ outcome = .ok true) ∨
        ∃ exc, log = [⟨.deleteWorkGroup name true, .error exc⟩] ∧
          outcome = if isAbsentError exc then .ok false else .error exc := by
  simp only [deleteWorkgroup, send, Program.perform_bind, Program.call_bind,
    Program.tryCatch_eq_handle, Program.handle, Program.runs_call]
  constructor
  · rintro ⟨reply, rest, rfl, ran⟩
    cases reply with
    | ok done =>
        rcases ran with ⟨rfl, rfl⟩
        exact Or.inl ⟨rfl, rfl⟩
    | error exc =>
        right
        simp only [Program.throw_eq_raise, Program.raise_bind, Program.handle] at ran
        split at ran
        · next absent =>
            rcases ran with ⟨rfl, rfl⟩
            exact ⟨exc, rfl, by rw [if_pos absent]⟩
        · next refused =>
            rcases ran with ⟨rfl, rfl⟩
            exact ⟨exc, rfl, by rw [if_neg refused]⟩
  · rintro (⟨rfl, rfl⟩ | ⟨exc, rfl, rfl⟩)
    · exact ⟨.ok (), [], rfl, rfl, rfl⟩
    · refine ⟨.error exc, [], rfl, ?_⟩
      simp only [Program.throw_eq_raise, Program.raise_bind, Program.handle]
      split
      · exact ⟨rfl, rfl⟩
      · exact ⟨rfl, rfl⟩

theorem deletions_append (before after : List AthenaEvent) :
    deletions (before ++ after) = deletions before ++ deletions after :=
  List.filterMap_append ..

theorem failures_append (before after : List AthenaEvent) :
    failures (before ++ after) = failures before ++ failures after :=
  List.filterMap_append ..

/-- The log of the loop over names that are done. -/
structure Handled (done : List Str) (log : List AthenaEvent) (lists : List Str × List Str) :
    Prop where
  requested : deletions log = done
  deleted : deletedNames log = lists.1
  absent : absentNames log = lists.2
  clean : failures log = []

theorem Handled.append {done more : List Str} {before part : List AthenaEvent}
    {lists others : List Str × List Str} (front : Handled done before lists)
    (back : Handled more part others) :
    Handled (done ++ more) (before ++ part) (lists.1 ++ others.1, lists.2 ++ others.2) := by
  refine ⟨?_, ?_, ?_, ?_⟩
  · rw [deletions_append, front.requested, back.requested]
  · rw [deletedNames, List.filterMap_append]
    exact congrArg₂ _ front.deleted back.deleted
  · rw [absentNames, List.filterMap_append]
    exact congrArg₂ _ front.absent back.absent
  · rw [failures_append, front.clean, back.clean]
    rfl

/-- A round of the loop handles its name, or stops at the error of its deletion. -/
theorem runs_deleteOne {lists : List Str × List Str}
    {outcome : Except AthenaExc (List Str × List Str)}
    (ran : (deleteOne lists name).Runs log outcome) :
    (∃ more, Handled [name] log more ∧ outcome = .ok (lists.1 ++ more.1, lists.2 ++ more.2)) ∨
      ∃ exc, deletions log = [name] ∧ failures log = [exc] ∧ outcome = .error exc := by
  rw [deleteOne] at ran
  rcases Program.runs_bind.mp ran with
    ⟨error, rfl, stopped⟩ | ⟨found, first, rest, rfl, deleting, ran⟩
  · rcases runs_deleteWorkgroup.mp stopped with ⟨_, impossible⟩ | ⟨exc, rfl, same⟩
    · cases impossible
    · right
      split at same
      · cases same
      · next refused =>
          cases same
          exact ⟨error, rfl, by simp [failures, refused], rfl⟩
  · left
    rcases runs_deleteWorkgroup.mp deleting with ⟨rfl, same⟩ | ⟨exc, rfl, same⟩
    · cases same
      rcases ran with ⟨rfl, rfl⟩
      exact ⟨([name], []), ⟨rfl, rfl, rfl, rfl⟩, by simp⟩
    · split at same
      · next absent =>
          cases same
          rcases ran with ⟨rfl, rfl⟩
          refine ⟨([], [name]), ⟨rfl, rfl, ?_, ?_⟩, by simp⟩
          · simp [absentNames, absent]
          · simp [failures, absent]
      · cases same

/-- The loop handles every name, or the names up to the first one whose deletion fails. -/
theorem runs_deleteAll {discovered : List Str} {outcome : Except AthenaExc (List Str × List Str)}
    (ran : (discovered.foldlM deleteOne ([], [])).Runs log outcome) :
    (∃ lists, Handled discovered log lists ∧ outcome = .ok lists) ∨
      ∃ exc, deletions log <+: discovered ∧ failures log = [exc] ∧ outcome = .error exc := by
  have initially : Handled [] [] ([], []) := ⟨rfl, rfl, rfl, rfl⟩
  have kept := Program.runs_foldlM Handled ?_ initially ran
  · rcases kept with ⟨lists, rfl, handled⟩ |
      ⟨front, name, rest, lists, before, last, error, rfl, rfl, handled, stopped, rfl⟩
    · exact Or.inl ⟨lists, handled, rfl⟩
    · right
      rcases runs_deleteOne stopped with ⟨_, _, impossible⟩ | ⟨exc, requested, failed, same⟩
      · cases impossible
      · cases same
        rw [List.nil_append, List.nil_append] at handled
        refine ⟨error, ⟨rest, ?_⟩, ?_, rfl⟩
        · rw [deletions_append, handled.requested, requested]
          simp
        · rw [failures_append, handled.clean, failed]
          rfl
  · intro done before lists name part next handled stepped
    rcases runs_deleteOne stepped with ⟨more, handledName, same⟩ | ⟨_, _, _, impossible⟩
    · cases same
      exact handled.append handledName
    · cases impossible

/-- The replies of deletions that all succeed. -/
def deletionLog (names : List Str) : List AthenaEvent :=
  names.map fun name => ⟨.deleteWorkGroup name true, .ok ()⟩

theorem deletions_deletionLog (names : List Str) : deletions (deletionLog names) = names := by
  induction names with
  | nil => rfl
  | cons name names ih => exact congrArg (name :: ·) ih

theorem runs_deletionLog {names : List Str} {lists : List Str × List Str} :
    (names.foldlM deleteOne lists).Runs (deletionLog names) (.ok (lists.1 ++ names, lists.2)) := by
  induction names generalizing lists with
  | nil => simp [deletionLog]
  | cons name names ih =>
      have found : (deleteWorkgroup name).Runs [⟨.deleteWorkGroup name true, .ok ()⟩] (.ok true) :=
        runs_deleteWorkgroup.mpr (Or.inl ⟨rfl, rfl⟩)
      have first : (deleteOne lists name).Runs [⟨.deleteWorkGroup name true, .ok ()⟩]
          (.ok (lists.1 ++ [name], lists.2)) :=
        Program.runs_bind_ok.mpr ⟨true, _, [], (List.append_nil _).symm, found, rfl, rfl⟩
      rw [List.foldlM_cons]
      refine Program.runs_bind_ok.mpr ⟨_, _, deletionLog names, rfl, first, ?_⟩
      simpa using @ih (lists.1 ++ [name], lists.2)

end Deletions

section Environment

/-- A letter, a digit or an underscore. -/
def IsSegmentChr (c : Chr) : Prop := IsFieldChr c ∧ c ≠ dash

instance (c : Chr) : Decidable (IsSegmentChr c) := inferInstanceAs (Decidable (_ ∧ _))

/-- The fields of the namespace in the name of a workgroup. -/
structure Segments where
  product : Str
  region : Str
  env : Str
  envInstance : Str
  service : Str
  svcInstance : Str
  plain : ∀ field ∈ [product, region, env, envInstance, service, svcInstance],
    ∀ c ∈ field, IsSegmentChr c

/-- The fields in their order, with the word that ends every name of a workgroup. -/
def Segments.fields (segments : Segments) : List Str :=
  [segments.product, segments.region, segments.env, segments.envInstance, segments.service,
    segments.svcInstance, analyticsSegment]

/-- `<product>-<region>-<env>-<instance>-<service>-<svc_instance>-analytics`. -/
def Segments.workgroup (segments : Segments) : Str := joinDash segments.fields

/-- The name of a workgroup of the analytics service of the environment. -/
def Targets (env name : Str) : Prop :=
  ∃ segments : Segments, name = segments.workgroup ∧ segments.env = env ∧
    segments.service = analyticsSegment

/-- The cleanup of an environment deletes each workgroup of its analytics service once and no
other workgroup, tells the deleted ones from the absent ones, and raises any other error. -/
structure Confined (env : Str) (listed : List Str) (log : List AthenaEvent)
    (outcome : Except AthenaExc Evidence) : Prop where
  own : ∀ name ∈ deletions log, name ∈ listed ∧ Targets env name
  once : (deletions log).Nodup
  complete : ∀ evidence, outcome = .ok evidence →
    ∀ name ∈ listed, Targets env name → name ∈ deletions log
  reported : ∀ evidence, outcome = .ok evidence →
    evidence.deleted = deletedNames log ∧ evidence.alreadyAbsent = absentNames log
  raised : failures log = match outcome with
    | .ok _ => []
    | .error exc => [exc]

/-- Among the listed names the words are found together in no other name than one of a workgroup
of the analytics service of the environment. -/
structure Separated (env : Str) (listed : List Str) : Prop where
  /-- The text of the environment is in no name of another environment or service. -/
  formed : ∀ segments : Segments, segments.workgroup ∈ listed → Contains env segments.workgroup →
    segments.env = env ∧ segments.service = analyticsSegment
  /-- No name of another form has both words. -/
  foreign : ∀ name ∈ listed, (∀ segments : Segments, name ≠ segments.workgroup) →
    Contains analyticsSegment name → ¬Contains env name

namespace Segments

variable (segments : Segments)

theorem dash_not_mem : ∀ field ∈ segments.fields, dash ∉ field := by
  intro field fieldMem inField
  have cases : field ∈ [segments.product, segments.region, segments.env, segments.envInstance,
      segments.service, segments.svcInstance] ∨ field = analyticsSegment := by
    simpa [fields, or_assoc] using fieldMem
  rcases cases with named | rfl
  · exact (segments.plain field named dash inField).2 rfl
  · exact absurd inField (by decide)

theorem splitOn_workgroup : segments.workgroup.splitOn dash = segments.fields := by
  have nonempty : segments.fields ≠ [] := List.cons_ne_nil _ _
  rw [workgroup, splitOn_joinDash nonempty]
  have single : ∀ field ∈ segments.fields, field.splitOn dash = [field] := fun field fieldMem =>
    List.splitOn_eq_singleton (segments.dash_not_mem field fieldMem)
  rw [List.flatMap_congr single]
  simp

theorem workgroup_injective {left right : Segments} (same : left.workgroup = right.workgroup) :
    left.env = right.env ∧ left.service = right.service := by
  have fields_eq : left.fields = right.fields := by
    rw [← splitOn_workgroup, ← splitOn_workgroup, same]
  simp only [fields, List.cons.injEq] at fields_eq
  exact ⟨fields_eq.2.2.1, fields_eq.2.2.2.2.1⟩

/-- A field is in the joined text. -/
theorem contains_workgroup {field : Str} (fieldMem : field ∈ segments.fields) :
    Contains field segments.workgroup := by
  rw [workgroup]
  generalize segments.fields = all at fieldMem
  induction all with
  | nil => cases fieldMem
  | cons first rest ih =>
      cases rest with
      | nil =>
          rw [List.mem_singleton.mp fieldMem, joinDash_singleton]
          exact List.infix_rfl
      | cons second others =>
          rw [joinDash_cons_cons]
          rcases List.mem_cons.mp fieldMem with rfl | later
          · exact (List.prefix_append _ _).isInfix
          · refine (ih later).trans ?_
            exact ((List.suffix_cons dash _).trans (List.suffix_append first _)).isInfix

end Segments

theorem Targets.contains {env name : Str} (targets : Targets env name) :
    Contains analyticsSegment name ∧ Contains env name := by
  rcases targets with ⟨segments, rfl, rfl, _⟩
  refine ⟨segments.contains_workgroup ?_, segments.contains_workgroup ?_⟩
  · simp [Segments.fields]
  · simp [Segments.fields]

/-- The names that are selected are the ones to be deleted exactly when the words are found in no
other names. -/
theorem separated_iff_listed {env : Str} {listed : List Str} : Separated env listed ↔
    ∀ name ∈ listed, Contains analyticsSegment name → Contains env name → Targets env name := by
  constructor
  · intro separated name nameMem analytics own
    by_cases form : ∃ segments : Segments, name = segments.workgroup
    · rcases form with ⟨segments, rfl⟩
      exact ⟨segments, rfl, separated.formed segments nameMem own⟩
    · have foreign : ∀ segments : Segments, name ≠ segments.workgroup := fun segments same =>
        form ⟨segments, same⟩
      exact absurd own (separated.foreign name nameMem foreign analytics)
  · intro selected
    refine ⟨fun segments listedName own => ?_, fun name nameMem foreign analytics own => ?_⟩
    · have analytics : Contains analyticsSegment segments.workgroup :=
        segments.contains_workgroup (by simp [Segments.fields])
      rcases selected _ listedName analytics own with ⟨other, same, env_eq, service_eq⟩
      rcases Segments.workgroup_injective same with ⟨envs, services⟩
      exact ⟨envs.trans env_eq, services.trans service_eq⟩
    · rcases selected name nameMem analytics own with ⟨segments, same, _⟩
      exact foreign segments same

end Environment

section Cleanup

variable {env : Str} {pages : List ListResponse} {rounds : Nat} {log : List AthenaEvent}
  {outcome : Except AthenaExc Evidence}

/-- A cleanup behind its listing: the loop over the selected names. -/
theorem runs_cleanup (paginated : Paginated pages) (enough : pages.length ≤ rounds)
    (ran : (cleanup rounds env).Runs (listingLog none pages ++ log) outcome) :
    let discovered := (listedNames pages).foldl (collect env) []
    (∃ lists, Handled discovered log lists ∧
      outcome = .ok ⟨env, discovered, lists.1, lists.2⟩) ∨
      ∃ exc, deletions log <+: discovered ∧ failures log = [exc] ∧ outcome = .error exc := by
  intro discovered
  rw [cleanup, runs_discover paginated enough] at ran
  rcases Program.runs_bind.mp ran with ⟨error, rfl, stopped⟩ | ⟨lists, first, rest, rfl, all, ran⟩
  · rcases runs_deleteAll stopped with ⟨_, _, impossible⟩ | ⟨exc, requested, failed, same⟩
    · cases impossible
    · cases same
      exact Or.inr ⟨error, requested, failed, rfl⟩
  · rcases runs_deleteAll all with ⟨_, handled, same⟩ | ⟨_, _, _, impossible⟩
    · cases same
      rcases ran with ⟨rfl, rfl⟩
      rw [List.append_nil]
      exact Or.inl ⟨lists, handled, rfl⟩
    · cases impossible

/-- A client with the listing that deletes every workgroup it is asked to. -/
theorem exists_run_cleanup (env : Str) (paginated : Paginated pages)
    (enough : pages.length ≤ rounds) :
    ∃ log evidence, (cleanup rounds env).Runs (listingLog none pages ++ log) (.ok evidence) ∧
      deletions log = (listedNames pages).foldl (collect env) [] := by
  let discovered := (listedNames pages).foldl (collect env) []
  refine ⟨deletionLog discovered, ⟨env, discovered, [] ++ discovered, []⟩, ?_,
    deletions_deletionLog discovered⟩
  rw [cleanup, runs_discover paginated enough]
  have all : (discovered.foldlM deleteOne ([], [])).Runs (deletionLog discovered)
      (.ok ([] ++ discovered, [])) := runs_deletionLog
  exact Program.runs_bind_ok.mpr ⟨_, _, [], (List.append_nil _).symm, all, rfl, rfl⟩

/--
Whatever the pages of a listing name, and however the deletions go: the cleanup deletes each
workgroup of the analytics service of its environment once and no other one, counts those that
are gone and raises any other error, exactly when no other listed name has the two words.
-/
theorem cleanup_confined_iff (paginated : Paginated pages) (enough : pages.length ≤ rounds) :
    (∀ log outcome, (cleanup rounds env).Runs (listingLog none pages ++ log) outcome →
      Confined env (listedNames pages) log outcome) ↔ Separated env (listedNames pages) := by
  have collected : ((listedNames pages).foldl (collect env) []).Nodup ∧ _ :=
    foldl_collect List.nodup_nil
  rcases collected with ⟨distinct, selected⟩
  rw [separated_iff_listed]
  constructor
  · intro confined name nameMem analytics own
    rcases exists_run_cleanup env paginated enough with ⟨log, evidence, ran, requested⟩
    have discovered : name ∈ deletions log := by
      rw [requested, selected]
      exact Or.inr ⟨nameMem, analytics, own⟩
    exact ((confined log _ ran).own name discovered).2
  · intro only log outcome ran
    have own : ∀ name ∈ (listedNames pages).foldl (collect env) [],
        name ∈ listedNames pages ∧ Targets env name := by
      intro name nameMem
      rcases (selected name).mp nameMem with impossible | ⟨nameMem, analytics, own⟩
      · cases impossible
      · exact ⟨nameMem, only name nameMem analytics own⟩
    rcases runs_cleanup paginated enough ran with
      ⟨lists, handled, rfl⟩ | ⟨exc, requested, failed, rfl⟩
    · refine ⟨?_, ?_, ?_, ?_, handled.clean⟩
      · rw [handled.requested]
        exact own
      · rw [handled.requested]
        exact distinct
      · intro evidence _ name nameMem targets
        rw [handled.requested, selected]
        exact Or.inr ⟨nameMem, targets.contains⟩
      · intro evidence same
        cases same
        exact ⟨handled.deleted.symm, handled.absent.symm⟩
    · refine ⟨fun name nameMem => own name (requested.subset nameMem), ?_, ?_, ?_, failed⟩
      · exact distinct.sublist requested.sublist
      · intro evidence impossible
        cases impossible
      · intro evidence impossible
        cases impossible

namespace Sample

def sandbox : Str := str "sandbox"

/-- The workgroup of an instance of a service of an environment. -/
def segments (env service svcInstance : Str)
    (plain : ∀ field ∈ [env, service, svcInstance], ∀ c ∈ field, IsSegmentChr c) : Segments where
  product := str "telemetry"
  region := str "useast1"
  env := env
  envInstance := str "shared"
  service := service
  svcInstance := svcInstance
  plain := by
    have known : ∀ field ∈ [str "telemetry", str "useast1", str "shared"], ∀ c ∈ field,
        IsSegmentChr c := by decide
    intro field fieldMem
    simp only [List.mem_cons, List.not_mem_nil, or_false] at fieldMem
    rcases fieldMem with rfl | rfl | rfl | rfl | rfl | rfl
    · exact known _ (by simp)
    · exact known _ (by simp)
    · exact plain _ (by simp)
    · exact known _ (by simp)
    · exact plain _ (by simp)
    · exact plain _ (by simp)

def analytics : Segments := segments sandbox analyticsSegment (str "000") (by decide)

def otherAnalytics : Segments := segments sandbox analyticsSegment (str "001") (by decide)

def qaAnalytics : Segments := segments (str "qa") analyticsSegment (str "000") (by decide)

def ingestion : Segments := segments sandbox (str "ingestion") (str "000") (by decide)

/-- One page with one name. -/
def page (name : Str) : ListResponse := ⟨some [⟨some name⟩], none⟩

theorem paginated (name : Str) : Paginated [page name] := by
  apply Paginated.last
  rintro ⟨_, _, impossible⟩
  cases impossible

/-- Two pages: of the sandbox and another environment, and with a name of another form. -/
def twoPages : List ListResponse :=
  [⟨some [⟨some analytics.workgroup⟩, ⟨some qaAnalytics.workgroup⟩], some (str "page-2")⟩,
    ⟨some [⟨some (str "primary")⟩, ⟨some otherAnalytics.workgroup⟩], none⟩]

def refusal : AthenaExc := .client (some (str "AccessDeniedException")) none

/-- The deletion of the second workgroup is refused. -/
def refusedLog : List AthenaEvent :=
  [⟨.deleteWorkGroup analytics.workgroup true, .ok ()⟩,
    ⟨.deleteWorkGroup otherAnalytics.workgroup true, .error refusal⟩]

theorem paginated_twoPages : Paginated twoPages := by
  refine Paginated.page ⟨Chr.char 'p', _, rfl⟩ (Paginated.last ?_)
  rintro ⟨_, _, impossible⟩
  cases impossible

theorem separated_twoPages : Separated sandbox (listedNames twoPages) := by
  apply separated_iff_listed.mpr
  intro name nameMem _ own
  have names : listedNames twoPages = [analytics.workgroup, qaAnalytics.workgroup, str "primary",
      otherAnalytics.workgroup] := rfl
  rw [names] at nameMem
  simp only [List.mem_cons, List.not_mem_nil, or_false] at nameMem
  rcases nameMem with rfl | rfl | rfl | rfl
  · exact ⟨analytics, rfl, rfl, rfl⟩
  · exact absurd own (by decide +kernel)
  · exact absurd own (by decide +kernel)
  · exact ⟨otherAnalytics, rfl, rfl, rfl⟩

theorem runs_refusedLog : (cleanup 2 sandbox).Runs (listingLog none twoPages ++ refusedLog)
    (.error refusal) := by
  have discovered : (listedNames twoPages).foldl (collect sandbox) [] =
      [analytics.workgroup, otherAnalytics.workgroup] := by decide +kernel
  rw [cleanup, runs_discover paginated_twoPages (Nat.le_refl 2), discovered]
  exact ⟨_, _, rfl, _, _, rfl, rfl, rfl⟩

end Sample

/-- The cleanup of the sandbox stays inside it, and raises the refusal. -/
theorem cleanup_confined_refused :
    Confined Sample.sandbox (listedNames Sample.twoPages)
        Sample.refusedLog (.error Sample.refusal) ∧
      ∀ log outcome, (cleanup 2 Sample.sandbox).Runs (listingLog none Sample.twoPages ++ log)
        outcome → Confined Sample.sandbox (listedNames Sample.twoPages) log outcome := by
  have confined := (cleanup_confined_iff Sample.paginated_twoPages (Nat.le_refl 2)).mpr
    Sample.separated_twoPages
  exact ⟨confined _ _ Sample.runs_refusedLog, confined⟩

/-- The cleanup of the sandbox deletes the workgroup of its ingestion service, too. -/
theorem not_confined_ingestion : ∃ log outcome,
    (cleanup 1 Sample.sandbox).Runs
      (listingLog none [Sample.page Sample.ingestion.workgroup] ++ log) outcome ∧
    ¬Confined Sample.sandbox (listedNames [Sample.page Sample.ingestion.workgroup]) log
      outcome := by
  rcases exists_run_cleanup Sample.sandbox (Sample.paginated Sample.ingestion.workgroup)
    Nat.le.refl with ⟨log, evidence, ran, requested⟩
  refine ⟨log, _, ran, fun confined => ?_⟩
  have deleted : Sample.ingestion.workgroup ∈ deletions log := by
    rw [requested]
    decide +kernel
  rcases (confined.own _ deleted).2 with ⟨other, same, _, service⟩
  rw [← (Segments.workgroup_injective same).2] at service
  exact absurd service (by decide)

end Cleanup

end AthenaCleanup
