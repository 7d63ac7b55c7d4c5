import TelemetryPlatform.Sweep.DeleteMode

/-!
# The delegation of a deleted zone

After the zone of a test, the sweep deletes the NS record that delegates to it from the
zone of a parent domain. It takes the first zone that could hold such a record, and a
zone of the same name passes for one. `onlyDelegation_iff` says when the record it
deletes is the delegation.
-/

namespace Sweep

open Python Interaction

section Names

def dot : Chr := .char '.'

/-- A domain name by its labels. -/
structure DomainName where
  labels : List Str
  nonempty : labels ≠ []
  plain : ∀ label ∈ labels, dot ∉ label

/-- The name with the trailing dot. -/
def dotted (labels : List Str) : Str := labels.flatMap fun label => label ++ [dot]

def DomainName.text (name : DomainName) : Str := dotted name.labels

/-- The first name lies above the second. -/
def DomainName.StrictlyAbove (parent child : DomainName) : Prop :=
  ∃ front, front ≠ [] ∧ child.labels = front ++ parent.labels

theorem splitOn_dotted {labels : List Str} (plain : ∀ label ∈ labels, dot ∉ label) :
    (dotted labels).splitOn dot = labels ++ [[]] := by
  induction labels with
  | nil => rfl
  | cons label labels ih =>
      have rest := ih fun other otherMem => plain other (List.mem_cons_of_mem label otherMem)
      rw [dotted, List.flatMap_cons, List.append_assoc, List.singleton_append,
        List.splitOn_append_cons_self_of_not_mem (plain label List.mem_cons_self), ← dotted, rest,
        List.cons_append]

theorem DomainName.labels_eq_of_text {first second : DomainName} (same : first.text = second.text) :
    first.labels = second.labels := by
  have split := congrArg (List.splitOn dot) same
  rw [DomainName.text, splitOn_dotted first.plain, DomainName.text,
    splitOn_dotted second.plain] at split
  exact List.append_cancel_right split

theorem DomainName.text_inj {first second : DomainName} :
    first.text = second.text ↔ first = second := by
  constructor
  · intro same
    have labels := DomainName.labels_eq_of_text same
    cases first
    cases second
    cases labels
    rfl
  · rintro rfl
    rfl

/-- A name ends with a dot and another exactly when the other lies above it. -/
theorem isSuffixOf_text {parent child : DomainName} :
    (str "." ++ parent.text).isSuffixOf child.text = true ↔ parent.StrictlyAbove child := by
  rw [List.isSuffixOf_iff_suffix]
  constructor
  · rintro ⟨front, joined⟩
    refine ⟨front.splitOn dot, List.splitOn_ne_nil _ _, ?_⟩
    have split := congrArg (List.splitOn dot) joined
    have cut : front ++ (str "." ++ parent.text) = front ++ dot :: parent.text := rfl
    rw [cut, List.splitOn_append_cons_self, DomainName.text, splitOn_dotted parent.plain,
      DomainName.text, splitOn_dotted child.plain, ← List.append_assoc] at split
    exact (List.append_cancel_right split).symm
  · rintro ⟨front, nonempty, labels⟩
    rcases (List.eq_nil_or_concat front).resolve_left nonempty with ⟨front, last, rfl⟩
    refine ⟨dotted front ++ last, ?_⟩
    rw [DomainName.text, DomainName.text, labels]
    simp [dotted, dot, str]

/-- A name does not lie above itself. -/
theorem DomainName.not_strictlyAbove_self (name : DomainName) : ¬name.StrictlyAbove name := by
  rintro ⟨front, nonempty, labels⟩
  exact nonempty (List.self_eq_append_left.mp labels)

end Names

section Specification

/-- A hosted zone with the bare id of the requests about it. -/
structure Zone where
  hosted : HostedZone
  name : DomainName
  named : hosted.name = name.text

def Zone.bareId (zone : Zone) : Str := afterLast slash zone.hosted.id

/-- The zones of an account, in the order of the listing, and the record sets of each. -/
structure Hosting where
  zones : List Zone
  records : Str → List RecordSet
  distinct : (zones.map Zone.bareId).Nodup

/-- A listing of one record set from the NS record of a name: that record, when there is one. -/
structure StartsAt (records : List RecordSet) (zoneName : Str) (listed : List RecordSet) :
    Prop where
  within : listed ⊆ records
  found : ∀ recordSet ∈ records, isDelegation zoneName recordSet = true →
    ∃ other ∈ listed, isDelegation zoneName other = true

/-- The listings are answered with what is hosted. -/
def Answered (hosting : Hosting) (log : List SweepEvent) : Prop :=
  (∀ reply, ⟨.api .listHostedZones, reply⟩ ∈ log →
      ∃ pages, reply = .ok pages ∧ pages.flatten = hosting.zones.map Zone.hosted) ∧
    ∀ id zoneName reply, ⟨.api (.listResourceRecordSets id (some (zoneName, str "NS"))),
      reply⟩ ∈ log →
      ∃ listed, reply = .ok listed ∧ StartsAt (hosting.records id) zoneName listed

/-- What the log asks to delete, by zone. -/
def deletionsOf (log : List SweepEvent) : List (Str × List RecordSet) :=
  log.filterMap fun event => match event.request with
    | .api (.changeResourceRecordSets id deleted) => some (id, deleted)
    | _ => none

variable (hosting : Hosting) (childZoneId : Str) (apex : DomainName)

/-- A zone other than the deleted one. -/
def Zone.Other (zone : Zone) : Prop := zone.bareId ≠ afterLast slash childZoneId

def Zone.Parent (zone : Zone) : Prop :=
  zone.Other childZoneId ∧ zone.name.StrictlyAbove apex

/-- A zone has an NS record for the apex. -/
def Zone.Delegates (zone : Zone) : Prop :=
  ∃ recordSet ∈ hosting.records zone.bareId, isDelegation apex.text recordSet = true

/-- At most one record is deleted, the NS record of the apex in a zone above it, which is no zone's
own; and it is deleted when the first zone above the apex has it. -/
structure OnlyDelegation (deletions : List (Str × List RecordSet)) : Prop where
  single : deletions.length ≤ 1
  delegation : ∀ deletion ∈ deletions, ∃ zone ∈ hosting.zones,
    ∃ recordSet ∈ hosting.records zone.bareId, deletion = (zone.bareId, [recordSet]) ∧
      isDelegation apex.text recordSet = true ∧ zone.name.StrictlyAbove apex
  spared : ∀ deletion ∈ deletions, ∀ zone ∈ hosting.zones, deletion.1 = zone.bareId →
    ∀ recordSet ∈ deletion.2, isDelegation zone.name.text recordSet = false
  found : ∀ before parent after, hosting.zones = before ++ parent :: after →
    parent.Parent childZoneId apex → (∀ zone ∈ before, ¬zone.Parent childZoneId apex) →
    parent.Delegates hosting apex →
    ∃ recordSet ∈ hosting.records parent.bareId, isDelegation apex.text recordSet = true ∧
      deletions = [(parent.bareId, [recordSet])]

/-- Before another zone of the apex that has its NS record comes a zone above with the
delegation. -/
def TwinsComeLater : Prop :=
  ∀ before twin after, hosting.zones = before ++ twin :: after → twin.Other childZoneId →
    twin.name = apex → twin.Delegates hosting apex →
    ∃ zone ∈ before, zone.Parent childZoneId apex ∧ zone.Delegates hosting apex

end Specification

section Search

variable {hosting : Hosting} {childZoneId : Str} {apex : DomainName} {log : List SweepEvent}

/-- The zones the search looks into. -/
def Zone.Candidate (childZoneId : Str) (apex : DomainName) (zone : Zone) : Prop :=
  zone.Other childZoneId ∧ (zone.name.StrictlyAbove apex ∨ zone.name = apex)

theorem parentId?_eq (zone : Zone) (id : Str) :
    parentId? childZoneId apex.text zone.hosted = some id ↔
      zone.Candidate childZoneId apex ∧ id = zone.bareId := by
  have above : ((str "." ++ zone.hosted.name).isSuffixOf apex.text = true ∨
      apex.text = zone.hosted.name) ↔ zone.name.StrictlyAbove apex ∨ zone.name = apex := by
    rw [zone.named, isSuffixOf_text, DomainName.text_inj, eq_comm (a := apex)]
  simp only [parentId?, Zone.Candidate, Zone.Other, Zone.bareId]
  split
  · next same => simp only [same, reduceCtorEq, ne_eq, not_true_eq_false, false_and]
  · next other =>
      split
      · next holds =>
          rw [Option.some.injEq, and_iff_right ⟨other, above.mp holds⟩]
          exact eq_comm
      · next fails => simp only [mt above.mpr fails, reduceCtorEq, and_false, false_and]

/-- What the search deletes: the record of the first candidate that has one. -/
def FirstHit (hosting : Hosting) (childZoneId : Str) (apex : DomainName) (zones : List Zone)
    (deletions : List (Str × List RecordSet)) : Prop :=
  (deletions = [] ∧ ∀ zone ∈ zones, zone.Candidate childZoneId apex →
      ¬zone.Delegates hosting apex) ∨
    ∃ before hit after recordSet, zones = before ++ hit :: after ∧
      (∀ zone ∈ before, zone.Candidate childZoneId apex → ¬zone.Delegates hosting apex) ∧
      hit.Candidate childZoneId apex ∧ recordSet ∈ hosting.records hit.bareId ∧
      isDelegation apex.text recordSet = true ∧ deletions = [(hit.bareId, [recordSet])]

theorem FirstHit.cons {zone : Zone} {zones : List Zone} {deletions : List (Str × List RecordSet)}
    (rest : FirstHit hosting childZoneId apex zones deletions)
    (miss : zone.Candidate childZoneId apex → ¬zone.Delegates hosting apex) :
    FirstHit hosting childZoneId apex (zone :: zones) deletions := by
  rcases rest with ⟨none, misses⟩ | ⟨before, hit, after, recordSet, rfl, misses, found⟩
  · exact Or.inl ⟨none, List.forall_mem_cons.mpr ⟨miss, misses⟩⟩
  · exact Or.inr ⟨zone :: before, hit, after, recordSet, rfl,
      List.forall_mem_cons.mpr ⟨miss, misses⟩, found⟩

theorem deletionsOf_append (first second : List SweepEvent) :
    deletionsOf (first ++ second) = deletionsOf first ++ deletionsOf second :=
  List.filterMap_append

/-- A call that is answered has its reply in the log, and the run goes on. -/
theorem runs_api_bind {α : Type} {call : ApiCall} {next : Response call → Aws α}
    {outcome : Except Raised α} (ran : (api call >>= next).Runs log outcome) :
    ∃ reply rest, log = ⟨.api call, reply⟩ :: rest ∧
      (∀ response, reply = .ok response → (next response).Runs rest outcome) ∧
      ∀ fault, reply = .error fault → rest = [] := by
  rcases ran with ⟨reply, rest, rfl, answered⟩
  refine ⟨reply, rest, rfl, ?_, ?_⟩
  · rintro response rfl
    exact answered
  · rintro fault rfl
    exact answered.1

theorem runs_deleteDelegation {zones : List Zone} {outcome : Except Raised Bool}
    (ran : (deleteDelegation childZoneId apex.text (zones.map Zone.hosted)).Runs log outcome)
    (answered : Answered hosting log) :
    FirstHit hosting childZoneId apex zones (deletionsOf log) := by
  induction zones generalizing log with
  | nil =>
      rcases ran with ⟨rfl, -⟩
      exact Or.inl ⟨rfl, nofun⟩
  | cons zone zones ih =>
      rw [List.map_cons, deleteDelegation] at ran
      cases parent : parentId? childZoneId apex.text zone.hosted with
      | none =>
          rw [parent] at ran
          apply (ih ran answered).cons
          intro candidate
          have isParent := (parentId?_eq zone zone.bareId).mpr ⟨candidate, rfl⟩
          rw [parent] at isParent
          cases isParent
      | some parentId =>
          rcases (parentId?_eq zone parentId).mp parent with ⟨candidate, rfl⟩
          rw [parent] at ran
          rcases runs_api_bind ran with ⟨reply, rest, rfl, ran, -⟩
          rcases answered.2 _ _ reply List.mem_cons_self with ⟨listed, rfl, starts⟩
          have continued := ran listed rfl
          have later : Answered hosting rest :=
            ⟨fun reply replyMem => answered.1 reply (List.mem_cons_of_mem _ replyMem),
              fun id zoneName reply replyMem =>
                answered.2 id zoneName reply (List.mem_cons_of_mem _ replyMem)⟩
          cases first : listed.find? (isDelegation apex.text) with
          | none =>
              rw [first] at continued
              apply (ih continued later).cons
              rintro - ⟨recordSet, recordSetMem, isNs⟩
              rcases starts.found recordSet recordSetMem isNs with ⟨other, otherMem, isNs'⟩
              exact List.find?_eq_none.mp first other otherMem isNs'
          | some recordSet =>
              rw [first] at continued
              refine Or.inr ⟨[], zone, zones, recordSet, rfl, nofun, candidate,
                starts.within (List.mem_of_find?_eq_some first), List.find?_some first, ?_⟩
              rcases runs_api_bind continued with ⟨reply, rest, rfl, ended, failed⟩
              have none : deletionsOf rest = [] := by
                cases reply with
                | ok response =>
                    rcases ended response rfl with ⟨rfl, -⟩
                    rfl
                | error fault => rw [failed fault rfl]; rfl
              calc
                _ = (zone.bareId, [recordSet]) :: deletionsOf rest := rfl
                _ = [(zone.bareId, [recordSet])] := by rw [none]

theorem runs_deleteParentDelegation {outcome : Except Raised Unit}
    (ran : (deleteParentDelegation childZoneId apex.text).Runs log outcome)
    (answered : Answered hosting log) :
    FirstHit hosting childZoneId apex hosting.zones (deletionsOf log) := by
  rw [deleteParentDelegation] at ran
  rcases runs_api_bind ran with ⟨reply, rest, rfl, ran, -⟩
  rcases answered.1 reply List.mem_cons_self with ⟨pages, rfl, listed⟩
  have searched := ran pages rfl
  rw [listed] at searched
  have later {first second : List SweepEvent} (rest_eq : rest = first ++ second) :
      Answered hosting first := by
    refine ⟨?_, ?_⟩
    · intro reply replyMem
      exact answered.1 reply (by simp [rest_eq, replyMem])
    · intro id zoneName reply replyMem
      exact answered.2 id zoneName reply (by simp [rest_eq, replyMem])
  have quiet : deletionsOf (⟨.api .listHostedZones, .ok pages⟩ :: rest) = deletionsOf rest := rfl
  rw [quiet]
  rcases Program.runs_bind.mp searched with
    ⟨error, -, stopped⟩ | ⟨done, first, second, rest_eq, found, ended⟩
  · exact runs_deleteDelegation stopped (later (List.append_nil rest).symm)
  · have none : deletionsOf second = [] := by
      cases done with
      | true =>
          rcases ended with ⟨rfl, -⟩
          rfl
      | false =>
          rcases ended with ⟨reply, last, rfl, finished⟩
          rcases Program.runs_ofExcept.mp finished with ⟨rfl, -⟩
          rfl
    rw [rest_eq, deletionsOf_append, none, List.append_nil]
    exact runs_deleteDelegation found (later rest_eq)

end Search

section Decision

variable {hosting : Hosting} {childZoneId : Str} {apex : DomainName} {log : List SweepEvent}

/-- Two places in a list: one lies before the other, or they are one. -/
theorem mem_or_mem_of_split {α : Type} {before after first last : List α} {hit other : α}
    (same : before ++ hit :: after = first ++ other :: last) :
    other ∈ before ∨ hit ∈ first ∨ hit = other := by
  rcases List.append_eq_append_iff.mp same with ⟨middle, rfl, rest⟩ | ⟨middle, rfl, rest⟩
  · cases middle with
    | nil => exact Or.inr (Or.inr (List.cons.inj rest).1)
    | cons _ middle =>
        rw [(List.cons.inj rest).1]
        exact Or.inr (Or.inl (by simp))
  · cases middle with
    | nil => exact Or.inr (Or.inr (List.cons.inj rest).1.symm)
    | cons _ middle =>
        rw [(List.cons.inj rest).1]
        exact Or.inl (by simp)

/-- Zones with one id are one zone. -/
theorem Hosting.eq_of_bareId {zone other : Zone} (zoneMem : zone ∈ hosting.zones)
    (otherMem : other ∈ hosting.zones) (same : zone.bareId = other.bareId) : zone = other :=
  List.inj_on_of_nodup_map hosting.distinct zoneMem otherMem same

/-- What the search hits first decides whether only the delegation is deleted. -/
theorem FirstHit.deletes_iff {deletions : List (Str × List RecordSet)}
    (hit : FirstHit hosting childZoneId apex hosting.zones deletions) :
    OnlyDelegation hosting childZoneId apex deletions ↔
      TwinsComeLater hosting childZoneId apex := by
  rcases hit with ⟨rfl, misses⟩ | ⟨before, hit, after, recordSet, zones, misses, candidate,
    held, isNs, rfl⟩
  · apply iff_of_true
    · refine ⟨Nat.zero_le 1, nofun, nofun, ?_⟩
      intro before parent after zones isParent _ delegates
      exact absurd delegates
        (misses parent (by simp [zones]) ⟨isParent.1, Or.inl isParent.2⟩)
    · intro before twin after zones other same delegates
      exact absurd delegates (misses twin (by simp [zones]) ⟨other, Or.inr same⟩)
  · have hitMem : hit ∈ hosting.zones := by simp [zones]
    have delegates : hit.Delegates hosting apex := ⟨recordSet, held, isNs⟩
    by_cases twin : hit.name = apex
    · apply iff_of_false
      · intro only
        rcases only.delegation _ (List.mem_singleton_self _) with
          ⟨zone, zoneMem, _, _, deletion, -, above⟩
        have same := Hosting.eq_of_bareId hitMem zoneMem (congrArg Prod.fst deletion)
        rw [← same, twin] at above
        exact apex.not_strictlyAbove_self above
      · intro later
        rcases later before hit after zones candidate.1 twin delegates with
          ⟨zone, zoneMem, isParent, delegates⟩
        exact misses zone zoneMem ⟨isParent.1, Or.inl isParent.2⟩ delegates
    · have above := candidate.2.resolve_right twin
      apply iff_of_true
      · refine ⟨Nat.le_refl 1, ?_, ?_, ?_⟩
        · intro deletion deletionMem
          rw [List.mem_singleton.mp deletionMem]
          exact ⟨hit, hitMem, recordSet, held, rfl, isNs, above⟩
        · intro deletion deletionMem zone zoneMem same other otherMem
          rw [List.mem_singleton.mp deletionMem] at same otherMem
          have isHit := Hosting.eq_of_bareId hitMem zoneMem same
          rw [List.mem_singleton.mp otherMem, ← isHit]
          simp only [isDelegation, Bool.and_eq_true, decide_eq_true_eq] at isNs
          have differs : apex.text ≠ hit.name.text := fun equal =>
            twin (DomainName.text_inj.mp equal.symm)
          simp only [isDelegation, isNs.1, differs, decide_false, Bool.false_and]
        · intro first parent last zones' isParent earliest delegates'
          rw [zones] at zones'
          rcases mem_or_mem_of_split zones' with inBefore | inFirst | rfl
          · exact absurd delegates' (misses parent inBefore ⟨isParent.1, Or.inl isParent.2⟩)
          · exact absurd ⟨candidate.1, above⟩ (earliest hit inFirst)
          · exact ⟨recordSet, held, isNs, rfl⟩
      · intro first other last zones' isOther same delegates'
        rw [zones] at zones'
        rcases mem_or_mem_of_split zones' with inBefore | inFirst | rfl
        · exact absurd delegates' (misses other inBefore ⟨isOther, Or.inr same⟩)
        · exact ⟨hit, inFirst, ⟨candidate.1, above⟩, delegates⟩
        · exact absurd same twin

/-- The record the sweep deletes is the delegation exactly when no other zone of the apex with its
NS record is listed before every zone above that has the delegation. -/
theorem onlyDelegation_iff {outcome : Except Raised Unit}
    (ran : (deleteParentDelegation childZoneId apex.text).Runs log outcome)
    (answered : Answered hosting log) :
    OnlyDelegation hosting childZoneId apex (deletionsOf log) ↔
      TwinsComeLater hosting childZoneId apex :=
  (runs_deleteParentDelegation ran answered).deletes_iff

end Decision

section Sample

def qaName : DomainName := ⟨[str "qa", str "example"], by decide, by decide⟩

def runName : DomainName := ⟨[str "run", str "qa", str "example"], by decide, by decide⟩

def qaZone : Zone := ⟨⟨str "/hostedzone/Z1", str "qa.example."⟩, qaName, by decide⟩

/-- A private zone of the name of the public one that was deleted. -/
def twinZone : Zone := ⟨⟨str "/hostedzone/Z2", str "run.qa.example."⟩, runName, by decide⟩

def runNs : RecordSet := ⟨str "run.qa.example.", str "NS", [str "ns-1.example."]⟩

def parentFirst : Hosting := ⟨[qaZone, twinZone], fun _ => [runNs], by decide⟩

def twinFirst : Hosting := ⟨[twinZone, qaZone], fun _ => [runNs], by decide⟩

/-- A search that ends at the first zone of the listing. -/
def delegationLog (hosting : Hosting) (zone : Zone) : List SweepEvent :=
  [⟨.api .listHostedZones, .ok [hosting.zones.map Zone.hosted]⟩,
    ⟨.api (.listResourceRecordSets zone.bareId (some (runName.text, str "NS"))), .ok [runNs]⟩,
    ⟨.api (.changeResourceRecordSets zone.bareId [runNs]), .ok ()⟩]

theorem answered_delegationLog {hosting : Hosting} (zone : Zone)
    (records : hosting.records = fun _ => [runNs]) :
    Answered hosting (delegationLog hosting zone) := by
  refine ⟨?_, ?_⟩
  · intro reply replyMem
    simp only [delegationLog, List.mem_cons, List.not_mem_nil, or_false] at replyMem
    rcases replyMem with same | same | same
    · cases same
      exact ⟨_, rfl, by simp⟩
    · cases same
    · cases same
  · intro id zoneName reply replyMem
    simp only [delegationLog, List.mem_cons, List.not_mem_nil, or_false] at replyMem
    rcases replyMem with same | same | same
    · cases same
    · cases same
      refine ⟨_, rfl, ?_⟩
      rw [records]
      exact ⟨fun _ recordSetMem => recordSetMem,
        fun recordSet recordSetMem isNs => ⟨recordSet, recordSetMem, isNs⟩⟩
    · cases same

theorem runs_delegationLog {hosting : Hosting} {zone : Zone} {zones : List Zone}
    (listed : hosting.zones = zone :: zones)
    (candidate : parentId? (str "Z3") runName.text zone.hosted = some zone.bareId) :
    (deleteParentDelegation (str "Z3") runName.text).Runs (delegationLog hosting zone)
    (.ok ()) := by
  have isNs : isDelegation runName.text runNs = true := by decide
  have searched : (deleteDelegation (str "Z3") runName.text
      ([hosting.zones.map Zone.hosted].flatten)).Runs
        [⟨.api (.listResourceRecordSets zone.bareId (some (runName.text, str "NS"))), .ok [runNs]⟩,
          ⟨.api (.changeResourceRecordSets zone.bareId [runNs]), .ok ()⟩] (.ok true) := by
    rw [List.flatten_singleton, listed, List.map_cons, deleteDelegation, candidate]
    refine Program.runs_bind_ok.mpr ⟨_, _, _, rfl,
      runs_api_answer (.listResourceRecordSets zone.bareId (some (runName.text, str "NS"))) [runNs],
      ?_⟩
    rw [List.find?_cons_of_pos isNs]
    exact Program.runs_bind_ok.mpr ⟨_, _, [], rfl,
      runs_api_answer (.changeResourceRecordSets zone.bareId [runNs]) (), rfl, rfl⟩
  rw [deleteParentDelegation]
  refine Program.runs_bind_ok.mpr ⟨_, _, _, rfl,
    runs_api_answer .listHostedZones [hosting.zones.map Zone.hosted], ?_⟩
  exact Program.runs_bind_ok.mpr ⟨true, _, [], (List.append_nil _).symm, searched, rfl, rfl⟩

/-- With the parent listed first its delegation is what is deleted. -/
theorem onlyDelegation_parentFirst : OnlyDelegation parentFirst (str "Z3") runName
    (deletionsOf (delegationLog parentFirst qaZone)) := by
  have ran : (deleteParentDelegation (str "Z3") runName.text).Runs
      (delegationLog parentFirst qaZone) (.ok ()) := runs_delegationLog rfl (by decide)
  apply (onlyDelegation_iff ran (answered_delegationLog qaZone rfl)).mpr
  intro before twin after zones other same delegates
  have apart : qaZone.bareId ≠ afterLast slash (str "Z3") := by decide
  have isParent : qaZone.Parent (str "Z3") runName :=
    ⟨apart, [str "run"], List.cons_ne_nil _ _, rfl⟩
  have differs : qaName.labels.length ≠ runName.labels.length := by decide
  cases before with
  | nil =>
      rw [← (List.cons.inj zones).1] at same
      exact absurd (congrArg (fun name => name.labels.length) same) differs
  | cons first before =>
      rw [← (List.cons.inj zones).1]
      exact ⟨qaZone, List.mem_cons_self, isParent, runNs, List.mem_singleton_self _, by decide⟩

/-- With a zone of the same name listed first its own NS record is deleted. -/
theorem not_onlyDelegation_twinFirst :
    (deleteParentDelegation (str "Z3") runName.text).Runs (delegationLog twinFirst twinZone)
        (.ok ()) ∧
      Answered twinFirst (delegationLog twinFirst twinZone) ∧
      ¬OnlyDelegation twinFirst (str "Z3") runName
        (deletionsOf (delegationLog twinFirst twinZone)) := by
  refine ⟨runs_delegationLog rfl (by decide), answered_delegationLog twinZone rfl, ?_⟩
  intro only
  have spared := only.spared (twinZone.bareId, [runNs]) (List.mem_singleton_self _) twinZone
    List.mem_cons_self rfl runNs (List.mem_singleton_self _)
  exact absurd spared (by decide)

end Sample

end Sweep
