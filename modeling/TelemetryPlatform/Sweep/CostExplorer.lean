import TelemetryPlatform.Library.Numeral
import TelemetryPlatform.Sweep.DeleteMode

/-!
# Fixtures in Cost Explorer

The sweep of the anomaly monitors and subscriptions goes by names. The tests name
what they create after the second they run in, or after their run; only the first
kind of name tells the age. `sweepCe_fair_iff` says for which listings and replies the
sweep spares what a test in flight uses, and nothing that is old.
-/

namespace Sweep

open Python Interaction

section Specification

/-- How the tests name what they create in Cost Explorer. -/
structure CeNaming where
  stamp : Str
  tail : Str

def subscriptionNaming : CeNaming := ⟨str "test-sub-", str "-subscription"⟩

def monitorNaming : CeNaming := ⟨str "test-monitor-", str "-monitor"⟩

/-- The names the tests give: `test-monitor-<epoch>` or `<name>-<run suffix>-monitor`. -/
inductive FixtureName (naming : CeNaming) : Str → Prop
  | stamped (epoch : Nat) : FixtureName naming (naming.stamp ++ numeral epoch)
  | suffixed (base runSuffix : Str) (length_eq : runSuffix.length = 6) :
      FixtureName naming (base ++ str "-" ++ runSuffix ++ naming.tail)

/-- Which items tests created, and when an item was created. The epoch in a name of the first
kind is its creation. -/
structure Provenance (naming : CeNaming) where
  isFixture : CeItem → Prop
  created : CeItem → Nat
  named : ∀ item, isFixture item → FixtureName naming item.name
  stamped : ∀ item (epoch : Nat), item.name = naming.stamp ++ numeral epoch →
    created item = epochSeconds + epoch

/-- The action a report has for an attempt: `failed` unless it succeeded or there was nothing to
delete. -/
def attemptAction : Option Fault → Action
  | none => .deleted
  | some (.client code) => if isBenignNotFound code then .alreadyGone else .failed
  | some .other => .failed

def attemptEntry (attempt : CeItem × SweepEvent) : Entry :=
  ⟨attempt.1.arn, str "ce", attemptAction (faultOf attempt.2), some attempt.1.name⟩

variable {naming : CeNaming}

/-- Deletions are attempted once for each item that is older than the minimum age, for none that a
test created less than that ago and for none without a name of a test. -/
structure Fair (provenance : Provenance naming) (delete : Str → ApiCall) (minAge : Int)
    (now : DateTime) (items : List CeItem) (attempts : List (CeItem × SweepEvent)) : Prop where
  requests : ∀ attempt ∈ attempts, attempt.2.request = .api (delete attempt.1.arn)
  chosen : ∃ isChosen : CeItem → Bool, attempts.map Prod.fst = items.filter isChosen ∧
    ∀ item ∈ items,
      (provenance.isFixture item → isYoung minAge now (provenance.created item) = true →
        isChosen item = false) ∧
      (FixtureName naming item.name → isYoung minAge now (provenance.created item) = false →
        isChosen item = true) ∧
      (¬FixtureName naming item.name → isChosen item = false)

/-- The sweep goes through the subscriptions, then through the monitors, and reports each
attempt. -/
def FairSweep (subscribed : Provenance subscriptionNaming) (monitored : Provenance monitorNaming)
    (minAge : Int) (now : DateTime) (subscriptions monitors : List CeItem)
    (log : List SweepEvent) (outcome : Except Raised (List Entry)) : Prop :=
  ∃ first second : List (CeItem × SweepEvent),
    log = ⟨.api .getAnomalySubscriptions, .ok subscriptions⟩ ::
      (first.map Prod.snd ++ ⟨.api .getAnomalyMonitors, .ok monitors⟩ :: second.map Prod.snd) ∧
    outcome = .ok ((first ++ second).map attemptEntry) ∧
    Fair subscribed .deleteAnomalySubscription minAge now subscriptions first ∧
    Fair monitored .deleteAnomalyMonitor minAge now monitors second

/-- The listings are answered with these items. -/
def CeListed (subscriptions monitors : List CeItem) (log : List SweepEvent) : Prop :=
  (∀ reply, ⟨.api .getAnomalySubscriptions, reply⟩ ∈ log → reply = .ok subscriptions) ∧
    ∀ reply, ⟨.api .getAnomalyMonitors, reply⟩ ∈ log → reply = .ok monitors

/-- Each item that a test created less than the minimum age ago has a name the sweep reads a time
from, and each item that it acts on has a name of a test. -/
def Recognised (digits : DigitTable) (provenance : Provenance naming) (minAge : Int)
    (now : DateTime) (items : List CeItem) : Prop :=
  ∀ item ∈ items,
    (provenance.isFixture item → isYoung minAge now (provenance.created item) = true →
      (ceEpoch digits item.name).isSome = true) ∧
    (ceSwept digits minAge now [naming.stamp] [naming.tail] item = true →
      FixtureName naming item.name)

/-- No deletion is answered with an exception other than a `ClientError`. -/
def OnlyClientErrors (log : List SweepEvent) : Prop :=
  ∀ event ∈ log, faultOf event ≠ some .other

/-- Letters are no digits. -/
def LettersAreNoDigits (digits : DigitTable) : Prop :=
  ∀ c : Char, c.isAlpha = true → digits.value (.char c) = none

end Specification

section Names

variable {digits : DigitTable} {naming : CeNaming}

/-- What is used of the two kinds of names: the stamp ends with a hyphen, and what follows the last
hyphen of the tail is no epoch. -/
structure CeNaming.Regular (naming : CeNaming) (digits : DigitTable) : Prop where
  stamp : ∃ front, naming.stamp = front ++ [.char '-']
  tail : ∃ word, naming.tail = .char '-' :: word ∧ .char '-' ∉ word ∧ digits.read word = none

theorem read_letter (letters : LettersAreNoDigits digits) {c : Char} (isAlpha : c.isAlpha = true)
    (rest : Str) : digits.read (.char c :: rest) = none := by
  rw [DigitTable.read, List.foldlM_cons, letters c isAlpha]
  rfl

theorem subscriptionNaming_regular (letters : LettersAreNoDigits digits) :
    subscriptionNaming.Regular digits :=
  ⟨⟨str "test-sub", rfl⟩, str "subscription", rfl, by decide, read_letter letters rfl _⟩

theorem monitorNaming_regular (letters : LettersAreNoDigits digits) :
    monitorNaming.Regular digits :=
  ⟨⟨str "test-monitor", rfl⟩, str "monitor", rfl, by decide, read_letter letters rfl _⟩

theorem dash_not_mem_numeral (epoch : Nat) : Chr.char '-' ∉ numeral epoch := by
  intro dash
  rcases numeral_cases epoch with ⟨-, written⟩ | ⟨negative, written⟩
  · rw [written] at dash
    rcases List.mem_map.mp dash with ⟨c, cMem, isDash⟩
    cases isDash
    exact absurd (isDigit_of_mem_toDigits cMem) (by decide)
  · have zero : epoch = 0 := by omega
    rw [zero] at dash
    exact absurd dash (by decide)

/-- A stamp is read as the epoch, or not at all. -/
theorem ceEpoch_stamped (regular : naming.Regular digits) (epoch : Nat) :
    ceEpoch digits (naming.stamp ++ numeral epoch) = some (epochSeconds + epoch) ∨
      ceEpoch digits (naming.stamp ++ numeral epoch) = none := by
  rcases regular.stamp with ⟨front, stamp⟩
  have token : afterLast (.char '-') (naming.stamp ++ numeral epoch) = numeral epoch := by
    rw [stamp, List.append_assoc, List.singleton_append, afterLast_append,
      afterLast_eq_self (dash_not_mem_numeral epoch)]
  rw [ceEpoch, token, digits.read_numeral]
  split
  · simp only
    split
    · exact Or.inl rfl
    · exact Or.inr rfl
  · exact Or.inr rfl

theorem ceEpoch_suffixed (regular : naming.Regular digits) (front : Str) :
    ceEpoch digits (front ++ naming.tail) = none := by
  rcases regular.tail with ⟨word, tail, plain, unread⟩
  rw [ceEpoch, tail, afterLast_append, afterLast_eq_self plain, unread]
  split
  · rfl
  · rfl

theorem ceNameMatches_fixture {name : Str} (isFixtureName : FixtureName naming name) :
    ceNameMatches name [naming.stamp] [naming.tail] = true := by
  rw [ceNameMatches, List.any_cons, List.any_nil, Bool.or_false, List.any_cons, List.any_nil,
    Bool.or_false, Bool.or_eq_true, List.isPrefixOf_iff_prefix, List.isSuffixOf_iff_suffix]
  cases isFixtureName with
  | stamped epoch => exact Or.inl (List.prefix_append _ _)
  | suffixed base runSuffix _ => exact Or.inr (List.suffix_append _ _)

/-- What the sweep reads from the name of a test is when the item was created. -/
theorem ceEpoch_fixture (regular : naming.Regular digits) (provenance : Provenance naming)
    {item : CeItem} (isFixtureName : FixtureName naming item.name) :
    ceEpoch digits item.name = some (provenance.created item) ∨
      ceEpoch digits item.name = none := by
  generalize same : item.name = name at isFixtureName
  cases isFixtureName with
  | stamped epoch =>
      rw [provenance.stamped item epoch same]
      exact ceEpoch_stamped regular epoch
  | suffixed base runSuffix _ => exact Or.inr (ceEpoch_suffixed regular _)

end Names

section Choice

variable {digits : DigitTable} {naming : CeNaming} {provenance : Provenance naming}
  {delete : Str → ApiCall} {minAge : Int} {now : DateTime} {items : List CeItem}
  {attempts : List (CeItem × SweepEvent)}

variable (provenance) in
/-- What a name of a test comes to: the item is spared when its name shows that it is young. -/
theorem ceSwept_fixture (regular : naming.Regular digits) {item : CeItem}
    (isFixtureName : FixtureName naming item.name) :
    ceSwept digits minAge now [naming.stamp] [naming.tail] item = true ↔
      isYoung minAge now (provenance.created item) = false ∨
        ceEpoch digits item.name = none := by
  rw [ceSwept, ceNameMatches_fixture isFixtureName, Bool.true_and, Bool.not_eq_true']
  rcases ceEpoch_fixture regular provenance isFixtureName with read | unread
  · simp only [read, Option.any_some, reduceCtorEq, or_false]
  · simp only [unread, Option.any_none, or_true]

variable (provenance) in
theorem fair_iff (regular : naming.Regular digits)
    (requests : ∀ attempt ∈ attempts, attempt.2.request = .api (delete attempt.1.arn))
    (swept : attempts.map Prod.fst =
      items.filter (ceSwept digits minAge now [naming.stamp] [naming.tail])) :
    Fair provenance delete minAge now items attempts ↔
      Recognised digits provenance minAge now items := by
  constructor
  · rintro ⟨-, isChosen, chosen, fair⟩ item itemMem
    have same : isChosen item = true ↔
        ceSwept digits minAge now [naming.stamp] [naming.tail] item = true := by
      have member : item ∈ items.filter isChosen ↔
          item ∈ items.filter (ceSwept digits minAge now [naming.stamp] [naming.tail]) := by
        rw [← chosen, swept]
      simpa only [List.mem_filter, itemMem, true_and] using member
    refine ⟨?_, ?_⟩
    · intro isFixture young
      by_contra unread
      rw [Option.isSome_iff_ne_none, not_not] at unread
      have attempted := same.mpr ((ceSwept_fixture provenance regular
        (provenance.named item isFixture)).mpr (Or.inr unread))
      rw [(fair item itemMem).1 isFixture young] at attempted
      cases attempted
    · intro acted
      by_contra unnamed
      have attempted := same.mpr acted
      rw [(fair item itemMem).2.2 unnamed] at attempted
      cases attempted
  · intro recognised
    refine ⟨requests, _, swept, ?_⟩
    intro item itemMem
    rcases recognised item itemMem with ⟨dated, named⟩
    refine ⟨?_, ?_, ?_⟩
    · intro isFixture young
      rw [← Bool.not_eq_true, ceSwept_fixture provenance regular
        (provenance.named item isFixture), young, ← Option.not_isSome_iff_eq_none]
      simp only [dated isFixture young, Bool.true_eq_false, not_true_eq_false, or_self,
        not_false_eq_true]
    · intro isFixtureName old
      exact (ceSwept_fixture provenance regular isFixtureName).mpr (Or.inl old)
    · intro unnamed
      rw [← Bool.not_eq_true]
      exact fun acted => unnamed (named acted)

end Choice

section Runs

variable {digits : DigitTable} {minAge : Int} {now : DateTime} {log : List SweepEvent}

/-- An attempt is one call, and its entry or the exception follows from the reply. -/
theorem runs_ceAct_delete {item : CeItem} {delete : ApiCall} {outcome : Except Raised Entry}
    (ran : (ceAct .delete item delete).Runs log outcome) :
    ∃ event : SweepEvent, log = [event] ∧ event.request = .api delete ∧
      (faultOf event ≠ some .other ∧ outcome = .ok (attemptEntry (item, event)) ∨
        faultOf event = some .other ∧ outcome = .error .unexpected) := by
  rcases ran with ⟨reply, rest, rfl, answered⟩
  cases reply with
  | ok response =>
      rcases answered with ⟨rfl, rfl⟩
      exact ⟨_, rfl, rfl, Or.inl ⟨nofun, rfl⟩⟩
  | error fault =>
      cases fault with
      | client code =>
          rcases answered with ⟨rfl, rfl⟩
          exact ⟨_, rfl, rfl, Or.inl ⟨nofun, rfl⟩⟩
      | other =>
          rcases answered with ⟨rfl, rfl⟩
          exact ⟨_, rfl, rfl, Or.inr ⟨rfl, rfl⟩⟩

/-- A loop over items attempts each of them, unless an exception ends it. -/
theorem runs_attempts {items : List CeItem} {delete : Str → ApiCall}
    {outcome : Except Raised (List Entry)}
    (ran : (items.mapM fun item => ceAct .delete item (delete item.arn)).Runs log outcome) :
    (∃ attempts : List (CeItem × SweepEvent), attempts.map Prod.fst = items ∧
        attempts.map Prod.snd = log ∧ outcome = .ok (attempts.map attemptEntry) ∧
        (∀ attempt ∈ attempts, attempt.2.request = .api (delete attempt.1.arn)) ∧
        OnlyClientErrors log) ∨
      (∃ error, outcome = .error error) ∧ ¬OnlyClientErrors log := by
  induction items generalizing log outcome with
  | nil =>
      rcases ran with ⟨rfl, rfl⟩
      exact Or.inl ⟨[], rfl, rfl, rfl, by simp, by simp [OnlyClientErrors]⟩
  | cons item items ih =>
      simp only [List.mapM_cons, Program.pure_eq_ret] at ran
      rcases Program.runs_bind.mp ran with ⟨error, rfl, stopped⟩ | ⟨entry, first, rest, rfl,
        acted, ran⟩
      · rcases runs_ceAct_delete stopped with ⟨event, rfl, -, ⟨-, impossible⟩ | ⟨other, -⟩⟩
        · cases impossible
        · refine Or.inr ⟨⟨error, rfl⟩, ?_⟩
          intro only
          exact only event List.mem_cons_self other
      · rcases runs_ceAct_delete acted with ⟨event, rfl, request, ⟨fine, same⟩ | ⟨-, impossible⟩⟩
        · cases same
          rcases Program.runs_bind.mp ran with
            ⟨error, rfl, stopped⟩ | ⟨entries, second, last, rfl, others, rfl, rfl⟩
          · rcases ih stopped with ⟨_, _, _, impossible, _⟩ | ⟨-, broken⟩
            · cases impossible
            · refine Or.inr ⟨⟨error, rfl⟩, ?_⟩
              intro only
              exact broken fun event eventMem => only event (List.mem_cons_of_mem _ eventMem)
          · rcases ih others with ⟨attempts, rfl, rfl, same, requests, only⟩ | ⟨⟨_, impossible⟩, -⟩
            · refine Or.inl ⟨(item, event) :: attempts, rfl, by simp, ?_, ?_, ?_⟩
              · rw [Except.ok.inj same]
                rfl
              · intro attempt attemptMem
                rcases List.mem_cons.mp attemptMem with rfl | later
                · exact request
                · exact requests attempt later
              · intro other otherMem
                rcases List.mem_cons.mp otherMem with rfl | later
                · exact fine
                · rw [List.append_nil] at later
                  exact only other later
            · cases impossible
        · cases impossible

/-- A listing that is answered with items is answered with these. -/
theorem runs_listing {call : ApiCall} {items : Response call}
    {outcome : Except Raised (Response call)}
    (ran : (api call).Runs log outcome)
    (listed : ∀ reply, (⟨.api call, reply⟩ : SweepEvent) ∈ log → reply = .ok items) :
    log = [⟨.api call, .ok items⟩] ∧ outcome = .ok items := by
  rcases ran with ⟨reply, rest, rfl, answered⟩
  rw [listed reply List.mem_cons_self] at answered ⊢
  rcases Program.runs_ofExcept.mp answered with ⟨rfl, rfl⟩
  exact ⟨rfl, rfl⟩

theorem attemptEntry_inj {first second : CeItem × SweepEvent}
    (same : attemptEntry first = attemptEntry second) : first.1 = second.1 := by
  rcases first with ⟨⟨name, arn⟩, event⟩
  rcases second with ⟨⟨name', arn'⟩, event'⟩
  simp only [attemptEntry, Entry.mk.injEq, Option.some.injEq] at same
  simp only [CeItem.mk.injEq]
  exact ⟨same.2.2.2, same.1⟩

theorem items_eq_of_entries {first second : List (CeItem × SweepEvent)}
    (same : first.map attemptEntry = second.map attemptEntry) :
    first.map Prod.fst = second.map Prod.fst := by
  induction first generalizing second with
  | nil =>
      rw [List.map_nil, List.nil_eq, List.map_eq_nil_iff] at same
      rw [same]
  | cons attempt first ih =>
      cases second with
      | nil => cases same
      | cons other second =>
          rw [List.map_cons, List.map_cons, List.cons.injEq] at same
          rw [List.map_cons, List.map_cons, attemptEntry_inj same.1, ih same.2]

/-- A request that none of the attempts makes is not in their log. -/
theorem listing_notMem (call : ApiCall) {attempts : List (CeItem × SweepEvent)}
    {delete : Str → ApiCall} (reply : (Call.api call).Reply)
    (requests : ∀ attempt ∈ attempts, attempt.2.request = .api (delete attempt.1.arn))
    (other : ∀ arn, delete arn ≠ call) :
    (⟨.api call, reply⟩ : SweepEvent) ∉ attempts.map Prod.snd := by
  intro listing
  rcases List.mem_map.mp listing with ⟨attempt, attemptMem, same⟩
  have request := requests attempt attemptMem
  rw [same] at request
  exact other attempt.1.arn (Call.api.inj request).symm

/-- The log and the entries tell which items were attempted. -/
theorem attempts_unique {listing : SweepEvent}
    {first second first' second' : List (CeItem × SweepEvent)}
    (apart : listing ∉ first.map Prod.snd) (apart' : listing ∉ second.map Prod.snd)
    (events : first.map Prod.snd ++ listing :: second.map Prod.snd =
      first'.map Prod.snd ++ listing :: second'.map Prod.snd)
    (entries : (first ++ second).map attemptEntry = (first' ++ second').map attemptEntry) :
    first.map Prod.fst = first'.map Prod.fst ∧ second.map Prod.fst = second'.map Prod.fst := by
  have parts := (List.append_cons_inj_of_notMem apart apart').mp events
  have length := congrArg List.length parts.1
  rw [List.length_map, List.length_map] at length
  rw [List.map_append, List.map_append] at entries
  rcases List.append_inj entries (by rw [List.length_map, List.length_map, length]) with
    ⟨same, same'⟩
  exact ⟨items_eq_of_entries same, items_eq_of_entries same'⟩

end Runs

section Decision

variable {digits : DigitTable} {minAge : Int} {now : DateTime} {log : List SweepEvent}
  {subscriptions monitors : List CeItem} {outcome : Except Raised (List Entry)}

/-- The sweep runs into an exception, or goes through both listings. -/
theorem runs_sweepCe (ran : (sweepCeAnomalyMonitors digits .delete minAge now).Runs log outcome)
    (listed : CeListed subscriptions monitors log) :
    (∃ error, outcome = .error error) ∧ ¬OnlyClientErrors log ∨
      OnlyClientErrors log ∧ ∃ first second : List (CeItem × SweepEvent),
        log = ⟨.api .getAnomalySubscriptions, .ok subscriptions⟩ ::
          (first.map Prod.snd ++ ⟨.api .getAnomalyMonitors, .ok monitors⟩ ::
            second.map Prod.snd) ∧
        outcome = .ok ((first ++ second).map attemptEntry) ∧
        (∀ attempt ∈ first, attempt.2.request = .api (.deleteAnomalySubscription attempt.1.arn)) ∧
        (∀ attempt ∈ second, attempt.2.request = .api (.deleteAnomalyMonitor attempt.1.arn)) ∧
        first.map Prod.fst = subscriptions.filter (ceSwept digits minAge now
          [subscriptionNaming.stamp] [subscriptionNaming.tail]) ∧
        second.map Prod.fst = monitors.filter (ceSwept digits minAge now
          [monitorNaming.stamp] [monitorNaming.tail]) := by
  have only_append {first second : List SweepEvent} :
      OnlyClientErrors (first ++ second) ↔ OnlyClientErrors first ∧ OnlyClientErrors second :=
    List.forall_mem_append
  have only_cons {call : ApiCall} {items : Response call} {rest : List SweepEvent} :
      OnlyClientErrors (⟨.api call, .ok items⟩ :: rest) ↔ OnlyClientErrors rest :=
    List.forall_mem_cons.trans (and_iff_right nofun)
  rw [sweepCeAnomalyMonitors] at ran
  rcases Program.runs_bind.mp ran with ⟨_, -, stopped⟩ | ⟨_, _, rest, rfl, answered, ran⟩
  · cases (runs_listing stopped listed.1).2
  rcases runs_listing answered (fun reply replyMem => listed.1 reply
    (List.mem_append_left _ replyMem)) with ⟨rfl, same⟩
  cases same
  rcases Program.runs_bind.mp ran with ⟨_, rfl, stopped⟩ | ⟨_, _, rest, rfl, acted, ran⟩
  · rcases runs_attempts stopped with ⟨_, _, _, impossible, _⟩ | ⟨-, broken⟩
    · cases impossible
    · exact Or.inl ⟨⟨_, rfl⟩, fun only => broken (only_cons.mp only)⟩
  rcases runs_attempts acted with ⟨first, items, rfl, entries, requests,
    only⟩ | ⟨⟨_, impossible⟩, -⟩
  · cases entries
    rcases Program.runs_bind.mp ran with ⟨_, -, stopped⟩ | ⟨_, _, rest, rfl, answered, ran⟩
    · cases (runs_listing stopped fun reply replyMem => listed.2 reply (by simp [replyMem])).2
    rcases runs_listing answered (fun reply replyMem => listed.2 reply (by simp [replyMem])) with
      ⟨rfl, same⟩
    cases same
    rcases Program.runs_bind.mp ran with ⟨_, rfl, stopped⟩ | ⟨_, _, rest, rfl, acted', ended⟩
    · rcases runs_attempts stopped with ⟨_, _, _, impossible, _⟩ | ⟨-, broken⟩
      · cases impossible
      · refine Or.inl ⟨⟨_, rfl⟩, ?_⟩
        intro all
        exact broken (only_append.mp (only_append.mp (only_append.mp all).2).2).2
    rcases runs_attempts acted' with
      ⟨second, items', rfl, entries, requests', only'⟩ | ⟨⟨_, impossible⟩, -⟩
    · cases entries
      rcases ended with ⟨rfl, rfl⟩
      refine Or.inr ⟨?_, first, second, by simp, by simp, requests, requests', items, items'⟩
      rw [List.append_nil, List.singleton_append, only_cons, only_append, List.singleton_append,
        only_cons]
      exact ⟨only, only'⟩
    · cases impossible
  · cases impossible

/-- The sweep is fair exactly when no reply is another exception, each young item of a test has a
name that tells its age and each item acted on has a name of a test. -/
theorem sweepCe_fair_iff (letters : LettersAreNoDigits digits)
    (subscribed : Provenance subscriptionNaming) (monitored : Provenance monitorNaming)
    (ran : (sweepCeAnomalyMonitors digits .delete minAge now).Runs log outcome)
    (listed : CeListed subscriptions monitors log) :
    FairSweep subscribed monitored minAge now subscriptions monitors log outcome ↔
      OnlyClientErrors log ∧ Recognised digits subscribed minAge now subscriptions ∧
        Recognised digits monitored minAge now monitors := by
  rcases runs_sweepCe ran listed with ⟨⟨error, rfl⟩, broken⟩ | ⟨only, swept⟩
  · apply iff_of_false
    · rintro ⟨_, _, _, impossible, _⟩
      cases impossible
    · exact fun all => broken all.1
  · rcases swept with ⟨first, second, rfl, rfl, requests, requests', items, items'⟩
    have fair := fair_iff subscribed (subscriptionNaming_regular letters)
      requests items
    have fair' := fair_iff monitored (monitorNaming_regular letters)
      requests' items'
    rw [and_iff_right only, ← fair, ← fair']
    constructor
    · rintro ⟨other, other', events, entries, chosen, chosen'⟩
      have apart := listing_notMem .getAnomalyMonitors (.ok monitors) requests fun _ => nofun
      have apart' := listing_notMem .getAnomalyMonitors (.ok monitors) requests' fun _ => nofun
      rcases attempts_unique apart apart' (List.cons.inj events).2 (Except.ok.inj entries) with
        ⟨same, same'⟩
      rcases chosen with ⟨-, isChosen, filtered, choice⟩
      rcases chosen' with ⟨-, isChosen', filtered', choice'⟩
      exact ⟨⟨requests, isChosen, same.trans filtered, choice⟩,
        ⟨requests', isChosen', same'.trans filtered', choice'⟩⟩
    · rintro ⟨chosen, chosen'⟩
      exact ⟨first, second, rfl, rfl, chosen, chosen'⟩

end Decision

section Sample

theorem latin_lettersAreNoDigits : LettersAreNoDigits DigitTable.latin := by
  intro c isAlpha
  apply if_neg
  intro isDigit
  have alpha_eq : c.isAlpha = (c.isUpper || c.isLower) := rfl
  have upper_eq : c.isUpper = decide (c.val ≥ 'A'.val ∧ c.val ≤ 'Z'.val) := rfl
  have lower_eq : c.isLower = (decide (c.val ≥ 'a'.val) && decide (c.val ≤ 'z'.val)) := rfl
  rw [alpha_eq, upper_eq, lower_eq] at isAlpha
  simp only [Char.isDigit, Bool.or_eq_true, Bool.and_eq_true, decide_eq_true_eq,
    UInt32.le_iff_toNat_le] at isAlpha isDigit
  have nine : '9'.val.toNat = 57 := rfl
  have upper : 'A'.val.toNat = 65 := rfl
  have lower : 'a'.val.toNat = 97 := rfl
  omega

/-- These items are of tests, and what carries no epoch was created at this time. -/
def provenanceAt {naming : CeNaming} (fixtures : List CeItem) (seconds : Nat)
    (named : ∀ item ∈ fixtures, FixtureName naming item.name) : Provenance naming where
  isFixture item := item ∈ fixtures
  created item :=
    if naming.stamp <+: item.name then
      ((DigitTable.latin.read (item.name.drop naming.stamp.length)).map (epochSeconds + ·)).getD
        seconds
    else seconds
  named := named
  stamped := by
    intro item epoch same
    rw [same, if_pos (List.prefix_append _ _), List.drop_left, DigitTable.read_numeral]
    rfl

def noon : DateTime := ⟨63918417600 * 1000000, by decide⟩

def oldMonitor : CeItem := ⟨str "test-monitor-1782718049",
    str "arn:aws:ce::222222222222:anomalymonitor/old"⟩

def runMonitor : CeItem := ⟨str "obs-abc123-monitor",
    str "arn:aws:ce::222222222222:anomalymonitor/run"⟩

theorem runMonitor_named : ∀ item ∈ [runMonitor], FixtureName monitorNaming item.name := by
  intro item itemMem
  rw [List.mem_singleton.mp itemMem]
  exact .suffixed (str "obs") (str "abc123") rfl

/-- A sweep of one monitor. -/
def monitorLog (monitor : CeItem) (reply : Except Fault Unit) : List SweepEvent :=
  [⟨.api .getAnomalySubscriptions, .ok []⟩, ⟨.api .getAnomalyMonitors, .ok [monitor]⟩,
    ⟨.api (.deleteAnomalyMonitor monitor.arn), reply⟩]

theorem monitorLog_listed (monitor : CeItem) (reply : Except Fault Unit) :
    CeListed [] [monitor] (monitorLog monitor reply) := by
  refine ⟨?_, ?_⟩
  · intro other otherMem
    simp only [monitorLog, List.mem_cons, List.not_mem_nil, or_false] at otherMem
    rcases otherMem with same | same | same
    · cases same
      rfl
    · cases same
    · cases same
  · intro other otherMem
    simp only [monitorLog, List.mem_cons, List.not_mem_nil, or_false] at otherMem
    rcases otherMem with same | same | same
    · cases same
    · cases same
      rfl
    · cases same

theorem runs_monitorLog {monitor : CeItem} {reply : Except Fault Unit} {entry : Entry}
    (swept : ceSwept DigitTable.latin 120 noon ceMonitorNamePrefixes ceMonitorNameSuffixes
      monitor = true)
    (acted : (ceAct .delete monitor (.deleteAnomalyMonitor monitor.arn)).Runs
      [⟨.api (.deleteAnomalyMonitor monitor.arn), reply⟩] (.ok entry)) :
    (sweepCeAnomalyMonitors DigitTable.latin .delete 120 noon).Runs (monitorLog monitor reply)
      (.ok [entry]) := by
  have only : [monitor].filter (ceSwept DigitTable.latin 120 noon ceMonitorNamePrefixes
      ceMonitorNameSuffixes) = [monitor] := by
    rw [List.filter_cons_of_pos swept, List.filter_nil]
  have looped : ([monitor].mapM fun item =>
      ceAct .delete item (.deleteAnomalyMonitor item.arn)).Runs
        [⟨.api (.deleteAnomalyMonitor monitor.arn), reply⟩] (.ok [entry]) := by
    refine Program.runs_mapM_ok.mpr
      ⟨[⟨monitor, [⟨.api (.deleteAnomalyMonitor monitor.arn), reply⟩], entry⟩], rfl, rfl, rfl, ?_⟩
    intro piece pieceMem
    rw [List.mem_singleton.mp pieceMem]
    exact acted
  rw [← only] at looped
  rw [sweepCeAnomalyMonitors]
  refine Program.runs_bind_ok.mpr ⟨[], _, _, rfl, runs_api_answer .getAnomalySubscriptions [],
    ?_⟩
  refine Program.runs_bind_ok.mpr ⟨[], [], _, rfl, ⟨rfl, rfl⟩, ?_⟩
  refine Program.runs_bind_ok.mpr ⟨[monitor], _, _, rfl,
    runs_api_answer .getAnomalyMonitors [monitor], ?_⟩
  exact Program.runs_bind_ok.mpr ⟨_, _, [], (List.append_nil _).symm, looped, rfl, rfl⟩

def youngSubscription : CeItem := ⟨str "test-sub-1782820000",
    str "arn:aws:ce::222222222222:anomalysubscription/young"⟩

def sharedMonitor : CeItem := ⟨str "Default-Services-Monitor",
    str "arn:aws:ce::222222222222:anomalymonitor/shared"⟩

def agedMonitor : CeItem := ⟨str "test-monitor-1782700000",
    str "arn:aws:ce::222222222222:anomalymonitor/aged"⟩

theorem youngSubscription_named :
    ∀ item ∈ [youngSubscription], FixtureName subscriptionNaming item.name := by
  intro item itemMem
  rw [List.mem_singleton.mp itemMem]
  exact .stamped 1782820000

theorem testMonitors_named :
    ∀ item ∈ [oldMonitor, agedMonitor], FixtureName monitorNaming item.name := by
  intro item itemMem
  rcases List.mem_pair.mp itemMem with rfl | rfl
  · exact .stamped 1782718049
  · exact .stamped 1782700000

/-- A subscription and three monitors, one of which may not be deleted. -/
def ceReplies : (request : Call) → Call.Reply request
  | .api .getAnomalySubscriptions => .ok [youngSubscription]
  | .api .getAnomalyMonitors => .ok [oldMonitor, sharedMonitor, agedMonitor]
  | .api (.deleteAnomalyMonitor arn) =>
      if arn = oldMonitor.arn then .error (.client (str "AccessDeniedException")) else .ok ()
  | .api _ => .error .other
  | .now => noon
  | .writeReport _ => ()

/-- Of the monitors the two of tests are attempted, and the refusal is reported as failed. The
young subscription is left alone. -/
theorem sweepCe_fair_mixed : ∃ log outcome,
    outcome.toOption.map (fun entries => entries.map Entry.action) = some [.failed, .deleted] ∧
      FairSweep (provenanceAt [youngSubscription] 0 youngSubscription_named)
        (provenanceAt [oldMonitor, agedMonitor] 0 testMonitors_named) 120 noon
        [youngSubscription] [oldMonitor, sharedMonitor, agedMonitor] log outcome := by
  have ran := Program.runs_answer ceReplies
    (sweepCeAnomalyMonitors DigitTable.latin .delete 120 noon)
  have replies := Program.answer_replies ceReplies
    (sweepCeAnomalyMonitors DigitTable.latin .delete 120 noon)
  refine ⟨_, _, by decide +kernel, (sweepCe_fair_iff latin_lettersAreNoDigits _ _ ran ?_).mpr
    ⟨by unfold OnlyClientErrors; decide +kernel, ?_, ?_⟩⟩
  · exact ⟨fun reply replyMem => replies _ replyMem, fun reply replyMem => replies _ replyMem⟩
  · intro item itemMem
    rw [List.mem_singleton.mp itemMem]
    refine ⟨fun _ _ => by decide +kernel, fun swept => ?_⟩
    exact absurd swept (by decide +kernel)
  · intro item itemMem
    simp only [List.mem_cons, List.not_mem_nil, or_false] at itemMem
    rcases itemMem with rfl | rfl | rfl
    · exact ⟨fun _ _ => by decide +kernel, fun _ => testMonitors_named _ (by simp)⟩
    · have foreign : sharedMonitor ∉ [oldMonitor, agedMonitor] := by
        intro itemMem
        have arnMem := List.mem_map_of_mem (f := CeItem.arn) itemMem
        exact absurd arnMem (by decide +kernel)
      exact ⟨fun isFixture => absurd isFixture foreign,
        fun swept => absurd swept (by decide +kernel)⟩
    · exact ⟨fun _ _ => by decide +kernel, fun _ => testMonitors_named _ (by simp)⟩

/-- A monitor named after its run is deleted while the run that created it is in flight. -/
theorem not_fairSweep_runMonitor :
    (sweepCeAnomalyMonitors DigitTable.latin .delete 120 noon).Runs (monitorLog runMonitor (.ok ()))
        (.ok [⟨runMonitor.arn, str "ce", .deleted, some runMonitor.name⟩]) ∧
      CeListed [] [runMonitor] (monitorLog runMonitor (.ok ())) ∧
      ¬FairSweep (provenanceAt [] 0 nofun)
        (provenanceAt [runMonitor] noon.seconds runMonitor_named) 120 noon [] [runMonitor]
        (monitorLog runMonitor (.ok ()))
        (.ok [⟨runMonitor.arn, str "ce", .deleted, some runMonitor.name⟩]) := by
  have swept : ceSwept DigitTable.latin 120 noon [monitorNaming.stamp] [monitorNaming.tail]
      runMonitor = true := by decide +kernel
  refine ⟨runs_monitorLog swept ⟨_, [], rfl, rfl, rfl⟩, monitorLog_listed _ _, ?_⟩
  rintro ⟨first, second, events, entries, -, -, isChosen, chosen, choice⟩
  have events' : ([] : List (CeItem × SweepEvent)).map Prod.snd ++
      ⟨.api .getAnomalyMonitors, .ok [runMonitor]⟩ ::
        [(runMonitor, (⟨.api (.deleteAnomalyMonitor runMonitor.arn), .ok ()⟩ : SweepEvent))].map
          Prod.snd =
      first.map Prod.snd ++ ⟨.api .getAnomalyMonitors, .ok [runMonitor]⟩ ::
        second.map Prod.snd := (List.cons.inj events).2
  have apart : (⟨.api .getAnomalyMonitors, .ok [runMonitor]⟩ : SweepEvent) ∉
      [(runMonitor, (⟨.api (.deleteAnomalyMonitor runMonitor.arn), .ok ()⟩ : SweepEvent))].map
        Prod.snd := by
    intro listing
    cases congrArg Event.request (List.mem_singleton.mp listing)
  have attempted := (attempts_unique List.not_mem_nil apart events' (Except.ok.inj entries)).2
  rw [chosen] at attempted
  have isChosen' : isChosen runMonitor = true := by
    have member : runMonitor ∈ [runMonitor].filter isChosen := by
      rw [← attempted]
      exact List.mem_cons_self
    exact (List.mem_filter.mp member).2
  have spared := (choice runMonitor List.mem_cons_self).1 (List.mem_singleton_self _)
    (by decide +kernel)
  rw [isChosen'] at spared
  cases spared

end Sample

end Sweep
