import TelemetryPlatform.Sweep.DeleteMode
import TelemetryPlatform.Sweep.NotFound

/-!
# Runs in flight

The terratest runner puts the time into the run id it generates, and the sweep
without a run id reads it back from the tag of a resource to spare what a run in
flight may still use. What it reads is the time without its fraction of a second,
so this is the time from which a run counts as too young.
-/

namespace Sweep

open Python Interaction

variable {rt : Runtime} {digits : DigitTable} {settings : Settings}

section RunIds

def runIdPrefix : Str := str "tt"

/-- What `random.choices` draws for a run id. -/
structure RandomChars where
  chars : Str
  length_eq : chars.length = 6
  drawn : ∀ c ∈ chars, c ∈ str "abcdefghijklmnopqrstuvwxyz0123456789"

/-- `_generate_run_id`, given the override, the clock and the random characters. -/
def generateRunId (override : Option Str) (now : DateTime) (randChars : RandomChars) : Str :=
  match override with
  | some (first :: rest) => first :: rest
  | some [] | none => runIdPrefix ++ str "-" ++ now.timestamp ++ str "-" ++ randChars.chars

theorem not_mem_padded {c : Chr} (other : DigitTable.latin.value c = none) (width n : Nat) :
    c ∉ padded width n := by
  induction width generalizing n with
  | zero => exact List.not_mem_nil
  | succ width ih =>
      rw [padded, List.mem_append, not_or, List.mem_singleton]
      refine ⟨ih (n / 10), fun same => ?_⟩
      have digit := DigitTable.latin.ascii (n % 10) (Nat.mod_lt n (by decide))
      rw [← same, other] at digit
      cases digit

theorem dash_not_mem_timestamp (time : DateTime) : Chr.char '-' ∉ time.timestamp := by
  have absent := not_mem_padded (c := .char '-') rfl
  simp [DateTime.timestamp, absent]

/-- A run id of the shape `tt-<timestamp>-<rand>`, with its time in seconds. -/
def CarriesTime (digits : DigitTable) (runId : Str) (seconds : Nat) : Prop :=
  ∃ token rest, runId = runIdPrefix ++ Chr.char '-' :: (token ++ Chr.char '-' :: rest) ∧
    Chr.char '-' ∉ token ∧ token.length = 14 ∧ digits.parseTimestamp token = some seconds

/-- The sweep reads a time from the run ids of that shape and from no others. -/
theorem runIdTimestamp_eq_some {runId : Str} {seconds : Nat} :
    runIdTimestamp digits runId = some seconds ↔ CarriesTime digits runId seconds := by
  have prefixPlain : Chr.char '-' ∉ runIdPrefix := by decide
  unfold runIdTimestamp
  constructor
  · intro read
    split at read
    swap
    · cases read
    next isPrefix =>
      rcases List.isPrefixOf_iff_prefix.mp isPrefix with ⟨body, rfl⟩
      have text_eq : str "tt-" ++ body = runIdPrefix ++ Chr.char '-' :: body := rfl
      rw [text_eq, List.splitOn_append_cons_self_of_not_mem prefixPlain] at read
      split at read
      · next split =>
          rcases exists_of_splitOn_cons_cons (List.cons.inj split).2 with ⟨plain, rest, rfl⟩
          split at read
          · next length_eq => exact ⟨_, rest, rfl, plain, length_eq, read⟩
          · cases read
      · cases read
  · rintro ⟨token, rest, rfl, plain, length_eq, parsed⟩
    have isPrefix : (str "tt-").isPrefixOf
        (runIdPrefix ++ Chr.char '-' :: (token ++ Chr.char '-' :: rest)) = true :=
      List.isPrefixOf_iff_prefix.mpr ⟨token ++ Chr.char '-' :: rest, rfl⟩
    rw [if_pos isPrefix, List.splitOn_append_cons_self_of_not_mem prefixPlain,
      List.splitOn_append_cons_self_of_not_mem plain]
    rcases List.exists_cons_of_ne_nil (List.splitOn_ne_nil (Chr.char '-') rest) with
      ⟨first, others, split⟩
    rw [split]
    dsimp only
    rw [if_pos length_eq, parsed]

theorem CarriesTime.unique {runId : Str} {seconds seconds' : Nat}
    (carries : CarriesTime digits runId seconds) (carries' : CarriesTime digits runId seconds') :
    seconds = seconds' :=
  Option.some.inj
    ((runIdTimestamp_eq_some.mpr carries).symm.trans (runIdTimestamp_eq_some.mpr carries'))

/-- A generated run id carries the time it was generated at, without its fraction of a second. -/
theorem carriesTime_generateRunId (digits : DigitTable) (time : DateTime)
    (randChars : RandomChars) :
    CarriesTime digits (generateRunId none time randChars) time.seconds := by
  refine ⟨time.timestamp, randChars.chars, ?_, dash_not_mem_timestamp time,
    time.length_timestamp, parseTimestamp_timestamp digits time⟩
  simp [generateRunId, str]

end RunIds

section Spared

/-- A time, in microseconds, that lies less than a number of minutes before the clock. -/
def YoungerThan (minAge : Int) (now : DateTime) (micros : Nat) : Prop :=
  (now.micros : Int) - micros < minAge * 60000000

/-- The resources a pass dispatches. -/
def Pass.swept (pass : Pass) : List Resource := pass.dispatches.map Program.Piece.input

theorem isInFlight_iff {minAge : Int} {now : DateTime} {resource : Resource} :
    isInFlight digits minAge now resource = true ↔ ∃ runId seconds,
      runIdTagValue resource = some runId ∧ CarriesTime digits runId seconds ∧
        YoungerThan minAge now (seconds * 1000000) := by
  simp only [← runIdTimestamp_eq_some, YoungerThan]
  unfold isInFlight
  cases tagged : runIdTagValue resource with
  | none => simp
  | some runId =>
      cases read : runIdTimestamp digits runId with
      | none => simp [read]
      | some seconds => simp [read, isYoung]

/-- A pass of the sweep without a run id sweeps what it enumerated and no run in flight has. -/
theorem Pass.Faithful.mem_swept {pass : Pass} (faithful : pass.Faithful rt digits settings none) :
    ∃ minAge, getMinAgeMinutes rt settings = .ok minAge ∧ ∀ resource,
      resource ∈ pass.swept ↔ resource ∈ pass.enumerated ∧
        ¬∃ runId seconds, runIdTagValue resource = some runId ∧
          CarriesTime digits runId seconds ∧
          YoungerThan minAge pass.now (seconds * 1000000) := by
  rcases faithful with ⟨_, _, ⟨minAge, minAge_eq, rfl⟩, perm, _, _⟩
  refine ⟨minAge, minAge_eq, fun resource => ?_⟩
  rw [Pass.swept, perm.mem_iff, List.mem_filter, ← isInFlight_iff]
  simp

variable (rt digits settings) in
/-- The log is made of passes, and each of them spares the resources of the runs whose time, in
whole seconds, lies less than the minimum age before its clock reading, and sweeps all else that it
enumerated. -/
def SparesInFlight (log : List SweepEvent) : Prop :=
  ∃ (before : List SweepEvent) (passes : List Pass) (after : List SweepEvent),
    log = before ++ passes.flatMap (Pass.log none) ++ after ∧
    (∀ event ∈ before ++ after, IsBookkeeping rt settings none event) ∧
    ∀ pass ∈ passes, ∃ minAge isFinalPass, getMinAgeMinutes rt settings = .ok minAge ∧
      Dispatched settings isFinalPass pass.dispatches ∧ ∀ resource,
        (∀ time randChars, runIdTagValue resource = some (generateRunId none time randChars) →
          YoungerThan minAge pass.now (time.seconds * 1000000) → resource ∉ pass.swept) ∧
        (resource ∈ pass.enumerated → (∀ runId seconds, runIdTagValue resource = some runId →
          CarriesTime digits runId seconds →
          ¬YoungerThan minAge pass.now (seconds * 1000000)) → resource ∈ pass.swept) ∧
        (resource ∈ pass.swept → resource ∈ pass.enumerated)

/-- The sweep without a run id spares the runs in flight, and the time it reads from a generated
run id is the time of its generation in whole seconds. -/
theorem main_spares_inFlight {log : List SweepEvent} {outcome : Except Halt Int}
    (ran : (main rt digits settings .delete none).Runs log outcome) :
    SparesInFlight rt digits settings log ∧ ∀ time randChars,
      runIdTimestamp digits (generateRunId none time randChars) = some time.seconds := by
  refine ⟨?_, fun time randChars =>
    runIdTimestamp_eq_some.mpr (carriesTime_generateRunId digits time randChars)⟩
  rcases runs_main_delete ran with ⟨before, passes, after, sound⟩
  refine ⟨before, passes, after, sound.log_eq, ?_, ?_⟩
  · intro event eventMem
    rcases List.mem_append.mp eventMem with inBefore | inAfter
    · exact Or.inl (sound.before_opening event inBefore)
    · exact sound.after_bookkeeping event inAfter
  intro pass passMem
  have faithful := sound.faithful pass passMem
  rcases faithful.mem_swept with ⟨minAge, minAge_eq, mem_swept⟩
  rcases faithful with ⟨_, isFinalPass, _, _, _, dispatched⟩
  refine ⟨minAge, isFinalPass, minAge_eq, dispatched, fun resource => ⟨?_, ?_, ?_⟩⟩
  · intro time randChars tagged young swept
    apply ((mem_swept resource).mp swept).2
    exact ⟨_, _, tagged, carriesTime_generateRunId digits time randChars, young⟩
  · intro enumerated old
    refine (mem_swept resource).mpr ⟨enumerated, ?_⟩
    rintro ⟨runId, seconds, tagged, carries, young⟩
    exact old runId seconds tagged carries young
  · exact fun swept => ((mem_swept resource).mp swept).1

end Spared

namespace Sample

/-- Half a second past midnight on the fifth of July 2026. -/
def started : DateTime := ⟨63918806400500000, by decide⟩

/-- Two in the morning. -/
def twoHoursLater : DateTime := ⟨63918813600000000, by decide⟩

def randChars : RandomChars := ⟨str "a1b2c3", by decide, by decide⟩

def tagged : Resource :=
  ⟨topic.text, [⟨some tagKey, some (generateRunId none started randChars)⟩]⟩

theorem getMinAgeMinutes_sandbox : getMinAgeMinutes Runtime.whole sandbox = .ok 120 := by
  rw [getMinAgeMinutes, sandbox]

theorem runIdTagValue_tagged :
    runIdTagValue tagged = some (generateRunId none started randChars) := by
  simp [runIdTagValue, tagged]

/-- One in the morning. -/
def anHourLater : DateTime := ⟨63918810000000000, by decide⟩

/-- What is there at one: a topic of the run in flight, one of a run of the day before, and a log
group without a run. -/
def leftover : List Resource :=
  [tagged,
    ⟨str "arn:aws:sns:us-east-1:222222222222:reports",
      [⟨some tagKey, some (generateRunId none ⟨63918720000000000, by decide⟩ randChars)⟩]⟩,
    ⟨str "arn:aws:logs:us-east-1:222222222222:log-group:/aws/lambda/cwl-split", []⟩]

/-- The sweep at one, which leaves the topic in flight. -/
theorem exists_sweepAtOne : ∃ log outcome,
    (main Runtime.whole DigitTable.latin sandbox .delete none).Runs log outcome ∧
      exitStatus outcome = 0 ∧
      ∀ event ∈ log, event.reply = services anHourLater leftover event.request :=
  Program.exists_run _ _ (fun outcome => exitStatus outcome = 0) (by decide +kernel)

/-- The sweep of the topic. -/
theorem exists_sweep : ∃ log outcome,
    (main Runtime.whole DigitTable.latin sandbox .delete none).Runs log outcome ∧
      exitStatus outcome = 0 ∧
      ∀ event ∈ log, event.reply = services twoHoursLater [tagged] event.request :=
  Program.exists_run _ _ (fun outcome => exitStatus outcome = 0) (by decide +kernel)

end Sample

theorem main_spares_inFlight_sweep : ∃ log outcome,
    (main Runtime.whole DigitTable.latin Sample.sandbox .delete none).Runs log outcome ∧
      exitStatus outcome = 0 ∧
      SparesInFlight Runtime.whole DigitTable.latin Sample.sandbox log ∧
      ∀ time randChars, runIdTimestamp DigitTable.latin (generateRunId none time randChars) =
        some time.seconds := by
  rcases Sample.exists_sweepAtOne with ⟨log, outcome, ran, status, _⟩
  exact ⟨log, outcome, ran, status, main_spares_inFlight ran⟩

/-- A run that is half a second short of the minimum age is swept. -/
theorem main_sweeps_young :
    ∃ (log : List SweepEvent) (outcome : Except Halt Int) (before : List SweepEvent)
      (passes : List Pass) (after : List SweepEvent),
      (main Runtime.whole DigitTable.latin Sample.sandbox .delete none).Runs log outcome ∧
        Sound Runtime.whole DigitTable.latin Sample.sandbox none log outcome before passes after ∧
        getMinAgeMinutes Runtime.whole Sample.sandbox = .ok 120 ∧
        ∃ pass ∈ passes, ∃ resource ∈ pass.swept,
          runIdTagValue resource =
              some (generateRunId none Sample.started Sample.randChars) ∧
            YoungerThan 120 pass.now Sample.started.micros := by
  rcases Sample.exists_sweep with ⟨log, outcome, ran, status, repliesOf⟩
  rcases runs_main_delete ran with ⟨before, passes, after, sound⟩
  refine ⟨log, outcome, before, passes, after, ran, sound, Sample.getMinAgeMinutes_sandbox, ?_⟩
  rcases sound.drained status with ⟨last, last_eq, _, _⟩
  have lastMem := List.mem_of_getLast? last_eq
  have replies : ∀ event ∈ enumeration none last.now last.enumerated, event.reply =
      Sample.services Sample.twoHoursLater [Sample.tagged] event.request := by
    intro event eventMem
    apply repliesOf event
    rw [sound.log_eq]
    apply List.mem_append_left
    apply List.mem_append_right
    exact List.mem_flatMap.mpr ⟨last, lastMem, List.mem_append_left _ eventMem⟩
  have now_eq : last.now = Sample.twoHoursLater := replies ⟨.now, last.now⟩ (by simp [enumeration])
  have enumerated_eq : last.enumerated = [Sample.tagged] :=
    Except.ok.inj (replies ⟨.api (.getResources none), .ok last.enumerated⟩ (by simp [enumeration]))
  rcases (sound.faithful last lastMem).mem_swept with ⟨minAge, minAge_eq, mem_swept⟩
  cases minAge_eq.symm.trans Sample.getMinAgeMinutes_sandbox
  refine ⟨last, lastMem, Sample.tagged, (mem_swept _).mpr ⟨?_, ?_⟩, Sample.runIdTagValue_tagged, ?_⟩
  · rw [enumerated_eq]
    exact List.mem_singleton_self _
  · rintro ⟨runId, seconds, tagged, carries, young⟩
    cases Sample.runIdTagValue_tagged.symm.trans tagged
    have read := (carriesTime_generateRunId DigitTable.latin Sample.started
      Sample.randChars).unique carries
    rw [now_eq, ← read] at young
    simp only [YoungerThan, Sample.twoHoursLater, Sample.started, DateTime.seconds] at young
    omega
  · rw [now_eq]
    simp only [YoungerThan, Sample.twoHoursLater, Sample.started]
    omega

end Sweep
