import Mathlib.Algebra.Order.Floor.Semiring
import Mathlib.Data.Rat.Floor
import Mathlib.Tactic.Linarith
import TelemetryPlatform.PerfTest.Schedule

/-!
# Runs of the schedule

A schedule is orderly when it ends, stays within the windows of its sessions, has one
pending entry of a kind for each session and keeps the cadence of the metrics.
`orderly_iff` says for which cadences it is, whatever jitter is drawn: a jitter as long
as the interval of the log bursts can keep a session where it is forever.
-/

namespace PerfTest

open Python

section Specification

/-- The jitter that `rng.uniform` may draw. -/
def WithinJitter (cadence : Cadence) (draws : Nat → ℚ) : Prop :=
  ∀ drawn, -cadence.logBurstJitterSeconds ≤ draws drawn ∧
    draws drawn ≤ cadence.logBurstJitterSeconds

/-- The multiples of the interval after the start, up to the stop. -/
def metricsTimes (startAt stopAt interval : ℚ) : List ℚ :=
  (List.range ⌊(stopAt - startAt) / interval⌋₊).map fun k => startAt + (k + 1 : ℕ) * interval

/-- The times of the metrics exports of a session. -/
def metricsOf (sessionId : Nat) (events : List ScheduledEvent) : List ℚ :=
  (events.filter fun event => event.sessionId = sessionId ∧ event.kind = .metrics).map
    ScheduledEvent.dueAt

/-- The event lies in the window of its session. -/
def InWindow (windows : List (ℚ × ℚ)) (event : ScheduledEvent) : Prop :=
  ∃ window, windows[event.sessionId]? = some window ∧ window.1 ≤ event.dueAt ∧
    event.dueAt ≤ window.2

/-- The schedule ends, in its windows and with its cadence. -/
structure Orderly (draws : Nat → ℚ) (schedule : Schedule) : Prop where
  finite : ∃ count, (schedule.take draws count).2.heap = []
  within : ∀ count, ∀ event ∈ (schedule.take draws count).1, InWindow schedule.windows event
  pending : ∀ count sessionId,
    ((schedule.take draws count).2.heap.filter fun entry => entry.sessionId = sessionId).length ≤ 2
  distinct : ∀ count,
    ((schedule.take draws count).2.heap.map fun entry => (entry.sessionId, entry.kind)).Nodup
  metrics : ∀ count, (schedule.take draws count).2.heap = [] →
    ∀ sessionId window, schedule.windows[sessionId]? = some window →
      metricsOf sessionId (schedule.take draws count).1 =
        metricsTimes window.1 window.2 schedule.cadence.metricsIntervalSeconds

end Specification

section Times

variable {startAt stopAt interval : ℚ}

theorem metricsTimes_of_lt (positive : 0 < interval) (past : stopAt < startAt + interval) :
    metricsTimes startAt stopAt interval = [] := by
  have none : ⌊(stopAt - startAt) / interval⌋₊ = 0 := by
    rw [Nat.floor_eq_zero, div_lt_one positive]
    linarith
  rw [metricsTimes, none]
  rfl

theorem metricsTimes_of_le (positive : 0 < interval) (within : startAt + interval ≤ stopAt) :
    metricsTimes startAt stopAt interval =
      (startAt + interval) :: metricsTimes (startAt + interval) stopAt interval := by
  have one : (stopAt - startAt) / interval = (stopAt - (startAt + interval)) / interval + 1 := by
    rw [← sub_sub, sub_div (stopAt - startAt), div_self positive.ne', sub_add_cancel]
  have nonneg : 0 ≤ (stopAt - (startAt + interval)) / interval := by
    apply div_nonneg _ positive.le
    linarith
  rw [metricsTimes, one, Nat.floor_add_one nonneg, List.range_succ_eq_map, List.map_cons,
    List.map_map, metricsTimes]
  congr 1
  · push_cast
    ring
  · apply List.map_congr_left
    intro k _
    simp only [Function.comp_apply]
    push_cast
    ring

end Times

section Steps

variable {draws : Nat → ℚ} {schedule later : Schedule} {event : ScheduledEvent}

theorem heappush_perm (heap : List ScheduledEvent) (entry : ScheduledEvent) :
    (heappush heap entry).Perm (entry :: heap) :=
  List.perm_orderedInsert _ entry heap

theorem mem_heappush {heap : List ScheduledEvent} {entry other : ScheduledEvent} :
    other ∈ heappush heap entry ↔ other = entry ∨ other ∈ heap := by
  rw [(heappush_perm heap entry).mem_iff, List.mem_cons]

/-- An event is taken from the heap, and is due there again when that is not past its stop. -/
structure Turn (draws : Nat → ℚ) (schedule : Schedule) (event : ScheduledEvent)
    (rest : List ScheduledEvent) (later : Schedule) : Prop where
  heap : schedule.heap = event :: rest
  windows : later.windows = schedule.windows
  cadence : later.cadence = schedule.cadence
  again : later.heap =
    if (schedule.again draws event).1 ≤ (schedule.windows.getD event.sessionId (0, 0)).2 then
      heappush rest { event with dueAt := (schedule.again draws event).1 }
    else rest

theorem next_cases (draws : Nat → ℚ) (schedule : Schedule) :
    schedule.heap = [] ∧ schedule.next draws = none ∨
      ∃ event rest later, schedule.next draws = some (event, later) ∧
        Turn draws schedule event rest later := by
  cases heap : schedule.heap with
  | nil =>
      refine Or.inl ⟨rfl, ?_⟩
      rw [Schedule.next, heap]
  | cons event rest =>
      refine Or.inr ⟨event, rest, ?_⟩
      rw [Schedule.next, heap]
      exact ⟨_, rfl, heap, rfl, rfl, rfl⟩

/-- A run is over, or it goes on after a turn. -/
theorem take_cases (draws : Nat → ℚ) (schedule : Schedule) (count : Nat) :
    schedule.heap = [] ∧ schedule.take draws (count + 1) = ([], schedule) ∨
      ∃ event rest later, Turn draws schedule event rest later ∧
        schedule.take draws (count + 1) =
          (event :: (later.take draws count).1, (later.take draws count).2) := by
  rcases next_cases draws schedule with ⟨empty, next⟩ | ⟨event, rest, later, next, turn⟩
  · refine Or.inl ⟨empty, ?_⟩
    rw [Schedule.take, next]
  · refine Or.inr ⟨event, rest, later, turn, ?_⟩
    rw [Schedule.take, next]

end Steps

section Keys

variable {draws : Nat → ℚ} {schedule later : Schedule} {event : ScheduledEvent}
  {rest : List ScheduledEvent}

/-- Which of the entries of a session this is. -/
def ScheduledEvent.key (entry : ScheduledEvent) : Nat × Kind := (entry.sessionId, entry.kind)

/-- What is on the heap after a turn was there before, but for the time of one entry. -/
theorem Turn.mem_heap (turn : Turn draws schedule event rest later) {entry : ScheduledEvent} :
    entry ∈ later.heap ↔ entry ∈ rest ∨
      entry = { event with dueAt := (schedule.again draws event).1 } ∧
        (schedule.again draws event).1 ≤ (schedule.windows.getD event.sessionId (0, 0)).2 := by
  rw [turn.again]
  split
  · next within => simp only [mem_heappush, within, and_true, or_comm]
  · next past => simp only [past, and_false, or_false]

theorem Turn.nodup (turn : Turn draws schedule event rest later)
    (nodup : (schedule.heap.map ScheduledEvent.key).Nodup) :
    (later.heap.map ScheduledEvent.key).Nodup := by
  rw [turn.heap, List.map_cons] at nodup
  rw [turn.again]
  split
  · rw [((heappush_perm rest _).map ScheduledEvent.key).nodup_iff, List.map_cons]
    exact nodup
  · exact (List.nodup_cons.mp nodup).2

theorem take_nodup (draws : Nat → ℚ) (count : Nat) {schedule : Schedule}
    (nodup : (schedule.heap.map ScheduledEvent.key).Nodup) :
    ((schedule.take draws count).2.heap.map ScheduledEvent.key).Nodup := by
  induction count generalizing schedule with
  | zero => exact nodup
  | succ count ih =>
      rcases take_cases draws schedule count with ⟨-, taken⟩ | ⟨event, rest, later, turn, taken⟩
      · rw [taken]
        exact nodup
      · rw [taken]
        exact ih (turn.nodup nodup)

/-- A session has an entry of each kind at most. -/
theorem length_pending_le {heap : List ScheduledEvent}
    (nodup : (heap.map ScheduledEvent.key).Nodup) (sessionId : Nat) :
    (heap.filter fun entry => entry.sessionId = sessionId).length ≤ 2 := by
  have kinds : ((heap.filter fun entry => entry.sessionId = sessionId).map
      ScheduledEvent.kind).Nodup := by
    have keys := nodup.sublist ((List.filter_sublist (p := fun entry : ScheduledEvent =>
      entry.sessionId = sessionId)).map ScheduledEvent.key)
    have split : (heap.filter fun entry => entry.sessionId = sessionId).map ScheduledEvent.key =
        ((heap.filter fun entry => entry.sessionId = sessionId).map ScheduledEvent.kind).map
          fun kind => (sessionId, kind) := by
      rw [List.map_map]
      apply List.map_congr_left
      intro entry entryMem
      have own := of_decide_eq_true (List.mem_filter.mp entryMem).2
      simp only [ScheduledEvent.key, own, Function.comp_apply]
    rw [split] at keys
    exact keys.of_map
  have both : (heap.filter fun entry => entry.sessionId = sessionId).map ScheduledEvent.kind ⊆
      [.metrics, .logBurst] := by
    intro kind _
    cases kind <;> simp
  have within := (List.subperm_of_subset kinds both).length_le
  rw [List.length_map] at within
  exact within

end Keys

section Progress

variable {draws : Nat → ℚ} {schedule later : Schedule} {event : ScheduledEvent}
  {rest : List ScheduledEvent}

/-- How much later an event of this kind is due again at least. -/
def Cadence.slack (cadence : Cadence) : Kind → ℚ
  | .metrics => cadence.metricsIntervalSeconds
  | .logBurst => cadence.logBurstIntervalSeconds - cadence.logBurstJitterSeconds

/-- Whether each kind of event moves on. -/
def Cadence.Advances (cadence : Cadence) : Prop := ∀ kind, 0 < cadence.slack kind

theorem again_ge (within : WithinJitter schedule.cadence draws) (event : ScheduledEvent) :
    event.dueAt + schedule.cadence.slack event.kind ≤ (schedule.again draws event).1 := by
  have lower := (within schedule.drawn).1
  cases kind : event.kind with
  | metrics => simp only [Schedule.again, kind, Cadence.slack, le_refl]
  | logBurst =>
      simp only [Schedule.again, kind, Cadence.slack]
      linarith

theorem again_metrics (draws : Nat → ℚ) (schedule : Schedule) (isMetrics : event.kind = .metrics) :
    (schedule.again draws event).1 = event.dueAt + schedule.cadence.metricsIntervalSeconds := by
  simp only [Schedule.again, isMetrics]

/-- What is on the heap lies in its window. -/
def AllInWindow (schedule : Schedule) : Prop :=
  ∀ entry ∈ schedule.heap, InWindow schedule.windows entry

theorem getD_of_getElem? {windows : List (ℚ × ℚ)} {sessionId : Nat} {window : ℚ × ℚ}
    (found : windows[sessionId]? = some window) : windows.getD sessionId (0, 0) = window := by
  rw [List.getD_eq_getElem?_getD, found]
  rfl

theorem Turn.allInWindow (turn : Turn draws schedule event rest later)
    (within : WithinJitter schedule.cadence draws) (advances : schedule.cadence.Advances)
    (inWindow : AllInWindow schedule) : AllInWindow later := by
  intro entry entryMem
  rw [turn.windows]
  rcases turn.mem_heap.mp entryMem with old | ⟨rfl, notPast⟩
  · apply inWindow
    rw [turn.heap]
    exact List.mem_cons_of_mem event old
  · have eventMem : event ∈ schedule.heap := by
      rw [turn.heap]
      exact List.mem_cons_self
    rcases inWindow event eventMem with ⟨window, found, lower, upper⟩
    rw [getD_of_getElem? found] at notPast
    have moved := again_ge within event
    have positive := advances event.kind
    exact ⟨window, found, by linarith, notPast⟩

/-- How often an entry is due at most until its session stops. -/
def Schedule.turns (schedule : Schedule) (entry : ScheduledEvent) : Nat :=
  ⌊((schedule.windows.getD entry.sessionId (0, 0)).2 - entry.dueAt) /
    schedule.cadence.slack entry.kind⌋₊ + 1

def Schedule.allTurns (schedule : Schedule) : Nat := (schedule.heap.map schedule.turns).sum

theorem turns_again (within : WithinJitter schedule.cadence draws)
    (advances : schedule.cadence.Advances) (event : ScheduledEvent)
    (notPast : (schedule.again draws event).1 ≤
      (schedule.windows.getD event.sessionId (0, 0)).2) :
    schedule.turns { event with dueAt := (schedule.again draws event).1 } <
      schedule.turns event := by
  have positive := advances event.kind
  have moved := again_ge within event
  rw [Schedule.turns, Schedule.turns, Nat.add_lt_add_iff_right, ← Nat.succ_le_iff,
    Nat.succ_eq_add_one]
  have remaining : 0 ≤ ((schedule.windows.getD event.sessionId (0, 0)).2 -
      (schedule.again draws event).1) / schedule.cadence.slack event.kind := by
    apply div_nonneg _ positive.le
    linarith
  rw [← Nat.floor_add_one remaining]
  apply Nat.floor_le_floor
  rw [div_add_one positive.ne', div_le_div_iff_of_pos_right positive]
  linarith

theorem Turn.allTurns_lt (turn : Turn draws schedule event rest later)
    (within : WithinJitter schedule.cadence draws) (advances : schedule.cadence.Advances) :
    later.allTurns < schedule.allTurns := by
  have same : later.turns = schedule.turns := by
    funext entry
    rw [Schedule.turns, Schedule.turns, turn.windows, turn.cadence]
  rw [Schedule.allTurns, Schedule.allTurns, same, turn.heap, List.map_cons, List.sum_cons,
    turn.again]
  split
  · next notPast =>
      rw [((heappush_perm rest _).map schedule.turns).sum_eq, List.map_cons, List.sum_cons]
      exact Nat.add_lt_add_right (turns_again within advances event notPast) _
  · have positive : 0 < schedule.turns event := Nat.succ_pos _
    omega

/-- A schedule that moves on ends. -/
theorem take_finite (within : WithinJitter schedule.cadence draws)
    (advances : schedule.cadence.Advances) {count : Nat} (enough : schedule.allTurns ≤ count) :
    (schedule.take draws count).2.heap = [] := by
  induction count generalizing schedule with
  | zero =>
      rcases next_cases draws schedule with ⟨empty, -⟩ | ⟨event, rest, later, -, turn⟩
      · exact empty
      · have fewer := turn.allTurns_lt within advances
        omega
  | succ count ih =>
      rcases take_cases draws schedule count with ⟨empty, taken⟩ | ⟨event, rest, later, turn, taken⟩
      · rw [taken]
        exact empty
      · have fewer := turn.allTurns_lt within advances
        rw [taken]
        rw [← turn.cadence] at within advances
        exact ih within advances (by omega)

theorem take_within (within : WithinJitter schedule.cadence draws)
    (advances : schedule.cadence.Advances) (inWindow : AllInWindow schedule) (count : Nat) :
    ∀ event ∈ (schedule.take draws count).1, InWindow schedule.windows event := by
  induction count generalizing schedule with
  | zero => exact nofun
  | succ count ih =>
      rcases take_cases draws schedule count with ⟨-, taken⟩ | ⟨first, rest, later, turn, taken⟩
      · rw [taken]
        exact nofun
      · rw [taken]
        intro event eventMem
        rcases List.mem_cons.mp eventMem with rfl | eventMem
        · apply inWindow
          rw [turn.heap]
          exact List.mem_cons_self
        · have allInWindow := turn.allInWindow within advances inWindow
          rw [← turn.cadence] at within advances
          rw [← turn.windows]
          exact ih within advances allInWindow event eventMem

end Progress

section Metrics

variable {draws : Nat → ℚ} {schedule later : Schedule} {event : ScheduledEvent}
  {rest : List ScheduledEvent}

/-- The times of the metrics exports of a session that are still to come. -/
def Schedule.metricsAhead (schedule : Schedule) (sessionId : Nat) (stopAt : ℚ) (times : List ℚ) :
    Prop :=
  (∀ entry ∈ schedule.heap, entry.sessionId = sessionId → entry.kind = .metrics →
      times = entry.dueAt ::
        metricsTimes entry.dueAt stopAt schedule.cadence.metricsIntervalSeconds) ∧
    ((∀ entry ∈ schedule.heap, entry.sessionId = sessionId → entry.kind ≠ .metrics) → times = [])

theorem metricsOf_cons_self {sessionId : Nat} (own : event.sessionId = sessionId)
    (isMetrics : event.kind = .metrics) (events : List ScheduledEvent) :
    metricsOf sessionId (event :: events) = event.dueAt :: metricsOf sessionId events := by
  simp [metricsOf, own, isMetrics]

theorem metricsOf_cons_other {sessionId : Nat}
    (other : event.sessionId = sessionId → event.kind ≠ .metrics) (events : List ScheduledEvent) :
    metricsOf sessionId (event :: events) = metricsOf sessionId events := by
  have differs : ¬(event.sessionId = sessionId ∧ event.kind = .metrics) := fun both =>
    other both.1 both.2
  simp [metricsOf, differs]

/-- A turn takes the first of the times when it is one of a metrics export of the session. -/
theorem Turn.metricsAhead (turn : Turn draws schedule event rest later)
    (positive : 0 < schedule.cadence.metricsIntervalSeconds)
    (nodup : (schedule.heap.map ScheduledEvent.key).Nodup) {sessionId : Nat} {window : ℚ × ℚ}
    (found : schedule.windows[sessionId]? = some window) {events : List ScheduledEvent}
    (ahead : later.metricsAhead sessionId window.2 (metricsOf sessionId events)) :
    schedule.metricsAhead sessionId window.2 (metricsOf sessionId (event :: events)) := by
  rcases ahead with ⟨pending, none⟩
  rw [turn.cadence] at pending
  rw [turn.heap, List.map_cons, List.nodup_cons] at nodup
  by_cases own : event.sessionId = sessionId ∧ event.kind = .metrics
  · rcases own with ⟨own, isMetrics⟩
    have alone : ∀ entry ∈ rest, entry.sessionId = sessionId → entry.kind ≠ .metrics := by
      intro entry entryMem same sameKind
      apply nodup.1
      have sameKey : entry.key = event.key := by
        rw [ScheduledEvent.key, ScheduledEvent.key, same, sameKind, own, isMetrics]
      rw [← sameKey]
      exact List.mem_map_of_mem entryMem
    have times : metricsOf sessionId (event :: events) = event.dueAt ::
        metricsTimes event.dueAt window.2 schedule.cadence.metricsIntervalSeconds := by
      rw [metricsOf_cons_self own isMetrics]
      congr 1
      by_cases notPast : event.dueAt + schedule.cadence.metricsIntervalSeconds ≤ window.2
      · have pushed : { event with dueAt := (schedule.again draws event).1 } ∈ later.heap := by
          apply turn.mem_heap.mpr
          refine Or.inr ⟨rfl, ?_⟩
          rw [own, getD_of_getElem? found, again_metrics draws schedule isMetrics]
          exact notPast
        rw [metricsTimes_of_le positive notPast, pending _ pushed own isMetrics,
          again_metrics draws schedule isMetrics]
      · rw [metricsTimes_of_lt positive (not_le.mp notPast)]
        apply none
        intro entry entryMem
        rcases turn.mem_heap.mp entryMem with old | ⟨-, notPast'⟩
        · exact alone entry old
        · rw [own, getD_of_getElem? found, again_metrics draws schedule isMetrics] at notPast'
          exact absurd notPast' notPast
    refine ⟨?_, ?_⟩
    · intro entry entryMem same sameKind
      rw [turn.heap] at entryMem
      rcases List.mem_cons.mp entryMem with rfl | old
      · exact times
      · exact absurd sameKind (alone entry old same)
    · intro absent
      exact absurd isMetrics (absent event (by rw [turn.heap]; exact List.mem_cons_self) own)
  · have other : event.sessionId = sessionId → event.kind ≠ .metrics := fun same isMetrics =>
      own ⟨same, isMetrics⟩
    rw [metricsOf_cons_other other]
    refine ⟨?_, ?_⟩
    · intro entry entryMem same sameKind
      rw [turn.heap] at entryMem
      rcases List.mem_cons.mp entryMem with rfl | old
      · exact absurd sameKind (other same)
      · exact pending entry (turn.mem_heap.mpr (Or.inl old)) same sameKind
    · intro absent
      apply none
      intro entry entryMem
      rcases turn.mem_heap.mp entryMem with old | ⟨rfl, -⟩
      · apply absent
        rw [turn.heap]
        exact List.mem_cons_of_mem event old
      · exact other

theorem take_metrics (positive : 0 < schedule.cadence.metricsIntervalSeconds)
    (nodup : (schedule.heap.map ScheduledEvent.key).Nodup) {sessionId : Nat} {window : ℚ × ℚ}
    (found : schedule.windows[sessionId]? = some window) {count : Nat}
    (ended : (schedule.take draws count).2.heap = []) :
    schedule.metricsAhead sessionId window.2
      (metricsOf sessionId (schedule.take draws count).1) := by
  have atEnd {schedule : Schedule} (empty : schedule.heap = []) :
      schedule.metricsAhead sessionId window.2 (metricsOf sessionId []) := by
    refine ⟨?_, fun _ => rfl⟩
    rw [empty]
    exact nofun
  induction count generalizing schedule with
  | zero => exact atEnd ended
  | succ count ih =>
      rcases take_cases draws schedule count with ⟨empty, taken⟩ | ⟨event, rest, later, turn, taken⟩
      · rw [taken]
        exact atEnd empty
      · rw [taken] at ended ⊢
        apply turn.metricsAhead positive nodup found
        rw [← turn.cadence] at positive
        rw [← turn.windows] at found
        exact ih positive (turn.nodup nodup) found ended

end Metrics

section Start

variable (draws : Nat → ℚ) (cadence : Cadence) (windows : List (ℚ × ℚ))

/-- The first log burst of a session. -/
def firstLogBurst (startAt : ℚ) (sessionId : Nat) : ℚ :=
  max startAt (startAt + cadence.logBurstIntervalSeconds + draws sessionId)

/-- The entries that a session starts with. -/
def StartsWith (window : ℚ × ℚ) (sessionId : Nat) (entry : ScheduledEvent) : Prop :=
  entry = ⟨window.1 + cadence.metricsIntervalSeconds, sessionId, .metrics⟩ ∧
      window.1 + cadence.metricsIntervalSeconds ≤ window.2 ∨
    entry = ⟨firstLogBurst draws cadence window.1 sessionId, sessionId, .logBurst⟩ ∧
      firstLogBurst draws cadence window.1 sessionId ≤ window.2

variable {draws cadence windows}

theorem startSession_spec (heap : List ScheduledEvent) (window : ℚ × ℚ) (sessionId : Nat) :
    (startSession draws cadence (heap, sessionId) (window, sessionId)).2 = sessionId + 1 ∧
      (∀ entry, entry ∈ (startSession draws cadence (heap, sessionId) (window, sessionId)).1 ↔
        entry ∈ heap ∨ StartsWith draws cadence window sessionId entry) := by
  refine ⟨rfl, ?_⟩
  intro entry
  simp only [startSession, StartsWith, firstLogBurst]
  split
  · next metrics =>
      split
      · next logBurst =>
          simp only [mem_heappush, metrics, logBurst, and_true]
          tauto
      · next logBurst =>
          simp only [mem_heappush, metrics, logBurst, and_true, and_false]
          tauto
  · next metrics =>
      split
      · next logBurst =>
          simp only [mem_heappush, metrics, logBurst, and_true, and_false]
          tauto
      · next logBurst => simp only [metrics, logBurst, and_false, or_false]

theorem startSession_nodup {heap : List ScheduledEvent} {window : ℚ × ℚ} {sessionId : Nat}
    (nodup : (heap.map ScheduledEvent.key).Nodup)
    (earlier : ∀ entry ∈ heap, entry.sessionId < sessionId) :
    ((startSession draws cadence (heap, sessionId) (window, sessionId)).1.map
      ScheduledEvent.key).Nodup := by
  have push {heap : List ScheduledEvent} {entry : ScheduledEvent}
      (nodup : (heap.map ScheduledEvent.key).Nodup)
      (fresh : ∀ other ∈ heap, other.key ≠ entry.key) :
      ((heappush heap entry).map ScheduledEvent.key).Nodup := by
    rw [((heappush_perm heap entry).map ScheduledEvent.key).nodup_iff, List.map_cons,
      List.nodup_cons]
    refine ⟨?_, nodup⟩
    intro keyMem
    rcases List.mem_map.mp keyMem with ⟨other, otherMem, same⟩
    exact fresh other otherMem same
  have apart (kind : Kind) (dueAt : ℚ) : ∀ other ∈ heap,
      other.key ≠ (⟨dueAt, sessionId, kind⟩ : ScheduledEvent).key := by
    intro other otherMem same
    exact absurd (congrArg Prod.fst same) (earlier other otherMem).ne
  have metrics : ((if window.1 + cadence.metricsIntervalSeconds ≤ window.2 then
      heappush heap ⟨window.1 + cadence.metricsIntervalSeconds, sessionId, .metrics⟩
      else heap).map ScheduledEvent.key).Nodup := by
    split
    · exact push nodup (apart .metrics _)
    · exact nodup
  simp only [startSession]
  split
  · apply push metrics
    intro other otherMem
    split at otherMem
    · rcases mem_heappush.mp otherMem with rfl | old
      · simp [ScheduledEvent.key]
      · exact apart .logBurst _ other old
    · exact apart .logBurst _ other otherMem
  · exact metrics

/-- What is on the heap before the first event. -/
theorem start_spec (draws : Nat → ℚ) (cadence : Cadence) (windows : List (ℚ × ℚ)) :
    (windows.zipIdx.foldl (startSession draws cadence) ([], 0)).2 = windows.length ∧
      (∀ entry, entry ∈ (windows.zipIdx.foldl (startSession draws cadence) ([], 0)).1 ↔
        ∃ window, windows[entry.sessionId]? = some window ∧
          StartsWith draws cadence window entry.sessionId entry) ∧
      ((windows.zipIdx.foldl (startSession draws cadence) ([], 0)).1.map
        ScheduledEvent.key).Nodup := by
  induction windows using List.reverseRecOn with
  | nil => exact ⟨rfl, by simp, List.nodup_nil⟩
  | append_singleton windows window ih =>
      rcases ih with ⟨drawn, mem, nodup⟩
      have state : windows.zipIdx.foldl (startSession draws cadence) ([], 0) =
          ((windows.zipIdx.foldl (startSession draws cadence) ([], 0)).1, windows.length) :=
        Prod.ext rfl drawn
      have last : ((windows ++ [window]).zipIdx.foldl (startSession draws cadence) ([], 0)) =
          startSession draws cadence ((windows.zipIdx.foldl (startSession draws cadence) ([], 0)).1,
            windows.length) (window, windows.length) := by
        rw [List.zipIdx_append, List.foldl_append, state, zero_add]
        rfl
      have earlier : ∀ entry ∈ (windows.zipIdx.foldl (startSession draws cadence) ([], 0)).1,
          entry.sessionId < windows.length := by
        intro entry entryMem
        rcases (mem entry).mp entryMem with ⟨_, found, -⟩
        exact (List.getElem?_eq_some_iff.mp found).1
      rw [last]
      refine ⟨?_, ?_, startSession_nodup nodup earlier⟩
      · rw [(startSession_spec _ window windows.length).1, List.length_append,
          List.length_singleton]
      · intro entry
        rw [(startSession_spec _ window windows.length).2, mem]
        constructor
        · rintro (⟨old, found, starts⟩ | starts)
          · exact ⟨old, List.getElem?_append_left (List.getElem?_eq_some_iff.mp found).1 ▸ found,
              starts⟩
          · have own : entry.sessionId = windows.length := by
              rcases starts with ⟨rfl, -⟩ | ⟨rfl, -⟩ <;> rfl
            rw [← own] at starts
            exact ⟨window, by simp [own], starts⟩
        · rintro ⟨old, found, starts⟩
          rw [List.getElem?_append] at found
          split at found
          · exact Or.inl ⟨old, found, starts⟩
          · next late =>
              rw [List.getElem?_singleton] at found
              split at found
              · next zero =>
                  have own : entry.sessionId = windows.length := by omega
                  rw [Option.some.inj found, ← own]
                  exact Or.inr starts
              · cases found

theorem sessionWindows_ordered {repr : ℚ → Str} {sessions : Int}
    {rampSeconds holdSeconds rampDownSeconds : ℚ}
    (windowed : sessionWindows repr sessions rampSeconds holdSeconds rampDownSeconds =
      .ok windows) : windows ≠ [] ∧ ∀ window ∈ windows, window.1 ≤ window.2 := by
  rw [sessionWindows] at windowed
  split at windowed
  · cases windowed
  · next some =>
      split at windowed
      · cases windowed
      · next nonneg =>
          simp only [not_or, not_lt] at some nonneg
          have positive : (0 : ℚ) < sessions := Int.cast_pos.mpr (by omega)
          rw [← Except.ok.inj windowed]
          refine ⟨?_, ?_⟩
          · intro empty
            have none := congrArg List.length empty
            simp only [List.length_map, List.length_range, List.length_nil] at none
            omega
          · intro window windowMem
            rcases List.mem_map.mp windowMem with ⟨i, iMem, rfl⟩
            have less : (i : ℚ) ≤ sessions := by
              have below := List.mem_range.mp iMem
              have below' : (i : Int) ≤ sessions := by omega
              exact_mod_cast below'
            have fraction : (i : ℚ) / sessions ≤ 1 := (div_le_one positive).mpr less
            have fraction' : 0 ≤ (i : ℚ) / sessions := div_nonneg (Nat.cast_nonneg i) positive.le
            have start := mul_le_mul_of_nonneg_left fraction nonneg.1
            have stop := mul_nonneg nonneg.2.2 fraction'
            simp only
            linarith

end Start

section Decision

variable {draws : Nat → ℚ} {cadence : Cadence} {windows : List (ℚ × ℚ)}

/-- What `iter_schedule` accepts. -/
def Cadence.Accepted (cadence : Cadence) : Prop :=
  0 < cadence.metricsIntervalSeconds ∧ 0 < cadence.logBurstIntervalSeconds ∧
    0 ≤ cadence.logBurstJitterSeconds

/-- The generator before its first event. -/
def started (draws : Nat → ℚ) (windows : List (ℚ × ℚ)) (cadence : Cadence) : Schedule :=
  ⟨windows, cadence, (windows.zipIdx.foldl (startSession draws cadence) ([], 0)).1,
    (windows.zipIdx.foldl (startSession draws cadence) ([], 0)).2⟩

theorem iterSchedule_ok_iff {repr : ℚ → Str} {schedule : Schedule} :
    iterSchedule draws repr windows cadence = .ok schedule ↔
      cadence.Accepted ∧ schedule = started draws windows cadence := by
  rw [iterSchedule, Cadence.Accepted]
  split
  · next metrics => simp [not_lt.mpr metrics]
  · next metrics =>
      split
      · next logBurst => simp [not_lt.mpr logBurst]
      · next logBurst =>
          split
          · next jitter => simp [not_le.mpr jitter]
          · next jitter =>
              rw [not_le] at metrics logBurst
              rw [not_lt] at jitter
              simp only [metrics, logBurst, jitter, and_self, true_and, Except.ok.injEq]
              exact eq_comm

theorem started_allInWindow (positive : 0 < cadence.metricsIntervalSeconds) :
    AllInWindow (started draws windows cadence) := by
  intro entry entryMem
  rcases ((start_spec draws cadence windows).2.1 entry).mp entryMem with ⟨window, found, starts⟩
  refine ⟨window, found, ?_⟩
  rcases starts with ⟨same, notPast⟩ | ⟨same, notPast⟩
  · have dueAt := congrArg ScheduledEvent.dueAt same
    simp only at dueAt
    rw [dueAt]
    exact ⟨by linarith, notPast⟩
  · have dueAt := congrArg ScheduledEvent.dueAt same
    simp only at dueAt
    rw [dueAt]
    exact ⟨le_max_left _ _, notPast⟩

theorem started_metrics (positive : 0 < cadence.metricsIntervalSeconds) {sessionId : Nat}
    {window : ℚ × ℚ} (found : windows[sessionId]? = some window) {times : List ℚ}
    (ahead : (started draws windows cadence).metricsAhead sessionId window.2 times) :
    times = metricsTimes window.1 window.2 cadence.metricsIntervalSeconds := by
  have mem := (start_spec draws cadence windows).2.1
  by_cases notPast : window.1 + cadence.metricsIntervalSeconds ≤ window.2
  · rw [metricsTimes_of_le positive notPast]
    exact ahead.1 ⟨window.1 + cadence.metricsIntervalSeconds, sessionId, .metrics⟩
      ((mem _).mpr ⟨window, found, Or.inl ⟨rfl, notPast⟩⟩) rfl rfl
  · rw [metricsTimes_of_lt positive (not_le.mp notPast)]
    apply ahead.2
    intro entry entryMem own isMetrics
    rcases (mem entry).mp entryMem with ⟨other, found', starts⟩
    rw [own, found, Option.some.injEq] at found'
    rw [← found'] at starts
    rcases starts with ⟨-, notPast'⟩ | ⟨same, -⟩
    · exact notPast notPast'
    · rw [same] at isMetrics
      cases isMetrics

/-- A schedule whose log bursts move on is orderly. -/
theorem started_orderly (within : WithinJitter cadence draws)
    (positive : 0 < cadence.metricsIntervalSeconds)
    (shorter : cadence.logBurstJitterSeconds < cadence.logBurstIntervalSeconds) :
    Orderly draws (started draws windows cadence) := by
  have advances : cadence.Advances := by
    intro kind
    cases kind with
    | metrics => exact positive
    | logBurst => exact sub_pos.mpr shorter
  have nodup : ((started draws windows cadence).heap.map ScheduledEvent.key).Nodup :=
    (start_spec draws cadence windows).2.2
  refine ⟨?_, ?_, ?_, ?_, ?_⟩
  · exact ⟨_, take_finite within advances (le_refl _)⟩
  · exact take_within within advances (started_allInWindow positive)
  · intro count
    exact length_pending_le (take_nodup draws count nodup)
  · intro count
    exact take_nodup draws count nodup
  · intro count ended sessionId window found
    exact started_metrics positive found (take_metrics positive nodup found ended)

/-- A log burst that is put back where it was stays on the heap. -/
theorem take_stuck {schedule : Schedule} {entry : ScheduledEvent}
    (isLogBurst : entry.kind = .logBurst)
    (back : ∀ drawn, draws drawn = -schedule.cadence.logBurstIntervalSeconds)
    (notPast : entry.dueAt ≤ (schedule.windows.getD entry.sessionId (0, 0)).2)
    (entryMem : entry ∈ schedule.heap) (count : Nat) :
    entry ∈ (schedule.take draws count).2.heap := by
  induction count generalizing schedule with
  | zero => exact entryMem
  | succ count ih =>
      rcases take_cases draws schedule count with ⟨empty, -⟩ | ⟨event, rest, later, turn, taken⟩
      · rw [empty] at entryMem
        cases entryMem
      · rw [taken]
        have stays : entry ∈ later.heap := by
          rw [turn.heap] at entryMem
          apply turn.mem_heap.mpr
          rcases List.mem_cons.mp entryMem with rfl | old
          · have same : (schedule.again draws entry).1 = entry.dueAt := by
              simp only [Schedule.again, isLogBurst, back]
              ring
            rw [same]
            exact Or.inr ⟨rfl, notPast⟩
          · exact Or.inl old
        rw [← turn.cadence] at back
        rw [← turn.windows] at notPast
        exact ih back notPast stays

/-- Jitter as long as the interval can keep the first session at its start. -/
theorem started_stuck (nonempty : windows ≠ []) (ordered : ∀ window ∈ windows, window.1 ≤ window.2)
    (back : ∀ drawn, draws drawn = -cadence.logBurstIntervalSeconds) :
    ¬Orderly draws (started draws windows cadence) := by
  intro orderly
  rcases orderly.finite with ⟨count, ended⟩
  cases windows with
  | nil => exact nonempty rfl
  | cons window windows =>
      have first : firstLogBurst draws cadence window.1 0 = window.1 := by
        rw [firstLogBurst, back, add_neg_cancel_right, max_self]
      have notPast := ordered window List.mem_cons_self
      have entryMem : ⟨window.1, 0, .logBurst⟩ ∈
          (started draws (window :: windows) cadence).heap := by
        apply ((start_spec draws cadence (window :: windows)).2.1 _).mpr
        refine ⟨window, rfl, Or.inr ?_⟩
        rw [first]
        exact ⟨rfl, notPast⟩
      have stuck := take_stuck rfl back notPast entryMem count
      rw [ended] at stuck
      cases stuck

/-- The schedule is orderly whatever jitter is drawn exactly when the jitter is shorter than the
interval of the log bursts. -/
theorem orderly_iff {repr : ℚ → Str} {sessions : Int}
    {rampSeconds holdSeconds rampDownSeconds : ℚ}
    (windowed : sessionWindows repr sessions rampSeconds holdSeconds rampDownSeconds =
      .ok windows) (accepted : cadence.Accepted) :
    (∀ draws, WithinJitter cadence draws →
        ∃ schedule, iterSchedule draws repr windows cadence = .ok schedule ∧
          Orderly draws schedule) ↔
      cadence.logBurstJitterSeconds < cadence.logBurstIntervalSeconds := by
  rcases sessionWindows_ordered windowed with ⟨nonempty, ordered⟩
  constructor
  · intro orderly
    by_contra longer
    rcases accepted with ⟨-, logBurst, jitter⟩
    have within : WithinJitter cadence fun _ => -cadence.logBurstIntervalSeconds := by
      intro drawn
      exact ⟨by linarith, by linarith⟩
    rcases orderly _ within with ⟨schedule, generated, runs⟩
    rw [(iterSchedule_ok_iff.mp generated).2] at runs
    exact started_stuck nonempty ordered (fun _ => rfl) runs
  · intro shorter draws within
    exact ⟨_, iterSchedule_ok_iff.mpr ⟨accepted, rfl⟩,
      started_orderly within accepted.1 shorter⟩

/-- Jitter of half the interval does no harm. -/
theorem orderly_halfJitter : ∃ schedule,
    iterSchedule (fun _ => -5) (fun _ => []) [(0, 120)] ⟨60, 10, 5⟩ = .ok schedule ∧
      Orderly (fun _ => -5) schedule := by
  have windowed : sessionWindows (fun _ => []) 1 0 120 0 = .ok [(0, 120)] := by decide +kernel
  have accepted : (Cadence.mk 60 10 5).Accepted := by simp [Cadence.Accepted]
  apply (orderly_iff windowed accepted).mpr
  · simp only
    norm_num
  · intro drawn
    simp only
    norm_num

/-- Jitter of the whole interval can keep the log bursts at the start of the session. -/
theorem not_orderly_wholeJitter : ¬∀ draws, WithinJitter ⟨60, 10, 10⟩ draws → ∃ schedule,
    iterSchedule draws (fun _ => []) [(0, 120)] ⟨60, 10, 10⟩ = .ok schedule ∧
      Orderly draws schedule := by
  intro orderly
  have within : WithinJitter ⟨60, 10, 10⟩ fun _ => -10 := by
    intro drawn
    simp only
    norm_num
  rcases orderly _ within with ⟨schedule, generated, runs⟩
  rw [(iterSchedule_ok_iff.mp generated).2] at runs
  apply started_stuck (List.cons_ne_nil _ _) _ _ runs
  · intro window windowMem
    rw [List.mem_singleton.mp windowMem]
    norm_num
  · exact fun _ => rfl

end Decision

end PerfTest
