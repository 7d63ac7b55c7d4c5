import Mathlib.Algebra.Order.Field.Rat
import Mathlib.Data.List.Sort
import TelemetryPlatform.Deploy.Partition
import TelemetryPlatform.Library.Numeral

/-!
# The schedule of a load run

`session_windows` and `iter_schedule` of `scripts/perf_loadgen.py`. Rational numbers
stand for the floats. The generator `iter_schedule` is a state that `next` takes one
event further; the jitter that `rng.uniform` draws is a parameter of the run.
-/

namespace PerfTest

open Python
open Deploy (strLe)

section Data

inductive Kind where
  | metrics
  | logBurst
  deriving DecidableEq

/-- `_KIND_METRICS` and `_KIND_LOG_BURST`. -/
def Kind.text : Kind → Str
  | .metrics => str "metrics"
  | .logBurst => str "log_burst"

/-- A due action, and the tuple on the heap. -/
structure ScheduledEvent where
  dueAt : ℚ
  sessionId : Nat
  kind : Kind
  deriving DecidableEq

/-- The intervals of the events. -/
structure Cadence where
  metricsIntervalSeconds : ℚ
  logBurstIntervalSeconds : ℚ
  logBurstJitterSeconds : ℚ

/-- What the generator has between two events. -/
structure Schedule where
  windows : List (ℚ × ℚ)
  cadence : Cadence
  heap : List ScheduledEvent
  drawn : Nat

end Data

section Windows

-- The text of a float in the texts of errors.
variable (repr : ℚ → Str)

def sessionWindows (sessions : Int) (rampSeconds holdSeconds rampDownSeconds : ℚ) :
    Except Exc (List (ℚ × ℚ)) :=
  if sessions < 1 then
    .error (.valueError (str "--sessions must be >= 1, got " ++ numeral sessions))
  else if rampSeconds < 0 ∨ holdSeconds < 0 ∨ rampDownSeconds < 0 then
    .error (.valueError
      (str "--ramp-seconds, --hold-seconds, and --ramp-down-seconds must all be >= 0 " ++
        str "(got ramp=" ++ repr rampSeconds ++ str ", hold=" ++ repr holdSeconds ++
          str ", ramp_down=" ++ repr rampDownSeconds ++ str ")"))
  else
    .ok ((List.range sessions.toNat).map fun i : Nat =>
      let fraction : ℚ := (i : ℚ) / sessions
      (rampSeconds * fraction, rampSeconds + holdSeconds + rampDownSeconds * fraction))

end Windows

section Heap

/-- The order of the tuples on the heap. -/
def ScheduledEvent.Before (first second : ScheduledEvent) : Prop :=
  first.dueAt < second.dueAt ∨ first.dueAt = second.dueAt ∧
    (first.sessionId < second.sessionId ∨ first.sessionId = second.sessionId ∧
      strLe first.kind.text second.kind.text = true)

instance : DecidableRel ScheduledEvent.Before := fun _ _ => inferInstanceAs (Decidable (_ ∨ _))

/-- A heap that is only pushed to and popped from is its entries in order. -/
def heappush (heap : List ScheduledEvent) (entry : ScheduledEvent) : List ScheduledEvent :=
  heap.orderedInsert ScheduledEvent.Before entry

end Heap

section Generation

variable (draws : Nat → ℚ)

/-- The first entries of a session. -/
def startSession (cadence : Cadence) (state : List ScheduledEvent × Nat)
    (session : (ℚ × ℚ) × Nat) : List ScheduledEvent × Nat :=
  let (heap, drawn) := state
  let ((startAt, stopAt), sessionId) := session
  let firstMetrics := startAt + cadence.metricsIntervalSeconds
  let heap := if firstMetrics ≤ stopAt then heappush heap ⟨firstMetrics, sessionId, .metrics⟩
    else heap
  let firstLogBurst := max startAt (startAt + cadence.logBurstIntervalSeconds + draws drawn)
  let heap := if firstLogBurst ≤ stopAt then heappush heap ⟨firstLogBurst, sessionId, .logBurst⟩
    else heap
  (heap, drawn + 1)

/-- The generator before its first event. -/
def iterSchedule (repr : ℚ → Str) (windows : List (ℚ × ℚ)) (cadence : Cadence) :
    Except Exc Schedule :=
  if cadence.metricsIntervalSeconds ≤ 0 then
    .error (.valueError (str "--metrics-interval-seconds must be > 0, got " ++
      repr cadence.metricsIntervalSeconds))
  else if cadence.logBurstIntervalSeconds ≤ 0 then
    .error (.valueError (str "--log-burst-interval-seconds must be > 0, got " ++
      repr cadence.logBurstIntervalSeconds))
  else if cadence.logBurstJitterSeconds < 0 then
    .error (.valueError (str "--log-burst-jitter-seconds must be >= 0, got " ++
      repr cadence.logBurstJitterSeconds))
  else
    let (heap, drawn) := windows.zipIdx.foldl (startSession draws cadence) ([], 0)
    .ok ⟨windows, cadence, heap, drawn⟩

/-- When an event of this kind is due again, and how much was drawn then. -/
def Schedule.again (schedule : Schedule) (event : ScheduledEvent) : ℚ × Nat :=
  match event.kind with
  | .metrics => (event.dueAt + schedule.cadence.metricsIntervalSeconds, schedule.drawn)
  | .logBurst =>
      (event.dueAt + schedule.cadence.logBurstIntervalSeconds + draws schedule.drawn,
        schedule.drawn + 1)

/-- One turn of `while heap`. The sessions on the heap are those of the windows. -/
def Schedule.next (schedule : Schedule) : Option (ScheduledEvent × Schedule) :=
  match schedule.heap with
  | [] => none
  | event :: heap =>
      let (_, stopAt) := schedule.windows.getD event.sessionId (0, 0)
      let (nextDue, drawn) := schedule.again draws event
      let heap := if nextDue ≤ stopAt then heappush heap { event with dueAt := nextDue } else heap
      some (event, { schedule with heap := heap, drawn := drawn })

/-- At most so many events, and what is left. -/
def Schedule.take : Nat → Schedule → List ScheduledEvent × Schedule
  | 0, schedule => ([], schedule)
  | count + 1, schedule =>
      match schedule.next draws with
      | none => ([], schedule)
      | some (event, later) =>
          let (events, last) := later.take count
          (event :: events, last)

end Generation

end PerfTest
