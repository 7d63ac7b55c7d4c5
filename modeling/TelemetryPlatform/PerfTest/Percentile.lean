import Mathlib.Data.List.GetD
import TelemetryPlatform.Library.Interpolation
import TelemetryPlatform.PerfTest.Snapshot

/-!
# Percentiles

`_percentile` of `scripts/perf_loadgen.py` interpolates between the samples around a
rank. In `percentileOrRaise` its subscripts raise where Python's do; on samples
that ascend and percentages from 0 to 100 none does. The result ascends with the percentage
from the first sample to the last, so that the percentiles of a snapshot are in order
and within the range of what was sampled.
-/

namespace PerfTest

open Python Interpolation

section Subscripts

/-- `samples[index]`, where an index below zero counts from the end. -/
def subscript (samples : List ℚ) (index : Int) : Except Exc ℚ :=
  let index := if index < 0 then index + samples.length else index
  if index < 0 then .error .indexError
  else match samples[index.toNat]? with
    | some value => .ok value
    | none => .error .indexError

/-- `int(rank)`. -/
def truncate (rank : ℚ) : Int := if 0 ≤ rank then ⌊rank⌋ else ⌈rank⌉

/-- `_percentile`, with the exceptions of its subscripts. -/
def percentileOrRaise (sortedSamples : List ℚ) (pct : ℚ) : Except Exc ℚ :=
  if sortedSamples = [] then .ok 0
  else if sortedSamples.length = 1 then subscript sortedSamples 0
  else
    let rank := (sortedSamples.length - 1 : ℚ) * (pct / 100)
    let lower := ⌊rank⌋
    let upper := ⌈rank⌉
    if lower = upper then subscript sortedSamples (truncate rank)
    else do
      let lowerWeight := (← subscript sortedSamples lower) * (upper - rank)
      let upperWeight := (← subscript sortedSamples upper) * (rank - lower)
      return lowerWeight + upperWeight

/-- The index is one of the samples, counted from the front. -/
def InRange (samples : List ℚ) (index : Int) : Prop := 0 ≤ index ∧ index < samples.length

variable {samples : List ℚ} {pct later : ℚ}

theorem subscript_inRange {index : Int} (inRange : InRange samples index) :
    subscript samples index = .ok (samples.getD index.toNat 0) := by
  rcases inRange with ⟨nonneg, less⟩
  have below : index.toNat < samples.length := by omega
  rw [subscript, if_neg (not_lt.mpr nonneg), if_neg (not_lt.mpr nonneg),
    List.getElem?_eq_getElem below, List.getD_eq_getElem _ _ below]

end Subscripts

section Ranks

variable {samples : List ℚ} {pct later : ℚ}

/-- The sample at an index. -/
def sampleAt (samples : List ℚ) (index : Int) : ℚ := samples.getD index.toNat 0

/-- The rank of a percentage. -/
def rankOf (samples : List ℚ) (pct : ℚ) : ℚ := (samples.length - 1 : ℚ) * (pct / 100)

/-- The rank that `percentile` takes, from a length that is an integer. -/
theorem rank_eq (samples : List ℚ) (pct : ℚ) :
    (((samples.length : Int) - 1 : Int) : ℚ) * (pct / 100) = rankOf samples pct := by
  rw [rankOf, Int.cast_sub, Int.cast_natCast, Int.cast_one]

theorem ascends_sampleAt (ascending : samples.Pairwise (· ≤ ·)) :
    Ascends (sampleAt samples) ((samples.length : Int) - 1) := by
  intro i j nonneg le within
  have first : i.toNat < samples.length := by omega
  have second : j.toNat < samples.length := by omega
  rw [sampleAt, sampleAt, List.getD_eq_getElem _ _ first, List.getD_eq_getElem _ _ second]
  rcases le.eq_or_lt with rfl | less
  · rfl
  · exact List.pairwise_iff_getElem.mp ascending i.toNat j.toNat first second (by omega)

theorem rankOf_mono (nonempty : samples ≠ []) (less : pct ≤ later) :
    rankOf samples pct ≤ rankOf samples later := by
  have counted : (1 : ℚ) ≤ samples.length := by
    exact_mod_cast List.length_pos_iff.mpr nonempty
  apply mul_le_mul_of_nonneg_left
  · linarith
  · linarith

theorem rankOf_zero (samples : List ℚ) : rankOf samples 0 = ((0 : Int) : ℚ) := by
  simp [rankOf]

theorem rankOf_hundred (samples : List ℚ) :
    rankOf samples 100 = (((samples.length : Int) - 1 : Int) : ℚ) := by
  rw [rankOf, div_self (by norm_num), mul_one]
  norm_num

/-- A percentage from 0 to 100 has a rank from the first sample to the last. -/
theorem rankOf_within (nonempty : samples ≠ []) (nonneg : 0 ≤ pct) (within : pct ≤ 100) :
    0 ≤ rankOf samples pct ∧ rankOf samples pct ≤ (((samples.length : Int) - 1 : Int) : ℚ) := by
  constructor
  · have start := rankOf_mono nonempty nonneg
    rwa [rankOf_zero, Int.cast_zero] at start
  · rw [← rankOf_hundred]
    exact rankOf_mono nonempty within

theorem inRange_floor (nonempty : samples ≠ []) (nonneg : 0 ≤ pct) (within : pct ≤ 100) :
    InRange samples ⌊rankOf samples pct⌋ ∧ InRange samples ⌈rankOf samples pct⌉ := by
  rcases rankOf_within nonempty nonneg within with ⟨start, stop⟩
  have floor := Int.floor_nonneg.mpr start
  have ceil := Int.ceil_le.mpr stop
  have between := Int.floor_le_ceil (rankOf samples pct)
  constructor
  · constructor <;> omega
  · constructor <;> omega

/-- The percentile is the interpolation at the rank of the percentage. -/
theorem percentile_eq (nonempty : samples ≠ []) (pct : ℚ) :
    percentile samples pct = interpolate (sampleAt samples) (rankOf samples pct) := by
  by_cases single : samples.length = 1
  · have first : rankOf samples pct = ((0 : Int) : ℚ) := by
      simp [rankOf, single]
    rw [percentile, if_neg nonempty, if_pos single, first, interpolate_intCast]
    rfl
  · rw [percentile, if_neg nonempty, if_neg single]
    simp only [rank_eq]
    rfl

/-- No subscript raises. -/
theorem percentileOrRaise_eq_ok (nonempty : samples ≠ []) (nonneg : 0 ≤ pct)
    (within : pct ≤ 100) : percentileOrRaise samples pct = .ok (percentile samples pct) := by
  rcases inRange_floor nonempty nonneg within with ⟨lower, upper⟩
  have start := (rankOf_within nonempty nonneg within).1
  rw [percentileOrRaise, percentile, if_neg nonempty, if_neg nonempty]
  by_cases single : samples.length = 1
  · have only : InRange samples 0 := by
      constructor <;> omega
    rw [if_pos single, if_pos single]
    exact subscript_inRange only
  · have rank : (samples.length - 1 : ℚ) * (pct / 100) = rankOf samples pct := rfl
    rw [if_neg single, if_neg single]
    simp only [rank, rank_eq, Floats.floor, Floats.ceil]
    by_cases same : ⌊rankOf samples pct⌋ = ⌈rankOf samples pct⌉
    · rw [if_pos same, if_pos same, truncate, if_pos start]
      exact subscript_inRange lower
    · rw [if_neg same, if_neg same, subscript_inRange lower, subscript_inRange upper]
      rfl

theorem percentile_mono (nonempty : samples ≠ []) (ascending : samples.Pairwise (· ≤ ·))
    (nonneg : 0 ≤ pct) (less : pct ≤ later) (within : later ≤ 100) :
    percentile samples pct ≤ percentile samples later := by
  rw [percentile_eq nonempty, percentile_eq nonempty]
  apply interpolate_mono (ascends_sampleAt ascending)
  · exact (rankOf_within nonempty nonneg (less.trans within)).1
  · exact rankOf_mono nonempty less
  · exact (rankOf_within nonempty (nonneg.trans less) within).2

theorem percentile_zero (nonempty : samples ≠ []) :
    percentile samples 0 = samples.head nonempty := by
  rw [percentile_eq nonempty, rankOf_zero, interpolate_intCast, sampleAt]
  simp [List.head_eq_getElem, List.length_pos_iff.mpr nonempty]

theorem percentile_hundred (nonempty : samples ≠ []) :
    percentile samples 100 = samples.getLast nonempty := by
  have counted := List.length_pos_iff.mpr nonempty
  have final : ((samples.length : Int) - 1).toNat < samples.length := by omega
  rw [percentile_eq nonempty, rankOf_hundred, interpolate_intCast, sampleAt,
    List.getD_eq_getElem _ _ final, List.getLast_eq_getElem]
  congr 1
  omega

end Ranks

section Snapshots

variable {σ : Type} {randint : σ → Nat → Nat × σ} {settings : Settings ℚ}

/-- The percentiles are in order, and within the range of the samples. -/
structure Percentiles.Within (values : Percentiles ℚ) (samples : List ℚ) : Prop where
  p50_le : values.p50 ≤ values.p90
  p90_le : values.p90 ≤ values.p99
  low : samples ≠ [] → ∃ sample ∈ samples, sample ≤ values.p50
  high : samples ≠ [] → ∃ sample ∈ samples, values.p99 ≤ sample

theorem within_percentiles (samples : List ℚ) : (percentiles samples).Within samples := by
  have ascending : samples.mergeSort.Pairwise (· ≤ ·) := by
    have sorted : samples.mergeSort.Pairwise fun a b => decide (a ≤ b) = true :=
      List.pairwise_mergeSort (by simpa using fun a b c => le_trans) (by simpa using le_total)
        samples
    simpa using sorted
  by_cases nonempty : samples.mergeSort = []
  · have empty : samples = [] := by
      have counted := congrArg List.length nonempty
      rw [List.length_mergeSort] at counted
      exact List.length_eq_zero_iff.mp counted
    have zero (pct : ℚ) : percentile samples.mergeSort pct = 0 := by
      rw [percentile, if_pos nonempty]
    refine ⟨?_, ?_, fun some => absurd empty some, fun some => absurd empty some⟩
    · rw [percentiles, zero, zero]
    · rw [percentiles, zero, zero, zero]
  · refine ⟨?_, ?_, fun _ => ?_, fun _ => ?_⟩
    · exact percentile_mono nonempty ascending (by norm_num) (by norm_num) (by norm_num)
    · exact percentile_mono nonempty ascending (by norm_num) (by norm_num) (by norm_num)
    · refine ⟨_, List.mem_mergeSort.mp (List.head_mem nonempty), ?_⟩
      rw [← percentile_zero]
      exact percentile_mono nonempty ascending le_rfl (by norm_num) (by norm_num)
    · refine ⟨_, List.mem_mergeSort.mp (List.getLast_mem nonempty), ?_⟩
      rw [← percentile_hundred]
      exact percentile_mono nonempty ascending (by norm_num) (by norm_num) le_rfl

/-- A reservoir that has room holds some of what it was offered. -/
structure Reservoir.Holds (reservoir : Reservoir ℚ) (offered : List ℚ) : Prop where
  room : 1 ≤ reservoir.capacity
  nonempty : offered ≠ [] → reservoir.samples ≠ []
  sampled : ∀ sample ∈ reservoir.samples, sample ∈ offered

theorem Reservoir.Holds.offer {reservoir : Reservoir ℚ} {offered : List ℚ}
    (holds : reservoir.Holds offered) (randint : σ → Nat → Nat × σ) (rng : σ) (value : ℚ) :
    (reservoir.offer randint rng value).1.Holds (offered ++ [value]) := by
  rcases holds with ⟨room, nonempty, sampled⟩
  have old : ∀ sample ∈ reservoir.samples, sample ∈ offered ++ [value] := fun sample sampleMem =>
    List.mem_append_left _ (sampled sample sampleMem)
  unfold Reservoir.offer
  dsimp only
  split_ifs with space chosen
  · refine ⟨room, fun _ => List.append_ne_nil_of_right_ne_nil _ (List.cons_ne_nil _ _), ?_⟩
    intro sample sampleMem
    rcases List.mem_append.mp sampleMem with before | new
    · exact old sample before
    · exact List.mem_append_right _ new
  · refine ⟨room, fun _ => ?_, ?_⟩
    · intro empty
      have counted := congrArg List.length empty
      rw [List.length_set, List.length_nil] at counted
      omega
    · intro sample sampleMem
      rcases List.mem_or_eq_of_mem_set sampleMem with before | rfl
      · exact old sample before
      · exact List.mem_append_right _ (List.mem_singleton_self _)
  · refine ⟨room, fun _ => ?_, old⟩
    intro empty
    rw [empty, List.length_nil] at space
    omega

theorem Reservoir.holds_empty {capacity : Nat} (room : 1 ≤ capacity) :
    (⟨capacity, [], 0⟩ : Reservoir ℚ).Holds [] :=
  ⟨room, fun some => absurd rfl some, fun _ sampleMem => sampleMem⟩

/-- The reservoir of a bucket, which is made when the first outcome of the bucket comes. -/
def ResultsAggregator.reservoirAt (aggregator : ResultsAggregator ℚ σ) (index : Int) :
    Reservoir ℚ :=
  (dictGet? aggregator.bucketReservoirs index).getD
    ⟨aggregator.settings.maxSamplesPerBucket, [], 0⟩

/-- What was offered to the reservoirs of an aggregator that was fed these outcomes. -/
structure Sampled (settings : Settings ℚ) (pairs : List (RequestOutcome ℚ × ℚ))
    (aggregator : ResultsAggregator ℚ σ) : Prop where
  configured : aggregator.settings = settings
  all : aggregator.globalReservoir.Holds (latencies (pairs.map Prod.fst))
  each : ∀ index, (aggregator.reservoirAt index).Holds
    (latencies (valuesAt (indexed settings.bucketSeconds pairs) index))

theorem Sampled.init (settings : Settings ℚ) (rng : σ) :
    Sampled settings [] (ResultsAggregator.init settings rng) :=
  ⟨rfl, Reservoir.holds_empty settings.maxLatencySamples_pos,
    fun _ => Reservoir.holds_empty settings.maxSamplesPerBucket_pos⟩

theorem Sampled.record {pairs : List (RequestOutcome ℚ × ℚ)} {aggregator : ResultsAggregator ℚ σ}
    (sampled : Sampled settings pairs aggregator) (randint : σ → Nat → Nat × σ)
    (outcome : RequestOutcome ℚ) (elapsed : ℚ) :
    Sampled settings (pairs ++ [(outcome, elapsed)])
      (aggregator.record randint outcome elapsed) := by
  rcases sampled with ⟨configured, all, each⟩
  refine ⟨configured, ?_, ?_⟩
  · have offered := all.offer randint aggregator.rng outcome.latencySeconds
    rw [List.map_append, latencies, List.map_append]
    exact offered
  · intro index
    rw [indexed, List.map_append, valuesAt_append, ← indexed]
    by_cases same : bucketIndex aggregator.settings.bucketSeconds elapsed = index
    · have offered := (each index).offer randint
        (aggregator.globalReservoir.offer randint aggregator.rng outcome.latencySeconds).2
        outcome.latencySeconds
      have here : (aggregator.record randint outcome elapsed).reservoirAt index =
          ((aggregator.reservoirAt index).offer randint (aggregator.globalReservoir.offer randint
            aggregator.rng outcome.latencySeconds).2 outcome.latencySeconds).1 := by
        rw [← same]
        simp only [ResultsAggregator.record, ResultsAggregator.reservoirAt, dictGet?_dictSet,
          if_true, Option.getD_some]
      rw [here]
      rw [configured] at same
      simpa [valuesAt, latencies, same] using offered
    · have here : (aggregator.record randint outcome elapsed).reservoirAt index =
          aggregator.reservoirAt index := by
        simp only [ResultsAggregator.record, ResultsAggregator.reservoirAt, dictGet?_dictSet,
          if_neg same]
      rw [here]
      rw [configured] at same
      simpa [valuesAt, same] using each index

/-- What was offered after a run. -/
theorem Sampled.feed (randint : σ → Nat → Nat × σ) (settings : Settings ℚ) (rng : σ)
    (pairs : List (RequestOutcome ℚ × ℚ)) :
    Sampled settings pairs ((ResultsAggregator.init settings rng).feed randint pairs) := by
  induction pairs using List.reverseRecOn with
  | nil => exact Sampled.init settings rng
  | append_singleton pairs pair ih =>
      rw [ResultsAggregator.feed, List.foldl_append]
      exact ih.record randint pair.1 pair.2

/-- The percentiles that an aggregator reports are in order, within the range of the samples of
the reservoir they are taken from, and, for the whole run, between the reported extremes. -/
structure InOrder (aggregator : ResultsAggregator ℚ σ) (snapshot : Manifest ℚ) : Prop where
  all : ∃ values : Percentiles ℚ, values.Within aggregator.globalReservoir.samples ∧
    snapshot.latencyMs.p50 = some (values.p50 * 1000) ∧
    snapshot.latencyMs.p90 = some (values.p90 * 1000) ∧
    snapshot.latencyMs.p99 = some (values.p99 * 1000) ∧
    ∃ low high, snapshot.latencyMs.min = some (low * 1000) ∧
      snapshot.latencyMs.max = some (high * 1000) ∧ low ≤ values.p50 ∧ values.p99 ≤ high
  each : ∀ block ∈ snapshot.buckets, ∃ index : Int, ∃ reservoir,
    ∃ values : Percentiles ℚ,
    block.bucketStartSeconds = index * aggregator.settings.bucketSeconds ∧
    dictGet? aggregator.bucketReservoirs index = some reservoir ∧
    reservoir.samples ≠ [] ∧ values.Within reservoir.samples ∧
    block.latencyMs = values.inMilliseconds

/-- The percentiles of the whole run are between its extremes. -/
theorem between_extremes {samples offered : List ℚ} {values : Percentiles ℚ}
    (within : values.Within samples) (sampled : ∀ sample ∈ samples, sample ∈ offered)
    (nonempty : samples ≠ []) :
    least 0 offered ≤ values.p50 ∧ values.p99 ≤ greatest offered := by
  rcases within.low nonempty with ⟨first, firstMem, low⟩
  rcases within.high nonempty with ⟨final, finalMem, high⟩
  constructor
  · exact (least_le 0 (sampled first firstMem)).trans low
  · exact high.trans (least_le (α := ℚᵒᵈ) 0 (sampled final finalMem))

theorem inOrder_snapshot (randint : σ → Nat → Nat × σ) (settings : Settings ℚ) (rng : σ)
    (pairs : List (RequestOutcome ℚ × ℚ)) :
    InOrder ((ResultsAggregator.init settings rng).feed randint pairs)
      ((ResultsAggregator.init settings rng).feed randint pairs).snapshot := by
  have aggregates := Aggregates.feed randint settings rng pairs
  have sampled := Sampled.feed randint settings rng pairs
  generalize (ResultsAggregator.init settings rng).feed randint pairs = aggregator at *
  constructor
  · have within := within_percentiles aggregator.globalReservoir.samples
    rcases aggregates.extremes_snapshot with ⟨smallest, largest⟩
    refine ⟨_, within, rfl, rfl, rfl, _, _, smallest, largest, ?_⟩
    by_cases nonempty : aggregator.globalReservoir.samples = []
    · have none : latencies (pairs.map Prod.fst) = [] := by
        by_contra some
        exact sampled.all.nonempty some nonempty
      have zero : percentiles ([] : List ℚ) = ⟨0, 0, 0⟩ := by simp [percentiles, percentile]
      rw [none, nonempty, zero]
      exact ⟨le_rfl, le_rfl⟩
    · exact between_extremes within sampled.all.sampled nonempty
  · intro block blockMem
    rcases List.mem_map.mp blockMem with ⟨index, indexMem, rfl⟩
    rw [List.mem_mergeSort, aggregates.buckets, List.map_map] at indexMem
    have known : valuesAt (indexed settings.bucketSeconds pairs) index ≠ [] := by
      rw [Ne, valuesAt_eq_nil_iff, not_not, ← (grouped_grouping _).keys]
      exact indexMem
    have offered : latencies (valuesAt (indexed settings.bucketSeconds pairs) index) ≠ [] := by
      rwa [Ne, latencies, List.map_eq_nil_iff]
    have nonempty := (sampled.each index).nonempty offered
    cases found : dictGet? aggregator.bucketReservoirs index with
    | none =>
        rw [ResultsAggregator.reservoirAt, found] at nonempty
        exact absurd rfl nonempty
    | some reservoir =>
        rw [ResultsAggregator.reservoirAt, found] at nonempty
        exact ⟨index, reservoir, _, rfl, found, nonempty, within_percentiles _, rfl⟩

end Snapshots

/-- On samples that ascend no subscript of `_percentile` raises, and its result ascends with the
percentage from the first sample at 0 to the last at 100. So the percentiles of every snapshot are
in order and within the range of what was sampled. -/
theorem percentiles_ordered {samples : List ℚ} {pct later : ℚ} (nonempty : samples ≠ [])
    (ascending : samples.Pairwise (· ≤ ·)) (nonneg : 0 ≤ pct) (less : pct ≤ later)
    (within : later ≤ 100) :
    (∃ low high, percentileOrRaise samples pct = .ok low ∧
      percentileOrRaise samples later = .ok high ∧
      samples.head nonempty ≤ low ∧ low ≤ high ∧ high ≤ samples.getLast nonempty ∧
      (pct = 0 → low = samples.head nonempty) ∧
      (later = 100 → high = samples.getLast nonempty)) ∧
    ∀ (σ : Type) (randint : σ → Nat → Nat × σ) (settings : Settings ℚ) (rng : σ)
      (pairs : List (RequestOutcome ℚ × ℚ)),
      InOrder ((ResultsAggregator.init settings rng).feed randint pairs)
        ((ResultsAggregator.init settings rng).feed randint pairs).snapshot := by
  refine ⟨⟨_, _, percentileOrRaise_eq_ok nonempty nonneg (less.trans within),
    percentileOrRaise_eq_ok nonempty (nonneg.trans less) within, ?_, ?_, ?_, ?_, ?_⟩,
    fun σ randint settings rng pairs => inOrder_snapshot randint settings rng pairs⟩
  · rw [← percentile_zero]
    exact percentile_mono nonempty ascending le_rfl nonneg (less.trans within)
  · exact percentile_mono nonempty ascending nonneg less within
  · rw [← percentile_hundred]
    exact percentile_mono nonempty ascending (nonneg.trans less) within le_rfl
  · rintro rfl
    exact percentile_zero nonempty
  · rintro rfl
    exact percentile_hundred nonempty

theorem percentiles_ordered_sample :
    ∃ low high, percentileOrRaise [1, 2, 4] 25 = .ok low ∧
      percentileOrRaise [1, 2, 4] 90 = .ok high ∧ 1 ≤ low ∧ low ≤ high ∧ high ≤ 4 := by
  have nonempty : ([1, 2, 4] : List ℚ) ≠ [] := List.cons_ne_nil _ _
  have ascending : ([1, 2, 4] : List ℚ).Pairwise (· ≤ ·) := by decide
  have less : (25 : ℚ) ≤ 90 := by norm_num
  rcases (percentiles_ordered nonempty ascending (by norm_num) less (by norm_num)).1 with
    ⟨low, high, first, second, least, ordered, greatest, -, -⟩
  exact ⟨low, high, first, second, least, ordered, greatest⟩

end PerfTest
