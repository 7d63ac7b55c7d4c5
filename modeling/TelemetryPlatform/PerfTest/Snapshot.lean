import Mathlib.Algebra.Order.Field.Rat
import Mathlib.Tactic.Ring
import TelemetryPlatform.PerfTest.Aggregator

/-!
# What an aggregator knows

The counters, the extremes and the buckets of an aggregator as functions of the
outcomes it was fed. They do not depend on the order of the outcomes.
-/

namespace PerfTest

open Python
open Deploy (strLe strLe_trans strLe_total strLe_antisymm)

theorem sortsKeys_strLe : SortsKeys strLe :=
  ⟨strLe_trans, strLe_total, fun _ _ => strLe_antisymm⟩

theorem sortsKeys_intLe : SortsKeys intLe := sortsKeys_le

section Outcomes

/-- The keys of a bucket that are documented as exact. -/
structure ExactBucket (F : Type) where
  start : F
  requests : Int
  records : Int
  errors : Int
  requestsPerSecond : F
  recordsPerSecond : F
  errorRate : F
  byKind : List (Str × Int)
  deriving DecidableEq

variable {F : Type}

def BucketBlock.exact (bucket : BucketBlock F) : ExactBucket F :=
  ⟨bucket.bucketStartSeconds, bucket.requests, bucket.records, bucket.errors,
    bucket.requestsPerSecond, bucket.recordsPerSecond, bucket.errorRate, bucket.byKind.getD []⟩

variable (outcomes : List (RequestOutcome F))

def countErrors : Int := (outcomes.countP fun outcome => outcome.error.isSome : Nat)

def sumRecords : Int := (outcomes.map RequestOutcome.recordCount).sum

def kindPairs : List (Str × Int) := outcomes.map fun outcome => (outcome.kind, 1)

def statusPairs : List (Str × Int) := outcomes.map fun outcome => (numeral outcome.status, 1)

def latencies : List F := outcomes.map RequestOutcome.latencySeconds

/-- The totals of the outcomes. -/
def totalsOf [Zero F] [Floats F] : Totals F where
  totalRequests := some outcomes.length
  totalRecords := some (sumRecords outcomes)
  totalErrors := some (countErrors outcomes)
  errorRate := some (errorRate (countErrors outcomes) outcomes.length)
  statusCounts := some (sortedByKey strLe (tally (statusPairs outcomes)))
  byKind := some (sortedByKey strLe (tally (kindPairs outcomes)))

/-- The bucket of the outcomes. -/
def bucketOf [Zero F] [IntCast F] [Mul F] [Div F] [Floats F] (bucketSeconds : F) (index : Int) :
    ExactBucket F where
  start := index * bucketSeconds
  requests := outcomes.length
  records := sumRecords outcomes
  errors := countErrors outcomes
  requestsPerSecond := ((outcomes.length : Int) : F) / bucketSeconds
  recordsPerSecond := sumRecords outcomes / bucketSeconds
  errorRate := errorRate (countErrors outcomes) outcomes.length
  byKind := sortedByKey strLe (tally (kindPairs outcomes))

/-- The outcomes with the indices of their buckets. -/
def indexed [Floats F] (bucketSeconds : F) (pairs : List (RequestOutcome F × F)) :
    List (Int × RequestOutcome F) :=
  pairs.map fun pair => (bucketIndex bucketSeconds pair.2, pair.1)

end Outcomes

section Buckets

variable {F : Type} [Zero F] [Add F]

/-- The state of a bucket after these outcomes. -/
def bucketAfter (outcomes : List (RequestOutcome F)) : Bucket F :=
  outcomes.foldl Bucket.add Bucket.empty

theorem bucketAfter_concat (outcomes : List (RequestOutcome F)) (outcome : RequestOutcome F) :
    bucketAfter (outcomes ++ [outcome]) = (bucketAfter outcomes).add outcome := by
  rw [bucketAfter, List.foldl_append]
  rfl

theorem countErrors_concat {F : Type} (outcomes : List (RequestOutcome F))
    (outcome : RequestOutcome F) :
    countErrors (outcomes ++ [outcome]) =
      if outcome.error.isSome then countErrors outcomes + 1 else countErrors outcomes := by
  rw [countErrors, List.countP_append, List.countP_singleton]
  split <;> simp [countErrors]

theorem bucketAfter_counts (outcomes : List (RequestOutcome F)) :
    (bucketAfter outcomes).requests = outcomes.length ∧
      (bucketAfter outcomes).records = sumRecords outcomes ∧
        (bucketAfter outcomes).errors = countErrors outcomes ∧
          (bucketAfter outcomes).byKind = tally (kindPairs outcomes) := by
  induction outcomes using List.reverseRecOn with
  | nil => exact ⟨rfl, rfl, rfl, rfl⟩
  | append_singleton outcomes outcome ih =>
      rcases ih with ⟨requests, records, errors, byKind⟩
      rw [bucketAfter_concat]
      refine ⟨?_, ?_, ?_, ?_⟩
      · simp [Bucket.add, requests]
      · simp [Bucket.add, records, sumRecords]
      · rw [Bucket.add, errors, countErrors_concat]
      · rw [Bucket.add, byKind, kindPairs, kindPairs, List.map_append, List.map_singleton,
          tally_concat]

theorem exact_block [NatCast F] [IntCast F] [Sub F] [Mul F] [Div F] [Floats F] [LE F]
    [DecidableLE F] (outcomes : List (RequestOutcome F)) (bucketSeconds : F)
    (index : Int) (samples : List F) :
    ((bucketAfter outcomes).block bucketSeconds index samples).exact =
      bucketOf outcomes bucketSeconds index := by
  rcases bucketAfter_counts outcomes with ⟨requests, records, errors, byKind⟩
  simp only [Bucket.block, BucketBlock.exact, bucketOf, requests, records, errors, byKind,
    Option.getD_some]

end Buckets

section Aggregates

variable {F σ : Type} [Zero F] [LT F] [Add F] [Min F] [Max F] [Floats F]
  {randint : σ → Nat → Nat × σ} {settings : Settings F}

/-- What an aggregator with these settings has after these outcomes. -/
structure Aggregates (settings : Settings F)
    (pairs : List (RequestOutcome F × F)) (aggregator : ResultsAggregator F σ) : Prop where
  configured : aggregator.settings = settings
  requests : aggregator.totalRequests = pairs.length
  records : aggregator.totalRecords = sumRecords (pairs.map Prod.fst)
  errors : aggregator.totalErrors = countErrors (pairs.map Prod.fst)
  statuses : aggregator.statusCounts = tally (statusPairs (pairs.map Prod.fst))
  kinds : aggregator.byKindTotals = tally (kindPairs (pairs.map Prod.fst))
  smallest : aggregator.latencyMin = (latencies (pairs.map Prod.fst)).min?
  largest : aggregator.latencyMax = (latencies (pairs.map Prod.fst)).max?
  seen : aggregator.globalReservoir.seen = pairs.length
  buckets : aggregator.buckets = (grouping (indexed settings.bucketSeconds pairs)).map
    fun group => (group.1, bucketAfter group.2)

theorem seen_offer {F : Type} (randint : σ → Nat → Nat × σ) (reservoir : Reservoir F) (rng : σ)
    (value : F) :
    (reservoir.offer randint rng value).1.seen = reservoir.seen + 1 := by
  simp only [Reservoir.offer]
  split
  · rfl
  · split <;> rfl

theorem Aggregates.init (settings : Settings F) (rng : σ) :
    Aggregates settings [] (ResultsAggregator.init settings rng) :=
  ⟨rfl, rfl, rfl, rfl, rfl, rfl, rfl, rfl, rfl, rfl⟩

theorem Aggregates.record {pairs : List (RequestOutcome F × F)}
    {aggregator : ResultsAggregator F σ} (aggregates : Aggregates settings pairs aggregator)
    (outcome : RequestOutcome F) (elapsed : F) :
    Aggregates settings (pairs ++ [(outcome, elapsed)])
      (aggregator.record randint outcome elapsed) := by
  rcases aggregates with ⟨configured, requests, records, errors, statuses, kinds, smallest, largest,
    seen, buckets⟩
  refine ⟨configured, ?_, ?_, ?_, ?_, ?_, ?_, ?_, ?_, ?_⟩
  · simp [ResultsAggregator.record, requests]
  · simp [ResultsAggregator.record, records, sumRecords]
  · rw [List.map_append, List.map_singleton, countErrors_concat, ← errors]
    rfl
  · rw [List.map_append, List.map_singleton, statusPairs, List.map_append, List.map_singleton,
      tally_concat, ← statusPairs, ← statuses]
    rfl
  · rw [List.map_append, List.map_singleton, kindPairs, List.map_append, List.map_singleton,
      tally_concat, ← kindPairs, ← kinds]
    rfl
  · rw [List.map_append, List.map_singleton, latencies, List.map_append, List.map_singleton,
      ← latencies, min?_concat, ← smallest]
    cases known : aggregator.latencyMin <;> simp [ResultsAggregator.record, known]
  · rw [List.map_append, List.map_singleton, latencies, List.map_append, List.map_singleton,
      ← latencies, max?_concat, ← largest]
    cases known : aggregator.latencyMax <;> simp [ResultsAggregator.record, known]
  · have counted := seen_offer randint aggregator.globalReservoir aggregator.rng
      outcome.latencySeconds
    rw [seen] at counted
    simpa [ResultsAggregator.record] using counted
  · rw [indexed, List.map_append, List.map_singleton, grouping_concat, ← indexed]
    have step := dictSet_step bucketAfter_concat
      (grouping (indexed settings.bucketSeconds pairs))
      (bucketIndex settings.bucketSeconds elapsed) outcome
    rw [← buckets, ← configured] at step
    rw [← configured, ← step]
    rfl

/-- What an aggregator has after it was fed these outcomes. -/
theorem Aggregates.feed (randint : σ → Nat → Nat × σ) (settings : Settings F) (rng : σ)
    (pairs : List (RequestOutcome F × F)) :
    Aggregates settings pairs ((ResultsAggregator.init settings rng).feed randint pairs) := by
  induction pairs using List.reverseRecOn with
  | nil => exact Aggregates.init settings rng
  | append_singleton pairs pair ih =>
      rw [ResultsAggregator.feed, List.foldl_append]
      exact ih.record pair.1 pair.2

end Aggregates

section Snapshots

variable {F σ : Type} [Zero F] [LT F] [Add F] [Min F] [Max F] [Floats F] [NatCast F] [IntCast F]
  [Sub F] [Mul F] [Div F] [LE F] [DecidableLE F] {settings : Settings F}
  {pairs : List (RequestOutcome F × F)} {aggregator : ResultsAggregator F σ}

theorem orZero_eq {F : Type} [Zero F] [DecidableEq F] (value : Option F) :
    orZero value = value.getD 0 := by
  cases value with
  | none => rfl
  | some value =>
      simp only [orZero, Option.getD_some]
      split
      · next zero => exact zero.symm
      · rfl

/-- The indices of the buckets, in order. -/
def indices {F : Type} [Floats F] (bucketSeconds : F) (pairs : List (RequestOutcome F × F)) :
    List Int :=
  ((grouping (indexed bucketSeconds pairs)).map Prod.fst).mergeSort intLe

variable [DecidableEq F]

theorem Aggregates.totals_snapshot (aggregates : Aggregates settings pairs aggregator) :
    aggregator.snapshot.totals = totalsOf (pairs.map Prod.fst) := by
  simp only [ResultsAggregator.snapshot, totalsOf, aggregates.requests, aggregates.records,
    aggregates.errors, aggregates.statuses, aggregates.kinds, List.length_map]

theorem Aggregates.latencies_snapshot (aggregates : Aggregates settings pairs aggregator) :
    aggregator.snapshot.latencyMs.samplesSeen = some (pairs.length : Int) ∧
      aggregator.snapshot.latencyMs.min =
        some ((latencies (pairs.map Prod.fst)).min?.getD 0 * 1000) ∧
      aggregator.snapshot.latencyMs.max =
        some ((latencies (pairs.map Prod.fst)).max?.getD 0 * 1000) := by
  refine ⟨?_, ?_, ?_⟩
  · simp only [ResultsAggregator.snapshot, aggregates.seen]
  · simp only [ResultsAggregator.snapshot, orZero_eq, aggregates.smallest]
  · simp only [ResultsAggregator.snapshot, orZero_eq, aggregates.largest]

theorem Aggregates.buckets_snapshot (aggregates : Aggregates settings pairs aggregator) :
    aggregator.snapshot.buckets.map BucketBlock.exact =
      (indices settings.bucketSeconds pairs).map fun index =>
        bucketOf (valuesAt (indexed settings.bucketSeconds pairs) index)
          settings.bucketSeconds index := by
  have keys : aggregator.buckets.map Prod.fst =
      (grouping (indexed settings.bucketSeconds pairs)).map Prod.fst := by
    rw [aggregates.buckets, List.map_map]
    rfl
  have bucketAt (index : Int) : (dictGet? aggregator.buckets index).getD Bucket.empty =
      bucketAfter (valuesAt (indexed settings.bucketSeconds pairs) index) := by
    rw [← (grouped_grouping _).values, aggregates.buckets, dictGet?_map]
    cases dictGet? (grouping (indexed settings.bucketSeconds pairs)) index <;> rfl
  simp only [ResultsAggregator.snapshot, List.map_map, keys, indices]
  apply List.map_congr_left
  intro index _
  rw [Function.comp_apply, bucketAt, exact_block, aggregates.configured]

end Snapshots

section Extremes

variable {σ : Type} {settings : Settings ℚ} {pairs : List (RequestOutcome ℚ × ℚ)}
  {aggregator : ResultsAggregator ℚ σ}

/-- The largest element of a list, or zero. -/
def greatest (values : List ℚ) : ℚ := least (α := ℚᵒᵈ) 0 values

theorem Aggregates.extremes_snapshot (aggregates : Aggregates settings pairs aggregator) :
    aggregator.snapshot.latencyMs.min =
        some (least 0 (latencies (pairs.map Prod.fst)) * 1000) ∧
      aggregator.snapshot.latencyMs.max =
        some (greatest (latencies (pairs.map Prod.fst)) * 1000) :=
  aggregates.latencies_snapshot.2

end Extremes

section Indices

variable {F : Type} [Floats F] {bucketSeconds : F} {pairs : List (RequestOutcome F × F)}

theorem mem_indices {index : Int} : index ∈ indices bucketSeconds pairs ↔
    index ∈ (indexed bucketSeconds pairs).map Prod.fst := by
  rw [indices, (List.mergeSort_perm _ _).mem_iff, (grouped_grouping _).keys]

theorem nodup_indices : (indices bucketSeconds pairs).Nodup :=
  (List.mergeSort_perm _ _).nodup_iff.mpr (grouped_grouping _).nodup

/-- The buckets of the outcomes, in order. -/
def bucketsOf [Zero F] [IntCast F] [Mul F] [Div F] (bucketSeconds : F)
    (pairs : List (RequestOutcome F × F)) : List (ExactBucket F) :=
  (indices bucketSeconds pairs).map fun index =>
    bucketOf (valuesAt (indexed bucketSeconds pairs) index) bucketSeconds index

end Indices

section Order

variable {F : Type} {first second : List (RequestOutcome F)}

theorem countErrors_perm (same : first.Perm second) : countErrors first = countErrors second := by
  rw [countErrors, countErrors, same.countP_eq]

theorem sumRecords_perm (same : first.Perm second) : sumRecords first = sumRecords second :=
  (same.map RequestOutcome.recordCount).sum_eq

variable [Zero F] [Floats F]

theorem totalsOf_perm (same : first.Perm second) : totalsOf first = totalsOf second := by
  rw [totalsOf, totalsOf, same.length_eq, sumRecords_perm same, countErrors_perm same,
    statusPairs, statusPairs, kindPairs, kindPairs,
    sortsKeys_strLe.sorted_tally_perm (same.map fun outcome => (numeral outcome.status, (1 : Int))),
    sortsKeys_strLe.sorted_tally_perm (same.map fun outcome => (outcome.kind, (1 : Int)))]

variable [IntCast F] [Mul F] [Div F]

theorem bucketOf_perm (same : first.Perm second) (bucketSeconds : F) (index : Int) :
    bucketOf first bucketSeconds index = bucketOf second bucketSeconds index := by
  rw [bucketOf, bucketOf, same.length_eq, sumRecords_perm same, countErrors_perm same,
    kindPairs, kindPairs,
    sortsKeys_strLe.sorted_tally_perm (same.map fun outcome => (outcome.kind, (1 : Int)))]

theorem bucketsOf_perm {first second : List (RequestOutcome F × F)} (same : first.Perm second)
    (bucketSeconds : F) : bucketsOf bucketSeconds first = bucketsOf bucketSeconds second := by
  have same' : (indexed bucketSeconds first).Perm (indexed bucketSeconds second) := same.map _
  have sameIndices : indices bucketSeconds first = indices bucketSeconds second := by
    apply sortsKeys_intLe.mergeSort_eq (grouped_grouping _).nodup (grouped_grouping _).nodup
    intro index
    rw [(grouped_grouping _).keys, (grouped_grouping _).keys, (same'.map Prod.fst).mem_iff]
  rw [bucketsOf, bucketsOf, sameIndices]
  apply List.map_congr_left
  intro index _
  exact bucketOf_perm (valuesAt_perm same' index) bucketSeconds index

end Order

section Sample

def sampleSettings : Settings ℚ := ⟨1, 1, 1, by decide, by decide, by decide⟩

/-- The outcome that `_task` records when the dispatch raises. -/
def failedDispatch : RequestOutcome ℚ :=
  ⟨str "metrics", 0, 0, 0, some (str "internal-error: ")⟩

def servedRequest : RequestOutcome ℚ := ⟨str "metrics", 1 / 2, 200, 1, none⟩

def firstIndex (rng : Unit) (_ : Nat) : Nat × Unit := (0, rng)

end Sample

end PerfTest
