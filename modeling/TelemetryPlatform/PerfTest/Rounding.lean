import Mathlib.Algebra.Order.BigOperators.Group.List
import TelemetryPlatform.PerfTest.Conservation

/-!
# The mean between the extremes

In exact arithmetic the mean latency lies between the smallest and the largest one. On
doubles it is rounded, and lies between the means that as many copies of the smallest
and of the largest latency have. `feed_invariants` has this together with the counters,
the samples and what does not depend on the order of the calls.
-/

namespace PerfTest

open Python Binary64

section Specification

variable {σ : Type}

/-- The mean that the snapshot shows lies between the extremes it shows. -/
def MeanWithinExtremes {F : Type} [LE F] (results : Manifest F) : Prop :=
  ∃ min mean max, results.latencyMs.min = some min ∧ results.latencyMs.mean = some mean ∧
    results.latencyMs.max = some max ∧ min ≤ mean ∧ mean ≤ max

/-- The mean that the snapshot shows lies between those of as many copies of the smallest
latency and of the largest one. -/
def MeanWithinCopies (aggregator : ResultsAggregator Double σ) : Prop :=
  ∃ smallest mean largest, aggregator.latencyMin = some smallest ∧
    aggregator.snapshot.latencyMs.mean = some mean ∧ aggregator.latencyMax = some largest ∧
    meanOf (List.replicate aggregator.totalRequests.toNat smallest) ≤ mean ∧
    mean ≤ meanOf (List.replicate aggregator.totalRequests.toNat largest)

/-- What `record` needs of the time of a call: `int(elapsed_seconds // self._bucket_seconds)`. -/
def indexOrRaise (bucketSeconds elapsedSeconds : Double) : Except Exc Int :=
  let quotient := elapsedSeconds.floorDiv bucketSeconds
  match quotient.toInt? with
  | some index => .ok index
  | none =>
      .error (if quotient = .nan then .valueError (str "cannot convert float NaN to integer")
        else .overflowError)

/-- Calls of `record`, one after the other, until one raises. -/
def ResultsAggregator.feedOrRaise (randint : σ → Nat → Nat × σ)
    (aggregator : ResultsAggregator Double σ) (outcomes : List (RequestOutcome Double × Double)) :
    Except Exc (ResultsAggregator Double σ) :=
  outcomes.foldlM (fun aggregator pair => do
    let _ ← indexOrRaise aggregator.settings.bucketSeconds pair.2
    return aggregator.record randint pair.1 pair.2) aggregator

def FiniteLatencies (outcomes : List (RequestOutcome Double × Double)) : Prop :=
  ∀ pair ∈ outcomes, pair.1.latencySeconds.IsFinite

end Specification

section Raising

variable {σ : Type} {randint : σ → Nat → Nat × σ}

/-- The calls return when each of their times has a bucket, and then feed the aggregator. -/
theorem feedOrRaise_eq_ok_iff {aggregator result : ResultsAggregator Double σ}
    {pairs : List (RequestOutcome Double × Double)} :
    aggregator.feedOrRaise randint pairs = .ok result ↔
      (∀ pair ∈ pairs, (indexOrRaise aggregator.settings.bucketSeconds pair.2).isOk) ∧
        result = aggregator.feed randint pairs := by
  induction pairs generalizing aggregator with
  | nil =>
      simp only [ResultsAggregator.feedOrRaise, ResultsAggregator.feed, List.foldlM_nil,
        List.foldl_nil, List.not_mem_nil, false_implies, implies_true, true_and]
      exact ⟨fun same => (Except.ok.inj same).symm, fun same => congrArg Except.ok same.symm⟩
  | cons pair pairs ih =>
      have step : aggregator.feedOrRaise randint (pair :: pairs) =
          (indexOrRaise aggregator.settings.bucketSeconds pair.2).bind fun _ =>
            (aggregator.record randint pair.1 pair.2).feedOrRaise randint pairs := by
        rw [ResultsAggregator.feedOrRaise, List.foldlM_cons]
        cases indexOrRaise aggregator.settings.bucketSeconds pair.2 <;> rfl
      rw [step, List.forall_mem_cons]
      cases index : indexOrRaise aggregator.settings.bucketSeconds pair.2 with
      | error raised =>
          constructor
          · nofun
          · rintro ⟨⟨returns, -⟩, -⟩
            cases returns
      | ok index =>
          simp only [Except.isOk, Except.toBool, true_and]
          exact ih

end Raising

section Mean

variable {F σ : Type} [Zero F] [LT F] [Add F] [Min F] [Max F] [Floats F]

theorem latencySum_feed (randint : σ → Nat → Nat × σ) (settings : Settings F) (rng : σ)
    (pairs : List (RequestOutcome F × F)) :
    ((ResultsAggregator.init settings rng).feed randint pairs).latencySum =
      (latencies (pairs.map Prod.fst)).foldl (· + ·) 0 := by
  induction pairs using List.reverseRecOn with
  | nil => rfl
  | append_singleton pairs pair ih =>
      rw [feed_concat, List.map_append, latencies, List.map_append, List.foldl_append, ← latencies,
        ← ih]
      rfl

variable [NatCast F] [IntCast F] [Sub F] [Mul F] [Div F] [LE F] [DecidableLE F] [DecidableEq F]

theorem mean_feed (randint : σ → Nat → Nat × σ) (settings : Settings F) (rng : σ)
    {pairs : List (RequestOutcome F × F)} (nonempty : pairs ≠ []) :
    ((ResultsAggregator.init settings rng).feed randint pairs).snapshot.latencyMs.mean =
      some (meanOf (latencies (pairs.map Prod.fst))) := by
  have aggregates := Aggregates.feed randint settings rng pairs
  have length : (latencies (pairs.map Prod.fst)).length = pairs.length := by
    rw [latencies, List.length_map, List.length_map]
  have some : (pairs.length : Int) ≠ 0 := by
    rw [Int.natCast_ne_zero, ne_eq, List.length_eq_zero_iff]
    exact nonempty
  simp only [ResultsAggregator.snapshot, aggregates.requests, if_neg some, latencySum_feed, meanOf,
    length]

end Mean

section Rationals

variable {σ : Type}

theorem least_mul_length_le (values : List ℚ) : least 0 values * values.length ≤ values.sum := by
  rw [mul_comm, ← nsmul_eq_mul]
  exact List.card_nsmul_le_sum values _ fun value valueMem => least_le 0 valueMem

theorem sum_le_greatest_mul_length (values : List ℚ) :
    values.sum ≤ greatest values * values.length := by
  rw [mul_comm, ← nsmul_eq_mul]
  exact List.sum_le_card_nsmul values _ fun value valueMem => least_le (α := ℚᵒᵈ) 0 valueMem

theorem meanOf_eq (values : List ℚ) : meanOf values = values.sum / values.length * 1000 := by
  rw [meanOf, List.sum_eq_foldl, Int.cast_natCast]

theorem meanWithinExtremes_feed (randint : σ → Nat → Nat × σ) (settings : Settings ℚ) (rng : σ)
    {pairs : List (RequestOutcome ℚ × ℚ)} (nonempty : pairs ≠ []) :
    MeanWithinExtremes ((ResultsAggregator.init settings rng).feed randint pairs).snapshot := by
  have aggregates := Aggregates.feed randint settings rng pairs
  have positive : (0 : ℚ) < (latencies (pairs.map Prod.fst)).length := by
    rw [Nat.cast_pos, List.length_pos_iff, latencies, ne_eq, List.map_eq_nil_iff,
      List.map_eq_nil_iff]
    exact nonempty
  refine ⟨_, _, _, aggregates.extremes_snapshot.1, mean_feed randint settings rng nonempty,
    aggregates.extremes_snapshot.2, ?_, ?_⟩
  · rw [meanOf_eq]
    apply mul_le_mul_of_nonneg_right _ (by norm_num)
    exact (le_div_iff₀ positive).mpr (least_mul_length_le _)
  · rw [meanOf_eq]
    apply mul_le_mul_of_nonneg_right _ (by norm_num)
    exact (div_le_iff₀ positive).mpr (sum_le_greatest_mul_length _)

end Rationals

section Doubles

open Double (ofFinite)

variable {σ : Type} {values others : List {x : ℚ // IsDouble x}}

/-- A count that is a double is a positive one. -/
theorem exists_count {n : Nat} (positive : 0 < n) (counted : ((n : Int) : Double).IsFinite) :
    ∃ value isDouble, ((n : Int) : Double) = .finite value isDouble ∧ 0 < value := by
  rcases counted with ⟨value, isDouble, held⟩
  refine ⟨value, isDouble, held, ?_⟩
  have one_le : ((1 : Int) : Double) ≤ ((n : Int) : Double) :=
    Double.ofRat_mono (by exact_mod_cast positive)
  have one : ((1 : Int) : Double) = .finite 1 (by decide +kernel) := Double.ofRat_of_isDouble _
  rw [held, one, Double.finite_le_finite] at one_le
  linarith

theorem foldl_add_mono (pointwise : List.Forall₂ (· ≤ ·) values others) {x y : Double}
    (less : x ≤ y) :
    (values.map ofFinite).foldl (· + ·) x ≤ (others.map ofFinite).foldl (· + ·) y := by
  induction pointwise generalizing x y with
  | nil => exact less
  | cons head _ ih => exact ih (Double.add_mono less head)

/-- The mean grows with each latency. -/
theorem meanOf_mono (pointwise : List.Forall₂ (· ≤ ·) values others) (nonempty : values ≠ [])
    (counted : ((values.length : Int) : Double).IsFinite) :
    meanOf (values.map ofFinite) ≤ meanOf (others.map ofFinite) := by
  rcases exists_count (List.length_pos_iff.mpr nonempty) counted with
    ⟨count, countDouble, held, positive⟩
  have thousand : (1000 : Double) = .finite 1000 (by decide +kernel) := Double.ofRat_of_isDouble _
  have zero : (0 : Double) ≤ 0 := by decide +kernel
  rw [meanOf, meanOf, List.length_map, List.length_map, ← pointwise.length_eq, held, thousand]
  apply Double.mul_mono (by norm_num)
  apply Double.div_mono positive
  exact foldl_add_mono pointwise zero

theorem forall₂_replicate {α : Type} {r : α → α → Prop} {value : α} {others : List α}
    (each : ∀ other ∈ others, r value other) :
    List.Forall₂ r (List.replicate others.length value) others := by
  induction others with
  | nil => exact List.Forall₂.nil
  | cons head others ih =>
      rcases List.forall_mem_cons.mp each with ⟨first, rest⟩
      exact List.Forall₂.cons first (ih rest)

variable {pairs pairs' : List (RequestOutcome Double × Double)}

theorem FiniteLatencies.exists_values (finite : FiniteLatencies pairs) :
    ∃ values : List {x : ℚ // IsDouble x},
      latencies (pairs.map Prod.fst) = values.map ofFinite := by
  induction pairs with
  | nil => exact ⟨[], rfl⟩
  | cons pair pairs ih =>
      rcases List.forall_mem_cons.mp finite with ⟨head, rest⟩
      rcases Double.isFinite_iff.mp head with ⟨value, held⟩
      rcases ih rest with ⟨values, same⟩
      refine ⟨value :: values, ?_⟩
      rw [List.map_cons, latencies, List.map_cons, ← latencies, same, held, List.map_cons]

theorem meanWithinCopies_feed (randint : σ → Nat → Nat × σ) (settings : Settings Double) (rng : σ)
    (finite : FiniteLatencies pairs) (nonempty : pairs ≠ [])
    (counted : ((pairs.length : Int) : Double).IsFinite) :
    MeanWithinCopies ((ResultsAggregator.init settings rng).feed randint pairs) := by
  have aggregates := Aggregates.feed randint settings rng pairs
  have mean := mean_feed randint settings rng nonempty
  rcases finite.exists_values with ⟨values, same⟩
  have length : values.length = pairs.length := by
    have lengths := congrArg List.length same
    rw [latencies, List.length_map, List.length_map, List.length_map] at lengths
    exact lengths.symm
  have some : values ≠ [] := by
    rw [← List.length_pos_iff, length, List.length_pos_iff]
    exact nonempty
  rcases Option.ne_none_iff_exists'.mp (mt List.min?_eq_none_iff.mp some) with
    ⟨smallest, isSmallest⟩
  rcases Option.ne_none_iff_exists'.mp (mt List.max?_eq_none_iff.mp some) with
    ⟨largest, isLargest⟩
  have lowest := (List.min?_eq_some_iff.mp isSmallest).2
  have highest := (List.max?_eq_some_iff.mp isLargest).2
  have count : ((ResultsAggregator.init settings rng).feed randint pairs).totalRequests.toNat =
      values.length := by
    rw [aggregates.requests, Int.toNat_natCast, length]
  rw [← length] at counted
  rw [same] at mean
  refine ⟨ofFinite smallest, _, ofFinite largest, ?_, mean, ?_, ?_, ?_⟩
  · rw [aggregates.smallest, same, min?_map Double.ofFinite_min, isSmallest, Option.map_some]
  · rw [aggregates.largest, same, max?_map Double.ofFinite_max, isLargest, Option.map_some]
  · rw [count, ← List.map_replicate]
    apply meanOf_mono (forall₂_replicate lowest)
    · simpa using some
    · rw [List.length_replicate]
      exact counted
  · rw [count, ← List.map_replicate]
    exact meanOf_mono (forall₂_replicate (r := flip (· ≤ ·)) highest).flip some counted

/-- The order of the calls does not show in the extremes. -/
theorem sameExtremes_feed (randint randint' : σ → Nat → Nat × σ) (settings : Settings Double)
    (rng rng' : σ) (finite : FiniteLatencies pairs) (same : pairs.Perm pairs') :
    SameExtremes ((ResultsAggregator.init settings rng).feed randint pairs)
      ((ResultsAggregator.init settings rng').feed randint' pairs') := by
  have first := Aggregates.feed randint settings rng pairs
  have second := Aggregates.feed randint' settings rng' pairs'
  have finite' : FiniteLatencies pairs' := by
    intro pair pairMem
    exact finite pair (same.mem_iff.mpr pairMem)
  rcases finite.exists_values with ⟨values, held⟩
  rcases finite'.exists_values with ⟨values', held'⟩
  have sameValues : values.Perm values' := by
    have latencies_perm := (same.map Prod.fst).map RequestOutcome.latencySeconds
    rw [← latencies, ← latencies, held, held'] at latencies_perm
    exact (List.map_perm_map_iff Double.ofFinite_injective).mp latencies_perm
  refine ⟨?_, ?_⟩
  · rw [first.smallest, second.smallest, held, held', min?_map Double.ofFinite_min,
      min?_map Double.ofFinite_min, min?_perm sameValues]
  · rw [first.largest, second.largest, held, held', max?_map Double.ofFinite_max,
      max?_map Double.ofFinite_max, max?_perm sameValues]

end Doubles

/-- Every state of an aggregator conserves its counts and samples what it was offered. Its mean is
between those of copies of its extremes, and any other order of the calls and any other draws lead
to the same counts and extremes. In exact arithmetic its mean is between its extremes. -/
theorem feed_invariants {σ : Type} (randint : σ → Nat → Nat × σ) (settings : Settings Double)
    (rng : σ) (pairs : List (RequestOutcome Double × Double))
    {aggregator : ResultsAggregator Double σ}
    (fed : (ResultsAggregator.init settings rng).feedOrRaise randint pairs = .ok aggregator) :
    Conserved aggregator ∧ AllSampled settings pairs aggregator ∧
      (FiniteLatencies pairs → pairs ≠ [] → ((pairs.length : Int) : Double).IsFinite →
        MeanWithinCopies aggregator) ∧
      (∀ randint' rng' pairs', pairs.Perm pairs' → ∃ aggregator',
        (ResultsAggregator.init settings rng').feedOrRaise randint' pairs' = .ok aggregator' ∧
          SameCounts aggregator aggregator' ∧
          (FiniteLatencies pairs → SameExtremes aggregator aggregator')) ∧
      ∀ (settings : Settings ℚ) pairs, pairs ≠ [] → MeanWithinExtremes
        ((ResultsAggregator.init settings rng).feed randint pairs).snapshot := by
  rcases feedOrRaise_eq_ok_iff.mp fed with ⟨timed, rfl⟩
  refine ⟨?_, ?_, ?_, ?_, ?_⟩
  · exact (Aggregates.feed randint settings rng pairs).conserved
  · exact allSampled_feed randint settings rng pairs
  · exact meanWithinCopies_feed randint settings rng
  · intro randint' rng' pairs' same
    have timed' : ∀ pair ∈ pairs', (indexOrRaise settings.bucketSeconds pair.2).isOk :=
      fun pair pairMem => timed pair (same.mem_iff.mpr pairMem)
    exact ⟨_, feedOrRaise_eq_ok_iff.mpr ⟨timed', rfl⟩,
      sameCounts_feed randint randint' settings rng rng' same,
      fun finite => sameExtremes_feed randint randint' settings rng rng' finite same⟩
  · intro settings pairs nonempty
    exact meanWithinExtremes_feed randint settings rng nonempty

section Sample

theorem oneSecond_pos : (0 : Double) < 1 := by decide +kernel

/-- A second for each bucket, and room for two samples. -/
def secondsApart : Settings Double := ⟨1, 2, 1, oneSecond_pos, Nat.two_pos, Nat.one_pos⟩

/-- Served requests of a tenth of a second each. -/
def tenths (count : Nat) : List (RequestOutcome Double × Double) :=
  List.replicate count (⟨str "metrics", .ofRat (1 / 10), 200, 1, none⟩, .ofRat (1 / 2))

/-- Three latencies of a tenth of a second have a mean above them. -/
theorem not_meanWithinExtremes_tenths : ¬MeanWithinExtremes
    ((ResultsAggregator.init secondsApart ()).feed firstIndex (tenths 3)).snapshot := by
  rintro ⟨min, mean, max, -, isMean, isMax, -, below⟩
  have computedMean : ((ResultsAggregator.init secondsApart ()).feed firstIndex
      (tenths 3)).snapshot.latencyMs.mean = some (.ofRat 100.00000000000001) := by decide +kernel
  have computedMax : ((ResultsAggregator.init secondsApart ()).feed firstIndex
      (tenths 3)).snapshot.latencyMs.max = some 100 := by decide +kernel
  rw [computedMean, Option.some.injEq] at isMean
  rw [computedMax, Option.some.injEq] at isMax
  rw [← isMean, ← isMax] at below
  exact absurd below (by decide +kernel)

/-- A dispatch that raised and a request that was refused in the next bucket, besides them. -/
def mixedCalls : List (RequestOutcome Double × Double) :=
  [(⟨str "log_burst", 0, 0, 0, some (str "internal-error: ")⟩, 0),
    (⟨str "metrics", .ofRat (3 / 10), 503, 2, some (str "status=503 reason=")⟩, .ofRat (3 / 2))] ++
      tenths 3

theorem feed_invariants_mixed : ∃ aggregator,
    (ResultsAggregator.init secondsApart ()).feedOrRaise firstIndex mixedCalls = .ok aggregator ∧
      Conserved aggregator ∧ AllSampled secondsApart mixedCalls aggregator ∧
      MeanWithinCopies aggregator ∧
      ∃ aggregator', (ResultsAggregator.init secondsApart ()).feedOrRaise firstIndex
          mixedCalls.reverse = .ok aggregator' ∧
        SameCounts aggregator aggregator' ∧ SameExtremes aggregator aggregator' := by
  have timed : ∀ pair ∈ mixedCalls, (indexOrRaise secondsApart.bucketSeconds pair.2).isOk := by
    decide +kernel
  have finite : FiniteLatencies mixedCalls := by
    unfold FiniteLatencies
    decide +kernel
  have counted : ((mixedCalls.length : Int) : Double).IsFinite := by decide +kernel
  have fed : (ResultsAggregator.init secondsApart ()).feedOrRaise firstIndex mixedCalls = _ :=
    feedOrRaise_eq_ok_iff.mpr ⟨timed, rfl⟩
  rcases feed_invariants firstIndex secondsApart () mixedCalls fed with
    ⟨conserved, sampled, mean, order, -⟩
  rcases order firstIndex () _ (List.reverse_perm mixedCalls).symm with
    ⟨aggregator', fed', counts, extremes⟩
  exact ⟨_, fed, conserved, sampled, mean finite (by decide) counted,
    aggregator', fed', counts, extremes finite⟩

end Sample

end PerfTest
