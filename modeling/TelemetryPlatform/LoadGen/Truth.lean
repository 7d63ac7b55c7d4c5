import Mathlib.Algebra.GroupWithZero.Nat
import TelemetryPlatform.Library.Packing
import TelemetryPlatform.Library.WholeRuntime
import TelemetryPlatform.LoadGen.Run

/-!
# What the manifest and the exit code say

The verifier trusts the manifest of a run and the workflow its exit code.
`truthful_iff` says when both can be trusted: the events arrive in the requests once
and in order, the counts are those of the accepted records, and a run succeeds only
when its requests did what its mode is about. Two conditions are needed. A batch that
is exactly as long as the limit is let through, and a burst that is never limited ends
like one that is.
-/

namespace LoadGen

open Python Packing

variable {rt : Runtime} {wire : Wire}

/-- The batches carry the events, each once and in order, and stay below the limit. -/
structure Chunked (specs : List EventSpec) (maxBytes : Int) (plans : List RequestPlan) : Prop where
  concat : plans.flatMap RequestPlan.specs = specs
  nonempty : ∀ plan ∈ plans, plan.specs ≠ []
  below : ∀ plan ∈ plans, 2 ≤ plan.specs.length → (plan.body.length : Int) < maxBytes

/-- The records that were accepted on a path that lands in the lake. -/
def landed (results : List RequestResult) : List EventSpec :=
  (results.filter fun result => result.status = 200 ∧ result.path ∈ landingPaths).flatMap
    RequestResult.specs

/-- The counts of the manifest are those of the accepted records. -/
structure Accounted (results : List RequestResult) (manifest : Manifest) : Prop where
  total : manifest.totalRecords = (landed results).length
  sum : manifest.totalRecords = (manifest.countsByEvent.map Prod.snd).sum
  counts : ∀ eventType, (dictGet? manifest.countsByEvent eventType).getD 0 =
    ((landed results).filter fun spec => spec.eventType = eventType).length

/-- A run that ends with 0 had expected statuses only, and a burst was limited. -/
def Deserved (mode : Mode) (results : List RequestResult) (exitCode : Nat) : Prop :=
  exitCode = 0 → (∀ result ∈ results, result.status ∈ result.expectedStatuses) ∧
    (mode = .rateBurst → ∃ result ∈ results, result.status = 403 ∨ result.status = 429)

variable (rt wire) in
/-- The results of the requests of a run. -/
def Sent (generator : Generator) (draws : Draws) (answers : Nat → Int × Str)
    (results : List RequestResult) : Prop :=
  (generator.mode = .grpcProbe ∧ results = []) ∨
    (generator.mode ≠ .grpcProbe ∧ ∃ plans, buildPlans rt wire generator draws = .ok plans ∧
      results = sendAll answers plans)

variable (rt wire) in
/-- The batches, the manifest and the exit code can be trusted. -/
structure Truthful (specs : List EventSpec) (encoding : Encoding) (maxBytes : Int)
    (generator : Generator) (draws : Draws) (answers : Nat → Int × Str) (probe : Bool × Str) :
    Prop where
  chunked : Chunked specs maxBytes (chunkIntoRequests rt wire specs encoding maxBytes)
  accounted : ∀ results, Accounted results
    (populateManifest rt wire (baseManifest generator draws) results)
  run : ∀ manifest exitCode, run rt wire generator draws answers probe = .ok (manifest, exitCode) →
    ∃ results, Sent rt wire generator draws answers results ∧ Accounted results manifest ∧
      Deserved generator.mode results exitCode

section Batches

variable {specs : List EventSpec} {encoding : Encoding} {maxBytes : Int}

variable (rt wire) in
/-- A batch is within the limit. -/
def Fits (encoding : Encoding) (maxBytes : Int) (batch : List EventSpec) : Prop :=
  ((encodeSpecs rt wire encoding batch).length : Int) ≤ maxBytes

variable (rt wire) in
/-- The state of the loop packs the events done so far; the last batch is still open. -/
def Open (encoding : Encoding) (maxBytes : Int) (done : List EventSpec)
    (state : List RequestPlan × List EventSpec) : Prop :=
  (done = [] ∧ state = ([], [])) ∨
    (state.2 ≠ [] ∧
      Packed (Fits rt wire encoding maxBytes) done (state.1.map RequestPlan.specs ++ [state.2]) ∧
      ∀ plan ∈ state.1, plan.body = encodeSpecs rt wire encoding plan.specs)

theorem Open.step {done : List EventSpec} {state : List RequestPlan × List EventSpec}
    {spec : EventSpec} (isOpen : Open rt wire encoding maxBytes done state) :
    Open rt wire encoding maxBytes (done ++ [spec])
      (chunkStep rt wire encoding maxBytes state spec) := by
  right
  rcases isOpen with ⟨rfl, rfl⟩ | ⟨nonempty, packed, bodies⟩
  · have first : chunkStep rt wire encoding maxBytes ([], []) spec = ([], [spec]) := by
      simp [chunkStep]
    rw [first]
    exact ⟨by simp, Packed.singleton spec, nofun⟩
  · by_cases fits : Fits rt wire encoding maxBytes (state.2 ++ [spec])
    · have same : chunkStep rt wire encoding maxBytes state spec =
          (state.1, state.2 ++ [spec]) := by
        rw [Fits] at fits
        simp only [chunkStep, not_lt.mpr fits, false_and, if_false]
      rw [same]
      exact ⟨by simp, packed.grow fits, bodies⟩
    · have same : chunkStep rt wire encoding maxBytes state spec =
          (state.1 ++ [batchPlan rt wire encoding state.1.length state.2], [spec]) := by
        rw [Fits, not_le] at fits
        simp only [chunkStep, fits, nonempty, ne_eq, not_false_eq_true, and_self, if_true]
      rw [same]
      refine ⟨by simp, ?_, ?_⟩
      · rw [List.map_append]
        exact packed.start fits
      · rw [List.forall_mem_append]
        exact ⟨bodies, by simp [batchPlan]⟩

variable (rt wire encoding maxBytes) in
theorem open_foldl (specs : List EventSpec) : Open rt wire encoding maxBytes specs
    (specs.foldl (chunkStep rt wire encoding maxBytes) ([], [])) := by
  induction specs using List.reverseRecOn with
  | nil => exact Or.inl ⟨rfl, rfl⟩
  | append_singleton specs spec ih =>
      rw [List.foldl_append]
      exact ih.step

variable (rt wire encoding maxBytes) in
/-- The batches are the greedy packing of the events. -/
theorem packed_chunkIntoRequests (specs : List EventSpec) :
    Packed (Fits rt wire encoding maxBytes) specs
        ((chunkIntoRequests rt wire specs encoding maxBytes).map RequestPlan.specs) ∧
      ∀ plan ∈ chunkIntoRequests rt wire specs encoding maxBytes,
        plan.body = encodeSpecs rt wire encoding plan.specs := by
  have looped := open_foldl rt wire encoding maxBytes specs
  rw [chunkIntoRequests]
  rcases looped with ⟨rfl, state⟩ | ⟨nonempty, packed, bodies⟩
  · exact ⟨Packed.nil, nofun⟩
  · dsimp only
    rw [if_pos nonempty]
    refine ⟨?_, ?_⟩
    · rw [List.map_append]
      exact packed
    · rw [List.forall_mem_append]
      exact ⟨bodies, by simp [batchPlan]⟩

/-- The batches are right unless one of several events is as long as the limit. -/
theorem chunked_iff :
    Chunked specs maxBytes (chunkIntoRequests rt wire specs encoding maxBytes) ↔
      ∀ blocks, Packed (Fits rt wire encoding maxBytes) specs blocks → ∀ block ∈ blocks,
        2 ≤ block.length → ((encodeSpecs rt wire encoding block).length : Int) ≠ maxBytes := by
  rcases packed_chunkIntoRequests rt wire encoding maxBytes specs with ⟨packed, bodies⟩
  constructor
  · intro chunked blocks packed' block blockMem two
    rw [packed'.unique packed] at blockMem
    rcases List.mem_map.mp blockMem with ⟨plan, planMem, rfl⟩
    rw [← bodies plan planMem]
    exact ne_of_lt (chunked.below plan planMem two)
  · intro never
    refine ⟨?_, ?_, ?_⟩
    · rw [List.flatMap_def]
      exact packed.flatten
    · intro plan planMem
      exact packed.nonempty _ (List.mem_map_of_mem planMem)
    · intro plan planMem two
      have blockMem := List.mem_map_of_mem (f := RequestPlan.specs) planMem
      have within := packed.fits_of_two blockMem two
      rw [bodies plan planMem]
      exact lt_of_le_of_ne within (never _ packed _ blockMem two)

end Batches

section Manifests

/-- The counts of a manifest in the making are those of the records seen so far. -/
structure Counts (specs : List EventSpec) (manifest : Manifest) : Prop where
  total : manifest.totalRecords = specs.length
  counts : manifest.countsByEvent = tally (specs.map fun spec => (spec.eventType, 1))

theorem Counts.countSpec {specs : List EventSpec} {manifest : Manifest}
    (counts : Counts specs manifest) (spec : EventSpec) :
    Counts (specs ++ [spec]) (countSpec rt wire manifest spec) := by
  constructor
  · simp [LoadGen.countSpec, counts.total]
  · rw [List.map_append, List.map_singleton, tally_concat, ← counts.counts]
    rfl

theorem Counts.foldl {done : List EventSpec} {manifest : Manifest} (counts : Counts done manifest)
    (specs : List EventSpec) :
    Counts (done ++ specs) (specs.foldl (LoadGen.countSpec rt wire) manifest) := by
  induction specs generalizing done manifest with
  | nil => simpa using counts
  | cons spec specs ih =>
      rw [List.foldl_cons, List.append_cons]
      exact ih (counts.countSpec spec)

theorem Counts.countResult {specs : List EventSpec} {manifest : Manifest}
    (counts : Counts specs manifest) (result : RequestResult) :
    Counts (specs ++ landed [result]) (countResult rt wire manifest result) := by
  have kept : Counts specs { manifest with
      httpStatusSummary := dictAdd manifest.httpStatusSummary result.status 1 } :=
    ⟨counts.total, counts.counts⟩
  by_cases accepted : result.status = 200 ∧ result.path ∈ landingPaths
  · have records : landed [result] = result.specs := by simp [landed, accepted]
    rw [records, LoadGen.countResult, if_pos accepted]
    exact kept.foldl result.specs
  · have none : landed [result] = [] := by simp [landed, accepted]
    rw [none, List.append_nil, LoadGen.countResult, if_neg accepted]
    exact kept

theorem landed_cons (result : RequestResult) (results : List RequestResult) :
    landed (result :: results) = landed [result] ++ landed results := by
  rw [landed, landed, landed, ← List.flatMap_append, ← List.filter_append]
  rfl

theorem Counts.populate {specs : List EventSpec} {manifest : Manifest}
    (counts : Counts specs manifest) (results : List RequestResult) :
    Counts (specs ++ landed results) (populateManifest rt wire manifest results) := by
  induction results generalizing specs manifest with
  | nil => simpa [landed, populateManifest] using counts
  | cons result results ih =>
      rw [landed_cons, ← List.append_assoc]
      exact ih (counts.countResult result)

/-- Counts made by counting are true. -/
theorem Counts.accounted {results : List RequestResult} {manifest : Manifest}
    (counts : Counts (landed results) manifest) : Accounted results manifest := by
  refine ⟨counts.total, ?_, ?_⟩
  · rw [counts.counts, sum_values_tally, List.map_map, counts.total]
    simp [Function.comp_def]
  · intro eventType
    have found : (dictGet? manifest.countsByEvent eventType).getD 0 =
        (valuesAt ((landed results).map fun spec => (spec.eventType, 1)) eventType).sum := by
      rw [counts.counts, dictGet?_tally]
      split
      · rfl
      · next absent =>
          rw [valuesAt_eq_nil_iff.mpr absent]
          rfl
    rw [found, valuesAt, List.filter_map, List.map_map]
    simp [Function.comp_def]

theorem accounted_populate (generator : Generator) (draws : Draws) (results : List RequestResult) :
    Accounted results (populateManifest rt wire (baseManifest generator draws) results) := by
  have start : Counts [] (baseManifest generator draws) := ⟨rfl, rfl⟩
  exact (start.populate results).accounted

end Manifests

section Verdicts

variable {generator : Generator} {draws : Draws} {answers : Nat → Int × Str} {probe : Bool × Str}

/-- What a run returns. -/
theorem run_eq_ok {manifest : Manifest} {exitCode : Nat}
    (returned : run rt wire generator draws answers probe = .ok (manifest, exitCode)) :
    ∃ results, Sent rt wire generator draws answers results ∧ Accounted results manifest ∧
      (generator.mode ≠ .grpcProbe → exitCode = if results.all RequestResult.ok then 0 else 1) := by
  rw [run] at returned
  split at returned
  · next isProbe =>
      cases returned
      have start : Counts (landed [])
          { baseManifest generator draws with grpcProbe := some probe } :=
        ⟨rfl, rfl⟩
      exact ⟨[], Or.inl ⟨isProbe, rfl⟩, start.accounted, fun other => absurd isProbe other⟩
  · next sends =>
      rcases bind_eq_ok.mp returned with ⟨plans, built, returned⟩
      cases returned
      exact ⟨sendAll answers plans, Or.inr ⟨sends, plans, built, rfl⟩, accounted_populate _ _ _,
        fun _ => rfl⟩

theorem all_ok_iff {results : List RequestResult} :
    results.all RequestResult.ok = true ↔
      ∀ result ∈ results, result.status ∈ result.expectedStatuses := by
  simp [RequestResult.ok]

/-- The results of a burst. -/
theorem mem_sendAll_burst {encoding : Encoding} {timestamp : Str} {count : Int}
    {nonce : Nat → Nat} {result : RequestResult} :
    result ∈ sendAll answers
        (buildRateBurstRequests rt wire toolValue encoding timestamp count nonce) ↔
      ∃ i, i < count.toNat ∧ result = ⟨str "rate-burst-" ++ numeral i, logsPath, (answers i).1,
        (answers i).2, [200, 403, 429], []⟩ := by
  simp only [sendAll, buildRateBurstRequests, List.mem_mapIdx, List.length_map, List.length_range,
    List.getElem_map, List.getElem_range, sendOne, probePlan]
  constructor
  · rintro ⟨i, below, same⟩
    exact ⟨i, below, same.symm⟩
  · rintro ⟨i, below, same⟩
    exact ⟨i, below, same.symm⟩

variable (rt wire generator draws answers probe) in
/-- The exit code is deserved unless a burst is answered 200 throughout. -/
theorem deserved_iff :
    (∀ manifest exitCode, run rt wire generator draws answers probe = .ok (manifest, exitCode) →
        ∃ results, Sent rt wire generator draws answers results ∧ Accounted results manifest ∧
          Deserved generator.mode results exitCode) ↔
      (generator.mode = .rateBurst →
        ∃ i, i < (burstSize generator).toNat ∧ (answers i).1 ≠ 200) := by
  have burstSent (isBurst : generator.mode = .rateBurst) {results : List RequestResult}
      (sent : Sent rt wire generator draws answers results) :
      results = sendAll answers (buildRateBurstRequests rt wire toolValue generator.encoding
        draws.startedAt (burstSize generator) draws.nonce) := by
    rcases sent with ⟨isProbe, _⟩ | ⟨_, plans, built, rfl⟩
    · rw [isBurst] at isProbe
      cases isProbe
    · rw [buildPlans, isBurst] at built
      cases built
      rfl
  constructor
  · intro deserved isBurst
    by_contra unlimited
    have all : ∀ i, i < (burstSize generator).toNat → (answers i).1 = 200 := by
      intro i below
      by_contra other
      exact unlimited ⟨i, below, other⟩
    have notProbe : generator.mode ≠ .grpcProbe := by
      rw [isBurst]
      nofun
    have returned : ∃ manifest, run rt wire generator draws answers probe = .ok (manifest, 0) := by
      have allOk : (sendAll answers (buildRateBurstRequests rt wire toolValue generator.encoding
          draws.startedAt (burstSize generator) draws.nonce)).all RequestResult.ok = true := by
        rw [all_ok_iff]
        intro result resultMem
        rcases mem_sendAll_burst.mp resultMem with ⟨i, below, rfl⟩
        simp [all i below]
      refine ⟨populateManifest rt wire (baseManifest generator draws) (sendAll answers
        (buildRateBurstRequests rt wire toolValue generator.encoding draws.startedAt
          (burstSize generator) draws.nonce)), ?_⟩
      rw [run, if_neg notProbe, buildPlans, isBurst]
      simp only [pure, Except.pure, ok_bind, allOk, if_true]
    rcases returned with ⟨manifest, returned⟩
    rcases deserved manifest 0 returned with ⟨results, sent, _, success⟩
    rcases (success rfl).2 isBurst with ⟨result, resultMem, blocked⟩
    rw [burstSent isBurst sent] at resultMem
    rcases mem_sendAll_burst.mp resultMem with ⟨i, below, rfl⟩
    have answered := all i below
    simp only [answered] at blocked
    omega
  · intro limited manifest exitCode returned
    rcases run_eq_ok returned with ⟨results, sent, accounted, exitCode_eq⟩
    refine ⟨results, sent, accounted, ?_⟩
    intro success
    by_cases isProbe : generator.mode = .grpcProbe
    · rcases sent with ⟨_, rfl⟩ | ⟨notProbe, _⟩
      · refine ⟨nofun, fun isBurst => ?_⟩
        rw [isProbe] at isBurst
        cases isBurst
      · exact absurd isProbe notProbe
    · have allOk : ∀ result ∈ results, result.status ∈ result.expectedStatuses := by
        rw [← all_ok_iff]
        have code := exitCode_eq isProbe
        rw [success] at code
        by_contra deviates
        rw [if_neg deviates] at code
        omega
      refine ⟨allOk, fun isBurst => ?_⟩
      rcases limited isBurst with ⟨i, below, other⟩
      rw [burstSent isBurst sent] at allOk ⊢
      refine ⟨_, mem_sendAll_burst.mpr ⟨i, below, rfl⟩, ?_⟩
      have expected := allOk _ (mem_sendAll_burst.mpr ⟨i, below, rfl⟩)
      simp only [List.mem_cons, List.not_mem_nil, or_false] at expected
      rcases expected with accepted | blocked
      · exact absurd accepted other
      · exact blocked

end Verdicts

/--
For every list of events, encoding and limit, every generator and every assignment of
answers: the batches, the manifest and the exit code can be trusted exactly when no
batch of several events is packed to exactly the limit and a burst is not answered 200
throughout.
-/
theorem truthful_iff (rt : Runtime) (wire : Wire) (specs : List EventSpec) (encoding : Encoding)
    (maxBytes : Int) (generator : Generator) (draws : Draws) (answers : Nat → Int × Str)
    (probe : Bool × Str) :
    Truthful rt wire specs encoding maxBytes generator draws answers probe ↔
      (∀ blocks, Packed (Fits rt wire encoding maxBytes) specs blocks → ∀ block ∈ blocks,
        2 ≤ block.length → ((encodeSpecs rt wire encoding block).length : Int) ≠ maxBytes) ∧
      (generator.mode = .rateBurst →
        ∃ i, i < (burstSize generator).toNat ∧ (answers i).1 ≠ 200) := by
  rw [← chunked_iff, ← deserved_iff rt wire generator draws answers probe]
  constructor
  · rintro ⟨chunked, _, deserved⟩
    exact ⟨chunked, deserved⟩
  · rintro ⟨chunked, deserved⟩
    exact ⟨chunked, accounted_populate generator draws, deserved⟩

namespace Sample

/-- A number in the base-128 encoding of the protobuf wire format, up to two digits. -/
def varint (n : Nat) : Bytes :=
  if n < 128 then [n.toUInt8] else [(n % 128 + 128).toUInt8, (n / 128).toUInt8]

/-- A length-delimited field. -/
def field (number : Nat) (content : Bytes) : Bytes :=
  (number * 8 + 2).toUInt8 :: varint content.length ++ content

def utf8 (text : Str) : Bytes := (text.filterMap Chr.utf8).flatten

/-- An `ExportLogsServiceRequest` in the wire format. -/
def protobufLogs (bodies : List Str) : Bytes :=
  let tool := utf8 (str "e2e-smoke")
  let serviceName := field 1 (utf8 (str "service.name")) ++ field 2 (field 1 tool)
  let records := bodies.flatMap fun body => field 2 (field 5 (field 1 (utf8 body)))
  field 1 (field 1 (field 1 serviceName) ++ field 2 (field 1 (field 1 tool) ++ records))

def protobufWire : Wire where
  logs _ := protobufLogs
  structuredEvents _ _ _ := []
  structuredMetrics _ _ _ := []
  sha256 text := text

def event (payload : Str) : EventSpec :=
  ⟨toolValue, str "session_start", payload, str "2026-01-01T00:00:00Z"⟩

def events : List EventSpec := [event (str "\x7b\"n\":1\x7d"), event (str "\x7b\"n\":2\x7d")]

def generator : Generator where
  env := str "sandbox"
  endpointHost := str "collector.example"
  port := 443
  connectIp := none
  encoding := .protobuf
  count := 2
  runId := str "20260101000000-abcdef"
  mode := .happy

def draws : Draws where
  nonce i := i
  malformed := []
  startedAt := str "2026-01-01T00:00:00Z"
  finishedAt := str "2026-01-01T00:00:01Z"

/-- The two events share one batch, and it takes 274 bytes. -/
theorem batch : ((chunkIntoRequests Runtime.whole protobufWire events .protobuf 274).map
    fun plan => (plan.specs.length, plan.body.length)) = [(2, 274)] := by
  decide +kernel

end Sample

/-- A batch of two events that is exactly as long as the limit is sent. -/
theorem not_truthful_exact : ¬Truthful Runtime.whole Sample.protobufWire Sample.events .protobuf
    274 Sample.generator Sample.draws (fun _ => (200, str "OK")) (false, []) := by
  intro truthful
  obtain ⟨plan, planMem, sizes⟩ := List.mem_map.mp
    (Sample.batch ▸ List.mem_cons_self : (2, 274) ∈ (chunkIntoRequests Runtime.whole
      Sample.protobufWire Sample.events .protobuf 274).map
        fun plan => (plan.specs.length, plan.body.length))
  simp only [Prod.mk.injEq] at sizes
  have below := truthful.chunked.below plan planMem (by omega)
  omega

end LoadGen
