import TelemetryPlatform.Verifier.Storage
import Mathlib.Data.Finset.Card

/-!
# Deleting the objects of a run

`_cleanup_run_objects` and `_delete_prefix` of `scripts/e2e_verify.py`. The records of
every run are stored under the same reserved tool, so after the checks the partitions
of the dates of the run are deleted, page by page of a listing.

`Accounts` is what the log of a part of the cleanup says about the objects that are
gone: they are listed ones, and there are as many as were counted unless a reply
reported a failure. `cleanup_truthful_iff` concludes when the report of the cleanup can be
trusted. The number in it is the number of keys that were requested, so one failure
makes it wrong.
-/

namespace Verifier

open Python Interaction Transition

/-- What the cleanup reads of the manifest of a run. -/
structure RunInfo where
  tool : Str
  runId : Str
  expectedDtPartitions : List Str

def cleanupObjects : Str := str "cleanup:objects"

/-- Delete the keys of one page, and count them. -/
def deletePage (bucket : Str) (keys : List Str) : S3 Nat := do
  if keys = [] then
    return 0
  let _ ← send (.deleteObjects bucket keys)
  return keys.length

/-- The loop of `_delete_prefix`, for a number of rounds. -/
def deletePrefix (bucket keyPrefix : Str) : Nat → Option Str → Nat → S3 Nat
  | 0, _, _ => throw .unfinished
  | rounds + 1, token, deleted => do
      let response ← send (.listObjectsV2 bucket keyPrefix token)
      let count ← deletePage bucket response.keys
      match response.isTruncated, response.nextContinuationToken with
      | true, some (c :: rest) =>
          deletePrefix bucket keyPrefix rounds (some (c :: rest)) (deleted + count)
      | _, _ => return deleted + count

/-- The prefix of a date partition. -/
def dtPrefix (toolBase dt : Str) : Str := toolBase ++ str "dt=" ++ dt ++ str "/"

/-- What the cleanup says when it ends well. -/
def cleanupDetail (run : RunInfo) (firehose : Firehose) (deleted : Nat) : Str :=
  str "deleted " ++ numeral deleted ++ str " object(s) under s3://" ++ firehose.bucket ++
    str "/" ++ s3ListingPrefix firehose.keyPrefix run.tool ++ str "dt=<" ++
    numeral run.expectedDtPartitions.length ++ str " date(s)> for run " ++ run.runId

/-- `_cleanup_run_objects`, where no prefix takes more rounds than a number. -/
def cleanupRunObjects (rounds : Nat) (run : RunInfo) (probes : List Probe)
    (firehose : Option Firehose) : S3 (List Probe) :=
  match firehose.filter fun firehose => firehose.bucket ≠ [] with
  | none =>
      return emit probes cleanupObjects .fail
        (str "no Firehose S3 destination discovered; cannot clean up run objects")
  | some firehose => do
      let toolBase := s3ListingPrefix firehose.keyPrefix run.tool
      let deleted ← run.expectedDtPartitions.foldlM (fun deleted dt => do
        let count ← deletePrefix firehose.bucket (dtPrefix toolBase dt) rounds none 0
        return deleted + count) 0
      return emit probes cleanupObjects .ok (cleanupDetail run firehose deleted)

section Accounting

variable {bucket : Str} {Under : Str → Prop} {log first second : List S3Event} {m n : Nat}

/-- The objects that are gone after a part of the cleanup, and the number it counted. -/
structure Swept (Under : Str → Prop) (before : Finset Str) (log : List S3Event)
    (after : Finset Str) (n : Nat) : Prop where
  subset : after ⊆ before
  listed : ∀ key ∈ before, key ∉ after → key ∈ log.flatMap listedKeys
  existed : ∀ key ∈ log.flatMap listedKeys, key ∈ before
  under : ∀ key ∈ log.flatMap listedKeys, Under key
  count : log.flatMap failures = [] → (before \ after).card = n
  gone : log.flatMap failures = [] → ∀ key ∈ log.flatMap listedKeys, key ∉ after
  short : log.flatMap failures ≠ [] → (before \ after).card < n

theorem Swept.card_le {before after : Finset Str} (swept : Swept Under before log after n) :
    (before \ after).card ≤ n := by
  by_cases clean : log.flatMap failures = []
  · exact (swept.count clean).le
  · exact (swept.short clean).le

theorem Swept.append {before middle after : Finset Str}
    (front : Swept Under before first middle m) (back : Swept Under middle second after n) :
    Swept Under before (first ++ second) after (m + n) := by
  have split : (before \ after).card = (before \ middle).card + (middle \ after).card := by
    rw [← Finset.card_union_of_disjoint]
    · rw [Finset.sdiff_union_sdiff_cancel front.subset back.subset]
    · exact Finset.disjoint_of_subset_right Finset.sdiff_subset Finset.sdiff_disjoint
  refine ⟨back.subset.trans front.subset, ?_, ?_, ?_, ?_, ?_, ?_⟩
  · intro key inBefore notAfter
    rw [List.flatMap_append, List.mem_append]
    by_cases inMiddle : key ∈ middle
    · right
      exact back.listed key inMiddle notAfter
    · left
      exact front.listed key inBefore inMiddle
  · intro key keyListed
    rw [List.flatMap_append, List.mem_append] at keyListed
    rcases keyListed with keyListed | keyListed
    · exact front.existed key keyListed
    · exact front.subset (back.existed key keyListed)
  · intro key keyListed
    rw [List.flatMap_append, List.mem_append] at keyListed
    rcases keyListed with keyListed | keyListed
    · exact front.under key keyListed
    · exact back.under key keyListed
  · intro clean
    rw [List.flatMap_append, List.append_eq_nil_iff] at clean
    rw [split, front.count clean.1, back.count clean.2]
  · intro clean key keyListed
    rw [List.flatMap_append, List.append_eq_nil_iff] at clean
    rw [List.flatMap_append, List.mem_append] at keyListed
    rcases keyListed with keyListed | keyListed
    · exact fun inAfter => front.gone clean.1 key keyListed (back.subset inAfter)
    · exact back.gone clean.2 key keyListed
  · intro failed
    rw [List.flatMap_append, ne_eq, List.append_eq_nil_iff, not_and_or] at failed
    have frontLe := front.card_le
    have backLe := back.card_le
    rcases failed with failed | failed
    · have frontShort := front.short failed
      omega
    · have backShort := back.short failed
      omega

/-- The number accounts for a log, whatever the objects are. -/
def Accounts (bucket : Str) (Under : Str → Prop) (log : List S3Event) (n : Nat) : Prop :=
  ∀ before after, Path (Serves bucket) before log after → Swept Under before log after n

theorem accounts_nil : Accounts bucket Under [] 0 := by
  intro before after served
  rw [path_nil] at served
  subst served
  exact ⟨Finset.Subset.refl _, fun _ inside outside => absurd inside outside, by simp, by simp,
    by simp, by simp, fun failed => absurd rfl failed⟩

theorem Accounts.append (front : Accounts bucket Under first m)
    (back : Accounts bucket Under second n) : Accounts bucket Under (first ++ second) (m + n) := by
  intro before after served
  rcases path_append.mp served with ⟨middle, servedFirst, servedSecond⟩
  exact (front before middle servedFirst).append (back middle after servedSecond)

theorem Accounts.mono {Under' : Str → Prop} (accounts : Accounts bucket Under log n)
    (wider : ∀ key, Under key → Under' key) : Accounts bucket Under' log n := by
  intro before after served
  have swept := accounts before after served
  exact { swept with under := fun key keyListed => wider key (swept.under key keyListed) }

/-- The objects that a deletion of a page of them leaves undeleted. -/
theorem sdiff_deleted {before : Finset Str} {keys : List Str} (kept : List Str)
    (inside : ∀ key ∈ keys, key ∈ before) :
    before \ (before.filter fun key => key ∉ keys ∨ key ∈ kept) =
      keys.toFinset.filter fun key => key ∉ kept := by
  ext key
  simp only [Finset.mem_sdiff, Finset.mem_filter, List.mem_toFinset, not_and, not_or, not_not]
  constructor
  · rintro ⟨inBefore, deleted⟩
    exact deleted inBefore
  · rintro ⟨requested, notKept⟩
    exact ⟨inside key requested, fun _ => ⟨requested, notKept⟩⟩

/-- The deletion of a page of objects counts the keys that were requested. -/
theorem swept_deleted {before : Finset Str} {keys : List Str} {failed : List DeleteFailure}
    {keyPrefix : Str} (nodup : keys.Nodup)
    (inside : ∀ key ∈ keys, key ∈ before ∧ keyPrefix <+: key)
    (requested : ∀ failure ∈ failed, failure.key ∈ keys)
    (listed : log.flatMap listedKeys = keys) (failures_eq : log.flatMap failures = failed) :
    Swept (keyPrefix <+: ·) before log
      (before.filter fun key => key ∉ keys ∨ key ∈ failed.map DeleteFailure.key)
      keys.length := by
  have removed := sdiff_deleted (failed.map DeleteFailure.key)
    fun key keyMem => (inside key keyMem).1
  have card_keys : keys.toFinset.card = keys.length := List.toFinset_card_of_nodup nodup
  refine ⟨Finset.filter_subset _ _, ?_, ?_, ?_, ?_, ?_, ?_⟩
  · intro key inBefore gone
    have inRemoved := Finset.mem_sdiff.mpr ⟨inBefore, gone⟩
    rw [removed, Finset.mem_filter, List.mem_toFinset] at inRemoved
    rw [listed]
    exact inRemoved.1
  · intro key keyListed
    rw [listed] at keyListed
    exact (inside key keyListed).1
  · intro key keyListed
    rw [listed] at keyListed
    exact (inside key keyListed).2
  · intro clean
    rw [failures_eq] at clean
    rw [removed, clean]
    simpa using card_keys
  · intro clean key keyListed
    rw [failures_eq] at clean
    rw [listed] at keyListed
    simp [clean, keyListed]
  · intro some
    rw [failures_eq] at some
    rcases List.exists_mem_of_ne_nil _ some with ⟨failure, failureMem⟩
    rw [removed, ← card_keys]
    apply Finset.card_lt_card
    refine Finset.filter_ssubset.mpr ⟨failure.key, ?_, ?_⟩
    · exact List.mem_toFinset.mpr (requested failure failureMem)
    · exact not_not.mpr (List.mem_map_of_mem failureMem)

/-- A page that is listed and deleted. -/
theorem accounts_page (keyPrefix : Str) (token : Option Str) {response : ListResponse}
    (ran : (deletePage bucket response.keys).Runs log (.ok n)) :
    Accounts bucket (keyPrefix <+: ·)
      (⟨.listObjectsV2 bucket keyPrefix token, .ok response⟩ :: log) n := by
  rintro before after ⟨listed, ⟨rfl, page⟩, served⟩
  rcases page response rfl rfl with ⟨nodup, inside⟩
  unfold deletePage at ran
  split at ran
  · next empty =>
      rcases ran with ⟨rfl, same⟩
      cases same
      rw [path_nil] at served
      subst served
      have listed : List.flatMap listedKeys
          [⟨.listObjectsV2 bucket keyPrefix token, .ok response⟩] = response.keys := by
        simp [listedKeys]
      have swept := swept_deleted nodup inside (List.forall_mem_nil _) listed rfl
      simpa [empty] using swept
  · rcases Program.runs_bind_ok.mp ran with ⟨failed, first, rest, rfl, deleted, ⟨rfl, same⟩⟩
    cases same
    rw [runs_send_ok.mp deleted] at served ⊢
    rcases served with ⟨_, ⟨requested, kept⟩, rfl⟩
    rw [kept, if_pos rfl]
    exact swept_deleted nodup inside requested (by simp [listedKeys]) (by simp [failures])

/-- The loop over the pages of a prefix. -/
theorem accounts_deletePrefix {keyPrefix : Str} {rounds deleted : Nat} {token : Option Str}
    (ran : (deletePrefix bucket keyPrefix rounds token deleted).Runs log (.ok n)) :
    ∃ count, n = deleted + count ∧ Accounts bucket (keyPrefix <+: ·) log count := by
  induction rounds generalizing token deleted log with
  | zero => cases ran.2
  | succ rounds ih =>
      rw [deletePrefix] at ran
      rcases Program.runs_bind_ok.mp ran with ⟨response, first, rest, rfl, listed, ran⟩
      rcases Program.runs_bind_ok.mp ran with ⟨count, page, others, rfl, paged, ran⟩
      have accounts := accounts_page keyPrefix token paged
      rw [runs_send_ok.mp listed]
      split at ran
      · rcases ih ran with ⟨more, rfl, accountsOthers⟩
        refine ⟨count + more, Nat.add_assoc _ _ _, ?_⟩
        have both := accounts.append accountsOthers
        simpa using both
      · rcases ran with ⟨rfl, same⟩
        cases same
        refine ⟨count, rfl, ?_⟩
        simpa using accounts

/-- The report of the cleanup accounts for its log. -/
theorem accounts_cleanup {rounds : Nat} {run : RunInfo} {probes reported : List Probe}
    {firehose : Firehose} (bucketSome : firehose.bucket ≠ [])
    (ran : (cleanupRunObjects rounds run probes (some firehose)).Runs log (.ok reported)) :
    ∃ n, reported = emit probes cleanupObjects .ok (cleanupDetail run firehose n) ∧
      Accounts firehose.bucket (fun key => ∃ dt ∈ run.expectedDtPartitions,
        dtPrefix (s3ListingPrefix firehose.keyPrefix run.tool) dt <+: key) log n := by
  rw [cleanupRunObjects, Option.filter_some_pos (by simpa using bucketSome)] at ran
  rcases Program.runs_bind_ok.mp ran with ⟨n, front, rest, rfl, looped, ⟨rfl, same⟩⟩
  cases same
  refine ⟨n, rfl, ?_⟩
  rw [List.append_nil]
  -- after every date the objects gone so far are accounted for
  let inv (done : List Str) (log : List S3Event) (n : Nat) : Prop :=
    Accounts firehose.bucket (fun key => ∃ dt ∈ done,
      dtPrefix (s3ListingPrefix firehose.keyPrefix run.tool) dt <+: key) log n
  have initially : inv [] [] 0 := accounts_nil
  have kept := Program.runs_foldlM inv ?_ initially looped
  · rcases kept with ⟨final, same, accounts⟩ | ⟨_, _, _, _, _, _, _, _, _, _, _, impossible⟩
    · cases same
      exact accounts
    · cases impossible
  · intro done before deleted dt part next accounts stepped
    rcases Program.runs_bind_ok.mp stepped with ⟨count, first, last, rfl, swept, ⟨rfl, same⟩⟩
    cases same
    rcases accounts_deletePrefix swept with ⟨more, same, accountsDate⟩
    rw [Nat.zero_add] at same
    subst same
    rw [List.append_nil]
    apply Accounts.append
    · exact accounts.mono fun key ⟨dt, dtMem, isPrefix⟩ =>
        ⟨dt, List.mem_append_left _ dtMem, isPrefix⟩
    · exact accountsDate.mono fun key isPrefix =>
        ⟨dt, List.mem_append_right _ List.mem_cons_self, isPrefix⟩

end Accounting

section Report

/-- The key is in a partition of the tool and of a date of the run. -/
def Inside (base : Str) (run : RunInfo) (key : Str) : Prop :=
  ∃ dt ∈ run.expectedDtPartitions,
    dtPrefix (base ++ str "tool=" ++ run.tool ++ str "/") dt <+: key

/-- The cleanup deleted as many objects as it says, all of the listed ones in the partitions of
the run, and no other object. -/
structure Truthful (base : Str) (run : RunInfo) (log : List S3Event) (before after : Finset Str)
    (n : Nat) : Prop where
  count : (before \ after).card = n
  gone : ∀ key ∈ log.flatMap listedKeys, Inside base run key → key ∉ after
  confined : ∀ key ∈ before, key ∉ after → Inside base run key

theorem cleanupDetail_injective {run : RunInfo} {firehose : Firehose} {m n : Nat}
    (same : cleanupDetail run firehose m = cleanupDetail run firehose n) : m = n := by
  simp only [cleanupDetail, List.append_assoc, List.append_cancel_left_eq] at same
  simp only [← List.append_assoc, List.append_cancel_right_eq] at same
  have ints := numeral_injective same
  omega

/-- A cleanup without a bucket reports a failure. -/
theorem bucket_ne_nil {rounds : Nat} {run : RunInfo} {probes : List Probe} {firehose : Firehose}
    {log : List S3Event} {detail : Str}
    (ran : (cleanupRunObjects rounds run probes (some firehose)).Runs log
      (.ok (emit probes cleanupObjects .ok detail))) : firehose.bucket ≠ [] := by
  intro empty
  rw [cleanupRunObjects, Option.filter_some_neg (by simpa using empty)] at ran
  have same := Except.ok.inj ran.2
  simp [emit] at same

/--
Whatever a bucket contains, however its listing is divided into pages and whichever keys a
deletion fails for: a report of the cleanup can be trusted exactly when no reply named a failure
and, where `tool=` occurs before the segment of the tool, nothing is listed that is not in the
partitions of the run.
-/
theorem cleanup_truthful_iff {rounds : Nat} {run : RunInfo} {probes : List Probe}
    {firehose : Firehose}
    {base rest : Str} {log : List S3Event} {before after : Finset Str} {n : Nat}
    (keyPrefix : firehose.keyPrefix = base ++ toolSentinel ++ rest)
    (ran : (cleanupRunObjects rounds run probes (some firehose)).Runs log
      (.ok (emit probes cleanupObjects .ok (cleanupDetail run firehose n))))
    (served : Path (Serves firehose.bucket) before log after) :
    Truthful base run log before after n ↔
      log.flatMap failures = [] ∧
        (Contains toolSentinel base → ∀ key ∈ log.flatMap listedKeys, Inside base run key) := by
  rcases accounts_cleanup (bucket_ne_nil ran) ran with ⟨counted, same, accounts⟩
  rw [← cleanupDetail_injective (emit_injective same)] at accounts
  have swept := accounts before after served
  constructor
  · intro truthful
    have clean : log.flatMap failures = [] := by
      by_contra failed
      have short := swept.short failed
      have count := truthful.count
      omega
    refine ⟨clean, fun _ key keyListed => ?_⟩
    exact truthful.confined key (swept.existed key keyListed) (swept.gone clean key keyListed)
  · rintro ⟨clean, elsewhere⟩
    have inside : ∀ key ∈ log.flatMap listedKeys, Inside base run key := by
      by_cases earlier : Contains toolSentinel base
      · exact elsewhere earlier
      · intro key keyListed
        have under := swept.under key keyListed
        rw [keyPrefix, s3ListingPrefix_append rest run.tool earlier] at under
        exact under
    refine ⟨swept.count clean, fun key keyListed _ => swept.gone clean key keyListed, ?_⟩
    intro key inBefore gone
    exact inside key (swept.listed key inBefore gone)

end Report

namespace Sample

def run : RunInfo where
  tool := str "e2e-smoke"
  runId := str "20260101000000-a1b2c3"
  expectedDtPartitions := [str "2026-01-01"]

def behindTool : Str := str "!\x7bpartitionKeyFromQuery:tool\x7d/dt=!\x7btimestamp:yyyy-MM-dd\x7d/"

def firehose : Firehose where
  bucket := str "lake"
  keyPrefix := str "raw/tool=" ++ behindTool
  errorPrefix := str "errors/!\x7bfirehose:error-output-type\x7d/"

def key : Str := str "raw/tool=e2e-smoke/dt=2026-01-01/part-0"

/-- One object is listed, and its deletion is answered. -/
def reply (failed : List DeleteFailure) : (call : S3Call) → call.Reply
  | .listObjectsV2 _ _ _ => .ok ⟨[⟨some key, none⟩], false, none⟩
  | .deleteObjects _ _ => .ok failed
  | .headObject _ _ => .error (str "Not Found")

def datePrefix : Str := dtPrefix (s3ListingPrefix firehose.keyPrefix run.tool) (str "2026-01-01")

def log (failed : List DeleteFailure) : List S3Event :=
  [⟨.listObjectsV2 firehose.bucket datePrefix none, .ok ⟨[⟨some key, none⟩], false, none⟩⟩,
    ⟨.deleteObjects firehose.bucket [key], .ok failed⟩]

theorem runs (failed : List DeleteFailure) :
    (cleanupRunObjects 1 run [] (some firehose)).Runs (log failed)
      (.ok (emit [] cleanupObjects .ok (cleanupDetail run firehose 1))) :=
  Program.runs_answer (reply failed) (cleanupRunObjects 1 run [] (some firehose))

theorem served {failed : List DeleteFailure} {after : Finset Str}
    (requested : ∀ failure ∈ failed, failure.key = key)
    (kept : after = if failed = [] then ∅ else {key}) :
    Path (Serves firehose.bucket) {key} (log failed) after := by
  have page : datePrefix <+: key := by decide +kernel
  refine ⟨{key}, ⟨rfl, fun response same _ => ?_⟩, after, ⟨?_, ?_⟩, rfl⟩
  · cases same
    simp [ListResponse.keys, page]
  · simpa using requested
  · rw [if_pos rfl, kept]
    split
    · next clean => simp [clean, Finset.filter_singleton]
    · next failing =>
        rcases List.exists_mem_of_ne_nil _ failing with ⟨failure, failureMem⟩
        have reported : ∃ failure ∈ failed, failure.key = key :=
          ⟨failure, failureMem, requested failure failureMem⟩
        simp [Finset.filter_singleton, reported]

end Sample

/-- A cleanup whose deletions all succeed can be trusted. -/
theorem truthful_sample :
    Truthful (str "raw/") Sample.run (Sample.log []) {Sample.key} ∅ 1 := by
  have keyPrefix : Sample.firehose.keyPrefix = str "raw/" ++ toolSentinel ++ Sample.behindTool := by
    decide +kernel
  refine (cleanup_truthful_iff keyPrefix (Sample.runs [])
    (Sample.served (by simp) rfl)).mpr ⟨rfl, ?_⟩
  intro earlier
  exact absurd earlier (by decide +kernel)

/-- A cleanup reports a deleted object that S3 refused to delete. -/
theorem not_truthful_refused : ∃ log before after,
    (cleanupRunObjects 1 Sample.run [] (some Sample.firehose)).Runs log
      (.ok (emit [] cleanupObjects .ok (cleanupDetail Sample.run Sample.firehose 1))) ∧
    Path (Serves Sample.firehose.bucket) before log after ∧
    ¬Truthful (str "raw/") Sample.run log before after 1 := by
  refine ⟨_, _, {Sample.key}, Sample.runs [⟨Sample.key, str "AccessDenied"⟩],
    Sample.served (by simp) rfl, ?_⟩
  intro truthful
  have count := truthful.count
  simp at count

end Verifier
