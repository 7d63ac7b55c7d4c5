import TelemetryPlatform.Deploy.Partition
import TelemetryPlatform.Library.DateOrder
import TelemetryPlatform.Library.WholeRuntime
import TelemetryPlatform.Verifier.Storage

/-!
# Fresh delivery errors

`_check_s3` of `scripts/e2e_verify.py`. Records that could not be delivered are stored
under the error prefix of the destination, and the check fails when one of them was
stored since the run started.

The start is the text `utc_now_iso` writes, with a `T` between the date and the clock,
and the time of an object is the text `str` makes of a `datetime`, with a space there.
A space is before a `T`, so the comparison of the texts is one of the days
(`isFresh_iff`), and `reported_iff` says when it finds the errors there are.
-/

namespace Verifier

open Python Interaction
open Deploy (strLe)

/-- The clock of a time, `%H:%M:%S`. -/
def clock (time : DateTime) : Str :=
  padded 2 (time.seconds % 86400 / 3600) ++ str ":" ++ padded 2 (time.seconds % 3600 / 60) ++
    str ":" ++ padded 2 (time.seconds % 60)

/-- `utc_now_iso`. -/
def utcNowIso (now : DateTime) : Str := now.date.isoformat ++ (str "T" ++ (clock now ++ str "Z"))

/-- The text `str` makes of a `datetime` in UTC. -/
def datetimeText (time : DateTime) : Str :=
  time.date.isoformat ++ (str " " ++ (clock time ++
    (if time.micros % 1000000 = 0 then [] else str "." ++ padded 6 (time.micros % 1000000)) ++
      str "+00:00"))

/-- What the check reads of the verifier and its manifest. -/
structure S3Settings where
  tool : Str
  startedAt : Str

/-- `poll_until` with `_objects_present`, where a number of checks fit into the budget: the
entries the last check found. -/
def pollObjects (bucket keyPrefix : Str) : Nat → S3 (List Entry)
  | 0 => return []
  | checks + 1 => do
      let response ← send (.listObjectsV2 bucket keyPrefix none)
      match response.contents with
      | [] => pollObjects bucket keyPrefix checks
      | entry :: entries => return entry :: entries

def entryKey (entry : Entry) : Except VerifyExc Str :=
  match entry.key with
  | some key => .ok key
  | none => .error (.keyError (str "Key"))

/-- The object was modified at or after the start, as the texts compare. -/
def isFresh (startedAt : Str) (entry : Entry) : Bool :=
  strLe startedAt ((entry.lastModified.map datetimeText).getD [])

def s3Errors : Str := str "s3:errors"

def foundDetail (bucket keyPrefix : Str) (objects : List Entry) : Str :=
  numeral objects.length ++ str " object(s) under s3://" ++ bucket ++ str "/" ++ keyPrefix

variable (rt : Runtime)

/-- The assertion about the first object. -/
def checkEncryption (probes : List Probe) (head : HeadResponse) : List Probe :=
  let sse := head.serverSideEncryption.getD []
  let kmsKey := head.sseKmsKeyId.getD []
  if sse = str "aws:kms" ∧ kmsKey ≠ [] then
    emit probes (str "s3:encryption") .ok (str "SSE-KMS with key " ++ kmsKey)
  else
    emit probes (str "s3:encryption") .fail (str "expected SSE-KMS (CMK); got SSE=" ++
      rt.reprStr sse ++ str " key=" ++ rt.reprStr kmsKey)

/-- The assertion about the objects under the error prefix. -/
def checkErrors (probes : List Probe) (bucket errorPrefix : Str) (fresh : List Entry) :
    List Probe :=
  if fresh ≠ [] then
    emit probes s3Errors .fail (numeral fresh.length ++
      str " fresh error object(s) under s3://" ++ bucket ++ str "/" ++ errorPrefix)
  else
    emit probes s3Errors .ok
      (str "no fresh error objects under s3://" ++ bucket ++ str "/" ++ errorPrefix)

/-- `_check_s3`, where a number of checks after the first fit into the time to wait. -/
def checkS3 (checks : Nat) (settings : S3Settings) (probes : List Probe) (firehose : Firehose) :
    S3 (List Probe) := do
  if firehose.bucket = [] then
    return emit probes (str "s3:bucket") .fail (str "Firehose destination has no S3 bucket")
  let bucket := firehose.bucket
  let keyPrefix := s3ListingPrefix firehose.keyPrefix settings.tool
  match ← pollObjects bucket keyPrefix (checks + 1) with
  | [] =>
      return emit probes (str "s3:objects") .fail
        (str "no objects under s3://" ++ bucket ++ str "/" ++ keyPrefix)
  | first :: others =>
      let probes := emit probes (str "s3:objects") .ok
        (foundDetail bucket keyPrefix (first :: others))
      let key ← Program.ofExcept (entryKey first)
      let head ← send (.headObject bucket key)
      let probes := checkEncryption rt probes head
      let errorPrefix := errorListingPrefix firehose.errorPrefix
      let response ← send (.listObjectsV2 bucket errorPrefix none)
      let fresh := response.contents.filter (isFresh settings.startedAt)
      return checkErrors probes bucket errorPrefix fresh

section Texts

variable {started modified : DateTime}

/-- A space is before a `T`. -/
theorem space_lt_t (back other : List Nat) :
    codes (str " ") ++ back < codes (str "T") ++ other := by
  apply List.Lex.rel
  decide

/-- The texts compare the days. -/
theorem isFresh_iff {entry : Entry} (known : entry.lastModified = some modified) :
    isFresh (utcNowIso started) entry = true ↔ started.day < modified.day := by
  have text : isFresh (utcNowIso started) entry = true ↔
      ¬codes (datetimeText modified) < codes (utcNowIso started) := by
    rw [isFresh, known, strLe, decide_eq_true_eq]
    exact not_lt.symm
  rw [text, datetimeText, utcNowIso]
  simp only [codes_append]
  rw [append_lt_append_iff (by simp), DateTime.codes_date_lt_iff, DateTime.codes_date_eq_iff]
  simp only [space_lt_t, and_true]
  omega

end Texts

section Runs

variable {bucket keyPrefix : Str} {log : List S3Event}

/-- The polling ends with a listing that shows an object, unless no listing does. -/
theorem pollObjects_spec {checks : Nat} {contents : List Entry}
    (ran : (pollObjects bucket keyPrefix checks).Runs log (.ok contents))
    (empty : contents = []) :
    ∀ event ∈ log, ∃ response : ListResponse, response.contents = [] ∧
      event = ⟨.listObjectsV2 bucket keyPrefix none, .ok response⟩ := by
  induction checks generalizing log with
  | zero =>
      rcases ran with ⟨rfl, -⟩
      simp
  | succ checks ih =>
      rw [pollObjects] at ran
      rcases Program.runs_bind_ok.mp ran with ⟨response, first, rest, rfl, listed, ran⟩
      rw [runs_send_ok.mp listed]
      split at ran
      · next shown =>
          intro event eventMem
          rcases List.mem_cons.mp eventMem with rfl | eventMem
          · exact ⟨response, shown, rfl⟩
          · exact ih ran event eventMem
      · have same := Except.ok.inj ran.2
        subst same
        cases empty

theorem checkEncryption_eq (probes : List Probe) (head : HeadResponse) :
    ∃ probe : Probe, probe.name ≠ s3Errors ∧
      checkEncryption rt probes head = probes ++ [probe] := by
  have other : str "s3:encryption" ≠ s3Errors := by decide
  unfold checkEncryption
  simp only
  split
  · exact ⟨⟨str "s3:encryption", .ok, _⟩, other, rfl⟩
  · exact ⟨⟨str "s3:encryption", .fail, _⟩, other, rfl⟩

/-- The last probe is about the entries of the last listing that are fresh. -/
theorem checkS3_spec {checks : Nat} {settings : S3Settings} {probes reported : List Probe}
    {firehose : Firehose}
    (ran : (checkS3 rt checks settings probes firehose).Runs log (.ok reported))
    (bucketSome : firehose.bucket ≠ [])
    (present : ∃ response, response.contents ≠ [] ∧
      ⟨.listObjectsV2 firehose.bucket (s3ListingPrefix firehose.keyPrefix settings.tool) none,
        .ok response⟩ ∈ log) :
    ∃ (response : ListResponse) (objects encryption : Probe),
      ⟨.listObjectsV2 firehose.bucket (errorListingPrefix firehose.errorPrefix) none,
        .ok response⟩ ∈ log ∧
      objects.name ≠ s3Errors ∧ encryption.name ≠ s3Errors ∧
      reported = checkErrors (probes ++ [objects, encryption]) firehose.bucket
        (errorListingPrefix firehose.errorPrefix)
        (response.contents.filter (isFresh settings.startedAt)) := by
  rw [checkS3, if_neg bucketSome] at ran
  rcases Program.runs_bind_ok.mp ran with ⟨contents, polled, rest, rfl, polling, ran⟩
  split at ran
  · rcases ran with ⟨rfl, -⟩
    rcases present with ⟨response, shown, inLog⟩
    rw [List.append_nil] at inLog
    rcases pollObjects_spec polling rfl _ inLog with ⟨other, empty, same⟩
    cases same
    exact absurd empty shown
  · next first others =>
      rcases Program.runs_ofExcept_bind.mp ran with ⟨_, _, _, impossible⟩ | ⟨key, _, ran⟩
      · cases impossible
      rcases Program.runs_bind_ok.mp ran with ⟨head, headed, rest, rfl, _, ran⟩
      rcases Program.runs_bind_ok.mp ran with ⟨response, listing, rest, rfl, listed, ⟨rfl, same⟩⟩
      cases same
      rw [runs_send_ok.mp listed]
      have otherObjects : str "s3:objects" ≠ s3Errors := by decide
      let detail := foundDetail firehose.bucket
        (s3ListingPrefix firehose.keyPrefix settings.tool) (first :: others)
      rcases checkEncryption_eq rt (emit probes (str "s3:objects") .ok detail) head with
        ⟨encryption, otherName, checked⟩
      refine ⟨response, ⟨str "s3:objects", .ok, detail⟩, encryption, ?_, otherObjects, otherName,
        ?_⟩
      · simp
      · rw [checked, emit, List.append_assoc]
        rfl

end Runs

section Verdict

/-- An object of the store. -/
structure Object where
  key : Str
  lastModified : DateTime

def Object.entry (object : Object) : Entry := ⟨some object.key, some object.lastModified⟩

/-- The probe for delivery errors is emitted as a failure. -/
def ReportsErrors (probes reported : List Probe) : Prop :=
  ∃ detail, ⟨s3Errors, .fail, detail⟩ ∈ reported.drop probes.length

/-- The object was modified at or after the instant that the start of the run names. -/
def Object.FreshSince (started : DateTime) (object : Object) : Prop :=
  started.seconds * 1000000 ≤ object.lastModified.micros

theorem Object.freshSince_of_day {started : DateTime} (object : Object)
    (later : started.day < object.lastModified.day) : object.FreshSince started := by
  unfold Object.FreshSince
  unfold DateTime.day DateTime.seconds at *
  omega

theorem reportsErrors_checkErrors {probes : List Probe} {objects encryption : Probe}
    {bucket errorPrefix : Str} {fresh : List Entry} (otherObjects : objects.name ≠ s3Errors)
    (otherEncryption : encryption.name ≠ s3Errors) :
    ReportsErrors probes (checkErrors (probes ++ [objects, encryption]) bucket errorPrefix fresh) ↔
      fresh ≠ [] := by
  have notObjects (detail : Str) : ⟨s3Errors, .fail, detail⟩ ≠ objects := by
    rintro rfl
    exact otherObjects rfl
  have notEncryption (detail : Str) : ⟨s3Errors, .fail, detail⟩ ≠ encryption := by
    rintro rfl
    exact otherEncryption rfl
  have dropped (status : Status) (detail : Str) :
      (emit (probes ++ [objects, encryption]) s3Errors status detail).drop probes.length =
        [objects, encryption, ⟨s3Errors, status, detail⟩] := by
    simp [emit]
  unfold checkErrors ReportsErrors
  split
  · next some =>
      rw [dropped]
      exact iff_of_true
        ⟨_, List.mem_cons_of_mem _ (List.mem_cons_of_mem _ List.mem_cons_self)⟩ some
  · next none =>
      rw [dropped]
      simp [none, notObjects, notEncryption]

/--
Whatever is stored under the error prefix and however many of it the first page of a listing
holds, when there are data objects: the check reports the errors there are exactly when one of
the first page was modified on a later day than the start of the run, or none is fresh.
-/
theorem reported_iff {checks : Nat} {tool : Str} {started : DateTime} {firehose : Firehose}
    {probes reported : List Probe} {log : List S3Event} {stored : List Object} {size : Nat}
    (bucketSome : firehose.bucket ≠ [])
    (ran : (checkS3 rt checks ⟨tool, utcNowIso started⟩ probes firehose).Runs log (.ok reported))
    (present : ∃ response, response.contents ≠ [] ∧
      ⟨.listObjectsV2 firehose.bucket (s3ListingPrefix firehose.keyPrefix tool) none,
        .ok response⟩ ∈ log)
    (page : ∀ response,
      ⟨.listObjectsV2 firehose.bucket (errorListingPrefix firehose.errorPrefix) none,
        .ok response⟩ ∈ log → response.contents = (stored.take size).map Object.entry) :
    (ReportsErrors probes reported ↔ ∃ object ∈ stored, object.FreshSince started) ↔
      ((∃ object ∈ stored, object.FreshSince started) →
        ∃ object ∈ stored.take size, started.day < object.lastModified.day) := by
  rcases checkS3_spec rt ran bucketSome present with
    ⟨response, objects, encryption, inLog, otherObjects, otherEncryption, rfl⟩
  rw [reportsErrors_checkErrors otherObjects otherEncryption, page response inLog]
  have found : (((stored.take size).map Object.entry).filter (isFresh (utcNowIso started))) ≠ [] ↔
      ∃ object ∈ stored.take size, started.day < object.lastModified.day := by
    simp only [ne_eq, List.filter_eq_nil_iff, List.mem_map, not_forall, not_not]
    constructor
    · rintro ⟨_, ⟨object, objectMem, rfl⟩, fresh⟩
      exact ⟨object, objectMem, (isFresh_iff rfl).mp fresh⟩
    · rintro ⟨object, objectMem, later⟩
      exact ⟨_, ⟨object, objectMem, rfl⟩, (isFresh_iff rfl).mpr later⟩
  have later : (∃ object ∈ stored.take size, started.day < object.lastModified.day) →
      ∃ object ∈ stored, object.FreshSince started := by
    rintro ⟨object, objectMem, later⟩
    exact ⟨object, List.mem_of_mem_take objectMem, object.freshSince_of_day later⟩
  rw [found]
  constructor
  · intro reports fresh
    exact reports.mpr fresh
  · intro reports
    exact ⟨later, reports⟩

end Verdict

namespace ErrorSample

/-- A time of the first days of 2026. -/
def newYear (seconds : Nat) (early : seconds < 172800) : DateTime :=
  ⟨(Date.ordinal ⟨2026, 1, 1⟩ * 86400 + seconds) * 1000000, by
    have ordinal : Date.ordinal ⟨2026, 1, 1⟩ = 739616 := by decide
    rw [ordinal, maxOrdinal]
    omega⟩

def started : DateTime := newYear 0 (by decide)

def sameDay : DateTime := newYear 5 (by decide)

def nextDay : DateTime := newYear 86400 (by decide)

def lake : Firehose where
  bucket := str "lake"
  keyPrefix := str "raw/tool="
  errorPrefix := str "errors/!\x7bfirehose:error-output-type\x7d/"

def stored (modified : DateTime) : List Object := [⟨str "errors/format-conversion/x", modified⟩]

/-- One object is found under every prefix. -/
def found (modified : DateTime) : (call : S3Call) → call.Reply
  | .listObjectsV2 _ _ _ => .ok ⟨(stored modified).map Object.entry, false, none⟩
  | .deleteObjects _ _ => .ok []
  | .headObject _ _ => .ok ⟨some (str "aws:kms"), some (str "key")⟩

def check : S3 (List Probe) :=
  checkS3 Runtime.whole 0 ⟨str "e2e-smoke", utcNowIso started⟩ [] lake

def log (modified : DateTime) : List S3Event := (check.answer (found modified)).1

/-- What the check reports when an object was modified at a time. -/
def reported (modified : DateTime) : List Probe :=
  let prefixes := (s3ListingPrefix lake.keyPrefix (str "e2e-smoke"),
    errorListingPrefix lake.errorPrefix)
  let entries := (stored modified).map Object.entry
  let probes := checkEncryption Runtime.whole
    (emit [] (str "s3:objects") .ok (foundDetail lake.bucket prefixes.1 entries))
    ⟨some (str "aws:kms"), some (str "key")⟩
  checkErrors probes lake.bucket prefixes.2 (entries.filter (isFresh (utcNowIso started)))

theorem runs (modified : DateTime) : check.Runs (log modified) (.ok (reported modified)) :=
  Program.runs_answer (found modified) check

theorem present (modified : DateTime) : ∃ response, response.contents ≠ [] ∧
    ⟨.listObjectsV2 lake.bucket (s3ListingPrefix lake.keyPrefix (str "e2e-smoke")) none,
      .ok response⟩ ∈ log modified :=
  ⟨⟨(stored modified).map Object.entry, false, none⟩, by simp [stored], List.mem_cons_self⟩

theorem page (modified : DateTime) (response : ListResponse)
    (inLog : ⟨.listObjectsV2 lake.bucket (errorListingPrefix lake.errorPrefix) none,
      .ok response⟩ ∈ log modified) :
    response.contents = ((stored modified).take 1000).map Object.entry := by
  have same := Program.answer_replies (found modified) check _ inLog
  cases same
  rfl

end ErrorSample

/-- A delivery error of the day after the start is reported. -/
theorem reported_nextDay : ReportsErrors [] (ErrorSample.reported ErrorSample.nextDay) ↔
    ∃ object ∈ ErrorSample.stored ErrorSample.nextDay, object.FreshSince ErrorSample.started := by
  have bucketSome : ErrorSample.lake.bucket ≠ [] := by decide
  apply (reported_iff Runtime.whole bucketSome (ErrorSample.runs ErrorSample.nextDay)
    (ErrorSample.present ErrorSample.nextDay) (ErrorSample.page ErrorSample.nextDay)).mpr
  intro _
  exact ⟨_, List.mem_cons_self, by decide +kernel⟩

/-- A delivery error five seconds after the start is not reported. -/
theorem not_reported_sameDay : ∃ (log : List S3Event) (reported : List Probe)
    (stored : List Object),
    ErrorSample.check.Runs log (.ok reported) ∧
    (∃ response, response.contents ≠ [] ∧
      ⟨.listObjectsV2 ErrorSample.lake.bucket
        (s3ListingPrefix ErrorSample.lake.keyPrefix (str "e2e-smoke")) none, .ok response⟩ ∈ log) ∧
    (∀ response,
      ⟨.listObjectsV2 ErrorSample.lake.bucket
        (errorListingPrefix ErrorSample.lake.errorPrefix) none, .ok response⟩ ∈ log →
          response.contents = (stored.take 1000).map Object.entry) ∧
    ¬(ReportsErrors [] reported ↔ ∃ object ∈ stored, object.FreshSince ErrorSample.started) := by
  refine ⟨_, _, _, ErrorSample.runs ErrorSample.sameDay, ErrorSample.present _,
    ErrorSample.page _, ?_⟩
  intro reports
  have fresh : ∃ object ∈ ErrorSample.stored ErrorSample.sameDay,
      object.FreshSince ErrorSample.started := by
    refine ⟨_, List.mem_cons_self, ?_⟩
    unfold Object.FreshSince
    decide +kernel
  have fine : ∀ probe ∈ (ErrorSample.reported ErrorSample.sameDay).drop ([] : List Probe).length,
      probe.name = s3Errors → probe.status = .ok := by
    decide +kernel
  rcases reports.mpr fresh with ⟨detail, emitted⟩
  cases fine _ emitted rfl

end Verifier
