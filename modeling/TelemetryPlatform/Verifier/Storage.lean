import TelemetryPlatform.Library.Calendar
import TelemetryPlatform.Library.Numeral
import TelemetryPlatform.Library.Program
import TelemetryPlatform.Library.Text
import TelemetryPlatform.Library.Transition
import Mathlib.Data.Finset.Basic

/-!
# The object store of the verifier

The part of the S3 client that `scripts/e2e_verify.py` uses to look at the objects of
a run and to delete them, the probes it reports, and the prefixes it derives from the
Firehose destination.

`Serves` is what a call does to the objects of one bucket. A listing returns some of
the objects under a prefix, however S3 divides them into pages. A quiet deletion
deletes the requested keys but those that its reply reports under `Errors`. A call that
raises may have deleted some of the keys all the same.
-/

namespace Verifier

open Python Interaction Transition

inductive Status where
  | ok
  | fail
  | info
  deriving DecidableEq

structure Probe where
  name : Str
  status : Status
  detail : Str
  deriving DecidableEq

/-- `_emit`; what it prints is left out. -/
def emit (probes : List Probe) (name : Str) (status : Status) (detail : Str) : List Probe :=
  probes ++ [⟨name, status, detail⟩]

theorem emit_injective {probes : List Probe} {name : Str} {status : Status} {left right : Str}
    (same : emit probes name status left = emit probes name status right) : left = right := by
  simpa [emit] using same

inductive VerifyExc where
  | clientError (text : Str)
  | keyError (key : Str)
  /-- A loop did not end within the rounds it was given. -/
  | unfinished
  deriving DecidableEq

/-- An entry of `Contents`. -/
structure Entry where
  key : Option Str
  lastModified : Option DateTime

structure ListResponse where
  contents : List Entry
  isTruncated : Bool
  nextContinuationToken : Option Str

/-- An entry of the `Errors` of a quiet deletion. -/
structure DeleteFailure where
  key : Str
  code : Str
  deriving DecidableEq

structure HeadResponse where
  serverSideEncryption : Option Str
  sseKmsKeyId : Option Str

inductive S3Call where
  | listObjectsV2 (bucket keyPrefix : Str) (continuationToken : Option Str)
  | deleteObjects (bucket : Str) (keys : List Str)
  | headObject (bucket key : Str)

/-- What a call returns when it does not raise. -/
@[reducible]
def S3Call.Result : S3Call → Type
  | .listObjectsV2 _ _ _ => ListResponse
  | .deleteObjects _ _ => List DeleteFailure
  | .headObject _ _ => HeadResponse

@[reducible]
def S3Call.Reply (call : S3Call) : Type := Except Str call.Result

abbrev S3 := Program S3Call S3Call.Reply VerifyExc

abbrev S3Event := Event S3Call S3Call.Reply

/-- A method of the client. -/
def send (call : S3Call) : S3 call.Result := do
  match ← Program.perform call with
  | .ok result => return result
  | .error text => throw (.clientError text)

theorem runs_send_ok {call : S3Call} {log : List S3Event} {result : call.Result} :
    (send call).Runs log (.ok result) ↔ log = [⟨call, .ok result⟩] := by
  simp only [send, Program.perform_bind, Program.runs_call]
  constructor
  · rintro ⟨reply, rest, rfl, ran⟩
    cases reply with
    | error text => cases ran.2
    | ok answered =>
        rcases ran with ⟨rfl, same⟩
        cases same
        rfl
  · rintro rfl
    exact ⟨.ok result, [], rfl, rfl, rfl⟩

/-- The destination that `discover_firehose_stream` returns. -/
structure Firehose where
  bucket : Str
  keyPrefix : Str
  errorPrefix : Str

section Prefixes

def toolSentinel : Str := str "tool="
def expressionSentinel : Str := str "!\x7b"

/-- `s3_listing_prefix`. -/
def s3ListingPrefix (firehosePrefix tool : Str) : Str :=
  let base := match splitOnce toolSentinel firehosePrefix with
    | some (front, _) => front
    | none =>
        match splitOnce expressionSentinel firehosePrefix with
        | some (front, _) => front
        | none => firehosePrefix
  base ++ str "tool=" ++ tool ++ str "/"

/-- `_error_listing_prefix`. -/
def errorListingPrefix (errorPrefix : Str) : Str :=
  match splitOnce expressionSentinel errorPrefix with
  | some (front, _) => front
  | none => errorPrefix

/-- What precedes the first `tool=` is kept. -/
theorem s3ListingPrefix_append {base : Str} (rest tool : Str)
    (first : ¬Contains toolSentinel base) :
    s3ListingPrefix (base ++ toolSentinel ++ rest) tool =
      base ++ str "tool=" ++ tool ++ str "/" := by
  have plain : Chr.char 't' ∉ str "ool=" := by decide
  have found : splitOnce toolSentinel (base ++ toolSentinel ++ rest) = some (base, rest) :=
    splitOnce_first plain first
  rw [s3ListingPrefix, found]

end Prefixes

section Bucket

/-- The keys of a listing. -/
def ListResponse.keys (response : ListResponse) : List Str := response.contents.filterMap Entry.key

/-- The keys that the reply to a call lists. -/
def listedKeys : S3Event → List Str
  | ⟨.listObjectsV2 _ _ _, .ok response⟩ => response.keys
  | _ => []

/-- The failures that the reply to a call reports. -/
def failures : S3Event → List DeleteFailure
  | ⟨.deleteObjects _ _, .ok failures⟩ => failures
  | _ => []

/-- What a call does to the objects of a bucket. -/
def Serves (bucket : Str) (before : Finset Str) : S3Event → Finset Str → Prop
  | ⟨.listObjectsV2 name keyPrefix _, reply⟩, after =>
      after = before ∧ ∀ response, reply = .ok response → name = bucket →
        response.keys.Nodup ∧ ∀ key ∈ response.keys, key ∈ before ∧ keyPrefix <+: key
  | ⟨.deleteObjects name keys, .ok failures⟩, after =>
      (∀ failure ∈ failures, failure.key ∈ keys) ∧
        after = if name = bucket then
          before.filter fun key => key ∉ keys ∨ key ∈ failures.map DeleteFailure.key
          else before
  | ⟨.deleteObjects name keys, .error _⟩, after =>
      after ⊆ before ∧ ∀ key ∈ before, key ∉ after → name = bucket ∧ key ∈ keys
  | ⟨.headObject _ _, _⟩, after => after = before

end Bucket

end Verifier
