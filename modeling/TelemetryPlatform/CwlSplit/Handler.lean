import Mathlib.Data.List.Perm.Basic
import TelemetryPlatform.CwlSplit.Reshape
import TelemetryPlatform.Library.Program

/-!
# The Firehose transform

`handler` answers each input record of a Firehose event once. An aggregated
record is split: the byte records of all its log events are put back into the
delivery stream in chunks, failed ones again up to a bound, and the input record
is dropped. The programs talk to the clock and to `PutRecordBatch`.

`Delivery` is the reader's view of an input record: what it holds once it has
been decoded. The specification of `transformRecord` is stated over it.
-/

namespace CwlSplit

open Python Interaction

/-- An entry of `RequestResponses`. -/
structure PutResult where
  errorCode : Option Str

/-- `res.get("ErrorCode")` is true. -/
def PutResult.Failed (result : PutResult) : Prop := result.errorCode.getD [] ≠ []

instance (result : PutResult) : Decidable result.Failed :=
  inferInstanceAs (Decidable (_ ≠ _))

structure PutResponse where
  failedPutCount : Option Nat
  requestResponses : Option (List PutResult)

inductive Call where
  | now
  | putRecordBatch (stream : Str) (records : List Bytes)

@[reducible]
def Call.Reply : Call → Type
  | .now => List Char
  | .putRecordBatch _ _ => Except Exc PutResponse

abbrev Transform := Program Call Call.Reply Exc

abbrev TransformEvent := Event Call Call.Reply

/-- A record of `event["records"]`. -/
structure InputRecord where
  recordId : Str
  data : Str

inductive Status where
  | ok
  | dropped
  | processingFailed
  deriving DecidableEq

/-- A record of the response. -/
structure OutputRecord where
  recordId : Str
  result : Status
  data : Option Str

variable (rt : Runtime) (config : Config)

def putRecordBatchMax : Nat := 500

/-- `[pending[i] for i, res in enumerate(results) if res.get("ErrorCode")]`. -/
def failedOf (pending : List Bytes) (results : List PutResult) : Except Exc (List Bytes) :=
  match results, pending with
  | [], _ => .ok []
  | result :: results, record :: pending =>
      if result.Failed then (failedOf pending results).map (record :: ·)
      else failedOf pending results
  | result :: results, [] =>
      if result.Failed then .error .indexError else failedOf [] results

/-- `records[start : start + size]` for `start` in `range(0, len(records), size)`. -/
def chunks (size : Nat) (records : List Bytes) : List (List Bytes) :=
  match size, records with
  | 0, _ => []
  | _, [] => []
  | size + 1, first :: rest =>
      (first :: rest.take size) :: chunks (size + 1) (rest.drop size)
termination_by records.length

/-- The attempts left for one chunk; the last of them gives up. -/
def putChunk (attempts : Nat) (pending : List Bytes) : Transform Unit :=
  match attempts with
  | 0 => return
  | attempts + 1 => do
      let reply ← Program.perform (Call.putRecordBatch config.deliveryStreamName pending)
      let response ← Program.ofExcept reply
      if response.failedPutCount.getD 0 = 0 then
        return
      let results ← match response.requestResponses with
        | some results => pure results
        | none => throw (.keyError (str "RequestResponses"))
      let pending ← Program.ofExcept (failedOf pending results)
      if attempts = 0 then
        throw (.runtimeError (str "re-ingestion failed for " ++
          (Runtime.intText pending.length).map .char ++ str " record(s) after " ++
          (Runtime.intText config.reingestMaxAttempts).map .char ++ str " attempts to " ++
          config.deliveryStreamName))
      putChunk attempts pending

def reingest (records : List Bytes) : Transform Unit :=
  (chunks putRecordBatchMax records).forM (putChunk config config.reingestMaxAttempts)

/-- What one log event adds to the records to re-ingest: its rows, or its original bytes. -/
def contribution (now : List Char) (message : Str) : Except Exc (List Bytes) :=
  match reshapeRecords rt config now message with
  | .ok rows => .ok rows
  | .error _ => do
      -- the line printed for the failure names the service
      let _ ← diagnosticServiceName rt message
      let original ← encode message
      return [original]

/-- `str(log_event.get("message", ""))`. -/
def messageOf (logEvent : rt.Value) : Except Exc Str := do
  rt.strOf (← logEvent.getD (str "message") (.str []))

def collectEvents (logEvents : List rt.Value) : Transform (List Bytes) :=
  match logEvents with
  | [] => return []
  | logEvent :: rest => do
      let message ← Program.ofExcept (messageOf rt logEvent)
      let now ← Program.perform Call.now
      let rows ← Program.ofExcept (contribution rt config now message)
      let others ← collectEvents rest
      return rows ++ others

def isGzip (data : Bytes) : Bool := data.take 2 = [0x1f, 0x8b]

/-- `envelope.get("messageType") == "CONTROL_MESSAGE"`. -/
def isControl (messageType : rt.Value) : Bool :=
  match messageType with
  | .str text => text = str "CONTROL_MESSAGE"
  | _ => false

/-- The end of the loop over `event["records"]`: the events replace the record. -/
def replaceRecord (record : InputRecord) (events : List Bytes) : Transform OutputRecord :=
  try
    if events ≠ [] then
      reingest config events
    pure ⟨record.recordId, .dropped, none⟩
  catch _ =>
    pure ⟨record.recordId, .processingFailed, none⟩

/-- The body of the loop over `event["records"]`. -/
def transformRecord (record : InputRecord) : Transform OutputRecord := do
  let data ← Program.ofExcept (rt.b64decode record.data)
  if !isGzip data then
    return ⟨record.recordId, .ok, some record.data⟩
  let raw ← Program.ofExcept (rt.gunzip data)
  let text ← Program.ofExcept (rt.decodeJsonBytes raw)
  let envelope ← Program.ofExcept (rt.loads text)
  let messageType ← Program.ofExcept (envelope.get (str "messageType"))
  if isControl rt messageType then
    return ⟨record.recordId, .dropped, none⟩
  let listed ← Program.ofExcept (envelope.getD (str "logEvents") (.arr []))
  let logEvents ← Program.ofExcept listed.iterate
  let events ← collectEvents rt config logEvents
  replaceRecord config record events

def handler (records : List InputRecord) : Transform (List OutputRecord) :=
  records.mapM (transformRecord rt config)

/-- What a well-formed input record holds. -/
inductive Delivery where
  | plain
  | control
  | logs (messages : List Str)
  deriving DecidableEq

variable {rt}

/-- The string messages of a list of log events. -/
def messagesOf? (logEvents : List rt.Value) : Option (List Str) :=
  logEvents.mapM fun logEvent =>
    match logEvent with
    | .obj entries =>
        match dictGet? entries (str "message") with
        | some (.str message) => some message
        | _ => none
    | _ => none

def envelopeDelivery? (envelope : rt.Value) : Option Delivery :=
  match envelope with
  | .obj entries =>
      match dictGet? entries (str "logEvents") with
      | some (.arr logEvents) =>
          (messagesOf? logEvents).map fun messages =>
            if isControl rt ((dictGet? entries (str "messageType")).getD .null) then .control
            else .logs messages
      | _ => none
  | _ => none

variable (rt) in
/--
The delivery in a record that is not compressed, or that is a compressed envelope
object with a list of log events that are objects with a string message.
-/
def delivery? (record : InputRecord) : Option Delivery :=
  match rt.b64decode record.data with
  | .error _ => none
  | .ok data =>
      if isGzip data then
        match (rt.gunzip data).bind rt.decodeJsonBytes with
        | .error _ => none
        | .ok text =>
            match rt.loads text with
            | .ok envelope => envelopeDelivery? envelope
            | .error _ => none
      else some .plain

end CwlSplit
