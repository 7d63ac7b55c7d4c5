import TelemetryPlatform.CwlSplit.Handler
import TelemetryPlatform.Library.WholeRuntime

/-!
# No log event is lost

An input record may be answered `Dropped` only once everything it carried is
safe: each of its log events has contributed at least one byte record, and each
byte record has been acknowledged by `PutRecordBatch`.

Re-ingestion keeps its half. A chunk that returns has had every record of it
acknowledged, each exactly once, however the failures were spread over the
attempts (`acknowledged_of_reingest`). The classifier does not keep its half: an
EMF event that declares no usable metric is reshaped into no row at all, so it
disappears with the record that carried it. `lossless_iff` says that this is the
only way to lose a log event.
-/

namespace CwlSplit

open Python Interaction

variable {rt : Runtime} {config : Config}

/-- A response with one result per record and the number of failed ones. -/
def Honours (event : TransformEvent) : Prop :=
  match event with
  | ⟨.putRecordBatch _ records, .ok response⟩ =>
      ∃ results, response.requestResponses = some results ∧ results.length = records.length ∧
        response.failedPutCount = some (results.countP fun result => result.Failed)
  | _ => True

/-- The records of a batch that were taken in. -/
def acceptedOf (records : List Bytes) (results : List PutResult) : List Bytes :=
  ((records.zip results).filter fun put => !put.2.Failed).map Prod.fst

/-- The records a log of calls saw acknowledged. -/
def acknowledged (log : List TransformEvent) : List Bytes :=
  log.flatMap fun event =>
    match event with
    | ⟨.putRecordBatch _ records, .ok response⟩ =>
        acceptedOf records (response.requestResponses.getD [])
    | _ => []

@[simp]
theorem acknowledged_nil : acknowledged [] = [] := rfl

theorem acknowledged_append (first second : List TransformEvent) :
    acknowledged (first ++ second) = acknowledged first ++ acknowledged second :=
  List.flatMap_append

theorem acknowledged_put {stream : Str} {records : List Bytes} {response : PutResponse}
    {results : List PutResult} {rest : List TransformEvent}
    (listed : response.requestResponses = some results) :
    acknowledged (⟨.putRecordBatch stream records, .ok response⟩ :: rest) =
      acceptedOf records results ++ acknowledged rest := by
  simp [acknowledged, listed]

section Reingestion

theorem failedOf_eq {pending : List Bytes} {results : List PutResult}
    (sameLength : results.length = pending.length) :
    failedOf pending results =
      .ok (((pending.zip results).filter fun put => put.2.Failed).map Prod.fst) := by
  induction results generalizing pending with
  | nil => simp [failedOf]
  | cons result results ih =>
      cases pending with
      | nil => simp at sameLength
      | cons record pending =>
          have tail := ih (by simpa using sameLength)
          by_cases failed : result.Failed
          · simp [failedOf, failed, tail, Except.map]
          · simp [failedOf, failed, tail]

/-- Every record of a batch was either taken in or has failed. -/
theorem accepted_append_failed {pending failed : List Bytes} {results : List PutResult}
    (sameLength : results.length = pending.length)
    (computed : failedOf pending results = .ok failed) :
    (acceptedOf pending results ++ failed).Perm pending := by
  rw [failedOf_eq sameLength] at computed
  cases computed
  have fsts : (pending.zip results).map Prod.fst = pending :=
    List.map_fst_zip (by omega)
  have split := List.filter_append_perm (fun put : Bytes × PutResult => decide put.2.Failed)
    (pending.zip results)
  have mapped := split.map Prod.fst
  rw [List.map_append, fsts] at mapped
  exact List.perm_append_comm.trans mapped

theorem acceptedOf_eq_self {pending : List Bytes} {results : List PutResult}
    (sameLength : results.length = pending.length)
    (noneFailed : results.countP (fun result => result.Failed) = 0) :
    acceptedOf pending results = pending := by
  have fsts : (pending.zip results).map Prod.fst = pending :=
    List.map_fst_zip (by omega)
  rw [acceptedOf, List.filter_eq_self.mpr, fsts]
  intro put putMem
  have resultMem : put.2 ∈ results := (List.of_mem_zip putMem).2
  have notFailed := List.countP_eq_zero.mp noneFailed put.2 resultMem
  simpa using notFailed

/-- A chunk that returns has had all its records acknowledged. -/
theorem acknowledged_of_putChunk {attempts : Nat} {pending : List Bytes}
    {log : List TransformEvent} (some : 0 < attempts)
    (ran : (putChunk config attempts pending).Runs log (.ok ()))
    (honoured : ∀ event ∈ log, Honours event) : (acknowledged log).Perm pending := by
  induction attempts generalizing pending log with
  | zero => omega
  | succ attempts ih =>
      simp only [putChunk, Program.perform_bind, Program.runs_call,
        Program.runs_ofExcept_bind] at ran
      rcases ran with ⟨reply, rest, rfl, ⟨_, _, _, impossible⟩ | ⟨response, rfl, ran⟩⟩
      · cases impossible
      rcases honoured _ List.mem_cons_self with ⟨results, listed, sameLength, counted⟩
      rw [acknowledged_put listed]
      by_cases done : response.failedPutCount.getD 0 = 0
      · simp only [done, if_true, Program.pure_eq_ret, Program.runs_ret] at ran
        rcases ran with ⟨rfl, _⟩
        rw [counted, Option.getD_some] at done
        rw [acceptedOf_eq_self sameLength done, acknowledged_nil, List.append_nil]
      · simp only [done, if_false, listed, Program.pure_eq_ret, Program.ret_bind,
          Program.runs_ofExcept_bind] at ran
        rcases ran with ⟨_, _, _, impossible⟩ | ⟨failed, computed, ran⟩
        · cases impossible
        have split := accepted_append_failed sameLength computed
        by_cases last : attempts = 0
        · simp [last] at ran
        · simp only [last, if_false] at ran
          have again := ih (by omega) ran
            fun event eventMem => honoured event (List.mem_cons_of_mem _ eventMem)
          exact (again.append_left _).trans split

theorem flatten_chunks {size : Nat} (positive : 0 < size) (records : List Bytes) :
    (chunks size records).flatten = records := by
  fun_induction chunks size records with
  | case1 records => omega
  | case2 size => rfl
  | case3 size first rest ih =>
      have tail := ih (by omega)
      simp only [List.flatten_cons, List.cons_append, tail, List.take_append_drop]

theorem acknowledged_of_forM {batches : List (List Bytes)} {attempts : Nat}
    {log : List TransformEvent} (some : 0 < attempts)
    (ran : (batches.forM (putChunk config attempts)).Runs log (.ok ()))
    (honoured : ∀ event ∈ log, Honours event) :
    (acknowledged log).Perm batches.flatten := by
  induction batches generalizing log with
  | nil =>
      rw [ran.1]
      rfl
  | cons batch batches ih =>
      rcases Program.runs_bind_ok.mp ran with ⟨_, first, second, rfl, firstRan, secondRan⟩
      rw [acknowledged_append, List.flatten_cons]
      apply List.Perm.append
      · exact acknowledged_of_putChunk some firstRan
          fun event eventMem => honoured event (List.mem_append_left _ eventMem)
      · exact ih secondRan fun event eventMem => honoured event (List.mem_append_right _ eventMem)

theorem runs_reingest_nil : (reingest config []).Runs [] (.ok ()) := by
  simp [reingest, putRecordBatchMax, chunks]

/-- When re-ingestion returns, every record has been acknowledged exactly once. -/
theorem acknowledged_of_reingest {records : List Bytes} {log : List TransformEvent}
    (some : 0 < config.reingestMaxAttempts)
    (ran : (reingest config records).Runs log (.ok ()))
    (honoured : ∀ event ∈ log, Honours event) : (acknowledged log).Perm records := by
  have batches := acknowledged_of_forM some ran honoured
  rwa [flatten_chunks (by decide)] at batches

end Reingestion

section Collecting

/-- The contributions of the log events, in order, each at its own reading of the clock. -/
inductive Contributions (rt : Runtime) (config : Config) :
    List (List Char) → List Str → List (List Bytes) → Prop where
  | nil : Contributions rt config [] [] []
  | cons {now : List Char} {message : Str} {rows : List Bytes} {nows : List (List Char)}
      {messages : List Str} {others : List (List Bytes)}
      (contributed : contribution rt config now message = .ok rows)
      (rest : Contributions rt config nows messages others) :
      Contributions rt config (now :: nows) (message :: messages) (rows :: others)

/-- The readings of the clock in a log. -/
def readings (nows : List (List Char)) : List TransformEvent :=
  nows.map fun now => ⟨.now, now⟩

theorem messageOf_eq {entries : List (Str × rt.Value)} {message : Str}
    (found : dictGet? entries (str "message") = some (.str message)) :
    messageOf rt (.obj entries) = .ok message := by
  simp [messageOf, Json.getD, found, Runtime.strOf, bind, Except.bind]

theorem messagesOf?_cons {logEvent : rt.Value} {logEvents : List rt.Value} {messages : List Str}
    (found : messagesOf? (logEvent :: logEvents) = some messages) :
    ∃ entries message others, logEvent = .obj entries ∧
      dictGet? entries (str "message") = some (.str message) ∧ messages = message :: others ∧
      messagesOf? logEvents = some others := by
  cases logEvent with
  | obj entries =>
      cases named : dictGet? entries (str "message") with
      | none => simp [messagesOf?, named] at found
      | some value =>
          cases value with
          | str message =>
              cases rest : messagesOf? logEvents with
              | none =>
                  rw [messagesOf?] at rest
                  simp [messagesOf?, named, rest] at found
              | some others =>
                  have unfolded := rest
                  rw [messagesOf?] at unfolded
                  refine ⟨entries, message, others, rfl, named, ?_, rfl⟩
                  simpa [messagesOf?, named, unfolded, eq_comm] using found
          | null => simp [messagesOf?, named] at found
          | bool value => simp [messagesOf?, named] at found
          | int value => simp [messagesOf?, named] at found
          | float value => simp [messagesOf?, named] at found
          | arr items => simp [messagesOf?, named] at found
          | obj entries => simp [messagesOf?, named] at found
  | null => simp [messagesOf?] at found
  | bool value => simp [messagesOf?] at found
  | int value => simp [messagesOf?] at found
  | float value => simp [messagesOf?] at found
  | str text => simp [messagesOf?] at found
  | arr items => simp [messagesOf?] at found

theorem runs_collectEvents {nows : List (List Char)} {messages : List Str}
    {contributions : List (List Bytes)} {logEvents : List rt.Value}
    (found : messagesOf? logEvents = some messages)
    (collected : Contributions rt config nows messages contributions) :
    (collectEvents rt config logEvents).Runs (readings nows) (.ok contributions.flatten) := by
  induction collected generalizing logEvents with
  | nil =>
      cases logEvents with
      | nil => exact ⟨rfl, rfl⟩
      | cons logEvent logEvents =>
          rcases messagesOf?_cons found with ⟨_, _, _, _, _, impossible, _⟩
          cases impossible
  | @cons now message rows nows messages others contributed rest ih =>
      cases logEvents with
      | nil => cases found
      | cons logEvent logEvents =>
          rcases messagesOf?_cons found with ⟨entries, _, _, rfl, named, same, restFound⟩
          rcases List.cons.inj same with ⟨rfl, rfl⟩
          simp only [collectEvents, messageOf_eq named, Program.ofExcept, Program.ret_bind,
            Program.perform_bind]
          refine ⟨now, readings nows, rfl, ?_⟩
          simp only [contributed, Program.ret_bind]
          exact Program.runs_bind_ok.mpr
            ⟨others.flatten, readings nows, [], by simp, ih restFound, rfl, rfl⟩

/-- The loop over the log events collects a contribution from each or stops at one that raises. -/
theorem collectEvents_cases {logEvents : List rt.Value} {messages : List Str}
    {log : List TransformEvent} {outcome : Except Exc (List Bytes)}
    (found : messagesOf? logEvents = some messages)
    (ran : (collectEvents rt config logEvents).Runs log outcome) :
    (∃ nows contributions, Contributions rt config nows messages contributions ∧
        log = readings nows ∧ outcome = .ok contributions.flatten) ∨
      (∃ error, outcome = .error error) ∧
        ∃ now, ∃ message ∈ messages, ∃ error, contribution rt config now message = .error
            error := by
  induction logEvents generalizing messages log outcome with
  | nil =>
      cases found
      exact Or.inl ⟨[], [], .nil, ran.1, ran.2⟩
  | cons logEvent logEvents ih =>
      rcases messagesOf?_cons found with ⟨entries, message, others, rfl, named, rfl, rest⟩
      simp only [collectEvents, messageOf_eq named, Program.ofExcept, Program.ret_bind,
        Program.perform_bind, Program.runs_call] at ran
      rcases ran with ⟨now, tail, rfl, ran⟩
      cases contributed : contribution rt config now message with
      | error error =>
          simp only [contributed, Program.raise_bind, Program.runs_raise] at ran
          exact Or.inr ⟨⟨error, ran.2⟩, now, message, List.mem_cons_self, error, contributed⟩
      | ok rows =>
          simp only [contributed, Program.ret_bind, Program.runs_bind] at ran
          rcases ran with ⟨error, rfl, stopped⟩ | ⟨more, first, _, rfl, collecting, rfl, rfl⟩
          · rcases ih rest stopped with ⟨_, _, _, _, impossible⟩ | ⟨_, later, other,
              otherMem, raised⟩
            · cases impossible
            · exact Or.inr ⟨⟨error, rfl⟩, later, other, List.mem_cons_of_mem _ otherMem, raised⟩
          · rcases ih rest collecting with ⟨nows, contributions, collected, rfl,
              same⟩ | ⟨⟨_, impossible⟩, _⟩
            · cases same
              exact Or.inl ⟨now :: nows, rows :: contributions, .cons contributed collected,
                by simp [readings], rfl⟩
            · cases impossible

end Collecting

section Records

variable {record : InputRecord} {log : List TransformEvent}

theorem runs_replaceRecord {events : List Bytes} {outcome : Except Exc OutputRecord} :
    (replaceRecord config record events).Runs log outcome ↔
      (events = [] ∧ log = [] ∨ events ≠ [] ∧ (reingest config events).Runs log (.ok ())) ∧
          outcome = .ok ⟨record.recordId, .dropped, none⟩ ∨
        events ≠ [] ∧ (∃ error, (reingest config events).Runs log (.error error)) ∧
          outcome = .ok ⟨record.recordId, .processingFailed, none⟩ := by
  by_cases empty : events = []
  · simp [replaceRecord, empty, Program.handle]
  · simp only [replaceRecord, empty, ne_eq, not_false_eq_true, if_true, false_and, true_and,
      false_or, Program.tryCatch_eq_handle, Program.runs_handle, Program.pure_eq_ret,
      Program.runs_ret, Program.runs_bind]
    constructor
    · rintro (⟨value, rfl, ⟨_, impossible, _⟩ | ⟨_, first, _, rfl, ran, rfl, returned⟩⟩ |
        ⟨error, first, _, rfl, ⟨_, same, ran⟩ | ⟨_, _, _, _, _, _, impossible⟩, rfl, rfl⟩)
      · cases impossible
      · cases returned
        rw [List.append_nil]
        exact Or.inl ⟨ran, rfl⟩
      · rw [List.append_nil]
        exact Or.inr ⟨⟨_, ran⟩, rfl⟩
      · cases impossible
    · rintro (⟨ran, rfl⟩ | ⟨⟨error, ran⟩, rfl⟩)
      · exact Or.inl ⟨_, rfl, Or.inr ⟨(), log, [], (List.append_nil _).symm, ran, rfl, rfl⟩⟩
      · exact Or.inr ⟨error, log, [], (List.append_nil _).symm, Or.inl ⟨error, rfl, ran⟩, rfl, rfl⟩

/-- Replacing a record never raises: a failed re-ingestion is caught. -/
theorem replaceRecord_returns {events : List Bytes} {outcome : Except Exc OutputRecord}
    (ran : (replaceRecord config record events).Runs log outcome) :
    ∃ output, outcome = .ok output ∧ output.recordId = record.recordId := by
  rcases runs_replaceRecord.mp ran with ⟨_, rfl⟩ | ⟨_, _, rfl⟩
  · exact ⟨_, rfl, rfl⟩
  · exact ⟨_, rfl, rfl⟩

theorem envelope_of_delivery {envelope : rt.Value} {delivery : Delivery}
    (found : envelopeDelivery? envelope = some delivery) :
    ∃ entries logEvents messages, envelope = .obj entries ∧
      dictGet? entries (str "logEvents") = some (.arr logEvents) ∧
      messagesOf? logEvents = some messages ∧
      delivery = if isControl rt ((dictGet? entries (str "messageType")).getD .null) then .control
        else .logs messages := by
  simp only [envelopeDelivery?] at found
  split at found
  · next entries =>
      split at found
      · next logEvents listed =>
          rcases Option.map_eq_some_iff.mp found with ⟨messages, messages_eq, delivery_eq⟩
          exact ⟨entries, logEvents, messages, rfl, listed, messages_eq, delivery_eq.symm⟩
      · cases found
  · cases found

variable (rt) in
/-- The log events of a compressed record, read as `transformRecord` reads them. -/
def logEventsOf (record : InputRecord) : Except Exc (List rt.Value) := do
  let raw ← rt.gunzip (← rt.b64decode record.data)
  let envelope ← rt.loads (← rt.decodeJsonBytes raw)
  (← envelope.getD (str "logEvents") (.arr [])).iterate

/-- The program of a record, by what the record holds. -/
theorem transformRecord_eq (config : Config) {delivery : Delivery}
    (found : delivery? rt record = some delivery) :
    match delivery with
    | .plain => transformRecord rt config record = .ret ⟨record.recordId, .ok, some record.data⟩
    | .control => transformRecord rt config record = .ret ⟨record.recordId, .dropped, none⟩
    | .logs messages => ∃ logEvents, logEventsOf rt record = .ok logEvents ∧
        messagesOf? logEvents = some messages ∧ transformRecord rt config record =
          (collectEvents rt config logEvents >>= replaceRecord config record) := by
  rw [delivery?] at found
  cases decoded : rt.b64decode record.data with
  | error error => simp [decoded] at found
  | ok data =>
      by_cases gzip : isGzip data = true
      · simp only [decoded, gzip, if_true] at found
        cases unzipped : rt.gunzip data with
        | error error => simp [unzipped, Except.bind] at found
        | ok raw =>
            cases text_eq : rt.decodeJsonBytes raw with
            | error error => simp [unzipped, text_eq, Except.bind] at found
            | ok text =>
                cases loaded : rt.loads text with
                | error error => simp [unzipped, text_eq, loaded, Except.bind] at found
                | ok envelope =>
                    simp only [unzipped, text_eq, loaded, Except.bind] at found
                    rcases envelope_of_delivery found with
                      ⟨entries, logEvents, messages, rfl, listed, messages_eq, delivery_eq⟩
                    by_cases control :
                        isControl rt ((dictGet? entries (str "messageType")).getD .null) = true
                    · rw [if_pos control] at delivery_eq
                      subst delivery_eq
                      simp [transformRecord, decoded, gzip, unzipped, text_eq, loaded,
                        Program.ofExcept, Json.get, control]
                    · rw [if_neg control] at delivery_eq
                      subst delivery_eq
                      refine ⟨logEvents, ?_, messages_eq, ?_⟩
                      · simp [logEventsOf, decoded, unzipped, text_eq, loaded, bind, Except.bind,
                          Json.getD, listed, Json.iterate]
                      simp [transformRecord, decoded, gzip, unzipped, text_eq, loaded,
                        Program.ofExcept, Json.get, Json.getD, Json.iterate, control, listed]
      · simp only [decoded, gzip, Bool.false_eq_true, if_false, Option.some.injEq] at found
        subst found
        simp [transformRecord, decoded, gzip, Program.ofExcept]

end Records

section MetricLess

/-- The declarations hold no metric with a usable name, and reading them does not raise. -/
def DeclaresNoMetric (declarations : List rt.Value) : Prop :=
  ∀ entries, Json.obj entries ∈ declarations →
    ∃ listed, itemsOrEmpty rt ((dictGet? entries (str "Metrics")).getD .null) = .ok listed ∧
      listed.filterMap (metricName? rt) = []

variable (rt config) in
/--
An EMF event of a known service, with a timestamp the reshaping can read, that
declares no metric.
-/
def MetricLess (message : Str) : Prop :=
  ∃ obj declarations service tool, rt.loads message = .ok (.obj obj) ∧ isEmf rt obj = true ∧
    (∃ timestamp, emfTimestampIso rt [] (awsBlock rt obj) = .ok timestamp) ∧
    dictGet? (awsBlock rt obj) (str "CloudWatchMetrics") = some (.arr declarations) ∧
    DeclaresNoMetric declarations ∧
    rt.strOf ((dictGet? obj (str "service.name")).getD (.str [])) = .ok service ∧
    dictGet? config.serviceToolMap service = some tool

theorem emfTimestampIso_isOk (now now' : List Char) {aws : List (Str × rt.Value)}
    {timestamp : List Char} (read : emfTimestampIso rt now aws = .ok timestamp) :
    ∃ timestamp, emfTimestampIso rt now' aws = .ok timestamp := by
  rw [emfTimestampIso] at read ⊢
  by_cases readable : (!isNumberOrText rt ((dictGet? aws (str "Timestamp")).getD .null)) = true
  · simp [readable]
  · rw [if_neg readable] at read ⊢
    cases millis : intOf rt ((dictGet? aws (str "Timestamp")).getD .null) with
    | ok value => exact ⟨timestamp, by simpa [millis] using read⟩
    | error error =>
        by_cases isValueError : error.isValueError = true
        · simp [isValueError]
        · simp [millis, isValueError] at read

theorem dictSetDefault_ne_nil {κ ν : Type} [DecidableEq κ] (entries : List (κ × ν)) (key : κ)
    (value : ν) : dictSetDefault entries key value ≠ [] := by
  cases entries with
  | nil => simp [dictSetDefault, dictGet?, dictSet]
  | cons entry rest =>
      simp only [dictSetDefault, dictSet]
      split
      · simp
      · split <;> simp

theorem foldl_setDefault_eq_nil {metrics found : List (Str × List (Str × rt.Value))} :
    found.foldl (fun metrics metric => dictSetDefault metrics metric.1 metric.2) metrics = [] ↔
      metrics = [] ∧ found = [] := by
  induction found generalizing metrics with
  | nil => simp
  | cons metric found ih => simp [ih, dictSetDefault_ne_nil]

theorem addMetrics_eq_nil {metrics : List (Str × List (Str × rt.Value))} {declaration : rt.Value} :
    addMetrics rt metrics declaration = .ok [] ↔
      metrics = [] ∧ DeclaresNoMetric [declaration] := by
  cases declaration with
  | obj entries =>
      simp only [addMetrics, DeclaresNoMetric, List.mem_singleton, Json.obj.injEq, forall_eq]
      cases itemsOrEmpty rt ((dictGet? entries (str "Metrics")).getD .null) with
      | error error => simp [bind, Except.bind]
      | ok listed => simp [bind, Except.bind, pure, Except.pure, foldl_setDefault_eq_nil]
  | null => simp [addMetrics, DeclaresNoMetric]
  | bool value => simp [addMetrics, DeclaresNoMetric]
  | int value => simp [addMetrics, DeclaresNoMetric]
  | float value => simp [addMetrics, DeclaresNoMetric]
  | str value => simp [addMetrics, DeclaresNoMetric]
  | arr items => simp [addMetrics, DeclaresNoMetric]

theorem declaresNoMetric_cons {declaration : rt.Value} {declarations : List rt.Value} :
    DeclaresNoMetric (declaration :: declarations) ↔
      DeclaresNoMetric [declaration] ∧ DeclaresNoMetric declarations := by
  simp only [DeclaresNoMetric, List.mem_cons, List.not_mem_nil, or_false]
  constructor
  · exact fun all => ⟨fun entries same => all entries (Or.inl same),
      fun entries mem => all entries (Or.inr mem)⟩
  · rintro ⟨head, tail⟩ entries (same | mem)
    · exact head entries same
    · exact tail entries mem

theorem foldlM_addMetrics_eq_nil {declarations : List rt.Value}
    {metrics : List (Str × List (Str × rt.Value))} :
    declarations.foldlM (addMetrics rt) metrics = .ok [] ↔
      metrics = [] ∧ DeclaresNoMetric declarations := by
  induction declarations generalizing metrics with
  | nil => simp [DeclaresNoMetric, pure, Except.pure]
  | cons declaration declarations ih =>
      rw [declaresNoMetric_cons, List.foldlM_cons]
      cases added : addMetrics rt metrics declaration with
      | error error =>
          have raised : ¬(metrics = [] ∧ DeclaresNoMetric [declaration]) := by
            rw [← addMetrics_eq_nil, added]
            rintro ⟨⟩
          simp only [bind, Except.bind, reduceCtorEq, false_iff]
          rintro ⟨empty, headNone, _⟩
          exact raised ⟨empty, headNone⟩
      | ok more =>
          simp only [bind, Except.bind, ih]
          have collected : more = [] ↔ metrics = [] ∧ DeclaresNoMetric [declaration] := by
            rw [← addMetrics_eq_nil, added, Except.ok.injEq]
          rw [collected, and_assoc]

/-- No metric is collected exactly when none is declared. -/
theorem metricByName_eq_nil {declarations : List rt.Value} :
    metricByName rt declarations = .ok [] ↔ DeclaresNoMetric declarations := by
  simp [metricByName, foldlM_addMetrics_eq_nil]

theorem itemsOrEmpty_arr (items : List rt.Value) :
    itemsOrEmpty rt (.arr items) = .ok items := by
  cases items <;> simp [itemsOrEmpty, Runtime.truth, Json.iterate]

theorem declarations_of_isEmf {obj : List (Str × rt.Value)} (emf : isEmf rt obj = true) :
    ∃ declarations, dictGet? (awsBlock rt obj) (str "CloudWatchMetrics") =
      some (.arr declarations) := by
  simp only [isEmf, Bool.and_eq_true] at emf
  rcases emf with ⟨_, emf⟩
  split at emf
  · next aws found =>
      simp only [awsBlock, found]
      split at emf
      · next declarations listed => exact ⟨declarations, listed⟩
      · cases emf
  · cases emf

theorem mapM_ok_eq_nil {α β : Type} {f : α → Except Exc β} {items : List α} :
    items.mapM f = .ok [] ↔ items = [] := by
  cases items with
  | nil => simp [pure, Except.pure]
  | cons item items =>
      simp only [List.mapM_cons, bind, Except.bind, pure, Except.pure, reduceCtorEq, iff_false]
      cases f item with
      | error error => exact nofun
      | ok row => cases items.mapM f <;> exact nofun

/-- An EMF event is reshaped into no row exactly when it declares no metric. -/
theorem reshapeEmf_eq_nil {now : List Char} {obj : List (Str × rt.Value)}
    {declarations : List rt.Value}
    (listed : dictGet? (awsBlock rt obj) (str "CloudWatchMetrics") = some (.arr declarations)) :
    reshapeEmf rt config now obj = .ok [] ↔
      (∃ timestamp, emfTimestampIso rt now (awsBlock rt obj) = .ok timestamp) ∧
        DeclaresNoMetric declarations ∧
        ∃ service tool, rt.strOf ((dictGet? obj (str "service.name")).getD (.str [])) = .ok
          service ∧
          dictGet? config.serviceToolMap service = some tool := by
  rw [← metricByName_eq_nil]
  simp only [reshapeEmf, listed, Option.getD_some, itemsOrEmpty_arr, bind, Except.bind]
  cases emfTimestampIso rt now (awsBlock rt obj) with
  | error error => simp
  | ok timestamp =>
      cases metricByName rt declarations with
      | error error => simp
      | ok metrics =>
          cases rt.strOf ((dictGet? obj (str "service.name")).getD (.str [])) with
          | error error => simp
          | ok service =>
              cases mapped : dictGet? config.serviceToolMap service with
              | none => simp [toolOf, mapped]
              | some tool => simp [toolOf, mapped, mapM_ok_eq_nil]

theorem reshapeRecords_eq_nil {now : List Char} {message : Str} :
    reshapeRecords rt config now message = .ok [] ↔ MetricLess rt config message := by
  have single (result : Except Exc Bytes) :
      (do return [← result] : Except Exc (List Bytes)) ≠ .ok [] := by
    cases result <;> exact nofun
  constructor
  · intro none
    rw [reshapeRecords] at none
    split at none
    · split at none
      · exact absurd none (single _)
      · cases none
    · next obj loaded =>
        split at none
        · next emf =>
            rcases declarations_of_isEmf emf with ⟨declarations, listed⟩
            rcases (reshapeEmf_eq_nil listed).mp none with
              ⟨⟨_, read⟩, noMetric, service, tool, named, mapped⟩
            exact ⟨obj, declarations, service, tool, loaded, emf, emfTimestampIso_isOk now [] read,
              listed, noMetric, named, mapped⟩
        · exact absurd none (single _)
    · exact absurd none (single _)
  · rintro ⟨obj, declarations, service, tool, loaded, emf, ⟨_, read⟩, listed, noMetric, named,
      mapped⟩
    simp only [reshapeRecords, loaded, emf, if_true]
    exact (reshapeEmf_eq_nil listed).mpr
      ⟨emfTimestampIso_isOk [] now read, noMetric, service, tool, named, mapped⟩

/-- A log event contributes nothing exactly when it is an EMF event without a metric. -/
theorem contribution_eq_nil {now : List Char} {message : Str} :
    contribution rt config now message = .ok [] ↔ MetricLess rt config message := by
  rw [← reshapeRecords_eq_nil, contribution]
  cases reshapeRecords rt config now message with
  | ok rows => exact Iff.rfl
  | error error =>
      simp only [bind, Except.bind, reduceCtorEq, iff_false]
      cases diagnosticServiceName rt message with
      | error error => exact nofun
      | ok service => cases encode message <;> exact nofun

end MetricLess

abbrev Part := Program.Piece Call Call.Reply InputRecord OutputRecord

variable (rt config) in
/--
Every log event of a record contributed at least one byte record, these were all
that was re-ingested, and each of them was acknowledged.
-/
def Lossless (messages : List Str) (log : List TransformEvent) : Prop :=
  ∃ nows contributions puts, log = readings nows ++ puts ∧
    Contributions rt config nows messages contributions ∧
    (∀ rows ∈ contributions, rows ≠ []) ∧
    (reingest config contributions.flatten).Runs puts (.ok ()) ∧
    (acknowledged puts).Perm contributions.flatten

theorem Contributions.exists_of_mem {nows : List (List Char)} {messages : List Str}
    {contributions : List (List Bytes)}
    (collected : Contributions rt config nows messages contributions) :
    (∀ message ∈ messages, ∃ now, ∃ rows ∈ contributions,
        contribution rt config now message = .ok rows) ∧
      ∀ rows ∈ contributions, ∃ now, ∃ message ∈ messages,
        contribution rt config now message = .ok rows := by
  induction collected with
  | nil => simp
  | @cons now message rows nows messages others contributed rest ih =>
      constructor
      · intro other otherMem
        rcases List.mem_cons.mp otherMem with rfl | otherMem
        · exact ⟨now, rows, List.mem_cons_self, contributed⟩
        · rcases ih.1 other otherMem with ⟨later, more, moreMem, found⟩
          exact ⟨later, more, List.mem_cons_of_mem _ moreMem, found⟩
      · intro other otherMem
        rcases List.mem_cons.mp otherMem with rfl | otherMem
        · exact ⟨now, message, List.mem_cons_self, contributed⟩
        · rcases ih.2 other otherMem with ⟨later, text, textMem, found⟩
          exact ⟨later, text, List.mem_cons_of_mem _ textMem, found⟩

/-- A record answered `Dropped` was split, and what it was split into was re-ingested. -/
theorem contributions_of_dropped {record : InputRecord} {messages : List Str}
    {log : List TransformEvent} {output : OutputRecord}
    (found : delivery? rt record = some (.logs messages))
    (ran : (transformRecord rt config record).Runs log (.ok output))
    (dropped : output.result = .dropped) :
    ∃ nows contributions puts, log = readings nows ++ puts ∧
      Contributions rt config nows messages contributions ∧
      (reingest config contributions.flatten).Runs puts (.ok ()) := by
  rcases transformRecord_eq config found with ⟨logEvents, _, messages_eq, program_eq⟩
  rw [program_eq] at ran
  rcases Program.runs_bind_ok.mp ran with ⟨events, first, puts, rfl, collecting, replacing⟩
  rcases collectEvents_cases messages_eq collecting with
    ⟨nows, contributions, collected, rfl, same⟩ | ⟨⟨_, impossible⟩, _⟩
  · cases same
    refine ⟨nows, contributions, puts, rfl, collected, ?_⟩
    rcases runs_replaceRecord.mp replacing with
      ⟨⟨empty, rfl⟩ | ⟨_, reingested⟩, _⟩ | ⟨_, _, failed⟩
    · rw [empty]
      exact runs_reingest_nil
    · exact reingested
    · cases failed
      cases dropped
  · cases impossible

/--
Every run of the handler is made of runs of its records, and a record of log
events answered `Dropped` has lost none of them exactly when none is an EMF event
without a metric.
-/
theorem lossless_iff {records : List InputRecord} {log : List TransformEvent}
    {outputs : List OutputRecord} (attempts : 1 ≤ config.reingestMaxAttempts)
    (ran : (handler rt config records).Runs log (.ok outputs))
    (honoured : ∀ event ∈ log, Honours event) :
    ∃ parts : List Part, parts.map Program.Piece.input = records ∧
      parts.flatMap Program.Piece.log = log ∧ parts.map Program.Piece.value = outputs ∧
      ∀ part ∈ parts, (transformRecord rt config part.input).Runs part.log (.ok part.value) ∧
        ∀ messages, delivery? rt part.input = some (.logs messages) →
          part.value.result = .dropped →
            (Lossless rt config messages part.log ↔
              ∀ message ∈ messages, ¬MetricLess rt config message) := by
  rcases Program.runs_mapM_ok.mp ran with ⟨parts, inputs_eq, log_eq, outputs_eq, each⟩
  refine ⟨parts, inputs_eq, log_eq, outputs_eq, fun part partMem =>
    ⟨each part partMem, fun messages found dropped => ?_⟩⟩
  constructor
  · rintro ⟨nows, contributions, puts, _, collected, nonempty, _, _⟩ message messageMem metricLess
    rcases collected.exists_of_mem.1 message messageMem with ⟨now, rows, rowsMem, contributed⟩
    rw [contribution_eq_nil.mpr metricLess] at contributed
    cases contributed
    exact nonempty [] rowsMem rfl
  · intro noneMetricLess
    rcases contributions_of_dropped found (each part partMem) dropped with
      ⟨nows, contributions, puts, split, collected, reingested⟩
    refine ⟨nows, contributions, puts, split, collected, ?_, reingested, ?_⟩
    · rintro rows rowsMem rfl
      rcases collected.exists_of_mem.2 [] rowsMem with ⟨now, message, messageMem, contributed⟩
      exact noneMetricLess message messageMem (contribution_eq_nil.mp contributed)
    · apply acknowledged_of_reingest attempts reingested
      intro event eventMem
      apply honoured
      rw [← log_eq]
      refine List.mem_flatMap.mpr ⟨part, partMem, ?_⟩
      rw [split]
      exact List.mem_append_right _ eventMem

namespace Sample

/-- A runtime that can decode one record. -/
def runtime (data : Str) (compressed : Bytes) (envelope : String) : Runtime :=
  { Runtime.whole with
    b64decode := fun text => if text = data then .ok compressed else .error (.valueError [])
    gunzip := fun bytes =>
      if bytes = compressed then .ok (envelope.toList.map fun c => UInt8.ofNat c.toNat)
      else .error (.valueError []) }

def settings : Config :=
  ⟨str "telemetry", 5, [(str "claude-code", str "claude-code")]⟩

def now : List Char := "2026-07-17T00:00:00Z".toList

/-- A re-ingested record, a control message and a delivery of log events. -/
@[irreducible]
def plainRecord : InputRecord := ⟨str "0", str "eyJ0b29sIjoiZXhhbXBsZS1jbGkifQ=="⟩

@[irreducible]
def controlRecord : InputRecord :=
  ⟨str "1",
    str "H4sIAAAAAAACA6tWyk0tLk5MTw2pLEhVslJy9vcLCfL3ifd1DQ52dHdV0lHKyU93LUvNKylWsoquhq" ++
      str "kGqQz3UYCqVoCqtlJwzkhNzs7MS1fISE3MKclQyE9TSEktLsnMSyzJzM9TcMssSs3IL07VU6qNrQUA" ++
      str "OmV+I3sAAAA="⟩

@[irreducible]
def logsRecord : InputRecord :=
  ⟨str "2",
    str "H4sIAAAAAAACA4WQT2/CMAzFv4vP3bTCGFtvFat2gguddqATCqlFI+UPSlJWVO27zwlDG1UlktN78s" ++
      str "9+dg8KnWN7LE8HhAxe8zLfLov1On8rIAFp9sURtXeQbfpLKZX1FVh0prUcK8hIObRHwfFeMxWcCrhk" ++
      str "bY133NSkv5MKmPdW7FqP7kxg6PtXT5OEPlfuTH2KXlcBSS8UvmvRrZg20U7ns+lDfOlk+jh7mj+/EE" ++
      str "joIOGWff3OKqmF80wdSF7R1H4hTVt/MM+bJVJCHpANMddqdcmpQsb/Rgj9ST+5dYQkwlmaRCabjCT2" ++
      str "xsgIYkdhJZFSjK524/jGN2jHzj4877B1g1KasM8Pn4s0jxgCAAA="⟩

def batch : List InputRecord := [plainRecord, controlRecord, logsRecord]

/-- The compressed data of the control message and of the log events. -/
@[irreducible]
def compressedBatch : Bytes × Bytes :=
  ([0x1f, 0x8b, 0x08, 0x00, 0x00, 0x00, 0x00, 0x00, 0x02, 0x03, 0xab, 0x56, 0xca, 0x4d, 0x2d,
     0x2e, 0x4e, 0x4c, 0x4f, 0x0d, 0xa9, 0x2c, 0x48, 0x55, 0xb2, 0x52, 0x72, 0xf6, 0xf7, 0x0b,
     0x09, 0xf2, 0xf7, 0x89, 0xf7, 0x75, 0x0d, 0x0e, 0x76, 0x74, 0x77, 0x55, 0xd2, 0x51, 0xca,
     0xc9, 0x4f, 0x77, 0x2d, 0x4b, 0xcd, 0x2b, 0x29, 0x56, 0xb2, 0x8a, 0xae, 0x86, 0xa9, 0x06,
     0xa9, 0x0c, 0xf7, 0x51, 0x80, 0xaa, 0x56, 0x80, 0xaa, 0xb6, 0x52, 0x70, 0xce, 0x48, 0x4d,
     0xce, 0xce, 0xcc, 0x4b, 0x57, 0xc8, 0x48, 0x4d, 0xcc, 0x29, 0xc9, 0x50, 0xc8, 0x4f, 0x53,
     0x48, 0x49, 0x2d, 0x2e, 0xc9, 0xcc, 0x4b, 0x2c, 0xc9, 0xcc, 0xcf, 0x53, 0x70, 0xcb, 0x2c,
     0x4a, 0xcd, 0xc8, 0x2f, 0x4e, 0xd5, 0x53, 0xaa, 0x8d, 0xad, 0x05, 0x00, 0x3a, 0x65, 0x7e,
     0x23, 0x7b, 0x00, 0x00, 0x00],
    [0x1f, 0x8b, 0x08, 0x00, 0x00, 0x00, 0x00, 0x00, 0x02, 0x03, 0x85, 0x90, 0x4f, 0x6f, 0xc2,
     0x30, 0x0c, 0xc5, 0xbf, 0x8b, 0xcf, 0xdd, 0xb4, 0xc2, 0x18, 0x5b, 0x6f, 0x15, 0xab, 0x76,
     0x82, 0x0b, 0x9d, 0x76, 0xa0, 0x13, 0x0a, 0xa9, 0x45, 0x23, 0xe5, 0x0f, 0x4a, 0x52, 0x56,
     0x54, 0xed, 0xbb, 0xcf, 0x09, 0x43, 0x1b, 0x55, 0x25, 0x92, 0xd3, 0x7b, 0xf2, 0xcf, 0x7e,
     0x76, 0x0f, 0x0a, 0x9d, 0x63, 0x7b, 0x2c, 0x4f, 0x07, 0x84, 0x0c, 0x5e, 0xf3, 0x32, 0xdf,
     0x2e, 0x8b, 0xf5, 0x3a, 0x7f, 0x2b, 0x20, 0x01, 0x69, 0xf6, 0xc5, 0x11, 0xb5, 0x77, 0x90,
     0x6d, 0xfa, 0x4b, 0x29, 0x95, 0xf5, 0x15, 0x58, 0x74, 0xa6, 0xb5, 0x1c, 0x2b, 0xc8, 0x48,
     0x39, 0xb4, 0x47, 0xc1, 0xf1, 0x5e, 0x33, 0x15, 0x9c, 0x0a, 0xb8, 0x64, 0x6d, 0x8d, 0x77,
     0xdc, 0xd4, 0xa4, 0xbf, 0x93, 0x0a, 0x98, 0xf7, 0x56, 0xec, 0x5a, 0x8f, 0xee, 0x4c, 0x60,
     0xe8, 0xfb, 0x57, 0x4f, 0x93, 0x84, 0x3e, 0x57, 0xee, 0x4c, 0x7d, 0x8a, 0x5e, 0x57, 0x01,
     0x49, 0x2f, 0x14, 0xbe, 0x6b, 0xd1, 0xad, 0x98, 0x36, 0xd1, 0x4e, 0xe7, 0xb3, 0xe9, 0x43,
     0x7c, 0xe9, 0x64, 0xfa, 0x38, 0x7b, 0x9a, 0x3f, 0xbf, 0x10, 0x48, 0xe8, 0x20, 0xe1, 0x96,
     0x7d, 0xfd, 0xce, 0x2a, 0xa9, 0x85, 0xf3, 0x4c, 0x1d, 0x48, 0x5e, 0xd1, 0xd4, 0x7e, 0x21,
     0x4d, 0x5b, 0x7f, 0x30, 0xcf, 0x9b, 0x25, 0x52, 0x42, 0x1e, 0x90, 0x0d, 0x31, 0xd7, 0x6a,
     0x75, 0xc9, 0xa9, 0x42, 0xc6, 0xff, 0x46, 0x08, 0xfd, 0x49, 0x3f, 0xb9, 0x75, 0x84, 0x24,
     0xc2, 0x59, 0x9a, 0x44, 0x26, 0x9b, 0x8c, 0x24, 0xf6, 0xc6, 0xc8, 0x08, 0x62, 0x47, 0x61,
     0x25, 0x91, 0x52, 0x8c, 0xae, 0x76, 0xe3, 0xf8, 0xc6, 0x37, 0x68, 0xc7, 0xce, 0x3e, 0x3c,
     0xef, 0xb0, 0x75, 0x83, 0x52, 0x9a, 0xb0, 0xcf, 0x0f, 0x9f, 0x8b, 0x34, 0x8f, 0x18, 0x02,
     0x00, 0x00])

@[irreducible]
def batchEnvelopes : List Char × List Char :=
  ("\x7b\"messageType\":\"CONTROL_MESSAGE\",\"logEvents\":[\x7b\"message\":\"CWL C".toList ++
    "ONTROL MESSAGE: Checking health of destination Firehose.\"\x7d]\x7d".toList,
    "\x7b\"messageType\":\"DATA_MESSAGE\",\"logEvents\":[\x7b\"message\":\"\x7b\\\"".toList ++
    "resource\\\":\x7b\\\"service.name\\\":\\\"claude-code\\\"\x7d,\\\"attributes\\".toList ++
    "\":\x7b\\\"event.name\\\":\\\"login\\\"\x7d,\\\"body\\\":\\\"x\\\",\\\"timeUni".toList ++
    "xNano\\\":\\\"1753000000123456789\\\"\x7d\"\x7d,\x7b\"message\":\"\x7b\\\"_aws".toList ++
    "\\\":\x7b\\\"Timestamp\\\":1753000000123,\\\"CloudWatchMetrics\\\":[\x7b\\\"Me".toList ++
    "trics\\\":[\x7b\\\"Name\\\":\\\"m\\\"\x7d,\x7b\\\"Name\\\":\\\"n\\\"\x7d]\x7d]".toList ++
    "\x7d,\\\"service.name\\\":\\\"claude-code\\\",\\\"m\\\":1,\\\"n\\\":2\x7d\"".toList ++
    "\x7d,\x7b\"message\":\"\x7b\\\"tool\\\":\\\"example-cli\\\"\x7d\"\x7d,\x7b\"me".toList ++
    "ssage\":\"\x7b\\\"resource\\\":\x7b\\\"service.name\\\":\\\"other\\\"\x7d,\\\"".toList ++
    "attributes\\\":\x7b\x7d,\\\"body\\\":\\\"x\\\"\x7d\"\x7d,\x7b\"message\":\"hel".toList ++
    "lo\"\x7d]\x7d".toList)

/-- A runtime that can decode the batch. -/
@[irreducible]
def batchRuntime : Runtime :=
  { Runtime.whole with
    b64decode := fun text =>
      if text = plainRecord.data then
        .ok ("\x7b\"tool\":\"example-cli\"\x7d".toList.map fun c => UInt8.ofNat c.toNat)
      else if text = controlRecord.data then .ok compressedBatch.1
      else if text = logsRecord.data then .ok compressedBatch.2
      else .error (.valueError [])
    gunzip := fun bytes =>
      if bytes = compressedBatch.1 then .ok (batchEnvelopes.1.map fun c => UInt8.ofNat c.toNat)
      else if bytes = compressedBatch.2 then
        .ok (batchEnvelopes.2.map fun c => UInt8.ofNat c.toNat)
      else .error (.valueError []) }

/-- Firehose refuses the first of several records once. -/
def firehose : (request : Call) → request.Reply
  | .now => now
  | .putRecordBatch _ records =>
      let results : List PutResult := match records with
        | [] => []
        | [_] => [⟨none⟩]
        | _ :: rest => ⟨some (str "ServiceUnavailableException")⟩ :: rest.map fun _ => ⟨none⟩
      .ok ⟨some (results.countP fun result => result.Failed), some results⟩

/-- Every put fails. -/
def outage : (request : Call) → request.Reply
  | .now => now
  | .putRecordBatch _ _ => .error (.runtimeError [])

theorem honours_firehose (request : Call) : Honours ⟨request, firehose request⟩ := by
  cases request with
  | now => trivial
  | putRecordBatch stream records =>
      refine ⟨_, rfl, ?_, rfl⟩
      rcases records with _ | ⟨record, _ | ⟨other, rest⟩⟩ <;> simp

/-- Every record of the batch is answered. -/
theorem exists_batch : ∃ log outcome,
    (handler batchRuntime settings batch).Runs log outcome ∧
      outcome.toOption.map (fun outputs => outputs.map OutputRecord.result) =
        some [.ok, .dropped, .dropped] ∧
      ∀ event ∈ log, event.reply = firehose event.request :=
  Program.exists_run _ _ _ (by decide +kernel)

/-- A delivery of one EMF event that declares no metric. -/
@[irreducible]
def metricLessRecord : InputRecord :=
  ⟨str "1",
    str ("H4sIAAAAAAACAzWKsQqDMBgG3+WbbR8gW6ihk5NCByMSkh8rRFP8o6WEvHvj4HZ3XMJCzG" ++
        "ai7vchCNSyk2Oj2lY+FSr4MKmD1sgQfbrWsiWN0XxZQxR6+LC7l4n23VDcZnvmfsiVBtN2" ++
        "zJbuq1moRA3rze7oZoMrnpGH/AfmsteZgQAAAA==")⟩

@[irreducible]
def metricLessRuntime : Runtime :=
  runtime metricLessRecord.data
    [0x1f, 0x8b, 0x08, 0x00, 0x00, 0x00, 0x00, 0x00, 0x02, 0x03, 0x35, 0x8a, 0xb1, 0x0a, 0x83,
      0x30, 0x18, 0x06, 0xdf, 0xe5, 0x9b, 0x6d, 0x1f, 0x20, 0x5b, 0xa8, 0xa1, 0x93, 0x93, 0x42,
      0x07, 0x23, 0x12, 0x92, 0x1f, 0x2b, 0x44, 0x53, 0xfc, 0xa3, 0xa5, 0x84, 0xbc, 0x7b, 0xe3,
      0xe0, 0x76, 0x77, 0x5c, 0xc2, 0x42, 0xcc, 0x66, 0xa2, 0xee, 0xf7, 0x21, 0x08, 0xd4, 0xb2,
      0x93, 0x63, 0xa3, 0xda, 0x56, 0x3e, 0x15, 0x2a, 0xf8, 0x30, 0xa9, 0x83, 0xd6, 0xc8, 0x10,
      0x7d, 0xba, 0xd6, 0xb2, 0x25, 0x8d, 0xd1, 0x7c, 0x59, 0x43, 0x14, 0x7a, 0xf8, 0xb0, 0xbb,
      0x97, 0x89, 0xf6, 0xdd, 0x50, 0xdc, 0x66, 0x7b, 0xe6, 0x7e, 0xc8, 0x95, 0x06, 0xd3, 0x76,
      0xcc, 0x96, 0xee, 0xab, 0x59, 0xa8, 0x44, 0x0d, 0xeb, 0xcd, 0xee, 0xe8, 0x66, 0x83, 0x2b,
      0x9e, 0x91, 0x87, 0xfc, 0x07, 0xe6, 0xb2, 0xd7, 0x99, 0x81, 0x00, 0x00, 0x00]
    ("\x7b\"messageType\":\"DATA_MESSAGE\",\"logEvents\":[\x7b\"message\":\"\x7b\\\"_a" ++
      "ws\\\":\x7b\\\"CloudWatchMetrics\\\":[]\x7d,\\\"service.name\\\":\\\"claude-co" ++
      "de\\\"\x7d\"\x7d]\x7d")

@[irreducible]
def metricLessMessage : Str :=
  str ("\x7b\"_aws\":\x7b\"CloudWatchMetrics\":[]\x7d,\"service.name\":\"claude-code" ++
      "\"\x7d")

theorem delivery_metricLess :
    delivery? metricLessRuntime metricLessRecord = some (.logs [metricLessMessage]) := by
  decide +kernel

theorem contribution_metricLess :
    contribution metricLessRuntime settings now metricLessMessage = .ok [] := by
  decide +kernel

/-- The handler on a record with one message, when re-ingestion succeeds. -/
theorem runs_handler {rt : Runtime} {record : InputRecord} {message : Str} {rows : List Bytes}
    {puts : List TransformEvent} (found : delivery? rt record = some (.logs [message]))
    (contributed : contribution rt settings now message = .ok rows)
    (replaced : (replaceRecord settings record rows).Runs puts
      (.ok ⟨record.recordId, .dropped, none⟩)) :
    (handler rt settings [record]).Runs (⟨.now, now⟩ :: puts)
      (.ok [⟨record.recordId, .dropped, none⟩]) := by
  rcases transformRecord_eq settings found with ⟨logEvents, _, messages_eq, program_eq⟩
  have collected : Contributions rt settings [now] [message] [rows] := .cons contributed .nil
  have collecting := runs_collectEvents messages_eq collected
  refine Program.runs_mapM_ok.mpr ⟨[⟨record, ⟨.now, now⟩ :: puts, _⟩], rfl, by simp, rfl, ?_⟩
  intro part partMem
  rw [List.mem_singleton.mp partMem]
  simp only [program_eq]
  refine Program.runs_bind_ok.mpr ⟨rows, [⟨.now, now⟩], puts, rfl, ?_, replaced⟩
  simpa [readings] using collecting

theorem runs_metricLess : (handler metricLessRuntime settings [metricLessRecord]).Runs
    [⟨.now, now⟩] (.ok [⟨metricLessRecord.recordId, .dropped, none⟩]) := by
  apply runs_handler delivery_metricLess contribution_metricLess
  exact runs_replaceRecord.mpr (Or.inl ⟨Or.inl ⟨rfl, rfl⟩, rfl⟩)

end Sample

/-- In the batch are two kinds of records that are reshaped, one that passes through, one of an
unknown service and a text. -/
theorem lossless_iff_batch : ∃ log outputs,
    outputs.map OutputRecord.result = [.ok, .dropped, .dropped] ∧
      ∃ parts : List Part, parts.map Program.Piece.input = Sample.batch ∧
        parts.flatMap Program.Piece.log = log ∧ parts.map Program.Piece.value = outputs ∧
        ∀ part ∈ parts, (transformRecord Sample.batchRuntime Sample.settings part.input).Runs
            part.log (.ok part.value) ∧
          ∀ messages, delivery? Sample.batchRuntime part.input = some (.logs messages) →
            part.value.result = .dropped →
              (Lossless Sample.batchRuntime Sample.settings messages part.log ↔
                ∀ message ∈ messages,
                  ¬MetricLess Sample.batchRuntime Sample.settings message) := by
  rcases Sample.exists_batch with ⟨log, _ | outputs, ran, results, replies⟩
  · cases results
  · refine ⟨log, outputs, Option.some.inj results, lossless_iff (by decide) ran ?_⟩
    intro event eventMem
    have honoured := Sample.honours_firehose event.request
    rwa [← replies event eventMem] at honoured

/-- The EMF event without a metric is dropped with its record, and nothing is re-ingested. -/
theorem metricLess_lost :
    ¬∀ (rt : Runtime) (config : Config) (record : InputRecord) (messages : List Str)
      (log : List TransformEvent) (output : OutputRecord), 1 ≤ config.reingestMaxAttempts →
        delivery? rt record = some (.logs messages) → (∀ event ∈ log, Honours event) →
          (handler rt config [record]).Runs log (.ok [output]) → output.result = .dropped →
            Lossless rt config messages log := by
  intro lossless
  rcases lossless _ _ _ _ _ _ (by decide) Sample.delivery_metricLess (by simp [Honours])
    Sample.runs_metricLess rfl with ⟨nows, contributions, puts, split, collected, nonempty, _⟩
  rcases collected.exists_of_mem.1 Sample.metricLessMessage List.mem_cons_self with
    ⟨now, rows, rowsMem, contributed⟩
  rw [contribution_eq_nil.mpr (contribution_eq_nil.mp Sample.contribution_metricLess)]
    at contributed
  cases contributed
  exact nonempty [] rowsMem rfl

end CwlSplit
