import TelemetryPlatform.CwlSplit.Stability

/-!
# What is re-ingested for one message

The records delivered together with a message have no say in what is re-ingested
for it. `rowsAt` is a function of the message, the service map and the reading of
the clock made for the log event, and the list that replaces a record is the
concatenation of its values (`list_of_messages`).

The clock cannot be left out: a record without a time of its own is stamped with
the time it is handled at. Nothing but this stamp depends on the clock.
-/

namespace CwlSplit

open Python Interaction

variable {rt : Runtime} {config : Config}

section Rows

/-- The part of the configuration that reshaping reads. -/
def reshapingConfig (serviceToolMap : List (Str × Str)) : Config := ⟨[], 0, serviceToolMap⟩

/-- What is re-ingested for a message handled at `now`. -/
def rowsAt (rt : Runtime) (serviceToolMap : List (Str × Str)) (now : List Char) (message : Str) :
    List Bytes :=
  match contribution rt (reshapingConfig serviceToolMap) now message with
  | .ok rows => rows
  | .error _ => []

theorem rowsAt_of_contribution {now : List Char} {message : Str} {rows : List Bytes}
    (contributed : contribution rt config now message = .ok rows) :
    rowsAt rt config.serviceToolMap now message = rows := by
  have same : contribution rt (reshapingConfig config.serviceToolMap) now message = .ok rows :=
    contributed
  simp [rowsAt, same]

end Rows

section Stamp

/-- The record carries no time that can be read, so that it is stamped with the clock. -/
def ClockStamped (rt : Runtime) (message : Str) : Prop :=
  match kindOf rt message with
  | .emf obj =>
      let raw := (dictGet? (awsBlock rt obj) (str "Timestamp")).getD .null
      isNumberOrText rt raw = false ∨
        ∃ error, intOf rt raw = .error error ∧ error.isValueError = true
  | .structured obj _ =>
      (∃ attrs, toMap rt ((dictGet? obj (str "attributes")).getD .null) = .ok attrs ∧
        rt.truth (attrs.getD "event.timestamp" .null) = false) ∧
        (recordTimestampIso rt obj = .ok none ∨ recordTimestampIso rt obj = .ok (some []))
  | .unreadable _ | .passes => False

/-- The rows of a message, up to their timestamps. -/
abbrev RowParts (rt : Runtime) : Type := List (Str × Str × rt.Value)

/-- The rows with the timestamps filled in. -/
def stampRows (rt : Runtime) (parts : RowParts rt) (timestamp : Str) : Except Exc (List Bytes) :=
  parts.mapM fun part => canonicalRow rt timestamp part.1 part.2.1 part.2.2

/-- An EMF event that is stamped with the clock carries the clock's time in every row. -/
theorem reshapeEmf_stamped {obj : List (Str × rt.Value)}
    (stamped : ∀ now, emfTimestampIso rt now (awsBlock rt obj) = .ok now) :
    (∃ error, ∀ now, reshapeEmf rt config now obj = .error error) ∨
      ∃ parts, ∀ now, reshapeEmf rt config now obj = stampRows rt parts (now.map .char) := by
  simp only [reshapeEmf, stamped, ok_bind]
  cases itemsOrEmpty rt ((dictGet? (awsBlock rt obj) (str "CloudWatchMetrics")).getD .null) with
  | error error => exact Or.inl ⟨error, fun _ => rfl⟩
  | ok declarations =>
      simp only [ok_bind]
      cases metricByName rt declarations with
      | error error => exact Or.inl ⟨error, fun _ => rfl⟩
      | ok metrics =>
          simp only [ok_bind]
          cases rt.strOf ((dictGet? obj (str "service.name")).getD (.str [])) with
          | error error => exact Or.inl ⟨error, fun _ => rfl⟩
          | ok service =>
              simp only [ok_bind]
              cases toolOf config service with
              | error error => exact Or.inl ⟨error, fun _ => rfl⟩
              | ok tool =>
                  right
                  refine ⟨metrics.map fun metric => (tool, metric.1,
                    metricPayload rt obj (basePayload rt obj (metrics.map Prod.fst)) metric), ?_⟩
                  intro now
                  simp only [stampRows, ok_bind, List.mapM_map, Function.comp_def]

/-- A structured record that is stamped with the clock carries the clock's time in its row. -/
theorem reshapeClaude_stamped {obj : List (Str × rt.Value)} {body : Str}
    {attrs : AttributeMap rt}
    (attrsRead : toMap rt ((dictGet? obj (str "attributes")).getD .null) = .ok attrs)
    (stamped : ∀ now, claudeTimestamp rt obj attrs now = .ok (now.map .char)) :
    (∃ error, ∀ now, reshapeClaude rt config now obj body = .error error) ∨
      ∃ part : Str × Str × rt.Value, ∀ now, reshapeClaude rt config now obj body =
        canonicalRow rt (now.map .char) part.1 part.2.1 part.2.2 := by
  simp only [reshapeClaude, attrsRead, stamped, ok_bind]
  cases toMap rt ((dictGet? obj (str "resource")).getD .null) with
  | error error => exact Or.inl ⟨error, fun _ => rfl⟩
  | ok resource =>
      simp only [ok_bind]
      cases rt.strOf (resource.getD "service.name" (.str [])) with
      | error error => exact Or.inl ⟨error, fun _ => rfl⟩
      | ok service =>
          simp only [ok_bind]
          cases toolOf config service with
          | error error => exact Or.inl ⟨error, fun _ => rfl⟩
          | ok tool =>
              simp only [ok_bind]
              cases rt.strOf (orElse rt (orElse rt (attrs.getD "event.name" .null) (.str body))
                  (.str (str "unknown"))) with
              | error error => exact Or.inl ⟨error, fun _ => rfl⟩
              | ok eventType =>
                  simp only [ok_bind]
                  cases claudePayload rt obj attrs resource body with
                  | error error => exact Or.inl ⟨error, fun _ => rfl⟩
                  | ok payload => exact Or.inr ⟨(tool, eventType, payload), fun _ => rfl⟩

theorem emfTimestampIso_stamped {aws : List (Str × rt.Value)}
    (stamped : isNumberOrText rt ((dictGet? aws (str "Timestamp")).getD .null) = false ∨
      ∃ error, intOf rt ((dictGet? aws (str "Timestamp")).getD .null) = .error error ∧
        error.isValueError = true) (now : List Char) :
    emfTimestampIso rt now aws = .ok now := by
  simp only [emfTimestampIso]
  rcases stamped with notRead | ⟨error, raised, valueError⟩
  · simp [notRead]
  · by_cases isRead : isNumberOrText rt ((dictGet? aws (str "Timestamp")).getD .null) = true
    · simp [isRead, raised, valueError]
    · simp [isRead]

theorem claudeTimestamp_stamped {obj : List (Str × rt.Value)} {attrs : AttributeMap rt}
    (noStamp : rt.truth (attrs.getD "event.timestamp" .null) = false)
    (noTime : recordTimestampIso rt obj = .ok none ∨ recordTimestampIso rt obj = .ok (some []))
    (now : List Char) : claudeTimestamp rt obj attrs now = .ok (now.map .char) := by
  rcases noTime with none | empty
  · simp [claudeTimestamp, noStamp, none, ok_bind, pure, Except.pure]
  · simp [claudeTimestamp, noStamp, empty, ok_bind, pure, Except.pure]

/-- In the rows of a message that is stamped with the clock only the stamp depends on it. -/
theorem reshapeRecords_stamped {message : Str} (stamped : ClockStamped rt message) :
    (∃ error, ∀ now, reshapeRecords rt config now message = .error error) ∨
      ∃ parts, ∀ now, reshapeRecords rt config now message =
        stampRows rt parts (now.map .char) := by
  simp only [reshapeRecords_eq]
  cases found : kindOf rt message with
  | unreadable error => exact Or.inl ⟨error, fun _ => rfl⟩
  | passes => simp [ClockStamped, found] at stamped
  | emf obj =>
      simp only [ClockStamped, found] at stamped
      exact reshapeEmf_stamped (emfTimestampIso_stamped stamped)
  | structured obj body =>
      simp only [ClockStamped, found] at stamped
      rcases stamped with ⟨⟨attrs, attrsRead, noStamp⟩, noTime⟩
      cases encode message with
      | error error => exact Or.inl ⟨error, fun _ => rfl⟩
      | ok original =>
          simp only [ok_bind]
          rcases reshapeClaude_stamped attrsRead (claudeTimestamp_stamped noStamp noTime)
            with ⟨error, raises⟩ | ⟨part, written⟩
          · exact Or.inl ⟨error, fun now => by rw [raises now]; rfl⟩
          · right
            refine ⟨[part], ?_⟩
            intro now
            rw [written now]
            simp only [stampRows, List.mapM_cons, List.mapM_nil]
            rfl

theorem emfTimestampIso_own {aws : List (Str × rt.Value)}
    (own : ¬(isNumberOrText rt ((dictGet? aws (str "Timestamp")).getD .null) = false ∨
      ∃ error, intOf rt ((dictGet? aws (str "Timestamp")).getD .null) = .error error ∧
        error.isValueError = true)) (now later : List Char) :
    emfTimestampIso rt now aws = emfTimestampIso rt later aws := by
  simp only [not_or, Bool.not_eq_false, not_exists, not_and, Bool.not_eq_true] at own
  simp only [emfTimestampIso, own.1]
  cases read : intOf rt ((dictGet? aws (str "Timestamp")).getD .null) with
  | ok millis => rfl
  | error error => simp [own.2 error read]

theorem claudeTimestamp_own {obj : List (Str × rt.Value)} {attrs : AttributeMap rt}
    (own : rt.truth (attrs.getD "event.timestamp" .null) = false →
      ¬(recordTimestampIso rt obj = .ok none ∨ recordTimestampIso rt obj = .ok (some [])))
    (now later : List Char) :
    claudeTimestamp rt obj attrs now = claudeTimestamp rt obj attrs later := by
  simp only [claudeTimestamp]
  by_cases stamp : rt.truth (attrs.getD "event.timestamp" .null) = true
  · simp only [stamp, if_true]
  · simp only [stamp, Bool.false_eq_true, if_false]
    have timed := own (by simpa using stamp)
    cases recorded : recordTimestampIso rt obj with
    | error error => rfl
    | ok found =>
        rcases found with _ | _ | ⟨c, rest⟩
        · simp [recorded] at timed
        · simp [recorded] at timed
        · rfl

/-- What is re-ingested for a message with a time of its own does not depend on the clock. -/
theorem reshapeRecords_own {message : Str} (own : ¬ClockStamped rt message)
    (now later : List Char) :
    reshapeRecords rt config now message = reshapeRecords rt config later message := by
  simp only [reshapeRecords_eq]
  cases found : kindOf rt message with
  | unreadable error => rfl
  | passes => rfl
  | emf obj =>
      simp only [ClockStamped, found] at own
      simp only [reshapeEmf, emfTimestampIso_own own now later]
  | structured obj body =>
      simp only [ClockStamped, found] at own
      simp only [reshapeClaude]
      cases attrsRead : toMap rt ((dictGet? obj (str "attributes")).getD .null) with
      | error error => rfl
      | ok attrs =>
          have timed := claudeTimestamp_own
            (fun noStamp noTime => own ⟨⟨attrs, attrsRead, noStamp⟩, noTime⟩) now later
          simp only [ok_bind, timed]

end Stamp

section Lists

/-- `events` is the list that a run of a record puts in its place. -/
def Replaces (rt : Runtime) (config : Config) (record : InputRecord) (log : List TransformEvent)
    (events : List Bytes) (output : OutputRecord) : Prop :=
  ∃ logEvents first puts, logEventsOf rt record = .ok logEvents ∧ log = first ++ puts ∧
    (collectEvents rt config logEvents).Runs first (.ok events) ∧
    (replaceRecord config record events).Runs puts (.ok output)

/-- The answered runs of a record of log events are those that put a list in its place. -/
theorem runs_iff_replaces {record : InputRecord} {messages : List Str}
    {log : List TransformEvent} {output : OutputRecord}
    (found : delivery? rt record = some (.logs messages)) :
    (transformRecord rt config record).Runs log (.ok output) ↔
      ∃ events, Replaces rt config record log events output := by
  rcases transformRecord_eq config found with ⟨logEvents, opened, _, program_eq⟩
  rw [program_eq, Program.runs_bind_ok]
  constructor
  · rintro ⟨events, first, puts, split, collecting, replacing⟩
    exact ⟨events, logEvents, first, puts, opened, split, collecting, replacing⟩
  · rintro ⟨events, others, first, puts, othersOpened, split, collecting, replacing⟩
    rw [opened] at othersOpened
    cases othersOpened
    exact ⟨events, first, puts, split, collecting, replacing⟩

/-- What is re-ingested for a message depends on nothing that was delivered with it. -/
structure OwnRows (rt : Runtime) (config : Config) (now : List Char) (message : Str)
    (rows : List Bytes) : Prop where
  /-- A message with a top-level `tool` goes back as it was received. -/
  tool : ∀ obj, rt.loads message = .ok (.obj obj) → (dictGet? obj (str "tool")).isSome = true →
    ∃ original, encode message = .ok original ∧ rows = [original]
  /-- A message that cannot be reshaped goes back as it was received, and names no tool. -/
  raised : ∀ error, reshapeRecords rt config now message = .error error →
    (∃ original, encode message = .ok original ∧ rows = [original]) ∧
      ∀ obj, rt.loads message = .ok (.obj obj) → dictGet? obj (str "tool") = none
  /-- A row names the tool of its service. -/
  reshaped : ∀ named, (kindOf rt message).serviceName? = some named → ∀ reshapedRows,
    reshapeRecords rt config now message = .ok reshapedRows → rows = reshapedRows ∧
      ∃ service tool, named = .ok service ∧ dictGet? config.serviceToolMap service = some tool ∧
        ∀ row ∈ rows, ∃ text entries, encode text = .ok row ∧
          rt.loads text = .ok (.obj entries) ∧
          dictGet? entries (str "tool") = some (.str tool)
  /-- Only the stamp of a record without a time of its own depends on the clock. -/
  clock : (¬ClockStamped rt message → ∀ later,
      reshapeRecords rt config later message = reshapeRecords rt config now message) ∧
    (ClockStamped rt message →
      (∃ error, ∀ later, reshapeRecords rt config later message = .error error) ∨
        ∃ parts, ∀ later, reshapeRecords rt config later message =
          stampRows rt parts (later.map .char))

/-- A reshaping can fail only for a message without a top-level `tool`. -/
theorem tool_of_reshape_error {now : List Char} {message : Str} {error : Exc}
    {obj : List (Str × rt.Value)} (encodable : Encodable message)
    (raised : reshapeRecords rt config now message = .error error)
    (loaded : rt.loads message = .ok (.obj obj)) : dictGet? obj (str "tool") = none := by
  by_contra hasTool
  have passes := kindOf_of_tool loaded (Option.isSome_iff_ne_none.mpr hasTool)
  rcases encode_eq_ok encodable with ⟨original, encoded⟩
  rw [reshapeRecords_of_passes _ _ passes encoded] at raised
  cases raised

theorem ownRows_of_contribution {now : List Char} {message : Str} {rows : List Bytes}
    (encodable : Encodable message)
    (contributed : contribution rt config now message = .ok rows) :
    OwnRows rt config now message rows := by
  rcases encode_eq_ok encodable with ⟨original, encoded⟩
  refine ⟨?_, ?_, ?_, ?_⟩
  · intro obj loaded hasTool
    refine ⟨original, encoded, ?_⟩
    have passed := reshapeRecords_of_passes config now
      (kindOf_of_tool loaded hasTool) encoded
    simpa [contribution, passed, eq_comm] using contributed
  · intro error raised
    refine ⟨⟨original, encoded, ?_⟩, ?_⟩
    · simp only [contribution, raised] at contributed
      rcases bind_eq_ok.mp contributed with ⟨_, _, rest⟩
      simpa [encoded, ok_bind, pure, Except.pure, eq_comm] using rest
    · intro obj loaded
      exact tool_of_reshape_error encodable raised loaded
  · intro named kind reshapedRows reshaped
    have same : reshapedRows = rows := by
      simpa [contribution, reshaped] using contributed
    subst same
    exact ⟨rfl, tool_of_reshaped kind reshaped⟩
  · refine ⟨?_, reshapeRecords_stamped⟩
    intro own later
    exact reshapeRecords_own own later now

/-- The contributions of a batch are the values of `rowsAt` at the readings of the clock. -/
theorem Contributions.eq_rowsAt {nows : List (List Char)} {messages : List Str}
    {contributions : List (List Bytes)}
    (collected : Contributions rt config nows messages contributions)
    (encodable : ∀ message ∈ messages, Encodable message) :
    nows.length = messages.length ∧
      contributions = List.zipWith (rowsAt rt config.serviceToolMap) nows messages ∧
      ∀ handled ∈ nows.zip messages, OwnRows rt config handled.1 handled.2
        (rowsAt rt config.serviceToolMap handled.1 handled.2) := by
  induction collected with
  | nil => simp
  | @cons now message rows nows messages others contributed rest ih =>
      have headEncodable := encodable message List.mem_cons_self
      rcases ih fun other otherMem => encodable other (List.mem_cons_of_mem _ otherMem) with
        ⟨sameLength, others_eq, each⟩
      have rows_eq := rowsAt_of_contribution contributed
      refine ⟨?_, ?_, ?_⟩
      · simp [sameLength]
      · simp [rows_eq, others_eq]
      · intro handled handledMem
        rcases List.mem_cons.mp handledMem with rfl | handledMem
        · simp only [rows_eq]
          exact ownRows_of_contribution headEncodable contributed
        · exact each handled handledMem

/--
An answered run of a record puts the concatenation of what each message
contributes in its place.
-/
theorem list_of_record {record : InputRecord} {messages : List Str} {log : List TransformEvent}
    {events : List Bytes} {output : OutputRecord}
    (found : delivery? rt record = some (.logs messages))
    (encodable : ∀ message ∈ messages, Encodable message)
    (replaced : Replaces rt config record log events output) :
    ∃ nows puts, nows.length = messages.length ∧ log = readings nows ++ puts ∧
      events = (List.zipWith (rowsAt rt config.serviceToolMap) nows messages).flatten ∧
      ∀ handled ∈ nows.zip messages, OwnRows rt config handled.1 handled.2
        (rowsAt rt config.serviceToolMap handled.1 handled.2) := by
  rcases replaced with ⟨others, first, puts, othersOpened, rfl, collecting, replacing⟩
  rcases transformRecord_eq config found with ⟨logEvents, opened, messages_eq, _⟩
  rw [opened] at othersOpened
  cases othersOpened
  rcases collectEvents_cases messages_eq collecting with
    ⟨nows, contributions, collected, rfl, same⟩ | ⟨⟨_, impossible⟩, _⟩
  · cases same
    rcases collected.eq_rowsAt encodable with ⟨sameLength, rfl, each⟩
    exact ⟨nows, puts, sameLength, rfl, rfl, each⟩
  · cases impossible

/--
In every run of the handler, a record of log events that was answered was
replaced by a list, and the list is the concatenation, over its messages, of a
function of the message, the service map and the reading of the clock made for
the log event.
-/
theorem list_of_messages {records : List InputRecord} {log : List TransformEvent}
    {outcome : Except Exc (List OutputRecord)}
    (ran : (handler rt config records).Runs log outcome) :
    ∃ (parts : List Part) (rest : List InputRecord) (last : List TransformEvent),
      records = parts.map Program.Piece.input ++ rest ∧
        log = parts.flatMap Program.Piece.log ++ last ∧
        (∀ outputs, outcome = .ok outputs →
          rest = [] ∧ outputs = parts.map Program.Piece.value) ∧
        ∀ part ∈ parts, ∀ messages, delivery? rt part.input = some (.logs messages) →
          (∀ message ∈ messages, Encodable message) →
            (∃ events, Replaces rt config part.input part.log events part.value) ∧
            ∀ events, Replaces rt config part.input part.log events part.value →
              ∃ nows puts, nows.length = messages.length ∧ part.log = readings nows ++ puts ∧
                events =
                  (List.zipWith (rowsAt rt config.serviceToolMap) nows messages).flatten ∧
                ∀ handled ∈ nows.zip messages, OwnRows rt config handled.1 handled.2
                  (rowsAt rt config.serviceToolMap handled.1 handled.2) := by
  rcases Program.runs_mapM ran with ⟨parts, rest, last, records_eq, log_eq, each, ending⟩
  refine ⟨parts, rest, last, records_eq, log_eq, ?_, ?_⟩
  · intro outputs returned
    rcases ending with ⟨rfl, _, same⟩ | ⟨_, _, error, _, raised, _⟩
    · rw [returned] at same
      cases same
      exact ⟨rfl, rfl⟩
    · rw [returned] at raised
      cases raised
  · intro part partMem messages found encodable
    refine ⟨(runs_iff_replaces found).mp (each part partMem), ?_⟩
    intro events
    exact list_of_record found encodable

end Lists

namespace Sample

theorem list_of_messages_batch : ∃ log, ∃ outcome : Except Exc (List OutputRecord),
    outcome.toOption.map (fun outputs => outputs.map OutputRecord.result) =
        some [.ok, .dropped, .dropped] ∧
      ∃ (parts : List Part) (rest : List InputRecord) (last : List TransformEvent),
        batch = parts.map Program.Piece.input ++ rest ∧
        log = parts.flatMap Program.Piece.log ++ last ∧
        (∀ outputs, outcome = .ok outputs →
          rest = [] ∧ outputs = parts.map Program.Piece.value) ∧
        ∀ part ∈ parts, ∀ messages, delivery? batchRuntime part.input = some (.logs messages) →
          (∀ message ∈ messages, Encodable message) →
            (∃ events, Replaces batchRuntime settings part.input part.log events part.value) ∧
            ∀ events, Replaces batchRuntime settings part.input part.log events part.value →
              ∃ nows puts, nows.length = messages.length ∧ part.log = readings nows ++ puts ∧
                events =
                  (List.zipWith (rowsAt batchRuntime settings.serviceToolMap) nows
                    messages).flatten ∧
                ∀ handled ∈ nows.zip messages, OwnRows batchRuntime settings handled.1 handled.2
                  (rowsAt batchRuntime settings.serviceToolMap handled.1 handled.2) := by
  rcases exists_batch with ⟨log, outcome, ran, results, _⟩
  exact ⟨log, outcome, results, list_of_messages ran⟩

/-- A delivery of `structuredMessage`. -/
@[irreducible]
def structuredRecord : InputRecord :=
  ⟨str "1",
    str ("H4sIAAAAAAACAzXLQQrDIBSE4bvMOu0B3AmVrrpKdrUEo48QSGLxaWgQ714tdPkP32RsxGxm" ++
        "Gs43QeAmBzk+VN/Lu0KH1c/qoD0yxDP/aWVZIxD7FCxpiFpM4VgsXXeztUXDriY5uljvapdO" ++
        "w8QYlilF4vZoy+Td+bOfKlBe5QvvoIqPjQAAAA==")⟩

@[irreducible]
def structuredRuntime : Runtime :=
  runtime structuredRecord.data
    [0x1f, 0x8b, 0x08, 0x00, 0x00, 0x00, 0x00, 0x00, 0x02, 0x03, 0x35, 0xcb, 0x41, 0x0a, 0xc3,
      0x20, 0x14, 0x84, 0xe1, 0xbb, 0xcc, 0x3a, 0xed, 0x01, 0xdc, 0x09, 0x95, 0xae, 0xba, 0x4a,
      0x76, 0xb5, 0x04, 0xa3, 0x8f, 0x10, 0x48, 0x62, 0xf1, 0x69, 0x68, 0x10, 0xef, 0x5e, 0x2d,
      0x74, 0xf9, 0x0f, 0xdf, 0x64, 0x6c, 0xc4, 0x6c, 0x66, 0x1a, 0xce, 0x37, 0x41, 0xe0, 0x26,
      0x07, 0x39, 0x3e, 0x54, 0xdf, 0xcb, 0xbb, 0x42, 0x87, 0xd5, 0xcf, 0xea, 0xa0, 0x3d, 0x32,
      0xc4, 0x33, 0xff, 0x69, 0x65, 0x59, 0x23, 0x10, 0xfb, 0x14, 0x2c, 0x69, 0x88, 0x5a, 0x4c,
      0xe1, 0x58, 0x2c, 0x5d, 0x77, 0xb3, 0xb5, 0x45, 0xc3, 0xae, 0x26, 0x39, 0xba, 0x58, 0xef,
      0x6a, 0x97, 0x4e, 0xc3, 0xc4, 0x18, 0x96, 0x29, 0x45, 0xe2, 0xf6, 0x68, 0xcb, 0xe4, 0xdd,
      0xf9, 0xb3, 0x9f, 0x2a, 0x50, 0x5e, 0xe5, 0x0b, 0xef, 0xa0, 0x8a, 0x8f, 0x8d, 0x00, 0x00,
      0x00]
    ("\x7b\"messageType\":\"DATA_MESSAGE\",\"logEvents\":[\x7b\"message\":\"\x7b\\\"re" ++
      "source\\\":\x7b\\\"service.name\\\":\\\"claude-code\\\"\x7d,\\\"attributes\\\":" ++
      "\x7b\x7d,\\\"body\\\":\\\"x\\\"\x7d\"\x7d]\x7d")

theorem delivery_structured :
    delivery? structuredRuntime structuredRecord = some (.logs [structuredMessage]) := by
  decide +kernel

theorem contribution_structured (now : List Char) (inTwo : now = "2026-07-17T00:00:00Z".toList ∨
      now = "2026-07-17T00:00:01Z".toList) :
    contribution structuredRuntime settings now structuredMessage =
      .ok [structuredRow (String.ofList now)] := by
  rcases inTwo with rfl | rfl
  · decide +kernel
  · decide +kernel

/-- The list that replaces a record of one message, at some reading of the clock. -/
theorem replaces_of_contribution {rt : Runtime} {record : InputRecord} {message : Str}
    {now : List Char} {rows : List Bytes}
    (found : delivery? rt record = some (.logs [message]))
    (contributed : contribution rt settings now message = .ok rows) :
    ∃ log output, Replaces rt settings record log rows output := by
  rcases transformRecord_eq settings found with ⟨logEvents, opened, messages_eq, _⟩
  have collected : Contributions rt settings [now] [message] [rows] := .cons contributed .nil
  have collecting := runs_collectEvents messages_eq collected
  rw [List.flatten_cons, List.flatten_nil, List.append_nil] at collecting
  have ran := Program.runs_answer outage (replaceRecord settings record rows)
  rcases replaceRecord_returns ran with ⟨output, returned, _⟩
  rw [returned] at ran
  exact ⟨_, output, logEvents, _, _, opened, rfl, collecting, ran⟩

end Sample

/-- The rows of a record without a time of its own are not a function of its message. -/
theorem structured_depends_on_clock :
    ¬∀ (rt : Runtime) (config : Config), ∃ rowsOf : Str → List Bytes,
      ∀ (record : InputRecord) (messages : List Str) (log : List TransformEvent)
        (events : List Bytes) (output : OutputRecord),
        delivery? rt record = some (.logs messages) →
          (∀ message ∈ messages, Encodable message) →
            Replaces rt config record log events output → events = messages.flatMap rowsOf := by
  intro isFunction
  rcases isFunction Sample.structuredRuntime Sample.settings with ⟨rowsOf, rows_eq⟩
  have encodable : ∀ message ∈ [Sample.structuredMessage], Encodable message := by
    intro message messageMem
    rw [List.mem_singleton.mp messageMem]
    decide +kernel
  have first := Sample.contribution_structured _ (Or.inl rfl)
  have second := Sample.contribution_structured _ (Or.inr rfl)
  rcases Sample.replaces_of_contribution Sample.delivery_structured first with ⟨_, _, early⟩
  rcases Sample.replaces_of_contribution Sample.delivery_structured second with ⟨_, _, late⟩
  have earlyRows := rows_eq _ _ _ _ _ Sample.delivery_structured encodable early
  have lateRows := rows_eq _ _ _ _ _ Sample.delivery_structured encodable late
  have different : Sample.structuredRow "2026-07-17T00:00:00Z" ≠
      Sample.structuredRow "2026-07-17T00:00:01Z" := by decide +kernel
  apply different
  simpa using earlyRows.trans lateRows.symm

end CwlSplit
