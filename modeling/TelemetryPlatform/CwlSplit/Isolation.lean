import TelemetryPlatform.CwlSplit.Totality

/-!
# One message cannot fail the batch

The handler wraps the reshaping of each log event in its own `try`, so that a
message it cannot reshape goes back unchanged and the records delivered with it
are not affected. The `except` branch can raise as well: it parses the message a
second time for the line it prints, and it encodes the message, which a lone
surrogate makes impossible. `Poisonous` describes the messages for which that
happens, and `isolated_iff` shows that nothing else makes the handler raise.
-/

namespace CwlSplit

open Python Interaction

variable {rt : Runtime} {config : Config}

section Poison

variable (rt) (serviceToolMap : List (Str × Str))

/-- What the source takes the service of a structured record from. -/
def serviceOf (obj : List (Str × rt.Value)) : rt.Value :=
  (⟨flatFields rt (resourceOf rt obj), false⟩ : AttributeMap rt).getD "service.name" (.str [])

/-- A structured record of a known service whose row can be written. -/
def StructuredFits (obj : List (Str × rt.Value)) (body : Str) : Prop :=
  ∃ service tool, rt.strOf (serviceOf rt obj) = .ok service ∧
    dictGet? serviceToolMap service = some tool ∧ StructuredWritable rt obj body tool ∧
      EncodableLast rt (structuredWrites rt obj body)

/-- An EMF event of a known service whose rows can be written. -/
def EmfFits (obj : List (Str × rt.Value)) : Prop :=
  TimeReadable rt millisRange ((dictGet? (awsBlock rt obj) (str "Timestamp")).getD .null) ∧
    MetricsReadable rt obj ∧ ∃ service tool,
      rt.strOf ((dictGet? obj (str "service.name")).getD (.str [])) = .ok service ∧
        dictGet? serviceToolMap service = some tool ∧
          ∀ metric ∈ metricsOf rt obj, RowWritable rt obj tool metric

/-- The value whose text is printed for a record that is not reshaped: `service.name` of a resource
that is an object, or that of the record. -/
def printedService? (obj : List (Str × rt.Value)) : Option rt.Value :=
  match dictGet? obj (str "resource") with
  | some (.obj resource) =>
      (dictGet? resource (str "service.name")).or (dictGet? obj (str "service.name"))
  | _ => dictGet? obj (str "service.name")

/-- The value that is printed nests too deeply for `str`. -/
def Unprintable (obj : List (Str × rt.Value)) : Prop :=
  ∃ value, printedService? rt obj = some value ∧ rt.reprDepth < value.depth

/--
The messages that make the `except` branch raise: too deep for the parser, or
impossible to encode where the original bytes are needed, or a record that cannot
be reshaped and whose service cannot be printed.
-/
def Poisonous (message : Str) : Prop :=
  match kindOf rt message with
  | .unreadable _ => True
  | .passes => ¬Encodable message
  | .emf obj => ¬EmfFits rt serviceToolMap obj ∧ (¬Encodable message ∨ Unprintable rt obj)
  | .structured obj body =>
      ¬Encodable message ∨ ¬StructuredFits rt serviceToolMap obj body ∧ Unprintable rt obj

end Poison

section Reshaping

variable {obj : List (Str × rt.Value)} {body message : Str} {now : List Char}

/-- A result raises when it is no value. -/
theorem exists_error_iff {α : Type} {result : Except Exc α} :
    (∃ error, result = .error error) ↔ ¬∃ value, result = .ok value := by
  cases result <;> simp

theorem claudeServiceName_of_stringKeys (resource : StringKeys rt (resourceOf rt obj)) :
    claudeServiceName rt obj = rt.strOf (serviceOf rt obj) := by
  rw [claudeServiceName, ← resourceOf, toMap_of_stringKeys resource]
  rfl

theorem reshapeClaude_raises_iff : (∃ error, reshapeClaude rt config now obj body = .error error) ↔
    ¬StructuredFits rt config.serviceToolMap obj body := by
  rw [exists_error_iff]
  apply not_congr
  constructor
  · rintro ⟨row, reshaped⟩
    rcases reshapeClaude_eq_ok.mp reshaped with
      ⟨_, _, fields, fieldsRead, service, named, tool, mapped, _⟩
    have named' : claudeServiceName rt obj = .ok service := by
      rw [claudeServiceName, fieldsRead, ok_bind, named]
    rw [toolOf_eq_ok] at mapped
    have writable := (reshapeClaude_isOk_iff_writable now named' mapped).mp ⟨row, reshaped⟩
    rw [claudeServiceName_of_stringKeys writable.1.resource] at named'
    exact ⟨service, tool, named', mapped, writable⟩
  · rintro ⟨service, tool, named, mapped, writable⟩
    rw [← claudeServiceName_of_stringKeys writable.1.resource] at named
    exact (reshapeClaude_isOk_iff_writable now named mapped).mpr writable

theorem reshapeEmf_raises_iff (emf : isEmf rt obj = true) :
    (∃ error, reshapeEmf rt config now obj = .error error) ↔
      ¬EmfFits rt config.serviceToolMap obj := by
  rw [exists_error_iff]
  apply not_congr
  constructor
  · rintro ⟨rows, reshaped⟩
    rcases reshapeEmf_eq_ok.mp reshaped with
      ⟨_, _, _, _, _, _, service, named, tool, mapped, _⟩
    rw [toolOf_eq_ok] at mapped
    rcases (reshapeEmf_isOk_iff_writable now emf named mapped).mp ⟨rows, reshaped⟩ with
      ⟨time, readable, writable⟩
    exact ⟨time, readable, service, tool, named, mapped, writable⟩
  · rintro ⟨time, readable, service, tool, named, mapped, writable⟩
    exact (reshapeEmf_isOk_iff_writable now emf named mapped).mpr ⟨time, readable, writable⟩

theorem strOf_raises_iff {value : rt.Value} :
    (∃ error, rt.strOf value = .error error) ↔ rt.reprDepth < value.depth := by
  have container (value : rt.Value) :
      (∃ error, rt.containerStr value = .error error) ↔ rt.reprDepth < value.depth := by
    rw [Runtime.containerStr, ← Nat.not_le]
    split <;> simp [*]
  cases value with
  | arr items => exact container (.arr items)
  | obj entries => exact container (.obj entries)
  | bool value => cases value <;> simp [Runtime.strOf, Json.depth]
  | null => simp [Runtime.strOf, Json.depth]
  | int value => simp [Runtime.strOf, Json.depth]
  | float value => simp [Runtime.strOf, Json.depth]
  | str value => simp [Runtime.strOf, Json.depth]

/-- The printed line can be made for every object, but for a service that cannot be printed. -/
theorem diagnostic_raises_iff (loaded : rt.loads message = .ok (.obj obj)) :
    (∃ error, diagnosticServiceName rt message = .error error) ↔ Unprintable rt obj := by
  have shown : diagnosticServiceName rt message =
      ((printedService? rt obj).map rt.strOf).getD (.ok (str "unknown")) := by
    simp only [diagnosticServiceName, loaded, printedService?]
    cases dictGet? obj (str "resource") with
    | none => cases dictGet? obj (str "service.name") <;> rfl
    | some resource =>
        cases resource with
        | obj resource =>
            dsimp only
            cases dictGet? resource (str "service.name") with
            | some name => rfl
            | none => cases dictGet? obj (str "service.name") <;> rfl
        | _ => cases dictGet? obj (str "service.name") <;> rfl
  rw [shown, Unprintable]
  cases printedService? rt obj with
  | none => simp
  | some value => simp [strOf_raises_iff]

theorem diagnostic_raises_of_unreadable {unreadable : Exc}
    (kind : kindOf rt message = .unreadable unreadable) :
    ∃ error, diagnosticServiceName rt message = .error error := by
  unfold kindOf at kind
  split at kind
  · next error loaded =>
      split at kind
      · cases kind
      · next notValueError =>
          refine ⟨error, ?_⟩
          simp only [diagnosticServiceName, loaded, if_neg notValueError]
  · split at kind
    · cases kind
    · split at kind
      · cases kind
      · split at kind <;> cases kind
  · cases kind

/-- A contribution raises when the reshaping and the `except` branch both do. -/
theorem contribution_raises_iff :
    (∃ error, contribution rt config now message = .error error) ↔
      (∃ error, reshapeRecords rt config now message = .error error) ∧
        ((∃ error, diagnosticServiceName rt message = .error error) ∨ ¬Encodable message) := by
  rw [contribution]
  cases reshapeRecords rt config now message with
  | ok rows => simp
  | error error =>
      cases diagnosticServiceName rt message with
      | error error => simp [bind, Except.bind]
      | ok service =>
          by_cases encodable : Encodable message
          · rcases encode_eq_ok encodable with ⟨original, encoded⟩
            simp [bind, Except.bind, encoded, encodable, pure, Except.pure]
          · simp [bind, Except.bind, encode_eq_error encodable, encodable]

/-- The messages whose contribution raises are the poisonous ones, at any time. -/
theorem contribution_raises_iff_poisonous :
    (∃ error, contribution rt config now message = .error error) ↔
      Poisonous rt config.serviceToolMap message := by
  rw [contribution_raises_iff, reshapeRecords_eq, Poisonous]
  cases kind : kindOf rt message with
  | unreadable error => simp [diagnostic_raises_of_unreadable kind]
  | passes =>
      by_cases encodable : Encodable message
      · rcases encode_eq_ok encodable with ⟨original, encoded⟩
        simp [encodable, encoded, Except.map]
      · simp [encodable, encode_eq_error encodable, Except.map]
  | emf obj =>
      rcases loads_of_emf kind with ⟨loaded, emf⟩
      dsimp only
      rw [reshapeEmf_raises_iff emf, diagnostic_raises_iff loaded, or_comm]
  | structured obj body =>
      have loaded := (loads_of_structured kind).1
      dsimp only
      rw [diagnostic_raises_iff loaded]
      by_cases encodable : Encodable message
      · rcases encode_eq_ok encodable with ⟨original, encoded⟩
        have reshaped : (∃ error, (do
            let _ ← encode message
            let row ← reshapeClaude rt config now obj body
            return [row]) = (.error error : Except Exc (List Bytes))) ↔
              ∃ error, reshapeClaude rt config now obj body = .error error := by
          rw [encoded, ok_bind]
          cases reshapeClaude rt config now obj body <;> simp [bind, Except.bind, pure, Except.pure]
        rw [reshaped, reshapeClaude_raises_iff]
        simp [encodable]
      · simp [encodable, encode_eq_error encodable, error_bind]

end Reshaping

section Batch

variable {record : InputRecord} {records : List InputRecord} {log : List TransformEvent}

variable (rt config) in
/-- The record holds a message that cannot be answered for. -/
def HoldsPoison (record : InputRecord) : Prop :=
  ∃ messages, delivery? rt record = some (.logs messages) ∧
    ∃ message ∈ messages, Poisonous rt config.serviceToolMap message

/-- A well-formed record is answered under its own id unless it holds a poisonous message. -/
theorem transformRecord_cases {delivery : Delivery} {outcome : Except Exc OutputRecord}
    (found : delivery? rt record = some delivery)
    (ran : (transformRecord rt config record).Runs log outcome) :
    (∃ output, outcome = .ok output ∧ output.recordId = record.recordId) ∧
        ¬HoldsPoison rt config record ∨
      (∃ error, outcome = .error error) ∧ HoldsPoison rt config record := by
  have program := transformRecord_eq config found
  cases delivery with
  | plain =>
      rw [program] at ran
      refine Or.inl ⟨⟨_, ran.2, rfl⟩, ?_⟩
      rintro ⟨messages, logs, _⟩
      rw [found] at logs
      cases logs
  | control =>
      rw [program] at ran
      refine Or.inl ⟨⟨_, ran.2, rfl⟩, ?_⟩
      rintro ⟨messages, logs, _⟩
      rw [found] at logs
      cases logs
  | logs messages =>
      rcases program with ⟨logEvents, _, messages_eq, program_eq⟩
      rw [program_eq] at ran
      rcases Program.runs_bind.mp ran with ⟨error, rfl, stopped⟩ |
        ⟨rows, first, rest, rfl, passed, replaced⟩
      · rcases collectEvents_cases messages_eq stopped with
          ⟨_, _, _, _, impossible⟩ | ⟨_, now, message, messageMem, raised⟩
        · cases impossible
        · refine Or.inr ⟨⟨error, rfl⟩, messages, found, message, messageMem, ?_⟩
          exact contribution_raises_iff_poisonous.mp raised
      · rcases collectEvents_cases messages_eq passed with
          ⟨nows, contributions, collected, rfl, same⟩ | ⟨⟨_, impossible⟩, _⟩
        · refine Or.inl ⟨replaceRecord_returns replaced, ?_⟩
          rintro ⟨others, logs, message, messageMem, poisonous⟩
          rw [found] at logs
          cases logs
          rcases collected.exists_of_mem.1 message messageMem with ⟨now, _, _, contributed⟩
          rcases contribution_raises_iff_poisonous.mpr poisonous with ⟨error, raised⟩
          rw [contributed] at raised
          cases raised
        · cases impossible

/--
The handler answers every record of a well-formed batch, in order and under its
own id, exactly when no record holds a poisonous message; otherwise it raises.
-/
theorem isolated_iff {outcome : Except Exc (List OutputRecord)}
    (wellFormed : ∀ record ∈ records, (delivery? rt record).isSome = true)
    (ran : (handler rt config records).Runs log outcome) :
    (∃ outputs, outcome = .ok outputs ∧
        outputs.map OutputRecord.recordId = records.map InputRecord.recordId) ↔
      ∀ record ∈ records, ∀ messages, delivery? rt record = some (.logs messages) →
        ∀ message ∈ messages, ¬Poisonous rt config.serviceToolMap message := by
  have noPoison : (∀ record ∈ records, ∀ messages, delivery? rt record = some (.logs messages) →
      ∀ message ∈ messages, ¬Poisonous rt config.serviceToolMap message) ↔
      ∀ record ∈ records, ¬HoldsPoison rt config record := by
    simp only [HoldsPoison, not_exists, not_and]
  rw [noPoison]
  have eachCase {record : InputRecord} {part : List TransformEvent}
      {answer : Except Exc OutputRecord} (recordMem : record ∈ records)
      (ran : (transformRecord rt config record).Runs part answer) :=
    transformRecord_cases (Option.get_mem (wellFormed record recordMem)) ran
  cases outcome with
  | ok outputs =>
      rcases Program.runs_mapM_ok.mp ran with ⟨parts, rfl, _, rfl, each⟩
      have answered : ∀ part ∈ parts, part.value.recordId = part.input.recordId ∧
          ¬HoldsPoison rt config part.input := by
        intro part partMem
        rcases eachCase (List.mem_map_of_mem partMem) (each part partMem) with
          ⟨⟨output, same, sameId⟩, clean⟩ | ⟨⟨_, impossible⟩, _⟩
        · cases same
          exact ⟨sameId, clean⟩
        · cases impossible
      constructor
      · rintro _ record recordMem
        rcases List.mem_map.mp recordMem with ⟨part, partMem, rfl⟩
        exact (answered part partMem).2
      · intro _
        refine ⟨_, rfl, ?_⟩
        rw [List.map_map, List.map_map]
        exact List.map_congr_left fun part partMem => (answered part partMem).1
  | error error =>
      simp only [reduceCtorEq, false_and, exists_false, false_iff]
      intro clean
      rcases Program.runs_mapM_error ran with ⟨record, recordMem, part, raised⟩
      rcases eachCase recordMem raised with ⟨⟨_, impossible, _⟩, _⟩ | ⟨_, poisoned⟩
      · cases impossible
      · exact clean record recordMem poisoned

end Batch

/-- No message of the batch is poisonous, so that all its records are answered. -/
theorem isolated_iff_batch : ∃ outcome : Except Exc (List OutputRecord),
    outcome.toOption.map (fun outputs => outputs.map OutputRecord.result) =
        some [.ok, .dropped, .dropped] ∧
      ((∃ outputs, outcome = .ok outputs ∧
          outputs.map OutputRecord.recordId = Sample.batch.map InputRecord.recordId) ↔
        ∀ record ∈ Sample.batch, ∀ messages,
          delivery? Sample.batchRuntime record = some (.logs messages) → ∀ message ∈ messages,
            ¬Poisonous Sample.batchRuntime Sample.settings.serviceToolMap message) := by
  have wellFormed : ∀ record ∈ Sample.batch,
      (delivery? Sample.batchRuntime record).isSome = true := by decide +kernel
  rcases Sample.exists_batch with ⟨log, outcome, ran, results, _⟩
  exact ⟨outcome, results, isolated_iff wellFormed ran⟩

namespace Sample

/-- A delivery of one message that is a lone surrogate. -/
@[irreducible]
def surrogateRecord : InputRecord :=
  ⟨str "1",
    str ("H4sIAAAAAAACA6tWyk0tLk5MTw2pLEhVslJycQxxjPd1DQ52dHdV0lHKyU93LUvNKylWso" ++
      "quhikFKospTbEwMFCqja0FACJn165BAAAA")⟩

@[irreducible]
def surrogateRuntime : Runtime :=
  runtime surrogateRecord.data
    [0x1f, 0x8b, 0x08, 0x00, 0x00, 0x00, 0x00, 0x00, 0x02, 0x03, 0xab, 0x56, 0xca, 0x4d,
      0x2d, 0x2e, 0x4e, 0x4c, 0x4f, 0x0d, 0xa9, 0x2c, 0x48, 0x55, 0xb2, 0x52, 0x72, 0x71,
      0x0c, 0x71, 0x8c, 0xf7, 0x75, 0x0d, 0x0e, 0x76, 0x74, 0x77, 0x55, 0xd2, 0x51, 0xca,
      0xc9, 0x4f, 0x77, 0x2d, 0x4b, 0xcd, 0x2b, 0x29, 0x56, 0xb2, 0x8a, 0xae, 0x86, 0x29,
      0x05, 0x2a, 0x8b, 0x29, 0x4d, 0xb1, 0x30, 0x30, 0x50, 0xaa, 0x8d, 0xad, 0x05, 0x00,
      0x22, 0x67, 0xd7, 0xae, 0x41, 0x00, 0x00, 0x00]
    ("\x7b\"messageType\":\"DATA_MESSAGE\",\"logEvents\":[\x7b\"message\":\"\\ud800\"\x7d]\x7d")

def surrogateMessage : Str := [.surrogate 0]

theorem delivery_surrogate :
    delivery? surrogateRuntime surrogateRecord = some (.logs [surrogateMessage]) := by
  decide +kernel

theorem poisonous_surrogate :
    Poisonous surrogateRuntime settings.serviceToolMap surrogateMessage := by
  have notLoaded : (surrogateRuntime.loads surrogateMessage).isOk = false := by decide +kernel
  have notEncodable : ¬Encodable surrogateMessage := by decide
  cases loaded : surrogateRuntime.loads surrogateMessage with
  | ok value => simp [loaded, Except.isOk, Except.toBool] at notLoaded
  | error error =>
      by_cases isValueError : error.isValueError = true
      · simp [Poisonous, kindOf, loaded, isValueError, notEncodable]
      · simp [Poisonous, kindOf, loaded, isValueError]

end Sample

/-- A message that is a lone surrogate raises out of the handler, and the batch has no answer. -/
theorem surrogate_fails_batch :
    ¬∀ (rt : Runtime) (config : Config) (records : List InputRecord) (log : List TransformEvent)
      (outcome : Except Exc (List OutputRecord)),
      (∀ record ∈ records, (delivery? rt record).isSome = true) →
        (handler rt config records).Runs log outcome →
          ∃ outputs, outcome = .ok outputs ∧
            outputs.map OutputRecord.recordId = records.map InputRecord.recordId := by
  intro isolated
  have wellFormed : ∀ record ∈ [Sample.surrogateRecord],
      (delivery? Sample.surrogateRuntime record).isSome = true := by
    intro record recordMem
    rw [List.mem_singleton.mp recordMem, Sample.delivery_surrogate]
    rfl
  have ran := Program.runs_answer Sample.outage
    (handler Sample.surrogateRuntime Sample.settings [Sample.surrogateRecord])
  rcases isolated _ _ _ _ _ wellFormed ran with ⟨outputs, returned, _⟩
  rw [returned] at ran
  rcases Program.runs_mapM_ok.mp ran with ⟨parts, inputs_eq, _, _, each⟩
  rcases List.map_eq_singleton_iff.mp inputs_eq with ⟨part, rfl, input_eq⟩
  have answered := each part List.mem_cons_self
  rw [input_eq] at answered
  rcases transformRecord_cases Sample.delivery_surrogate answered with ⟨_, clean⟩ | ⟨raised, _⟩
  · exact clean ⟨_, Sample.delivery_surrogate, _, List.mem_cons_self, Sample.poisonous_surrogate⟩
  · rcases raised with ⟨_, impossible⟩
    cases impossible

end CwlSplit
