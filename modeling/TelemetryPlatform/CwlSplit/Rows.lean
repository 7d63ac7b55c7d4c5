import TelemetryPlatform.CwlSplit.Delivery
import TelemetryPlatform.Library.JsonText
import TelemetryPlatform.Library.Utf8

/-!
# What a message is reshaped into

`kindOf` states once what the classifier makes of a message, and
`reshapeRecords_eq` what is re-ingested for each kind. A row of a structured
record or of an EMF event is a JSON object of four strings, and `json.loads`
reads it back as that object (`loads_rowText`).
-/

namespace CwlSplit

open Python

variable {rt : Runtime} {config : Config}

section Writing

theorem exists_encode {text : Str} : (∃ bytes, encode text = .ok bytes) ↔ Encodable text :=
  ⟨fun ⟨_, encoded⟩ => encodable_of_encode encoded, encode_eq_ok⟩

/-- A row is written exactly when it is not too deep and holds no lone surrogate. -/
theorem exists_canonicalRow {timestamp tool eventType : Str} {payload : rt.Value} :
    (∃ row, canonicalRow rt timestamp tool eventType payload = .ok row) ↔
      (payload.depth ≤ rt.dumpsDepth ∧ 1 ≤ rt.dumpsDepth) ∧ Encodable timestamp ∧
        Encodable tool ∧ Encodable eventType ∧ payload.Encodable := by
  have rowDepth (text : Str) : Json.depth (.obj [(str "timestamp", .str timestamp),
      (str "tool", .str tool), (str "event_type", .str eventType),
      (str "payload", .str text)] : rt.Value) = 1 := rfl
  simp only [canonicalRow, Runtime.dumps, rowDepth, bind, Except.bind]
  by_cases payloadFits : payload.depth ≤ rt.dumpsDepth
  · by_cases rowFits : 1 ≤ rt.dumpsDepth
    · simp only [payloadFits, rowFits, if_true, exists_encode, encodable_render, Json.Encodable,
        Json.Encodable.encodableMembers, encodable_str]
      tauto
    · simp [payloadFits, rowFits]
  · simp [payloadFits]

end Writing

section Classifier

/-- What the classifier makes of a message. -/
inductive Kind (rt : Runtime) where
  /-- `json.loads` raised something other than a `ValueError`. -/
  | unreadable (error : Exc)
  | passes
  | emf (obj : List (Str × rt.Value))
  | structured (obj : List (Str × rt.Value)) (body : Str)

def kindOf (rt : Runtime) (message : Str) : Kind rt :=
  match rt.loads message with
  | .error error => if error.isValueError then .passes else .unreadable error
  | .ok (.obj obj) =>
      if isEmf rt obj then .emf obj
      else if (dictGet? obj (str "tool")).isSome then .passes
      else
        match structuredBody? rt obj with
        | some body => .structured obj body
        | none => .passes
  | .ok _ => .passes

/-- What is re-ingested for a message of each kind. -/
theorem reshapeRecords_eq (now : List Char) (message : Str) :
    reshapeRecords rt config now message =
      match kindOf rt message with
      | .unreadable error => .error error
      | .passes => (encode message).map fun original => [original]
      | .emf obj => reshapeEmf rt config now obj
      | .structured obj body => (do
          let _ ← encode message
          let row ← reshapeClaude rt config now obj body
          return [row]) := by
  unfold reshapeRecords kindOf reshapeMessage
  cases loaded : rt.loads message with
  | error error =>
      by_cases isValueError : error.isValueError = true
      · simp only [isValueError, if_true]
        cases encode message <;> rfl
      · simp only [isValueError, Bool.false_eq_true, if_false]
        rfl
  | ok value =>
      cases value with
      | obj obj =>
          by_cases emf : isEmf rt obj = true
          · simp [emf]
          · simp only [emf, Bool.false_eq_true, if_false]
            by_cases tool : (dictGet? obj (str "tool")).isSome = true
            · simp only [tool, if_true]
              cases encode message <;> rfl
            · simp only [tool, Bool.false_eq_true, if_false]
              cases structuredBody? rt obj with
              | none => cases encode message <;> rfl
              | some body => cases encode message <;> rfl
      | null => cases encode message <;> rfl
      | bool value => cases encode message <;> rfl
      | int value => cases encode message <;> rfl
      | float value => cases encode message <;> rfl
      | str text => cases encode message <;> rfl
      | arr items => cases encode message <;> rfl

theorem kindOf_of_tool {message : Str} {obj : List (Str × rt.Value)}
    (loaded : rt.loads message = .ok (.obj obj))
    (tool : (dictGet? obj (str "tool")).isSome = true) : kindOf rt message = .passes := by
  have notEmf : isEmf rt obj = false := by
    cases found : dictGet? obj (str "tool") with
    | none => simp [found] at tool
    | some value => simp [isEmf, found]
  simp [kindOf, loaded, notEmf, tool]

theorem loads_of_emf {message : Str} {obj : List (Str × rt.Value)}
    (kind : kindOf rt message = .emf obj) :
    rt.loads message = .ok (.obj obj) ∧ isEmf rt obj = true := by
  unfold kindOf at kind
  split at kind
  · split at kind <;> cases kind
  · next found loaded =>
      split at kind
      · next emf =>
          cases kind
          exact ⟨loaded, emf⟩
      · split at kind
        · cases kind
        · split at kind <;> cases kind
  · cases kind

theorem loads_of_structured {message body : Str} {obj : List (Str × rt.Value)}
    (kind : kindOf rt message = .structured obj body) :
    rt.loads message = .ok (.obj obj) ∧ isEmf rt obj = false ∧
      dictGet? obj (str "tool") = none ∧ structuredBody? rt obj = some body := by
  unfold kindOf at kind
  split at kind
  · split at kind <;> cases kind
  · next found loaded =>
      split at kind
      · cases kind
      · next notEmf =>
          split at kind
          · cases kind
          · next noTool =>
              split at kind
              · next structured =>
                  cases kind
                  exact ⟨loaded, by simpa using notEmf, by simpa using noTool, structured⟩
              · cases kind
  · cases kind

theorem tool_of_isEmf {obj : List (Str × rt.Value)} (emf : isEmf rt obj = true) :
    dictGet? obj (str "tool") = none := by
  simp only [isEmf, Bool.and_eq_true, Option.isNone_iff_eq_none] at emf
  exact emf.1

end Classifier

section Reading

/-- The service of an EMF event. -/
def emfServiceName (rt : Runtime) (obj : List (Str × rt.Value)) : Except Exc Str :=
  rt.strOf ((dictGet? obj (str "service.name")).getD (.str []))

/-- The service of a structured record. -/
def claudeServiceName (rt : Runtime) (obj : List (Str × rt.Value)) : Except Exc Str := do
  let resource ← toMap rt ((dictGet? obj (str "resource")).getD .null)
  rt.strOf (resource.getD "service.name" (.str []))

/-- `service.name` of a record that is reshaped. -/
def Kind.serviceName? : Kind rt → Option (Except Exc Str)
  | .emf obj => some (emfServiceName rt obj)
  | .structured obj _ => some (claudeServiceName rt obj)
  | .unreadable _ | .passes => none

theorem toolOf_eq_ok {service tool : Str} :
    toolOf config service = .ok tool ↔ dictGet? config.serviceToolMap service = some tool := by
  unfold toolOf
  cases dictGet? config.serviceToolMap service <;> simp

/-- The steps of a reshaping of an EMF event that returns. -/
theorem reshapeEmf_eq_ok {now : List Char} {obj : List (Str × rt.Value)} {rows : List Bytes} :
    reshapeEmf rt config now obj = .ok rows ↔
      ∃ timestamp, emfTimestampIso rt now (awsBlock rt obj) = .ok timestamp ∧
      ∃ declarations, itemsOrEmpty rt
          ((dictGet? (awsBlock rt obj) (str "CloudWatchMetrics")).getD .null) = .ok declarations ∧
      ∃ metrics, metricByName rt declarations = .ok metrics ∧
      ∃ service, emfServiceName rt obj = .ok service ∧
      ∃ tool, toolOf config service = .ok tool ∧
        (metrics.mapM fun metric => canonicalRow rt (timestamp.map .char) tool metric.1
          (metricPayload rt obj (basePayload rt obj (metrics.map Prod.fst)) metric)) = .ok
              rows := by
  simp only [reshapeEmf, bind_eq_ok, emfServiceName]

/-- The steps of a reshaping of a structured record that returns. -/
theorem reshapeClaude_eq_ok {now : List Char} {obj : List (Str × rt.Value)} {body : Str}
    {row : Bytes} :
    reshapeClaude rt config now obj body = .ok row ↔
      ∃ attrs, toMap rt ((dictGet? obj (str "attributes")).getD .null) = .ok attrs ∧
      ∃ resource, toMap rt ((dictGet? obj (str "resource")).getD .null) = .ok resource ∧
      ∃ service, rt.strOf (resource.getD "service.name" (.str [])) = .ok service ∧
      ∃ tool, toolOf config service = .ok tool ∧
      ∃ eventType, rt.strOf (orElse rt (orElse rt (attrs.getD "event.name" .null) (.str body))
          (.str (str "unknown"))) = .ok eventType ∧
      ∃ timestamp, claudeTimestamp rt obj attrs now = .ok timestamp ∧
      ∃ payload, claudePayload rt obj attrs resource body = .ok payload ∧
        canonicalRow rt timestamp tool eventType payload = .ok row := by
  simp only [reshapeClaude, bind_eq_ok]

end Reading

section Rows

/-- The document a row is the text of. -/
def rowDocument (timestamp tool eventType payload : Str) : rt.Value :=
  .obj [(str "timestamp", .str timestamp), (str "tool", .str tool),
    (str "event_type", .str eventType), (str "payload", .str payload)]

theorem canonicalRow_eq_ok {timestamp tool eventType : Str} {payload : rt.Value} {row : Bytes} :
    canonicalRow rt timestamp tool eventType payload = .ok row ↔
      ∃ inner, rt.dumps .compact payload = .ok inner ∧
      ∃ text, rt.dumps .compact (rowDocument timestamp tool eventType inner) = .ok text ∧
        encode text = .ok row := by
  simp only [canonicalRow, bind_eq_ok, rowDocument]

theorem text_of_dumps {value : rt.Value} {text : Str}
    (dumped : rt.dumps .compact value = .ok text) :
    value.depth ≤ rt.dumpsDepth ∧ text = rt.render .compact value := by
  unfold Runtime.dumps at dumped
  split at dumped
  · next fits =>
      cases dumped
      exact ⟨fits, rfl⟩
  · cases dumped

/-- A row is read back as the object of its four strings. -/
theorem loads_rowText {timestamp tool eventType payload text : Str} (nests : 1 ≤ rt.loadsDepth)
    (dumped : rt.dumps .compact (rowDocument timestamp tool eventType payload) = .ok text) :
    rt.loads text = .ok (rowDocument timestamp tool eventType payload) := by
  have reads : rt.ReadsBack (rowDocument timestamp tool eventType payload) := by
    refine ⟨?_, trivial, trivial, trivial, trivial, trivial⟩
    have distinct : ["timestamp", "tool", "event_type", "payload"].map str |>.Nodup := by decide
    exact distinct
  have deep : (rowDocument timestamp tool eventType payload : rt.Value).depth ≤ rt.loadsDepth := by
    simpa [rowDocument, Json.depth, Json.depth.depthEntries] using nests
  exact (text_of_dumps dumped).2 ▸ Runtime.loads_render reads deep

variable (rt) in
theorem tool_rowDocument (timestamp tool eventType payload : Str) :
    ∃ entries, (rowDocument timestamp tool eventType payload : rt.Value) = .obj entries ∧
      dictGet? entries (str "tool") = some (.str tool) :=
  ⟨_, rfl, by
    have other : str "timestamp" ≠ str "tool" := by decide
    simp [dictGet?, other]⟩

/-- The rows of a reshaped record and what they are made of. -/
theorem canonicalRow_of_reshaped {now : List Char} {message : Str} {rows : List Bytes}
    {named : Except Exc Str} (kind : (kindOf rt message).serviceName? = some named)
    (reshaped : reshapeRecords rt config now message = .ok rows) :
    ∃ service tool, named = .ok service ∧ dictGet? config.serviceToolMap service = some tool ∧
      ∀ row ∈ rows, ∃ timestamp eventType payload,
        canonicalRow rt timestamp tool eventType payload = .ok row := by
  rw [reshapeRecords_eq] at reshaped
  cases found : kindOf rt message with
  | unreadable error => simp [found, Kind.serviceName?] at kind
  | passes => simp [found, Kind.serviceName?] at kind
  | emf obj =>
      simp only [found, Kind.serviceName?, Option.some.injEq] at kind reshaped
      subst kind
      rcases reshapeEmf_eq_ok.mp reshaped with
        ⟨timestamp, _, declarations, _, metrics, _, service, serviceNamed, tool, mapped, written⟩
      refine ⟨service, tool, serviceNamed, toolOf_eq_ok.mp mapped, ?_⟩
      intro row rowMem
      rcases exists_of_mem_forall₂ (forall₂_of_mapM written) rowMem with ⟨metric, _, same⟩
      exact ⟨_, _, _, same⟩
  | structured obj body =>
      simp only [found, Kind.serviceName?, Option.some.injEq] at kind reshaped
      subst kind
      rcases bind_eq_ok.mp reshaped with ⟨original, _, rest⟩
      rcases bind_eq_ok.mp rest with ⟨row, rowReshaped, returned⟩
      cases returned
      rcases reshapeClaude_eq_ok.mp rowReshaped with
        ⟨attrs, _, resource, read, service, serviceNamed, tool, mapped, eventType, _, timestamp, _,
          payload, _, written⟩
      refine ⟨service, tool, ?_, toolOf_eq_ok.mp mapped, ?_⟩
      · simp [claudeServiceName, read, serviceNamed, bind, Except.bind]
      · intro other otherMem
        rw [List.mem_singleton.mp otherMem]
        exact ⟨timestamp, eventType, payload, written⟩

/-- A message that is reshaped is an object, so at least one level of nesting can be read. -/
theorem nests_of_reshaped {message : Str} {named : Except Exc Str}
    (kind : (kindOf rt message).serviceName? = some named) : 1 ≤ rt.loadsDepth := by
  cases found : kindOf rt message with
  | unreadable error => simp [found, Kind.serviceName?] at kind
  | passes => simp [found, Kind.serviceName?] at kind
  | emf obj => exact Runtime.one_le_loadsDepth (loads_of_emf found).1
  | structured obj body => exact Runtime.one_le_loadsDepth (loads_of_structured found).1

/-- Every row of a reshaped record parses to an object that names the tool of its service. -/
theorem tool_of_reshaped {now : List Char} {message : Str} {rows : List Bytes}
    {named : Except Exc Str} (kind : (kindOf rt message).serviceName? = some named)
    (reshaped : reshapeRecords rt config now message = .ok rows) :
    ∃ service tool, named = .ok service ∧ dictGet? config.serviceToolMap service = some tool ∧
      ∀ row ∈ rows, ∃ text entries, encode text = .ok row ∧ rt.loads text = .ok (.obj entries) ∧
        dictGet? entries (str "tool") = some (.str tool) := by
  have nests := nests_of_reshaped kind
  rcases canonicalRow_of_reshaped kind reshaped with ⟨service, tool, serviceNamed, mapped, each⟩
  refine ⟨service, tool, serviceNamed, mapped, ?_⟩
  intro row rowMem
  rcases each row rowMem with ⟨timestamp, eventType, payload, written⟩
  rcases canonicalRow_eq_ok.mp written with ⟨inner, _, text, dumped, encoded⟩
  rcases tool_rowDocument rt timestamp tool eventType inner with ⟨entries, same, found⟩
  exact ⟨text, entries, encoded, same ▸ loads_rowText nests dumped, found⟩

end Rows

end CwlSplit
