import TelemetryPlatform.CwlSplit.Metrics
import TelemetryPlatform.Library.Hereditary

/-!
# The fields of a payload

A payload is a dictionary that is written field by field: `structuredFields` and
`emfFields` list the fields of a record under the keys the source documents for
them, in the order in which they are written. A later write takes the place of an
earlier one under the same key, so that a field is lost whenever two documented
keys are the same.

A payload that is written into a row is read back from it (`carries_of_canonicalRow`).
-/

namespace CwlSplit

open Python

variable {rt : Runtime} {config : Config}

section Blocks

/-- The pairs of an attribute block, in its order. -/
def fieldsOf (rt : Runtime) : rt.Value → List (Str × rt.Value)
  | .obj entries => entries
  | .arr items => (items.filterMap (keyValue? rt)).filterMap fun pair =>
      match pair.1 with
      | .str key => some (key, pair.2)
      | _ => none
  | _ => []

/-- Every key of an attribute block is a string. -/
def StringKeys (rt : Runtime) : rt.Value → Prop
  | .arr items => ∀ pair ∈ items.filterMap (keyValue? rt), ∃ key, pair.1 = .str key
  | _ => True

/-- An attribute block after its list form has been made a dictionary. -/
def flatFields (rt : Runtime) (value : rt.Value) : List (Str × rt.Value) :=
  match value with
  | .arr _ => dictWrites [] (fieldsOf rt value)
  | _ => fieldsOf rt value

theorem foldlM_insert_eq {items : List rt.Value} (stringKeys : StringKeys rt (.arr items))
    (entries : List (Str × rt.Value)) :
    items.foldlM (fun flat item =>
        match keyValue? rt item with
        | some (key, value) => flat.insert key value
        | none => .ok flat) (⟨entries, false⟩ : AttributeMap rt) =
      .ok ⟨dictWrites entries (fieldsOf rt (.arr items)), false⟩ := by
  induction items generalizing entries with
  | nil => rfl
  | cons item items ih =>
      rw [List.foldlM_cons]
      cases paired : keyValue? rt item with
      | none =>
          have rest : StringKeys rt (.arr items) := by
            simpa [StringKeys, List.filterMap_cons, paired] using stringKeys
          have fields : fieldsOf rt (.arr (item :: items)) = fieldsOf rt (.arr items) := by
            simp [fieldsOf, paired]
          rw [ok_bind, ih rest, fields]
      | some pair =>
          rcases pair with ⟨key, value⟩
          simp only [StringKeys, List.filterMap_cons, paired, List.mem_cons,
            forall_eq_or_imp] at stringKeys
          rcases stringKeys with ⟨⟨text, rfl⟩, rest⟩
          have fields : fieldsOf rt (.arr (item :: items)) =
              (text, value) :: fieldsOf rt (.arr items) := by
            simp [fieldsOf, paired]
          have inserted : (⟨entries, false⟩ : AttributeMap rt).insert (.str text) value =
              .ok ⟨dictSet entries text value, false⟩ := rfl
          simp only [inserted, ok_bind, ih rest, fields]
          rfl

theorem toMap_of_stringKeys {value : rt.Value} (stringKeys : StringKeys rt value) :
    toMap rt value = .ok ⟨flatFields rt value, false⟩ := by
  cases value with
  | arr items =>
      simp only [toMap]
      exact foldlM_insert_eq stringKeys []
  | obj entries => rfl
  | null => rfl
  | bool value => rfl
  | int value => rfl
  | float value => rfl
  | str text => rfl

/-- A block with string keys that are all different. -/
structure DistinctFields (rt : Runtime) (value : rt.Value) : Prop where
  stringKeys : StringKeys rt value
  distinct : ((fieldsOf rt value).map Prod.fst).Nodup

theorem DistinctFields.flatFields_eq {value : rt.Value} (fields : DistinctFields rt value) :
    flatFields rt value = fieldsOf rt value := by
  cases value with
  | arr items =>
      simp only [flatFields]
      rw [dictWrites_of_nodup (by simpa using fields.distinct), List.nil_append]
  | obj entries => rfl
  | null => rfl
  | bool value => rfl
  | int value => rfl
  | float value => rfl
  | str text => rfl

end Blocks

section Structured

def attributesOf (rt : Runtime) (obj : List (Str × rt.Value)) : rt.Value :=
  (dictGet? obj (str "attributes")).getD .null

def resourceOf (rt : Runtime) (obj : List (Str × rt.Value)) : rt.Value :=
  (dictGet? obj (str "resource")).getD .null

/-- A field that is left out when its value is `None`. -/
def fieldUnlessNone (rt : Runtime) (key : String) : Option rt.Value → List (Str × rt.Value)
  | none | some .null => []
  | some value => [(str key, value)]

theorem setUnlessNone_eq (payload : List (Str × rt.Value)) (key : String)
    (value : Option rt.Value) :
    setUnlessNone rt payload key value = dictWrites payload (fieldUnlessNone rt key value) := by
  rcases value with _ | value
  · rfl
  · cases value <;> rfl

/-- The scope of a structured record. -/
def scopeOf (rt : Runtime) (obj : List (Str × rt.Value)) : rt.Value :=
  orElse rt ((dictGet? obj (str "scope")).getD .null)
    ((dictGet? obj (str "instrumentationScope")).getD .null)

def scopeFields (rt : Runtime) (obj : List (Str × rt.Value)) : List (Str × rt.Value) :=
  match scopeOf rt obj with
  | .obj entries => fieldUnlessNone rt "otel_scope_name" (dictGet? entries (str "name")) ++
      fieldUnlessNone rt "otel_scope_version" (dictGet? entries (str "version"))
  | _ => []

/-- Attributes and resource, then what the record says about itself. -/
def payloadWrites (rt : Runtime) (obj attrs resource : List (Str × rt.Value)) (body : Str) :
    List (Str × rt.Value) :=
  attrs.map (fun field => (norm field.1, field.2)) ++
    (resource.map (fun field => (str "resource_" ++ norm field.1, field.2)) ++
      ((str "otel_body", .str body) :: scopeFields rt obj))

/-- The fields of a structured record under their documented keys. -/
def structuredFields (rt : Runtime) (obj : List (Str × rt.Value)) (body : Str) :
    List (Str × rt.Value) :=
  payloadWrites rt obj (fieldsOf rt (attributesOf rt obj)) (fieldsOf rt (resourceOf rt obj)) body

theorem addAttributes_eq (rename : Str → Str) (fields payload : List (Str × rt.Value)) :
    addAttributes rt rename ⟨fields, false⟩ payload =
      .ok (dictWrites payload (fields.map fun field => (rename field.1, field.2))) := by
  simp [addAttributes, dictWrites, List.foldl_map]

theorem claudePayload_eq (obj attrs resource : List (Str × rt.Value)) (body : Str) :
    claudePayload rt obj ⟨attrs, false⟩ ⟨resource, false⟩ body =
      .ok (.obj (dictWrites [] (payloadWrites rt obj attrs resource body))) := by
  have scope : orElse rt ((dictGet? obj (str "scope")).getD .null)
      ((dictGet? obj (str "instrumentationScope")).getD .null) = scopeOf rt obj := rfl
  simp only [claudePayload, addAttributes_eq, ok_bind, payloadWrites, dictWrites_append,
    scopeFields, scope]
  cases scopeOf rt obj with
  | obj entries =>
      simp only [setUnlessNone_eq]
      rw [← List.singleton_append, dictWrites_append, dictWrites_append]
      rfl
  | null => rfl
  | bool value => rfl
  | int value => rfl
  | float value => rfl
  | str text => rfl
  | arr items => rfl

end Structured

section Emf

/-- The documented key of a top-level field of an EMF event. -/
def emfKey (key : Str) : Str :=
  if isEmfResourceKey key then str "resource_" ++ norm key else norm key

/-- The top-level fields of an EMF event that are neither its envelope nor the value of a metric. -/
def emfFields (rt : Runtime) (obj : List (Str × rt.Value)) : List (Str × rt.Value) :=
  obj.filter fun field => !(([str "_aws", str "OTelLib", str "Version"].contains field.1) ||
    ((metricsOf rt obj).map Prod.fst).contains field.1)

/-- The same fields under their documented keys. -/
def emfPayloadFields (rt : Runtime) (obj : List (Str × rt.Value)) : List (Str × rt.Value) :=
  (emfFields rt obj).map fun field => (emfKey field.1, field.2)

/-- What the row of a metric writes behind them. -/
def emfWritten (rt : Runtime) (obj : List (Str × rt.Value))
    (metric : Str × List (Str × rt.Value)) : List (Str × rt.Value) :=
  fieldUnlessNone rt "otel_scope_name" (dictGet? obj (str "OTelLib")) ++
    [(str "value", (dictGet? obj metric.1).getD .null),
      (str "unit", (dictGet? metric.2 (str "Unit")).getD .null),
      (str "metric_type", .str (str "SUM")), (str "otel_signal", .str (str "metric"))]

theorem metricPayload_eq (obj : List (Str × rt.Value)) (metric : Str × List (Str × rt.Value)) :
    metricPayload rt obj (basePayload rt obj ((metricsOf rt obj).map Prod.fst)) metric =
      .obj (dictWrites [] (emfPayloadFields rt obj ++ emfWritten rt obj metric)) := by
  simp only [metricPayload, basePayload, setUnlessNone_eq, emfWritten, dictWrites_append,
    emfPayloadFields]
  congr 1
  simp only [dictWrites, List.foldl_cons, List.foldl_nil, List.foldl_map]
  rfl

theorem nodup_emfWritten (obj : List (Str × rt.Value)) (metric : Str × List (Str × rt.Value)) :
    ((emfWritten rt obj metric).map Prod.fst).Nodup := by
  have all : ["otel_scope_name", "value", "unit", "metric_type",
      "otel_signal"].map str |>.Nodup := by
    decide
  simp only [emfWritten]
  rcases dictGet? obj (str "OTelLib") with _ | value
  · exact (List.nodup_cons.mp all).2
  · cases value with
    | null => exact (List.nodup_cons.mp all).2
    | bool value => exact all
    | int value => exact all
    | float value => exact all
    | str text => exact all
    | arr items => exact all
    | obj entries => exact all

end Emf

section Parts

variable {holds : rt.Value → Prop} {ofText : Str → Prop}

/-- The keys of a payload have a property that the keys of the record have. -/
structure KeyClosed (ofText : Str → Prop) : Prop where
  literal : ∀ text : String, ofText (str text)
  norm : ∀ key, ofText key → ofText (norm key)
  append : ∀ first second, ofText first → ofText second → ofText (first ++ second)

theorem keyClosed_true : KeyClosed fun _ => True :=
  ⟨fun _ => trivial, fun _ _ => trivial, fun _ _ _ _ => trivial⟩

theorem keyClosed_encodable : KeyClosed Encodable where
  literal := encodable_str
  norm := by
    intro key encodable c cMem
    rcases List.mem_map.mp cMem with ⟨old, oldMem, rfl⟩
    split
    · rfl
    · exact encodable old oldMem
  append := by
    intro first second firstEncodable secondEncodable
    exact encodable_append.mpr ⟨firstEncodable, secondEncodable⟩

theorem holds_keyValue? (hereditary : Json.Hereditary holds ofText) {item : rt.Value}
    (whole : holds item) {pair : rt.Value × rt.Value} (paired : keyValue? rt item = some pair) :
    holds pair.1 ∧ holds pair.2 := by
  cases item with
  | obj entries =>
      have each := hereditary.member entries whole
      simp only [keyValue?, Option.map_eq_some_iff] at paired
      rcases paired with ⟨key, keyFound, rfl⟩
      have keyHolds : holds key := (each _ (mem_of_dictGet? keyFound)).2
      cases valueFound : dictGet? entries (str "value") with
      | none => exact ⟨keyHolds, hereditary.null⟩
      | some value =>
          have valueHolds : holds value := (each _ (mem_of_dictGet? valueFound)).2
          split
          · next same =>
              cases same
              refine ⟨keyHolds, ?_⟩
              exact (hereditary.member _ valueHolds _ List.mem_cons_self).2
          · next same =>
              cases same
              exact ⟨keyHolds, valueHolds⟩
          · exact ⟨keyHolds, hereditary.null⟩
  | null => cases paired
  | bool value => cases paired
  | int value => cases paired
  | float value => cases paired
  | str text => cases paired
  | arr items => cases paired

/-- The fields of a block have what the block has. -/
theorem holds_fieldsOf (hereditary : Json.Hereditary holds ofText) {value : rt.Value}
    (whole : holds value) : ∀ field ∈ fieldsOf rt value, ofText field.1 ∧ holds field.2 := by
  cases value with
  | obj entries => exact hereditary.member entries whole
  | arr items =>
      intro field fieldMem
      simp only [fieldsOf, List.mem_filterMap] at fieldMem
      rcases fieldMem with ⟨pair, ⟨item, itemMem, paired⟩, named⟩
      have parts := holds_keyValue? hereditary (hereditary.item items whole item itemMem) paired
      split at named
      · next key same =>
          cases named
          rw [same] at parts
          exact ⟨(hereditary.str key).mp parts.1, parts.2⟩
      · cases named
  | null => simp [fieldsOf]
  | bool value => simp [fieldsOf]
  | int value => simp [fieldsOf]
  | float value => simp [fieldsOf]
  | str text => simp [fieldsOf]

theorem holds_fieldUnlessNone (closed : KeyClosed ofText) (key : String)
    {value : Option rt.Value} (each : ∀ found, value = some found → holds found) :
    ∀ field ∈ fieldUnlessNone rt key value, ofText field.1 ∧ holds field.2 := by
  intro field fieldMem
  rcases value with _ | value
  · cases fieldMem
  · have found := each value rfl
    cases value with
    | null => cases fieldMem
    | bool value =>
        rw [List.mem_singleton.mp fieldMem]
        exact ⟨closed.literal key, found⟩
    | int value =>
        rw [List.mem_singleton.mp fieldMem]
        exact ⟨closed.literal key, found⟩
    | float value =>
        rw [List.mem_singleton.mp fieldMem]
        exact ⟨closed.literal key, found⟩
    | str text =>
        rw [List.mem_singleton.mp fieldMem]
        exact ⟨closed.literal key, found⟩
    | arr items =>
        rw [List.mem_singleton.mp fieldMem]
        exact ⟨closed.literal key, found⟩
    | obj entries =>
        rw [List.mem_singleton.mp fieldMem]
        exact ⟨closed.literal key, found⟩

variable {obj : List (Str × rt.Value)}

theorem holds_scopeFields (hereditary : Json.Hereditary holds ofText) (closed : KeyClosed ofText)
    (each : ∀ entry ∈ obj, ofText entry.1 ∧ holds entry.2) :
    ∀ field ∈ scopeFields rt obj, ofText field.1 ∧ holds field.2 := by
  have scopeHolds : holds (scopeOf rt obj) := by
    simp only [scopeOf, orElse]
    split
    · exact hereditary.getD_null each _
    · exact hereditary.getD_null each _
  intro field fieldMem
  simp only [scopeFields] at fieldMem
  split at fieldMem
  · next entries same =>
      rw [same] at scopeHolds
      have members := hereditary.member entries scopeHolds
      rcases List.mem_append.mp fieldMem with name | version
      · apply holds_fieldUnlessNone closed _ _ field name
        intro found foundName
        exact (members _ (mem_of_dictGet? foundName)).2
      · apply holds_fieldUnlessNone closed _ _ field version
        intro found foundVersion
        exact (members _ (mem_of_dictGet? foundVersion)).2
  · cases fieldMem

theorem str_body_of_structured {body : Str} (structured : structuredBody? rt obj = some body) :
    dictGet? obj (str "body") = some (.str body) := by
  simp only [structuredBody?] at structured
  split at structured
  · split at structured
    · next found =>
        cases structured
        exact found
    · cases structured
  · cases structured

/-- The writes of a structured record's payload have what the record has. -/
theorem holds_payloadWrites (hereditary : Json.Hereditary holds ofText)
    (closed : KeyClosed ofText) (each : ∀ entry ∈ obj, ofText entry.1 ∧ holds entry.2)
    {attrs resource : List (Str × rt.Value)} {body : Str}
    (structured : structuredBody? rt obj = some body)
    (attrsHold : ∀ field ∈ attrs, ofText field.1 ∧ holds field.2)
    (resourceHold : ∀ field ∈ resource, ofText field.1 ∧ holds field.2) :
    ∀ write ∈ payloadWrites rt obj attrs resource body, ofText write.1 ∧ holds write.2 := by
  intro write writeMem
  simp only [payloadWrites, List.mem_append, List.mem_map, List.mem_cons] at writeMem
  rcases writeMem with ⟨field, fieldMem, rfl⟩ | ⟨field, fieldMem, rfl⟩ | rfl | scope
  · have parts := attrsHold field fieldMem
    exact ⟨closed.norm _ parts.1, parts.2⟩
  · have parts := resourceHold field fieldMem
    exact ⟨closed.append _ _ (closed.literal _) (closed.norm _ parts.1), parts.2⟩
  · exact ⟨closed.literal _, (each _ (mem_of_dictGet? (str_body_of_structured structured))).2⟩
  · exact holds_scopeFields hereditary closed each write scope

theorem holds_awsBlock (hereditary : Json.Hereditary holds ofText)
    (each : ∀ entry ∈ obj, ofText entry.1 ∧ holds entry.2) :
    ∀ entry ∈ awsBlock rt obj, ofText entry.1 ∧ holds entry.2 := by
  simp only [awsBlock]
  split
  · next entries found => exact hereditary.member _ (each _ (mem_of_dictGet? found)).2
  · simp

/-- A metric's name and declaration have what the event has. -/
theorem holds_metricsOf (hereditary : Json.Hereditary holds ofText)
    (each : ∀ entry ∈ obj, ofText entry.1 ∧ holds entry.2) :
    ∀ metric ∈ metricsOf rt obj, ofText metric.1 ∧
      ∀ entry ∈ metric.2, ofText entry.1 ∧ holds entry.2 := by
  intro metric metricMem
  have declared := mem_of_dictGet? (mem_dictDefaults.mp metricMem)
  rcases List.mem_flatMap.mp declared with ⟨declaration, declarationMem, usable⟩
  have declarationHolds : holds declaration := by
    simp only [declarationsOf] at declarationMem
    split at declarationMem
    · next listed =>
        have block := holds_awsBlock hereditary each _ (mem_of_dictGet? listed)
        exact hereditary.item _ block.2 declaration declarationMem
    · cases declarationMem
  cases declaration with
  | obj entries =>
      simp only [usableMetrics] at usable
      split at usable
      · next items found =>
          rcases List.mem_filterMap.mp usable with ⟨item, itemMem, named⟩
          have listed := (hereditary.member entries declarationHolds _ (mem_of_dictGet? found)).2
          have itemHolds := hereditary.item items listed item itemMem
          rcases metricName?_eq_some.mp named with ⟨rfl, nameFound, _⟩
          have members := hereditary.member _ itemHolds
          refine ⟨?_, members⟩
          exact (hereditary.str _).mp (members _ (mem_of_dictGet? nameFound)).2
      · cases usable
  | null => cases usable
  | bool value => cases usable
  | int value => cases usable
  | float value => cases usable
  | str text => cases usable
  | arr items => cases usable

/-- The writes of an EMF row's payload have what the event has. -/
theorem holds_emfWrites (hereditary : Json.Hereditary holds ofText) (closed : KeyClosed ofText)
    (each : ∀ entry ∈ obj, ofText entry.1 ∧ holds entry.2)
    {metric : Str × List (Str × rt.Value)} (metricMem : metric ∈ metricsOf rt obj) :
    ∀ write ∈ emfPayloadFields rt obj ++ emfWritten rt obj metric,
      ofText write.1 ∧ holds write.2 := by
  intro write writeMem
  simp only [emfPayloadFields, emfFields, emfWritten, List.mem_append, List.mem_map,
    List.mem_filter, List.mem_cons, List.not_mem_nil, or_false] at writeMem
  rcases writeMem with ⟨field, ⟨fieldMem, _⟩, rfl⟩ | scope | rfl | rfl | rfl | rfl
  · have parts := each field fieldMem
    refine ⟨?_, parts.2⟩
    simp only [emfKey]
    split
    · exact closed.append _ _ (closed.literal _) (closed.norm _ parts.1)
    · exact closed.norm _ parts.1
  · apply holds_fieldUnlessNone closed _ _ write scope
    intro found scopeFound
    exact (each _ (mem_of_dictGet? scopeFound)).2
  · exact ⟨closed.literal _, hereditary.getD_null each _⟩
  · have members := (holds_metricsOf hereditary each metric metricMem).2
    exact ⟨closed.literal _, hereditary.getD_null members _⟩
  · exact ⟨closed.literal _, (hereditary.str _).mpr (closed.literal _)⟩
  · exact ⟨closed.literal _, (hereditary.str _).mpr (closed.literal _)⟩

end Parts

section Reading

/-- The row is an object of four strings whose payload is the text of this object. -/
def Carries (rt : Runtime) (row : Bytes) (timestamp tool eventType : Str)
    (payload : List (Str × rt.Value)) : Prop :=
  ∃ text inner, encode text = .ok row ∧
    rt.loads text = .ok (rowDocument timestamp tool eventType inner) ∧
    rt.loads inner = .ok (.obj payload)

/-- A row carries one payload. -/
theorem Carries.unique {row : Bytes} {timestamp timestamp' tool tool' eventType eventType' : Str}
    {payload payload' : List (Str × rt.Value)}
    (first : Carries rt row timestamp tool eventType payload)
    (second : Carries rt row timestamp' tool' eventType' payload') :
    timestamp = timestamp' ∧ tool = tool' ∧ eventType = eventType' ∧ payload = payload' := by
  rcases first with ⟨text, inner, encoded, loaded, innerLoaded⟩
  rcases second with ⟨text', inner', encoded', loaded', innerLoaded'⟩
  rw [encode_injective encoded' encoded, loaded] at loaded'
  simp only [rowDocument, Except.ok.injEq, Json.obj.injEq, List.cons.injEq, Prod.mk.injEq,
    true_and, Json.str.injEq, and_true] at loaded'
  rcases loaded' with ⟨rfl, rfl, rfl, rfl⟩
  rw [innerLoaded] at innerLoaded'
  cases innerLoaded'
  exact ⟨rfl, rfl, rfl, rfl⟩

/-- A payload that can be read back is what the row carries. -/
theorem carries_of_canonicalRow {timestamp tool eventType : Str} {payload : List (Str × rt.Value)}
    {row : Bytes} (reads : rt.ReadsBack (.obj payload))
    (nests : (Json.obj payload : rt.Value).depth ≤ rt.loadsDepth)
    (written : canonicalRow rt timestamp tool eventType (.obj payload) = .ok row) :
    Carries rt row timestamp tool eventType payload := by
  rcases canonicalRow_eq_ok.mp written with ⟨inner, innerDumped, text, dumped, encoded⟩
  have someDepth : 1 ≤ rt.loadsDepth := by
    simp only [Json.depth] at nests
    omega
  refine ⟨text, inner, encoded, loads_rowText someDepth dumped, ?_⟩
  rw [(text_of_dumps innerDumped).2]
  exact Runtime.loads_render reads nests

/-- The payload of a structured record is read back. -/
theorem readable_structured (floats : rt.WritesFloats) {message body : Str}
    {obj attrs resource : List (Str × rt.Value)}
    (kind : kindOf rt message = .structured obj body)
    (attrsFrom : ∀ field ∈ attrs, field ∈ fieldsOf rt (attributesOf rt obj))
    (resourceFrom : ∀ field ∈ resource, field ∈ fieldsOf rt (resourceOf rt obj)) :
    rt.ReadsBack (.obj (dictWrites [] (payloadWrites rt obj attrs resource body))) ∧
      (Json.obj (dictWrites [] (payloadWrites rt obj attrs resource body)) : rt.Value).depth ≤
        rt.loadsDepth := by
  rcases loads_of_structured kind with ⟨loaded, _, _, structured⟩
  rcases Runtime.readsBack_of_loads floats loaded with ⟨reads, nests⟩
  have positive : 1 ≤ (Json.obj obj : rt.Value).depth := by
    simp only [Json.depth]
    omega
  constructor
  · have members := Runtime.hereditary_readsBack.member obj reads
    have blocks (key : String) := holds_fieldsOf Runtime.hereditary_readsBack
      (Runtime.hereditary_readsBack.getD_null members (str key))
    apply Runtime.readsBack_dictWrites
    intro write writeMem
    exact (holds_payloadWrites Runtime.hereditary_readsBack keyClosed_true members structured
      (fun field fieldMem => blocks "attributes" field (attrsFrom field fieldMem))
      (fun field fieldMem => blocks "resource" field (resourceFrom field fieldMem))
      write writeMem).2
  · have hereditary : Json.Hereditary
        (fun value : rt.Value => value.depth + 1 ≤ (Json.obj obj : rt.Value).depth)
        (fun _ => True) := Json.hereditary_depth positive
    have members := Json.depth_member obj
    have blocks (key : String) := holds_fieldsOf hereditary
      (hereditary.getD_null members (str key))
    apply Nat.le_trans _ nests
    apply Json.depth_dictWrites_le positive
    intro write writeMem
    exact (holds_payloadWrites hereditary keyClosed_true members structured
      (fun field fieldMem => blocks "attributes" field (attrsFrom field fieldMem))
      (fun field fieldMem => blocks "resource" field (resourceFrom field fieldMem))
      write writeMem).2

/-- The payload of a metric's row is read back. -/
theorem readable_emf (floats : rt.WritesFloats) {message : Str} {obj : List (Str × rt.Value)}
    (kind : kindOf rt message = .emf obj) {metric : Str × List (Str × rt.Value)}
    (metricMem : metric ∈ metricsOf rt obj) :
    rt.ReadsBack (.obj (dictWrites [] (emfPayloadFields rt obj ++ emfWritten rt obj metric))) ∧
      (Json.obj (dictWrites [] (emfPayloadFields rt obj ++ emfWritten rt obj metric)) :
        rt.Value).depth ≤ rt.loadsDepth := by
  rcases Runtime.readsBack_of_loads floats (loads_of_emf kind).1 with ⟨reads, nests⟩
  have positive : 1 ≤ (Json.obj obj : rt.Value).depth := by
    simp only [Json.depth]
    omega
  constructor
  · have members := Runtime.hereditary_readsBack.member obj reads
    apply Runtime.readsBack_dictWrites
    intro write writeMem
    exact (holds_emfWrites Runtime.hereditary_readsBack keyClosed_true members metricMem
      write writeMem).2
  · have hereditary : Json.Hereditary
        (fun value : rt.Value => value.depth + 1 ≤ (Json.obj obj : rt.Value).depth)
        (fun _ => True) := Json.hereditary_depth positive
    have members := Json.depth_member obj
    apply Nat.le_trans _ nests
    apply Json.depth_dictWrites_le positive
    intro write writeMem
    exact (holds_emfWrites hereditary keyClosed_true members metricMem write writeMem).2

end Reading

end CwlSplit
