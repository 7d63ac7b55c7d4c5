import TelemetryPlatform.CwlSplit.Payload

/-!
# Which fields survive the reshaping

A row keeps the fields of its record when each of them has an entry of its own in
the payload, under its documented key and with its own value. The documented key
puts underscores for dots and a prefix before the keys of the resource, so that
two different fields can have the same one; the field that is written last then
replaces the other. `retained_iff` says when this does not happen.
-/

namespace CwlSplit

open Python

variable {rt : Runtime} {config : Config}

section Keys

/-- The row is a row whose payload has an entry of its own for each of the fields. -/
def Keeps (rt : Runtime) (row : Bytes) (fields : List (Str × rt.Value)) : Prop :=
  ∃ timestamp tool eventType payload,
    Carries rt row timestamp tool eventType payload ∧ fields.Subperm payload

theorem keeps_iff_of_carries {row : Bytes} {timestamp tool eventType : Str}
    {payload fields : List (Str × rt.Value)}
    (carried : Carries rt row timestamp tool eventType payload) :
    Keeps rt row fields ↔ fields.Subperm payload := by
  constructor
  · rintro ⟨_, _, _, other, otherCarried, within⟩
    rw [(carried.unique otherCarried).2.2.2]
    exact within
  · intro within
    exact ⟨timestamp, tool, eventType, payload, carried, within⟩

/-- An attribute block as the exporters write it: an object, or a list with distinct string keys. -/
def OtlpBlock (rt : Runtime) : rt.Value → Prop
  | .obj _ => True
  | .arr items => DistinctFields rt (.arr items)
  | _ => False

/--
No two attributes and no two resource fields are the same up to dots, and no
attribute is named like a resource field, the body or a part of the scope.
-/
structure KeysApart (rt : Runtime) (obj : List (Str × rt.Value)) : Prop where
  attributes : ((fieldsOf rt (attributesOf rt obj)).map fun field => norm field.1).Nodup
  resource : ((fieldsOf rt (resourceOf rt obj)).map fun field => norm field.1).Nodup
  apart : ∀ attr ∈ fieldsOf rt (attributesOf rt obj), ∀ field ∈ fieldsOf rt (resourceOf rt obj),
    norm attr.1 ≠ str "resource_" ++ norm field.1
  body : ∀ attr ∈ fieldsOf rt (attributesOf rt obj), norm attr.1 ≠ str "otel_body"
  scope : ∀ attr ∈ fieldsOf rt (attributesOf rt obj), ∀ part ∈ scopeFields rt obj,
    norm attr.1 ≠ part.1

/-- The fields of an EMF event are different up to dots, and the row writes nothing else for
them. -/
structure EmfKeysApart (rt : Runtime) (obj : List (Str × rt.Value))
    (metric : Str × List (Str × rt.Value)) : Prop where
  fields : ((emfFields rt obj).map fun field => emfKey field.1).Nodup
  written : ∀ field ∈ emfFields rt obj, ∀ write ∈ emfWritten rt obj metric,
    emfKey field.1 = write.1 → field.2 = write.2

theorem keys_fieldUnlessNone (key : String) (value : Option rt.Value) :
    (fieldUnlessNone rt key value).map Prod.fst = [] ∨
      (fieldUnlessNone rt key value).map Prod.fst = [str key] := by
  rcases value with _ | value
  · exact Or.inl rfl
  · cases value with
    | null => exact Or.inl rfl
    | bool value => exact Or.inr rfl
    | int value => exact Or.inr rfl
    | float value => exact Or.inr rfl
    | str text => exact Or.inr rfl
    | arr items => exact Or.inr rfl
    | obj entries => exact Or.inr rfl

/-- The scope is written under its own two keys. -/
theorem keys_scopeFields (obj : List (Str × rt.Value)) :
    ((scopeFields rt obj).map Prod.fst).Sublist
      [str "otel_scope_name", str "otel_scope_version"] := by
  simp only [scopeFields]
  split
  · next entries _ =>
      rw [List.map_append]
      apply @List.Sublist.append _ _ [str "otel_scope_name"]
      · rcases keys_fieldUnlessNone "otel_scope_name" (dictGet? entries (str "name")) with
          none | one
        · rw [none]
          exact List.nil_sublist _
        · rw [one]
      · rcases keys_fieldUnlessNone "otel_scope_version" (dictGet? entries (str "version")) with
          none | one
        · rw [none]
          exact List.nil_sublist _
        · rw [one]
  · exact List.nil_sublist _

theorem nodup_map_append_left {α : Type} {front : Str} {name : α → Str} {items : List α} :
    (items.map fun item => front ++ name item).Nodup ↔ (items.map name).Nodup := by
  have split : (items.map fun item => front ++ name item) = (items.map name).map (front ++ ·) := by
    rw [List.map_map]
    rfl
  rw [split, List.nodup_map_iff (List.append_right_injective front)]

/-- The documented keys of a structured record are different exactly when its own are apart. -/
theorem nodup_structuredFields_iff (obj : List (Str × rt.Value)) (body : Str) :
    ((structuredFields rt obj body).map Prod.fst).Nodup ↔ KeysApart rt obj := by
  have fixed : ((str "otel_body", Json.str body) :: scopeFields rt obj).map Prod.fst |>.Nodup := by
    have all : [str "otel_body", str "otel_scope_name", str "otel_scope_version"].Nodup := by
      decide
    exact ((keys_scopeFields obj).cons_cons _).nodup all
  have resourceApart : ∀ key : Str, ∀ part ∈ (str "otel_body", Json.str body) :: scopeFields rt obj,
      str "resource_" ++ key ≠ part.1 := by
    intro key part partMem same
    have known := ((keys_scopeFields obj).cons_cons (str "otel_body")).subset
      (List.mem_map_of_mem (f := Prod.fst) partMem)
    rw [← same] at known
    simp [str] at known
  simp only [structuredFields, payloadWrites, List.map_append, List.map_map, Function.comp_def,
    List.nodup_append, List.mem_append, List.mem_map]
  constructor
  · rintro ⟨attributes, ⟨resource, _, _⟩, apart⟩
    refine ⟨attributes, ?_, ?_, ?_, ?_⟩
    · exact nodup_map_append_left.mp resource
    · intro attr attrMem field fieldMem same
      exact apart _ ⟨attr, attrMem, rfl⟩ _ (Or.inl ⟨field, fieldMem, rfl⟩) same
    · intro attr attrMem same
      exact apart _ ⟨attr, attrMem, rfl⟩ _ (Or.inr ⟨_, List.mem_cons_self, rfl⟩) same
    · intro attr attrMem part partMem same
      exact apart _ ⟨attr, attrMem, rfl⟩ _
        (Or.inr ⟨part, List.mem_cons_of_mem _ partMem, rfl⟩) same
  · rintro ⟨attributes, resource, apart, bodyApart, scopeApart⟩
    refine ⟨attributes, ⟨?_, fixed, ?_⟩, ?_⟩
    · exact nodup_map_append_left.mpr resource
    · rintro _ ⟨field, _, rfl⟩ _ ⟨part, partMem, rfl⟩
      exact resourceApart _ part partMem
    · rintro _ ⟨attr, attrMem, rfl⟩ _ (⟨field, fieldMem, rfl⟩ | ⟨part, partMem, rfl⟩)
      · exact apart attr attrMem field fieldMem
      · rcases List.mem_cons.mp partMem with rfl | partMem
        · exact bodyApart attr attrMem
        · exact scopeApart attr attrMem part partMem

end Keys

section Rows

variable {now : List Char} {message body : Str} {obj : List (Str × rt.Value)}

/-- The blocks of a structured record that was read have different keys. -/
theorem distinctFields_of_block (floats : rt.WritesFloats)
    (loaded : rt.loads message = .ok (.obj obj)) (key : String)
    (block : OtlpBlock rt ((dictGet? obj (str key)).getD .null)) :
    DistinctFields rt ((dictGet? obj (str key)).getD .null) := by
  have reads := (Runtime.readsBack_of_loads floats loaded).1
  have members := Runtime.hereditary_readsBack.member obj reads
  have blockReads := Runtime.hereditary_readsBack.getD_null members (str key)
  cases same : (dictGet? obj (str key)).getD .null with
  | obj entries =>
      rw [same] at blockReads
      exact ⟨trivial, blockReads.1⟩
  | arr items =>
      rw [same] at block
      exact block
  | null => simp [same, OtlpBlock] at block
  | bool value => simp [same, OtlpBlock] at block
  | int value => simp [same, OtlpBlock] at block
  | float value => simp [same, OtlpBlock] at block
  | str text => simp [same, OtlpBlock] at block

/-- The row of a structured record with string keys carries its fields, written in order. -/
theorem carries_structured (floats : rt.WritesFloats)
    (kind : kindOf rt message = .structured obj body)
    (attributes : DistinctFields rt (attributesOf rt obj))
    (resource : DistinctFields rt (resourceOf rt obj)) {row : Bytes}
    (reshaped : reshapeClaude rt config now obj body = .ok row) :
    ∃ timestamp tool eventType,
      Carries rt row timestamp tool eventType (dictWrites [] (structuredFields rt obj body)) := by
  rcases reshapeClaude_eq_ok.mp reshaped with
    ⟨attrs, attrsRead, fields, fieldsRead, _, _, tool, _, eventType, _, timestamp, _, payload,
      payload_eq, written⟩
  have attrs_eq : attrs = ⟨fieldsOf rt (attributesOf rt obj), false⟩ := by
    have read := toMap_of_stringKeys attributes.stringKeys
    rw [attributes.flatFields_eq] at read
    exact Except.ok.inj (attrsRead.symm.trans read)
  have fields_eq : fields = ⟨fieldsOf rt (resourceOf rt obj), false⟩ := by
    have read := toMap_of_stringKeys resource.stringKeys
    rw [resource.flatFields_eq] at read
    exact Except.ok.inj (fieldsRead.symm.trans read)
  rw [attrs_eq, fields_eq, claudePayload_eq] at payload_eq
  cases payload_eq
  rcases readable_structured floats kind (fun _ => id) (fun _ => id) with ⟨reads, nests⟩
  exact ⟨timestamp, tool, eventType, carries_of_canonicalRow reads nests written⟩

theorem keeps_structured_iff (floats : rt.WritesFloats)
    (kind : kindOf rt message = .structured obj body)
    (attributes : OtlpBlock rt (attributesOf rt obj))
    (resource : OtlpBlock rt (resourceOf rt obj)) {rows : List Bytes}
    (reshaped : reshapeRecords rt config now message = .ok rows) :
    ∀ row ∈ rows, Keeps rt row (structuredFields rt obj body) ↔ KeysApart rt obj := by
  have loaded := (loads_of_structured kind).1
  have distinctAttributes := distinctFields_of_block floats loaded "attributes" attributes
  have distinctResource := distinctFields_of_block floats loaded "resource" resource
  simp only [reshapeRecords_eq, kind] at reshaped
  rcases bind_eq_ok.mp reshaped with ⟨original, _, rest⟩
  rcases bind_eq_ok.mp rest with ⟨row, rowReshaped, returned⟩
  cases returned
  intro other otherMem
  rw [List.mem_singleton.mp otherMem]
  rcases carries_structured floats kind distinctAttributes distinctResource rowReshaped with
    ⟨timestamp, tool, eventType, carried⟩
  rw [keeps_iff_of_carries carried, subperm_dictWrites_iff, nodup_structuredFields_iff]

/-- The rows of an EMF event, metric by metric. -/
theorem carries_emf (floats : rt.WritesFloats) (kind : kindOf rt message = .emf obj)
    {rows : List Bytes} (reshaped : reshapeRecords rt config now message = .ok rows) :
    ∃ timestamp tool service, emfServiceName rt obj = .ok service ∧
      dictGet? config.serviceToolMap service = some tool ∧
      List.Forall₂ (fun metric row => Carries rt row timestamp tool metric.1
        (dictWrites [] (emfPayloadFields rt obj ++ emfWritten rt obj metric)))
          (metricsOf rt obj) rows := by
  simp only [reshapeRecords_eq, kind] at reshaped
  rcases reshapeEmf_eq_ok.mp reshaped with
    ⟨timestamp, _, declarations, listed, metrics, collected, service, named, tool, mapped, written⟩
  rw [itemsOrEmpty_declarationsOf (loads_of_emf kind).2, Except.ok.injEq] at listed
  subst listed
  have metrics_eq : metrics = metricsOf rt obj := (metricByName_eq_ok.mp collected).2
  subst metrics_eq
  refine ⟨timestamp.map .char, tool, service, named, toolOf_eq_ok.mp mapped, ?_⟩
  have each := (List.forall₂_and_left _ _).mpr
    ⟨fun metric (metricMem : metric ∈ metricsOf rt obj) => metricMem, forall₂_of_mapM written⟩
  apply each.imp
  rintro metric row ⟨metricMem, rowWritten⟩
  rw [metricPayload_eq] at rowWritten
  rcases readable_emf floats kind metricMem with ⟨reads, nests⟩
  exact carries_of_canonicalRow reads nests rowWritten

theorem keeps_emf_iff (floats : rt.WritesFloats) (kind : kindOf rt message = .emf obj)
    {rows : List Bytes} (reshaped : reshapeRecords rt config now message = .ok rows) :
    List.Forall₂ (fun metric row =>
      Keeps rt row (emfPayloadFields rt obj) ↔ EmfKeysApart rt obj metric)
        (metricsOf rt obj) rows := by
  rcases carries_emf floats kind reshaped with ⟨timestamp, tool, _, _, _, each⟩
  apply each.imp
  intro metric row carried
  rw [keeps_iff_of_carries carried, subperm_dictWrites_append_iff (nodup_emfWritten obj metric)]
  simp only [emfPayloadFields, List.map_map, Function.comp_def, List.mem_map]
  constructor
  · rintro ⟨distinct, survive⟩
    refine ⟨distinct, ?_⟩
    intro field fieldMem write writeMem
    exact survive _ ⟨field, fieldMem, rfl⟩ write writeMem
  · rintro ⟨distinct, survive⟩
    refine ⟨distinct, ?_⟩
    rintro _ ⟨field, fieldMem, rfl⟩ write writeMem
    exact survive field fieldMem write writeMem

/--
The row of a structured record keeps every attribute, resource field, the body
and the scope exactly when their documented keys are apart; the row of a metric
keeps every other field of its event exactly when theirs are.
-/
theorem retained_iff (floats : rt.WritesFloats) {rows : List Bytes}
    (reshaped : reshapeRecords rt config now message = .ok rows) :
    (∀ obj body, kindOf rt message = .structured obj body → OtlpBlock rt (attributesOf rt obj) →
      OtlpBlock rt (resourceOf rt obj) →
        ∀ row ∈ rows, Keeps rt row (structuredFields rt obj body) ↔ KeysApart rt obj) ∧
      ∀ obj, kindOf rt message = .emf obj →
        List.Forall₂ (fun metric row =>
          Keeps rt row (emfPayloadFields rt obj) ↔ EmfKeysApart rt obj metric)
            (metricsOf rt obj) rows := by
  refine ⟨?_, ?_⟩
  · intro obj body kind attributes resource
    exact keeps_structured_iff floats kind attributes resource reshaped
  · intro obj kind
    exact keeps_emf_iff floats kind reshaped

end Rows

namespace Sample

/-- A structured record with two attributes that are the same up to dots. -/
@[irreducible]
def dottedMessage : Str :=
  str ("\x7b\"resource\":\x7b\"service.name\":\"claude-code\"\x7d,\"attributes\":\x7b\"a.b\":1," ++
    "\"a_b\":2\x7d,\"body\":\"x\"\x7d")

def dottedObject : List (Str × Runtime.whole.Value) :=
  [(str "resource", .obj [(str "service.name", .str (str "claude-code"))]),
    (str "attributes", .obj [(str "a.b", .int 1), (str "a_b", .int 2)]),
    (str "body", .str (str "x"))]

theorem kindOf_dotted :
    kindOf Runtime.whole dottedMessage = .structured dottedObject (str "x") := by
  have loaded : Runtime.whole.loads dottedMessage = .ok (.obj dottedObject) := by
    apply loads_of_loadsTo
    decide +kernel
  simp only [kindOf, loaded]
  rfl

/-- The one row of `dottedMessage`. -/
def dottedRow : Bytes :=
  ("\x7b\"timestamp\":\"2026-07-17T00:00:00Z\",\"tool\":\"claude-code\",\"event_type\":\"x\"," ++
    "\"payload\":\"\x7b\\\"a_b\\\":2,\\\"resource_service_name\\\":\\\"claude-code\\\"," ++
    "\\\"otel_body\\\":\\\"x\\\"\x7d\"\x7d").toList.map fun c => UInt8.ofNat c.toNat

theorem reshapeRecords_dotted :
    reshapeRecords Runtime.whole settings now dottedMessage = .ok [dottedRow] := by
  decide +kernel

end Sample

theorem retained_iff_dotted :
    Keeps Runtime.whole Sample.dottedRow
        (structuredFields Runtime.whole Sample.dottedObject (str "x")) ↔
      KeysApart Runtime.whole Sample.dottedObject :=
  (retained_iff Runtime.whole_writesFloats Sample.reshapeRecords_dotted).1 _ _
    Sample.kindOf_dotted trivial trivial _ List.mem_cons_self

/-- Of two attributes that are the same up to dots, the first is lost. -/
theorem dotted_attribute_lost :
    ¬∀ (rt : Runtime) (config : Config) (now : List Char) (message body : Str)
      (obj : List (Str × rt.Value)) (rows : List Bytes), rt.WritesFloats →
        kindOf rt message = .structured obj body → OtlpBlock rt (attributesOf rt obj) →
          OtlpBlock rt (resourceOf rt obj) → reshapeRecords rt config now message = .ok rows →
            ∀ row ∈ rows, Keeps rt row (structuredFields rt obj body) := by
  intro lossless
  have kept := lossless Runtime.whole Sample.settings Sample.now _ _ _ _
    Runtime.whole_writesFloats Sample.kindOf_dotted trivial trivial
    Sample.reshapeRecords_dotted _ List.mem_cons_self
  have apart := (keeps_structured_iff Runtime.whole_writesFloats Sample.kindOf_dotted trivial
    trivial Sample.reshapeRecords_dotted _ List.mem_cons_self).mp kept
  have same : ¬((fieldsOf Runtime.whole
      (attributesOf Runtime.whole Sample.dottedObject)).map fun field => norm field.1).Nodup := by
    decide +kernel
  exact same apart.attributes

end CwlSplit
