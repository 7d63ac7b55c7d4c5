import TelemetryPlatform.CwlSplit.Retention

/-!
# When a record can be reshaped

The reshaping of a record of a known service is meant to be total. It returns
rows exactly for the records described by `StructuredReshapable` and
`EmfReshapable`: what is outside them are times no calendar has, attribute lists
with keys that are no strings, lists of metrics that are no lists, and values that
nest too deeply to be written or printed.
-/

namespace CwlSplit

open Python

variable {rt : Runtime} {config : Config}

section Conditions

/-- No key of an attribute list is a list or an object. -/
def HashableKeys (rt : Runtime) : rt.Value → Prop
  | .arr items => ∀ pair ∈ items.filterMap (keyValue? rt),
      (∀ found, pair.1 ≠ .arr found) ∧ ∀ found, pair.1 ≠ .obj found
  | _ => True

/-- `str(value)` can be written. -/
def Printable (rt : Runtime) (value : rt.Value) : Prop :=
  ∃ text, rt.strOf value = .ok text ∧ Encodable text

/-- What the source takes the event type from. -/
def eventNameOf (rt : Runtime) (obj : List (Str × rt.Value)) (body : Str) : rt.Value :=
  let attrs : AttributeMap rt := ⟨flatFields rt (attributesOf rt obj), false⟩
  orElse rt (orElse rt (attrs.getD "event.name" .null) (.str body)) (.str (str "unknown"))

/-- The timestamp attribute of a structured record. -/
def stampOf (rt : Runtime) (obj : List (Str × rt.Value)) : rt.Value :=
  (⟨flatFields rt (attributesOf rt obj), false⟩ : AttributeMap rt).getD "event.timestamp" .null

/-- The first and the last time of the years 1 to 9999, as numbers of a unit. The clock of the
interpreter is a double, so that the bounds in nanoseconds are no round numbers. -/
structure TimeRange where
  first : Int
  last : Int

def millisRange : TimeRange := ⟨-62135596800000, 253402300799999⟩

def nanosRange : TimeRange := ⟨-62135596800000003814, 253402300799999984741⟩

/-- The value is no infinite float, and no number outside the calendar. -/
structure TimeReadable (rt : Runtime) (range : TimeRange) (value : rt.Value) : Prop where
  finite : ∀ x, value = .float x → rt.floatTrunc x ≠ .infinite
  inRange : ∀ time, intOf rt value = .ok time → range.first ≤ time ∧ time ≤ range.last

/-- The time fields of a structured record can be read, up to the first that holds a number. -/
def TimesReadable (rt : Runtime) (obj : List (Str × rt.Value)) : List String → Prop
  | [] => True
  | key :: rest =>
      let value := (dictGet? obj (str key)).getD .null
      TimeReadable rt nanosRange value ∧
        ((∀ time, intOf rt value ≠ .ok time) → TimesReadable rt obj rest)

/-- What is last written under each key can be written as JSON. -/
def Shallow (rt : Runtime) (writes : List (Str × rt.Value)) : Prop :=
  1 ≤ rt.dumpsDepth ∧ ∀ key value, dictGet? writes.reverse key = some value →
    value.depth + 1 ≤ rt.dumpsDepth

/-- What is last written under each key has no lone surrogate. -/
def EncodableLast (rt : Runtime) (writes : List (Str × rt.Value)) : Prop :=
  ∀ key value, dictGet? writes.reverse key = some value → Encodable key ∧ value.Encodable

/-- The fields a structured record's row is written from. -/
def structuredWrites (rt : Runtime) (obj : List (Str × rt.Value)) (body : Str) :
    List (Str × rt.Value) :=
  payloadWrites rt obj (flatFields rt (attributesOf rt obj))
    (flatFields rt (resourceOf rt obj)) body

/-- A structured record of a known service can be reshaped. -/
structure StructuredWritable (rt : Runtime) (obj : List (Str × rt.Value)) (body tool : Str) :
    Prop where
  attributes : StringKeys rt (attributesOf rt obj)
  resource : StringKeys rt (resourceOf rt obj)
  tool : Encodable tool
  eventName : Printable rt (eventNameOf rt obj body)
  stamp : rt.truth (stampOf rt obj) = true → Printable rt (stampOf rt obj)
  times : rt.truth (stampOf rt obj) = false → TimesReadable rt obj timestampKeys
  shallow : Shallow rt (structuredWrites rt obj body)

/-- The service of a structured record can be looked up, and if it is known the row is written. -/
structure StructuredReshapable (rt : Runtime) (serviceToolMap : List (Str × Str))
    (obj : List (Str × rt.Value)) (body : Str) : Prop where
  attributes : HashableKeys rt (attributesOf rt obj)
  resource : HashableKeys rt (resourceOf rt obj)
  service : ∃ service, claudeServiceName rt obj = .ok service
  known : ∀ service tool, claudeServiceName rt obj = .ok service →
    dictGet? serviceToolMap service = some tool → StructuredWritable rt obj body tool

/-- The row of a metric of an EMF event can be written. -/
structure RowWritable (rt : Runtime) (obj : List (Str × rt.Value)) (tool : Str)
    (metric : Str × List (Str × rt.Value)) : Prop where
  tool : Encodable tool
  name : Encodable metric.1
  shallow : Shallow rt (emfPayloadFields rt obj ++ emfWritten rt obj metric)
  fields : EncodableLast rt (emfPayloadFields rt obj ++ emfWritten rt obj metric)

/-- The rows of an EMF event's metrics can be written. -/
structure EmfWritable (rt : Runtime) (obj : List (Str × rt.Value)) (tool : Str) : Prop where
  tool : Encodable tool
  shallow : ∀ metric ∈ metricsOf rt obj,
    Shallow rt (emfPayloadFields rt obj ++ emfWritten rt obj metric)

/-- The service of an EMF event can be looked up, and if it is known the rows are written. -/
structure EmfReshapable (rt : Runtime) (serviceToolMap : List (Str × Str))
    (obj : List (Str × rt.Value)) : Prop where
  time : TimeReadable rt millisRange ((dictGet? (awsBlock rt obj) (str "Timestamp")).getD .null)
  metrics : MetricsReadable rt obj
  service : ∃ service, emfServiceName rt obj = .ok service
  known : ∀ service tool, emfServiceName rt obj = .ok service →
    dictGet? serviceToolMap service = some tool → metricsOf rt obj = [] ∨ EmfWritable rt obj tool

end Conditions

section Blocks

/-- Filling a dictionary from a list with hashable keys remembers whether one was no string. -/
theorem foldlM_insert_isOk {items : List rt.Value} (hashable : HashableKeys rt (.arr items))
    (flat : AttributeMap rt) :
    ∃ entries other, items.foldlM (fun flat item =>
        match keyValue? rt item with
        | some (key, value) => flat.insert key value
        | none => .ok flat) flat = .ok ⟨entries, other⟩ ∧
      (other = true ↔ flat.otherKeys = true ∨ ¬StringKeys rt (.arr items)) := by
  induction items generalizing flat with
  | nil => exact ⟨flat.entries, flat.otherKeys, rfl, by simp [StringKeys]⟩
  | cons item items ih =>
      rw [List.foldlM_cons]
      cases paired : keyValue? rt item with
      | none =>
          have restHashable : HashableKeys rt (.arr items) := by
            simpa [HashableKeys, List.filterMap_cons, paired] using hashable
          have keys : StringKeys rt (.arr (item :: items)) ↔ StringKeys rt (.arr items) := by
            simp [StringKeys, paired]
          rw [ok_bind, keys]
          exact ih restHashable flat
      | some pair =>
          rcases pair with ⟨key, value⟩
          simp only [HashableKeys, List.filterMap_cons, paired, List.mem_cons,
            forall_eq_or_imp] at hashable
          have keys : StringKeys rt (.arr (item :: items)) ↔
              (∃ text, key = .str text) ∧ StringKeys rt (.arr items) := by
            simp [StringKeys, paired]
          have others (next : AttributeMap rt) := ih hashable.2 next
          simp only [keys]
          cases key with
          | str text =>
              rcases others ⟨dictSet flat.entries text value, flat.otherKeys⟩ with
                ⟨entries, other, looped, other_iff⟩
              exact ⟨entries, other, looped, by simp [other_iff]⟩
          | arr found => exact absurd rfl (hashable.1.1 found)
          | obj found => exact absurd rfl (hashable.1.2 found)
          | null =>
              rcases others ⟨flat.entries, true⟩ with ⟨entries, other, looped, other_iff⟩
              exact ⟨entries, other, looped, by simp [other_iff]⟩
          | bool found =>
              rcases others ⟨flat.entries, true⟩ with ⟨entries, other, looped, other_iff⟩
              exact ⟨entries, other, looped, by simp [other_iff]⟩
          | int found =>
              rcases others ⟨flat.entries, true⟩ with ⟨entries, other, looped, other_iff⟩
              exact ⟨entries, other, looped, by simp [other_iff]⟩
          | float found =>
              rcases others ⟨flat.entries, true⟩ with ⟨entries, other, looped, other_iff⟩
              exact ⟨entries, other, looped, by simp [other_iff]⟩

/-- A key that cannot be hashed makes filling the dictionary raise. -/
theorem foldlM_insert_raises {items : List rt.Value} (notHashable : ¬HashableKeys rt (.arr items))
    (flat : AttributeMap rt) :
    items.foldlM (fun flat item =>
        match keyValue? rt item with
        | some (key, value) => flat.insert key value
        | none => .ok flat) flat = .error .typeError := by
  induction items generalizing flat with
  | nil => simp [HashableKeys] at notHashable
  | cons item items ih =>
      rw [List.foldlM_cons]
      cases paired : keyValue? rt item with
      | none =>
          have rest : ¬HashableKeys rt (.arr items) := by
            simpa [HashableKeys, List.filterMap_cons, paired] using notHashable
          exact ih rest flat
      | some pair =>
          rcases pair with ⟨key, value⟩
          simp only [HashableKeys, List.filterMap_cons, paired, List.mem_cons,
            forall_eq_or_imp] at notHashable
          have others (plain : (∀ found, key ≠ .arr found) ∧ ∀ found, key ≠ .obj found)
              (next : AttributeMap rt) := ih (fun rest => notHashable ⟨plain, rest⟩) next
          cases key with
          | arr found => rfl
          | obj found => rfl
          | str text => exact others (by simp) _
          | null => exact others (by simp) _
          | bool found => exact others (by simp) _
          | int found => exact others (by simp) _
          | float found => exact others (by simp) _

/-- An attribute block is read unless a key cannot be hashed. -/
theorem toMap_cases (value : rt.Value) :
    (∃ flat, toMap rt value = .ok flat ∧ HashableKeys rt value ∧
        (flat.otherKeys = true ↔ ¬StringKeys rt value)) ∨
      toMap rt value = .error .typeError ∧ ¬HashableKeys rt value := by
  cases value with
  | arr items =>
      by_cases hashable : HashableKeys rt (.arr items)
      · rcases foldlM_insert_isOk hashable ⟨[], false⟩ with ⟨entries, other, looped, other_iff⟩
        exact Or.inl ⟨⟨entries, other⟩, looped, hashable, by simpa using other_iff⟩
      · exact Or.inr ⟨foldlM_insert_raises hashable ⟨[], false⟩, hashable⟩
  | obj entries => exact Or.inl ⟨⟨entries, false⟩, rfl, trivial, by simp [StringKeys]⟩
  | null => exact Or.inl ⟨⟨[], false⟩, rfl, trivial, by simp [StringKeys]⟩
  | bool value => exact Or.inl ⟨⟨[], false⟩, rfl, trivial, by simp [StringKeys]⟩
  | int value => exact Or.inl ⟨⟨[], false⟩, rfl, trivial, by simp [StringKeys]⟩
  | float value => exact Or.inl ⟨⟨[], false⟩, rfl, trivial, by simp [StringKeys]⟩
  | str text => exact Or.inl ⟨⟨[], false⟩, rfl, trivial, by simp [StringKeys]⟩

theorem stringKeys_of_toMap {value : rt.Value} {flat : AttributeMap rt}
    (read : toMap rt value = .ok flat) (noOther : flat.otherKeys = false) :
    StringKeys rt value := by
  rcases toMap_cases value with ⟨found, foundRead, _, other_iff⟩ | ⟨raised, _⟩
  · rw [read, Except.ok.injEq] at foundRead
    subst foundRead
    by_contra notStrings
    rw [other_iff.mpr notStrings] at noOther
    cases noOther
  · rw [read] at raised
    cases raised

theorem otherKeys_of_addAttributes {rename : Str → Str} {flat : AttributeMap rt}
    {payload written : List (Str × rt.Value)}
    (added : addAttributes rt rename flat payload = .ok written) : flat.otherKeys = false := by
  simp only [addAttributes] at added
  split at added
  · cases added
  · next noOther => simpa using noOther

theorem otherKeys_of_claudePayload {obj : List (Str × rt.Value)} {attrs resource : AttributeMap rt}
    {body : Str} {payload : rt.Value}
    (written : claudePayload rt obj attrs resource body = .ok payload) :
    attrs.otherKeys = false ∧ resource.otherKeys = false := by
  rcases bind_eq_ok.mp written with ⟨first, attrsAdded, rest⟩
  rcases bind_eq_ok.mp rest with ⟨second, resourceAdded, _⟩
  exact ⟨otherKeys_of_addAttributes attrsAdded, otherKeys_of_addAttributes resourceAdded⟩

theorem mem_fieldsOf_of_mem_flatFields {value : rt.Value} {field : Str × rt.Value}
    (fieldMem : field ∈ flatFields rt value) : field ∈ fieldsOf rt value := by
  cases value with
  | arr items => exact mem_writes_of_mem_dictWrites fieldMem
  | obj entries => exact fieldMem
  | null => exact fieldMem
  | bool value => exact fieldMem
  | int value => exact fieldMem
  | float value => exact fieldMem
  | str text => exact fieldMem

end Blocks

section Times

variable (now : List Char)

/-- What `int` raises on a value is caught unless the value is an infinite float. -/
theorem isValueError_of_intOf {value : rt.Value} {error : Exc}
    (isRead : isNumberOrText rt value = true) (raised : intOf rt value = .error error) :
    error.isValueError = true ↔ ∀ x, value = .float x → rt.floatTrunc x ≠ .infinite := by
  cases value with
  | str text =>
      simp only [intOf, Runtime.intOfStr] at raised
      split at raised
      · cases raised
      · cases raised
        simp [Exc.isValueError]
  | float x =>
      simp only [intOf, Runtime.floatToInt] at raised
      split at raised
      · cases raised
      · next infinite =>
          cases raised
          simp [Exc.isValueError, infinite]
      · next nan =>
          cases raised
          simp [Exc.isValueError, nan]
  | int value => cases raised
  | bool value => cases raised
  | null => cases isRead
  | arr items => cases isRead
  | obj entries => cases isRead

/-- A value that is neither a number nor a string is not read. -/
theorem timeReadable_of_other (range : TimeRange) {value : rt.Value}
    (other : isNumberOrText rt value = false) :
    TimeReadable rt range value ∧ ∀ time, intOf rt value ≠ .ok time := by
  cases value with
  | null => exact ⟨⟨nofun, nofun⟩, nofun⟩
  | arr items => exact ⟨⟨nofun, nofun⟩, nofun⟩
  | obj entries => exact ⟨⟨nofun, nofun⟩, nofun⟩
  | str text => cases other
  | int value => cases other
  | float value => cases other
  | bool value => cases other

theorem timeReadable_of_ok {range : TimeRange} {value : rt.Value} {time : Int}
    (read : intOf rt value = .ok time) :
    TimeReadable rt range value ↔ range.first ≤ time ∧ time ≤ range.last := by
  constructor
  · rintro ⟨_, inRange⟩
    exact inRange time read
  · intro inRange
    refine ⟨?_, ?_⟩
    · rintro x rfl infinite
      simp [intOf, Runtime.floatToInt, infinite] at read
    · intro found foundRead
      rw [read, Except.ok.injEq] at foundRead
      rwa [← foundRead]

theorem timeReadable_of_error {range : TimeRange} {value : rt.Value} {error : Exc}
    (isRead : isNumberOrText rt value = true) (raised : intOf rt value = .error error) :
    TimeReadable rt range value ↔ error.isValueError = true := by
  rw [isValueError_of_intOf isRead raised]
  constructor
  · exact TimeReadable.finite
  · intro finite
    refine ⟨finite, ?_⟩
    intro time read
    rw [raised] at read
    cases read

theorem emfTimestampIso_isOk_iff {aws : List (Str × rt.Value)} :
    (∃ text, emfTimestampIso rt now aws = .ok text) ↔
      TimeReadable rt millisRange ((dictGet? aws (str "Timestamp")).getD .null) := by
  simp only [emfTimestampIso]
  generalize (dictGet? aws (str "Timestamp")).getD .null = value
  cases isRead : isNumberOrText rt value with
  | false => simp [timeReadable_of_other millisRange isRead]
  | true =>
      simp only [Bool.not_true, Bool.false_eq_true, if_false]
      cases read : intOf rt value with
      | ok time =>
          rw [timeReadable_of_ok read]
          exact isoUtc_millis time
      | error error =>
          rw [timeReadable_of_error isRead read]
          by_cases isValueError : error.isValueError = true
          · simp [isValueError]
          · simp [isValueError]

theorem recordTimestampIso_go_isOk_iff {obj : List (Str × rt.Value)} (keys : List String) :
    (∃ found, recordTimestampIso.go rt obj keys = .ok found) ↔ TimesReadable rt obj keys := by
  induction keys with
  | nil => simp [recordTimestampIso.go, TimesReadable]
  | cons key rest ih =>
      simp only [recordTimestampIso.go, TimesReadable]
      generalize (dictGet? obj (str key)).getD .null = value
      cases isRead : isNumberOrText rt value with
      | false =>
          have other := timeReadable_of_other nanosRange isRead
          simp [other.1, other.2, ih]
      | true =>
          simp only [Bool.not_true, Bool.false_eq_true, if_false]
          cases read : intOf rt value with
          | ok time =>
              have written : (∃ found, (isoUtc time 1000000000).map some = .ok found) ↔
                  ∃ text, isoUtc time 1000000000 = .ok text := by
                cases isoUtc time 1000000000 <;> simp [Except.map]
              rw [written, isoUtc_nanos, timeReadable_of_ok read]
              simp [nanosRange]
          | error error =>
              rw [timeReadable_of_error isRead read]
              by_cases isValueError : error.isValueError = true
              · simp [isValueError, ih]
              · simp [isValueError]

/-- A structured record has a timestamp that can be written. -/
theorem claudeTimestamp_isOk_iff {obj : List (Str × rt.Value)} :
    (∃ text, claudeTimestamp rt obj ⟨flatFields rt (attributesOf rt obj), false⟩ now = .ok text ∧
        Encodable text) ↔
      (rt.truth (stampOf rt obj) = true → Printable rt (stampOf rt obj)) ∧
        (rt.truth (stampOf rt obj) = false → TimesReadable rt obj timestampKeys) := by
  have stamp : (⟨flatFields rt (attributesOf rt obj), false⟩ : AttributeMap rt).getD
      "event.timestamp" .null = stampOf rt obj := rfl
  simp only [claudeTimestamp, stamp]
  by_cases isTrue : rt.truth (stampOf rt obj) = true
  · simp [isTrue, Printable]
  · have isFalse : rt.truth (stampOf rt obj) = false := by simpa using isTrue
    simp only [isFalse, Bool.false_eq_true, if_false, false_implies, true_implies, true_and]
    rw [← recordTimestampIso_go_isOk_iff, recordTimestampIso]
    cases recordTimestampIso.go rt obj timestampKeys with
    | error error => simp [error_bind]
    | ok found =>
        simp only [ok_bind, Except.ok.injEq, exists_eq', iff_true]
        rcases found with _ | _ | ⟨c, rest⟩
        · exact ⟨_, rfl, encodable_map_char _⟩
        · exact ⟨_, rfl, encodable_map_char _⟩
        · exact ⟨_, rfl, encodable_map_char (c :: rest)⟩

end Times

section Writing

/-- A payload can be written exactly when its surviving fields do not nest too deeply. -/
theorem depth_dictWrites_le_iff {writes : List (Str × rt.Value)} :
    (Json.obj (dictWrites [] writes) : rt.Value).depth ≤ rt.dumpsDepth ∧ 1 ≤ rt.dumpsDepth ↔
      Shallow rt writes := by
  have members : (Json.obj (dictWrites [] writes) : rt.Value).depth ≤ rt.dumpsDepth ∧
      1 ≤ rt.dumpsDepth ↔ 1 ≤ rt.dumpsDepth ∧
        ∀ entry ∈ dictWrites [] writes, entry.2.depth + 1 ≤ rt.dumpsDepth := by
    constructor
    · rintro ⟨shallow, positive⟩
      refine ⟨positive, ?_⟩
      intro entry entryMem
      have deeper := (Json.depth_member (dictWrites [] writes) entry entryMem).2
      omega
    · rintro ⟨positive, each⟩
      refine ⟨?_, positive⟩
      exact Json.depth_obj_le positive each
  rw [members, Shallow]
  apply and_congr_right
  intro _
  constructor
  · intro each key value last
    exact each (key, value) (mem_dictWrites_nil.mpr last)
  · intro each entry entryMem
    exact each entry.1 entry.2 (mem_dictWrites_nil.mp entryMem)

/-- A payload can be encoded exactly when its surviving fields can. -/
theorem encodable_dictWrites_iff {writes : List (Str × rt.Value)} :
    (Json.obj (dictWrites [] writes) : rt.Value).Encodable ↔ EncodableLast rt writes := by
  simp only [Json.Encodable, Json.encodableMembers_iff, EncodableLast]
  constructor
  · intro each key value last
    exact each (key, value) (mem_dictWrites_nil.mpr last)
  · intro each entry entryMem
    exact each entry.1 entry.2 (mem_dictWrites_nil.mp entryMem)

variable {obj : List (Str × rt.Value)} {body tool : Str} {now : List Char}

theorem encodable_structuredWrites (structured : structuredBody? rt obj = some body)
    (encodable : (Json.obj obj : rt.Value).Encodable) :
    (Json.obj (dictWrites [] (structuredWrites rt obj body)) : rt.Value).Encodable := by
  have members := Json.hereditary_encodable.member obj encodable
  have blocks (key : String) := holds_fieldsOf Json.hereditary_encodable
    (Json.hereditary_encodable.getD_null members (str key))
  apply Json.encodable_dictWrites
  apply holds_payloadWrites Json.hereditary_encodable keyClosed_encodable members structured
  · intro field fieldMem
    exact blocks "attributes" field (mem_fieldsOf_of_mem_flatFields fieldMem)
  · intro field fieldMem
    exact blocks "resource" field (mem_fieldsOf_of_mem_flatFields fieldMem)

theorem encodable_emfWrites (encodable : (Json.obj obj : rt.Value).Encodable)
    {metric : Str × List (Str × rt.Value)} (metricMem : metric ∈ metricsOf rt obj) :
    (Json.obj (dictWrites [] (emfPayloadFields rt obj ++ emfWritten rt obj metric)) :
      rt.Value).Encodable := by
  have members := Json.hereditary_encodable.member obj encodable
  apply Json.encodable_dictWrites
  exact holds_emfWrites Json.hereditary_encodable keyClosed_encodable members metricMem

/-- The row of a structured record with string keys is written from its fields. -/
theorem reshapeClaude_of_stringKeys (attributes : StringKeys rt (attributesOf rt obj))
    (resource : StringKeys rt (resourceOf rt obj)) {row : Bytes} :
    reshapeClaude rt config now obj body = .ok row ↔
      ∃ service, claudeServiceName rt obj = .ok service ∧
      ∃ tool, toolOf config service = .ok tool ∧
      ∃ eventType, rt.strOf (eventNameOf rt obj body) = .ok eventType ∧
      ∃ timestamp,
        claudeTimestamp rt obj ⟨flatFields rt (attributesOf rt obj), false⟩ now = .ok timestamp ∧
        canonicalRow rt timestamp tool eventType
          (.obj (dictWrites [] (structuredWrites rt obj body))) = .ok row := by
  have attrsRead := toMap_of_stringKeys attributes
  have fieldsRead := toMap_of_stringKeys resource
  have attrsBlock : (dictGet? obj (str "attributes")).getD .null = attributesOf rt obj := rfl
  have fieldsBlock : (dictGet? obj (str "resource")).getD .null = resourceOf rt obj := rfl
  simp only [reshapeClaude_eq_ok, attrsBlock, fieldsBlock, attrsRead, fieldsRead,
    Except.ok.injEq, exists_eq_left', claudePayload_eq, claudeServiceName, ok_bind, eventNameOf,
    structuredWrites]

variable (now) in
/-- The row of a structured record of a known service is written exactly when it can be. -/
theorem reshapeClaude_isOk_iff_writable {service : Str}
    (named : claudeServiceName rt obj = .ok service)
    (mapped : dictGet? config.serviceToolMap service = some tool) :
    (∃ row, reshapeClaude rt config now obj body = .ok row) ↔
      StructuredWritable rt obj body tool ∧ EncodableLast rt (structuredWrites rt obj body) := by
  constructor
  · rintro ⟨row, reshaped⟩
    rcases reshapeClaude_eq_ok.mp reshaped with
      ⟨attrs, attrsRead, fields, fieldsRead, _, _, _, _, _, _, _, _, payload, payload_eq, _⟩
    rcases otherKeys_of_claudePayload payload_eq with ⟨attrsKeys, fieldsKeys⟩
    have attributes := stringKeys_of_toMap attrsRead attrsKeys
    have resource := stringKeys_of_toMap fieldsRead fieldsKeys
    rcases (reshapeClaude_of_stringKeys attributes resource).mp reshaped with
      ⟨other, otherNamed, found, foundMapped, eventType, eventName, timestamp, stamped, written⟩
    rw [named] at otherNamed
    cases otherNamed
    rw [toolOf_eq_ok, mapped] at foundMapped
    cases foundMapped
    rcases exists_canonicalRow.mp ⟨row, written⟩ with
      ⟨shallow, timestampEncodable, toolEncodable, eventEncodable, fields⟩
    rcases (claudeTimestamp_isOk_iff now).mp ⟨timestamp, stamped,
      timestampEncodable⟩ with ⟨stamp, times⟩
    exact ⟨⟨attributes, resource, toolEncodable, ⟨eventType, eventName, eventEncodable⟩, stamp,
      times, depth_dictWrites_le_iff.mp shallow⟩, encodable_dictWrites_iff.mp fields⟩
  · rintro ⟨⟨attributes, resource, toolEncodable, ⟨eventType, eventName, eventEncodable⟩, stamp,
      times, shallow⟩, fields⟩
    rcases (claudeTimestamp_isOk_iff now).mpr ⟨stamp, times⟩ with
      ⟨timestamp, stamped, timestampEncodable⟩
    rcases exists_canonicalRow.mpr ⟨depth_dictWrites_le_iff.mpr shallow, timestampEncodable,
      toolEncodable, eventEncodable, encodable_dictWrites_iff.mpr fields⟩ with ⟨row, written⟩
    refine ⟨row, ?_⟩
    exact (reshapeClaude_of_stringKeys attributes resource).mpr
      ⟨service, named, tool, toolOf_eq_ok.mpr mapped, eventType, eventName, timestamp, stamped,
        written⟩

variable (now) in
/-- The row of a record without lone surrogates has none either. -/
theorem reshapeClaude_isOk_iff (structured : structuredBody? rt obj = some body)
    (encodable : (Json.obj obj : rt.Value).Encodable) {service : Str}
    (named : claudeServiceName rt obj = .ok service)
    (mapped : dictGet? config.serviceToolMap service = some tool) :
    (∃ row, reshapeClaude rt config now obj body = .ok row) ↔
      StructuredWritable rt obj body tool := by
  rw [reshapeClaude_isOk_iff_writable now named mapped, and_iff_left]
  exact encodable_dictWrites_iff.mp (encodable_structuredWrites structured encodable)

variable (now) in
/-- The rows of an EMF event of a known service are written exactly when each of them can be. -/
theorem reshapeEmf_isOk_iff_writable (emf : isEmf rt obj = true) {service : Str}
    (named : emfServiceName rt obj = .ok service)
    (mapped : dictGet? config.serviceToolMap service = some tool) :
    (∃ rows, reshapeEmf rt config now obj = .ok rows) ↔
      TimeReadable rt millisRange ((dictGet? (awsBlock rt obj) (str "Timestamp")).getD .null) ∧
        MetricsReadable rt obj ∧ ∀ metric ∈ metricsOf rt obj, RowWritable rt obj tool metric := by
  have rowWritten (timestamp : List Char) (metric : Str × List (Str × rt.Value)) :
      (∃ row, canonicalRow rt (timestamp.map .char) tool metric.1 (metricPayload rt obj
          (basePayload rt obj ((metricsOf rt obj).map Prod.fst)) metric) = .ok row) ↔
        RowWritable rt obj tool metric := by
    rw [exists_canonicalRow, metricPayload_eq, depth_dictWrites_le_iff, encodable_dictWrites_iff]
    constructor
    · rintro ⟨shallow, _, toolEncodable, name, fields⟩
      exact ⟨toolEncodable, name, shallow, fields⟩
    · rintro ⟨toolEncodable, name, shallow, fields⟩
      exact ⟨shallow, encodable_map_char _, toolEncodable, name, fields⟩
  constructor
  · rintro ⟨rows, reshaped⟩
    rcases reshapeEmf_eq_ok.mp reshaped with
      ⟨timestamp, timed, declarations, listed, metrics, collected, other, otherNamed, found,
        foundMapped, written⟩
    rw [itemsOrEmpty_declarationsOf emf, Except.ok.injEq] at listed
    subst listed
    rcases metricByName_eq_ok.mp collected with ⟨readable, metrics_eq⟩
    change metrics = metricsOf rt obj at metrics_eq
    subst metrics_eq
    rw [named] at otherNamed
    cases otherNamed
    rw [toolOf_eq_ok, mapped] at foundMapped
    cases foundMapped
    refine ⟨(emfTimestampIso_isOk_iff now).mp ⟨timestamp, timed⟩, readable, ?_⟩
    intro metric metricMem
    exact (rowWritten timestamp metric).mp (exists_mapM_eq_ok.mp ⟨rows, written⟩ metric metricMem)
  · rintro ⟨timed, readable, writable⟩
    rcases (emfTimestampIso_isOk_iff now).mpr timed with ⟨timestamp, timestamped⟩
    have written : ∃ rows, ((metricsOf rt obj).mapM fun metric =>
        canonicalRow rt (timestamp.map .char) tool metric.1 (metricPayload rt obj
          (basePayload rt obj ((metricsOf rt obj).map Prod.fst)) metric)) = .ok rows := by
      rw [exists_mapM_eq_ok]
      intro metric metricMem
      exact (rowWritten timestamp metric).mpr (writable metric metricMem)
    rcases written with ⟨rows, written⟩
    refine ⟨rows, ?_⟩
    exact reshapeEmf_eq_ok.mpr ⟨timestamp, timestamped, _, itemsOrEmpty_declarationsOf emf, _,
      metricByName_eq_ok.mpr ⟨readable, rfl⟩, service, named, tool, toolOf_eq_ok.mpr mapped,
      written⟩

variable (now) in
/-- The rows of an event without lone surrogates are written exactly when they are shallow. -/
theorem reshapeEmf_isOk_iff (emf : isEmf rt obj = true)
    (encodable : (Json.obj obj : rt.Value).Encodable) {service : Str}
    (named : emfServiceName rt obj = .ok service)
    (mapped : dictGet? config.serviceToolMap service = some tool) :
    (∃ rows, reshapeEmf rt config now obj = .ok rows) ↔
      TimeReadable rt millisRange ((dictGet? (awsBlock rt obj) (str "Timestamp")).getD .null) ∧
        MetricsReadable rt obj ∧ (metricsOf rt obj = [] ∨ EmfWritable rt obj tool) := by
  rw [reshapeEmf_isOk_iff_writable now emf named mapped]
  apply and_congr_right
  intro _
  apply and_congr_right
  intro _
  constructor
  · intro writable
    by_cases empty : metricsOf rt obj = []
    · exact Or.inl empty
    · right
      rcases List.exists_mem_of_ne_nil _ empty with ⟨metric, metricMem⟩
      exact ⟨(writable metric metricMem).tool, fun metric metricMem =>
        (writable metric metricMem).shallow⟩
  · rintro writable metric metricMem
    have members := Json.hereditary_encodable.member obj encodable
    rcases writable with empty | ⟨toolEncodable, shallow⟩
    · simp [empty] at metricMem
    · exact ⟨toolEncodable, (holds_metricsOf Json.hereditary_encodable members metric metricMem).1,
        shallow metric metricMem,
        encodable_dictWrites_iff.mp (encodable_emfWrites encodable metricMem)⟩

end Writing

section Total

variable {obj : List (Str × rt.Value)} {body message : Str} {now : List Char}

theorem intOf_ne_keyError (value : rt.Value) (key : Str) :
    intOf rt value ≠ .error (.keyError key) := by
  cases value with
  | str text =>
      simp only [intOf, Runtime.intOfStr]
      split <;> rintro ⟨⟩
  | float value =>
      simp only [intOf, Runtime.floatToInt]
      split <;> rintro ⟨⟩
  | null => exact nofun
  | bool value => exact nofun
  | int value => exact nofun
  | arr items => exact nofun
  | obj entries => exact nofun

/-- Reading the time of an EMF event raises no `KeyError`. -/
theorem emfTimestampIso_ne_keyError {aws : List (Str × rt.Value)} {key : Str} :
    emfTimestampIso rt now aws ≠ .error (.keyError key) := by
  simp only [emfTimestampIso]
  split
  · rintro ⟨⟩
  · split
    · exact isoUtc_ne_keyError
    · next error raised =>
        split
        · rintro ⟨⟩
        · rintro ⟨⟩
          exact intOf_ne_keyError _ key raised

/--
A record of a known service is reshaped into rows, and reshaping a record raises
nothing but the `KeyError` of a service that is not known.
-/
structure Total (rt : Runtime) (config : Config) (now : List Char) (message : Str)
    (named : Except Exc Str) : Prop where
  returns : ∀ service tool, named = .ok service →
    dictGet? config.serviceToolMap service = some tool →
      ∃ rows, reshapeRecords rt config now message = .ok rows ∧
        ∀ row ∈ rows, ∃ timestamp eventType payload,
          Carries rt row timestamp tool eventType payload
  raises : ∀ error, reshapeRecords rt config now message = .error error →
    ∃ service, named = .ok service ∧ dictGet? config.serviceToolMap service = none ∧
      error = .keyError service

theorem toolOf_eq_error {service : Str} (unknown : dictGet? config.serviceToolMap service = none) :
    toolOf config service = .error (.keyError service) := by
  simp [toolOf, unknown]

variable (config now) in
theorem reshapeRecords_structured (kind : kindOf rt message = .structured obj body)
    (encodable : Encodable message) :
    reshapeRecords rt config now message =
      (reshapeClaude rt config now obj body).map fun row => [row] := by
  rcases encode_eq_ok encodable with ⟨original, encoded⟩
  simp only [reshapeRecords_eq, kind, encoded, ok_bind]
  cases reshapeClaude rt config now obj body <;> rfl

/-- A record of a service that is not known raises its `KeyError`. -/
theorem reshapeClaude_unknown (attributes : HashableKeys rt (attributesOf rt obj))
    (resource : HashableKeys rt (resourceOf rt obj)) {service : Str}
    (named : claudeServiceName rt obj = .ok service)
    (unknown : dictGet? config.serviceToolMap service = none) :
    reshapeClaude rt config now obj body = .error (.keyError service) := by
  rcases toMap_cases (attributesOf rt obj) with ⟨attrs, attrsRead, _⟩ | ⟨_, notHashable⟩
  · rcases toMap_cases (resourceOf rt obj) with ⟨fields, fieldsRead, _⟩ | ⟨_, notHashable⟩
    · rw [attributesOf] at attrsRead
      rw [resourceOf] at fieldsRead
      simp only [claudeServiceName, fieldsRead, ok_bind] at named
      simp only [reshapeClaude, attrsRead, fieldsRead, named, ok_bind, toolOf_eq_error unknown,
        error_bind]
    · exact absurd resource notHashable
  · exact absurd attributes notHashable

/-- A key that cannot be hashed makes the reshaping raise a `TypeError`. -/
theorem reshapeClaude_not_hashable
    (notHashable : ¬(HashableKeys rt (attributesOf rt obj) ∧ HashableKeys rt (resourceOf rt obj))) :
    reshapeClaude rt config now obj body = .error .typeError := by
  rcases toMap_cases (attributesOf rt obj) with ⟨attrs, attrsRead, hashable, _⟩ | ⟨raised, _⟩
  · rcases toMap_cases (resourceOf rt obj) with ⟨_, _, resource, _⟩ | ⟨raised, _⟩
    · exact absurd ⟨hashable, resource⟩ notHashable
    · rw [attributesOf] at attrsRead
      rw [resourceOf] at raised
      simp only [reshapeClaude, attrsRead, raised, ok_bind, error_bind]
  · rw [attributesOf] at raised
    simp only [reshapeClaude, raised, error_bind]

theorem reshapeClaude_of_name_error {error : Exc}
    (attributes : HashableKeys rt (attributesOf rt obj))
    (resource : HashableKeys rt (resourceOf rt obj))
    (named : claudeServiceName rt obj = .error error) :
    reshapeClaude rt config now obj body = .error error := by
  rcases toMap_cases (attributesOf rt obj) with ⟨attrs, attrsRead, _⟩ | ⟨_, notHashable⟩
  · rcases toMap_cases (resourceOf rt obj) with ⟨fields, fieldsRead, _⟩ | ⟨_, notHashable⟩
    · rw [attributesOf] at attrsRead
      rw [resourceOf] at fieldsRead
      simp only [claudeServiceName, fieldsRead, ok_bind] at named
      simp only [reshapeClaude, attrsRead, fieldsRead, named, ok_bind, error_bind]
    · exact absurd resource notHashable
  · exact absurd attributes notHashable

/-- The row of a reshaped structured record carries a payload under the record's tool. -/
theorem carries_reshaped (floats : rt.WritesFloats)
    (kind : kindOf rt message = .structured obj body) {service tool : Str}
    (named : claudeServiceName rt obj = .ok service)
    (mapped : dictGet? config.serviceToolMap service = some tool)
    (writable : StructuredWritable rt obj body tool) {row : Bytes}
    (reshaped : reshapeClaude rt config now obj body = .ok row) :
    ∃ timestamp eventType payload, Carries rt row timestamp tool eventType payload := by
  rcases (reshapeClaude_of_stringKeys writable.attributes writable.resource).mp reshaped with
    ⟨other, otherNamed, found, foundMapped, eventType, _, timestamp, _, written⟩
  rw [named] at otherNamed
  cases otherNamed
  rw [toolOf_eq_ok, mapped] at foundMapped
  cases foundMapped
  rcases readable_structured floats kind (fun _ => mem_fieldsOf_of_mem_flatFields)
    (fun _ => mem_fieldsOf_of_mem_flatFields) with ⟨reads, nests⟩
  exact ⟨timestamp, eventType, _, carries_of_canonicalRow reads nests written⟩

theorem structured_total_iff (floats : rt.WritesFloats) (encodableMessage : Encodable message)
    (kind : kindOf rt message = .structured obj body)
    (encodable : (Json.obj obj : rt.Value).Encodable) :
    Total rt config now message (claudeServiceName rt obj) ↔
      StructuredReshapable rt config.serviceToolMap obj body := by
  have structured := (loads_of_structured kind).2.2.2
  have reshaped_eq := reshapeRecords_structured config now kind encodableMessage
  constructor
  · rintro ⟨returns, raises⟩
    have hashable : HashableKeys rt (attributesOf rt obj) ∧
        HashableKeys rt (resourceOf rt obj) := by
      by_contra notHashable
      rw [reshaped_eq, reshapeClaude_not_hashable notHashable] at raises
      rcases raises _ rfl with ⟨_, _, _, impossible⟩
      cases impossible
    have service : ∃ service, claudeServiceName rt obj = .ok service := by
      cases named : claudeServiceName rt obj with
      | ok service => exact ⟨service, rfl⟩
      | error error =>
          rw [reshaped_eq, reshapeClaude_of_name_error hashable.1 hashable.2 named, named] at raises
          rcases raises _ rfl with ⟨_, impossible, _⟩
          cases impossible
    refine ⟨hashable.1, hashable.2, service, ?_⟩
    intro service tool named mapped
    rcases returns service tool named mapped with ⟨rows, reshaped, _⟩
    rw [reshaped_eq] at reshaped
    apply (reshapeClaude_isOk_iff now structured encodable named mapped).mp
    cases written : reshapeClaude rt config now obj body with
    | ok row => exact ⟨row, rfl⟩
    | error error =>
        rw [written] at reshaped
        cases reshaped
  · rintro ⟨attributes, resource, ⟨service, named⟩, known⟩
    constructor
    · intro other tool otherNamed mapped
      have writable := known other tool otherNamed mapped
      rcases (reshapeClaude_isOk_iff now structured encodable otherNamed mapped).mpr
        writable with ⟨row, reshaped⟩
      refine ⟨[row], by rw [reshaped_eq, reshaped]; rfl, ?_⟩
      intro written writtenMem
      rw [List.mem_singleton.mp writtenMem]
      exact carries_reshaped floats kind otherNamed mapped writable reshaped
    · intro error raised
      rw [reshaped_eq] at raised
      cases mapped : dictGet? config.serviceToolMap service with
      | some tool =>
          rcases (reshapeClaude_isOk_iff now structured encodable named mapped).mpr
            (known service tool named mapped) with ⟨row, reshaped⟩
          rw [reshaped] at raised
          cases raised
      | none =>
          rw [reshapeClaude_unknown attributes resource named mapped] at raised
          cases raised
          exact ⟨service, named, mapped, rfl⟩

/-- An EMF event of a service that is not known raises its `KeyError`. -/
theorem reshapeEmf_unknown (emf : isEmf rt obj = true) {timestamp : List Char}
    (timed : emfTimestampIso rt now (awsBlock rt obj) = .ok timestamp)
    (readable : MetricsReadable rt obj) {service : Str}
    (named : emfServiceName rt obj = .ok service)
    (unknown : dictGet? config.serviceToolMap service = none) :
    reshapeEmf rt config now obj = .error (.keyError service) := by
  have metrics := metricByName_eq_ok.mpr ⟨readable, rfl⟩
  rw [emfServiceName] at named
  simp only [reshapeEmf, timed, itemsOrEmpty_declarationsOf emf, metrics, named, ok_bind,
    toolOf_eq_error unknown, error_bind]

variable (config now) in
/-- What the reshaping of an EMF event raises before it has the service. -/
theorem reshapeEmf_raises_early (emf : isEmf rt obj = true)
    (early : ¬(TimeReadable rt millisRange
      ((dictGet? (awsBlock rt obj) (str "Timestamp")).getD .null) ∧ MetricsReadable rt obj)) :
    ∃ error, reshapeEmf rt config now obj = .error error ∧ ∀ key, error ≠ .keyError key := by
  cases timed : emfTimestampIso rt now (awsBlock rt obj) with
  | error error =>
      refine ⟨error, ?_, ?_⟩
      · simp only [reshapeEmf, timed, error_bind]
      · rintro key rfl
        exact emfTimestampIso_ne_keyError timed
  | ok timestamp =>
      have readable : ¬MetricsReadable rt obj := by
        intro readable
        exact early ⟨(emfTimestampIso_isOk_iff now).mp ⟨timestamp, timed⟩, readable⟩
      have metrics := metricByName_of_not_readable readable
      refine ⟨.typeError, ?_, ?_⟩
      · simp only [reshapeEmf, timed, itemsOrEmpty_declarationsOf emf, metrics, ok_bind,
          error_bind]
      · rintro key ⟨⟩

theorem reshapeEmf_of_name_error (emf : isEmf rt obj = true) {timestamp : List Char}
    (timed : emfTimestampIso rt now (awsBlock rt obj) = .ok timestamp)
    (readable : MetricsReadable rt obj) {error : Exc}
    (named : emfServiceName rt obj = .error error) :
    reshapeEmf rt config now obj = .error error := by
  have metrics := metricByName_eq_ok.mpr ⟨readable, rfl⟩
  rw [emfServiceName] at named
  simp only [reshapeEmf, timed, itemsOrEmpty_declarationsOf emf, metrics, named, ok_bind,
    error_bind]

/-- The rows of an EMF event carry a payload under the event's tool. -/
theorem carries_reshaped_emf (floats : rt.WritesFloats) (kind : kindOf rt message = .emf obj)
    {service tool : Str} (named : emfServiceName rt obj = .ok service)
    (mapped : dictGet? config.serviceToolMap service = some tool) {rows : List Bytes}
    (reshaped : reshapeRecords rt config now message = .ok rows) :
    ∃ timestamp, List.Forall₂ (fun metric row => Carries rt row timestamp tool metric.1
      (dictWrites [] (emfPayloadFields rt obj ++ emfWritten rt obj metric)))
        (metricsOf rt obj) rows := by
  rcases carries_emf floats kind reshaped with ⟨timestamp, other, service', named', mapped', each⟩
  rw [named] at named'
  cases named'
  rw [mapped] at mapped'
  cases mapped'
  exact ⟨timestamp, each⟩

theorem emf_total_iff (floats : rt.WritesFloats)
    (kind : kindOf rt message = .emf obj) (encodable : (Json.obj obj : rt.Value).Encodable) :
    Total rt config now message (emfServiceName rt obj) ↔
      EmfReshapable rt config.serviceToolMap obj := by
  have emf := (loads_of_emf kind).2
  have reshaped_eq : reshapeRecords rt config now message = reshapeEmf rt config now obj := by
    simp only [reshapeRecords_eq, kind]
  constructor
  · rintro ⟨returns, raises⟩
    have early : TimeReadable rt millisRange
        ((dictGet? (awsBlock rt obj) (str "Timestamp")).getD .null) ∧ MetricsReadable rt obj := by
      by_contra early
      rcases reshapeEmf_raises_early config now emf early with
        ⟨error, raised, notKeyError⟩
      rw [reshaped_eq] at raises
      rcases raises error raised with ⟨service, _, _, same⟩
      exact notKeyError service same
    rcases early with ⟨time, readable⟩
    rcases (emfTimestampIso_isOk_iff now).mpr time with ⟨timestamp, timed⟩
    have service : ∃ service, emfServiceName rt obj = .ok service := by
      cases named : emfServiceName rt obj with
      | ok service => exact ⟨service, rfl⟩
      | error error =>
          rw [reshaped_eq, reshapeEmf_of_name_error emf timed readable named, named] at raises
          rcases raises _ rfl with ⟨_, impossible, _⟩
          cases impossible
    refine ⟨time, readable, service, ?_⟩
    intro service tool named mapped
    rcases returns service tool named mapped with ⟨rows, reshaped, _⟩
    rw [reshaped_eq] at reshaped
    exact ((reshapeEmf_isOk_iff now emf encodable named mapped).mp ⟨rows, reshaped⟩).2.2
  · rintro ⟨time, readable, ⟨service, named⟩, known⟩
    constructor
    · intro other tool otherNamed mapped
      rcases (reshapeEmf_isOk_iff now emf encodable otherNamed mapped).mpr
        ⟨time, readable, known other tool otherNamed mapped⟩ with ⟨rows, reshaped⟩
      rw [← reshaped_eq] at reshaped
      refine ⟨rows, reshaped, ?_⟩
      intro row rowMem
      rcases carries_reshaped_emf floats kind otherNamed mapped reshaped with ⟨timestamp, each⟩
      rcases exists_of_mem_forall₂ each rowMem with ⟨metric, _, carried⟩
      exact ⟨timestamp, metric.1, _, carried⟩
    · intro error raised
      rw [reshaped_eq] at raised
      cases mapped : dictGet? config.serviceToolMap service with
      | some tool =>
          rcases (reshapeEmf_isOk_iff now emf encodable named mapped).mpr
            ⟨time, readable, known service tool named mapped⟩ with ⟨rows, reshaped⟩
          rw [reshaped] at raised
          cases raised
      | none =>
          rcases (emfTimestampIso_isOk_iff now).mpr time with ⟨timestamp, timed⟩
          rw [reshapeEmf_unknown emf timed readable named mapped] at raised
          cases raised
          exact ⟨service, named, mapped, rfl⟩

/--
The reshaping of a record without lone surrogates is total exactly when its times
can be read, its keys are strings, its metrics are lists and nothing in it nests
too deeply.
-/
theorem total_iff (floats : rt.WritesFloats)
    (encodableMessage : Encodable message) :
    (∀ obj body, kindOf rt message = .structured obj body →
      (Json.obj obj : rt.Value).Encodable →
        (Total rt config now message (claudeServiceName rt obj) ↔
          StructuredReshapable rt config.serviceToolMap obj body)) ∧
      ∀ obj, kindOf rt message = .emf obj → (Json.obj obj : rt.Value).Encodable →
        (Total rt config now message (emfServiceName rt obj) ↔
          EmfReshapable rt config.serviceToolMap obj) := by
  refine ⟨?_, ?_⟩
  · intro obj body kind encodable
    exact structured_total_iff floats encodableMessage kind encodable
  · intro obj kind encodable
    exact emf_total_iff floats kind encodable

end Total

namespace Sample

theorem encodable_dottedObject : (Json.obj dottedObject : Runtime.whole.Value).Encodable := by
  simp [dottedObject, Json.Encodable, Json.Encodable.encodableMembers]

/-- An EMF event of a known service whose time no calendar has. -/
@[irreducible]
def hugeMessage : Str :=
  str ("\x7b\"_aws\":\x7b\"Timestamp\":1000000000000000000000000000000," ++
    "\"CloudWatchMetrics\":[\x7b\"Metrics\":[\x7b\"Name\":\"m\"\x7d]\x7d]\x7d," ++
    "\"service.name\":\"claude-code\",\"m\":1\x7d")

def hugeObject : List (Str × Runtime.whole.Value) :=
  [(str "_aws", .obj [(str "Timestamp", .int 1000000000000000000000000000000),
      (str "CloudWatchMetrics", .arr [.obj [(str "Metrics",
        .arr [.obj [(str "Name", .str (str "m"))]])]])]),
    (str "service.name", .str (str "claude-code")), (str "m", .int 1)]

theorem kindOf_huge : kindOf Runtime.whole hugeMessage = .emf hugeObject := by
  have loaded : Runtime.whole.loads hugeMessage = .ok (.obj hugeObject) := by
    apply loads_of_loadsTo
    decide +kernel
  have emf : isEmf Runtime.whole hugeObject = true := by decide +kernel
  simp only [kindOf, loaded, emf, if_true]

theorem encodable_hugeObject : (Json.obj hugeObject : Runtime.whole.Value).Encodable := by
  simp [hugeObject, Json.Encodable, Json.Encodable.encodableMembers,
    Json.Encodable.encodableItems]

theorem reshapeRecords_huge :
    reshapeRecords Runtime.whole settings now hugeMessage = .error .overflowError := by
  decide +kernel

end Sample

theorem total_iff_dotted :
    Total Runtime.whole Sample.settings Sample.now Sample.dottedMessage
        (claudeServiceName Runtime.whole Sample.dottedObject) ↔
      StructuredReshapable Runtime.whole Sample.settings.serviceToolMap Sample.dottedObject
        (str "x") :=
  (total_iff Runtime.whole_writesFloats (by decide +kernel)).1 _ _
    Sample.kindOf_dotted Sample.encodable_dottedObject

/-- A mapped EMF event whose time no calendar has raises instead of giving rows. -/
theorem huge_timestamp_raises :
    ¬∀ (rt : Runtime) (config : Config) (now : List Char) (message : Str)
      (obj : List (Str × rt.Value)), rt.WritesFloats → Encodable message →
        kindOf rt message = .emf obj → (Json.obj obj : rt.Value).Encodable →
          Total rt config now message (emfServiceName rt obj) := by
  intro total
  have whole := total Runtime.whole Sample.settings Sample.now _ _ Runtime.whole_writesFloats
    (by decide +kernel) Sample.kindOf_huge Sample.encodable_hugeObject
  rcases whole.raises _ Sample.reshapeRecords_huge with ⟨_, _, _, impossible⟩
  cases impossible

end CwlSplit
