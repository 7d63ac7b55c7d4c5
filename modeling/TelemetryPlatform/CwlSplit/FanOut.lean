import TelemetryPlatform.CwlSplit.Totality

/-!
# One row for each metric of an event

An EMF event fans out into one row for each name it declares a metric for, and the
value of a metric is meant to stand in its own row only. Two names are exceptions.
The field `OTelLib` is the scope that every row repeats, so that a metric of that
name writes its value into the rows of the others, and the value of a metric named
`_aws` is the list of declarations itself.
-/

namespace CwlSplit

open Python

variable {rt : Runtime} {config : Config}

section Specification

/-- The names an event declares metrics for, in the order of their first declarations. -/
def metricNames (rt : Runtime) (obj : List (Str × rt.Value)) : List Str :=
  firstKeys (declaredMetrics rt (declarationsOf rt obj))

/-- An event without one of its top-level fields. -/
def withoutField (rt : Runtime) (obj : List (Str × rt.Value)) (name : Str) :
    List (Str × rt.Value) :=
  obj.filter fun field => field.1 ≠ name

/-- The payload of a metric's row, in an event that declares metrics of these names. -/
def rowPayload (rt : Runtime) (obj : List (Str × rt.Value)) (names : List Str)
    (metric : Str × List (Str × rt.Value)) : rt.Value :=
  metricPayload rt obj (basePayload rt obj names) metric

/-- The payload has the metric's value and unit, and nothing of the fields of other metrics. -/
structure PayloadOf (rt : Runtime) (obj : List (Str × rt.Value))
    (metric : Str × List (Str × rt.Value)) (payload : List (Str × rt.Value)) : Prop where
  value : dictGet? payload (str "value") = some ((dictGet? obj metric.1).getD .null)
  unit : dictGet? payload (str "unit") = some ((dictGet? metric.2 (str "Unit")).getD .null)
  own : ∀ other ∈ metricNames rt obj, other ≠ metric.1 →
    ∃ rest, rowPayload rt (withoutField rt obj other) (metricNames rt obj) metric = .obj rest ∧
      ∀ key, dictGet? payload key = dictGet? rest key

/-- The row of the metric of this name, which the event declares first in this way. -/
def RowOf (rt : Runtime) (obj : List (Str × rt.Value)) (timestamp tool name : Str)
    (row : Bytes) : Prop :=
  ∃ declaration payload,
    dictGet? (declaredMetrics rt (declarationsOf rt obj)) name = some declaration ∧
      Carries rt row timestamp tool name payload ∧ PayloadOf rt obj (name, declaration) payload

/-- One row for each name, in the order of the first declarations. -/
def FansOut (rt : Runtime) (obj : List (Str × rt.Value)) (tool : Str) (rows : List Bytes) : Prop :=
  ∃ timestamp, List.Forall₂ (RowOf rt obj timestamp tool) (metricNames rt obj) rows

/-- The events differ only in declarations of metrics that were declared before. -/
structure SameButRedeclared (rt : Runtime) (obj obj' : List (Str × rt.Value)) : Prop where
  emf : isEmf rt obj' = true
  fields : withoutField rt obj' (str "_aws") = withoutField rt obj (str "_aws")
  timestamp : dictGet? (awsBlock rt obj') (str "Timestamp") =
    dictGet? (awsBlock rt obj) (str "Timestamp")
  readable : MetricsReadable rt obj' ↔ MetricsReadable rt obj
  redeclared : Redeclared (declaredMetrics rt (declarationsOf rt obj))
    (declaredMetrics rt (declarationsOf rt obj'))

/-- The time and the metrics of an event can be read, and the row of each metric written. -/
structure FanOutWritable (rt : Runtime) (obj : List (Str × rt.Value)) (tool : Str) : Prop where
  time : TimeReadable rt millisRange ((dictGet? (awsBlock rt obj) (str "Timestamp")).getD .null)
  metrics : MetricsReadable rt obj
  rows : ∀ metric ∈ metricsOf rt obj, RowWritable rt obj tool metric

/--
Beside other metrics, one named `OTelLib` has no value, or one that the fields of
the event say about the scope anyway.
-/
def ScopeIsNoMetric (rt : Runtime) (obj : List (Str × rt.Value)) : Prop :=
  str "OTelLib" ∈ metricNames rt obj → (∃ other ∈ metricNames rt obj, other ≠ str "OTelLib") →
    ∀ value, dictGet? obj (str "OTelLib") = some value → value = .null ∨
      dictGet? (emfPayloadFields rt obj).reverse (str "otel_scope_name") = some value

/--
The event gives one row for each metric, and declaring its metrics again gives the
same rows.
-/
structure FansOutOnce (rt : Runtime) (config : Config) (now : List Char)
    (obj : List (Str × rt.Value)) (tool : Str) : Prop where
  rows : ∃ rows, reshapeEmf rt config now obj = .ok rows ∧ FansOut rt obj tool rows
  redeclared : ∀ message obj', kindOf rt message = .emf obj' → SameButRedeclared rt obj obj' →
    reshapeEmf rt config now obj' = reshapeEmf rt config now obj

end Specification

section Payload

variable {obj : List (Str × rt.Value)} {metric : Str × List (Str × rt.Value)}

theorem metricNames_eq : metricNames rt obj = (metricsOf rt obj).map Prod.fst :=
  (keys_dictDefaults _).symm

theorem dictGet?_withoutField (name key : Str) :
    dictGet? (withoutField rt obj name) key = if key = name then none else dictGet? obj key := by
  induction obj with
  | nil => simp [withoutField, dictGet?]
  | cons field rest ih =>
      simp only [withoutField] at ih
      by_cases erased : field.1 = name
      · have different : ¬key = name → ¬name = key := fun notName same => notName same.symm
        simp only [withoutField, erased, ne_eq, not_true_eq_false, decide_false,
          Bool.false_eq_true, not_false_eq_true, List.filter_cons_of_neg, ih, dictGet?]
        by_cases same : key = name
        · simp [same]
        · simp [same, different same]
      · simp only [withoutField, ne_eq, erased, not_false_eq_true, decide_true,
          List.filter_cons_of_pos, dictGet?, ih]
        by_cases here : field.1 = key
        · have different : ¬key = name := fun same => erased (here.trans same)
          simp [here, different]
        · simp [here]

/-- The fields a metric's row is written from, in an event that declares these names. -/
def rowWrites (rt : Runtime) (obj : List (Str × rt.Value)) (names : List Str)
    (metric : Str × List (Str × rt.Value)) : List (Str × rt.Value) :=
  ((obj.filter fun field => !(([str "_aws", str "OTelLib", str "Version"].contains field.1) ||
    names.contains field.1)).map fun field => (emfKey field.1, field.2)) ++
      emfWritten rt obj metric

theorem rowPayload_eq (names : List Str) :
    rowPayload rt obj names metric = .obj (dictWrites [] (rowWrites rt obj names metric)) := by
  simp only [rowPayload, metricPayload, basePayload, setUnlessNone_eq, rowWrites, emfWritten,
    dictWrites_append]
  congr 1
  simp only [dictWrites, List.foldl_cons, List.foldl_nil, List.foldl_map]
  rfl

/-- The field of another metric is none of the fields a row copies. -/
theorem rowWrites_withoutField {other : Str} (declared : other ∈ metricNames rt obj) :
    rowWrites rt (withoutField rt obj other) (metricNames rt obj) metric =
      emfPayloadFields rt obj ++ emfWritten rt (withoutField rt obj other) metric := by
  simp only [rowWrites, withoutField, List.filter_filter, emfPayloadFields, emfFields,
    ← metricNames_eq]
  congr 2
  apply List.filter_congr
  intro field _
  by_cases same : field.1 = other
  · simp [same, declared]
  · simp [same]

/-- The field of a metric that is not named like the scope stands in no other row. -/
theorem emfWritten_withoutField {other : Str} (notOwn : other ≠ metric.1)
    (notScope : other ≠ str "OTelLib") :
    emfWritten rt (withoutField rt obj other) metric = emfWritten rt obj metric := by
  have kept (key : Str) (different : other ≠ key) :
      dictGet? (withoutField rt obj other) key = dictGet? obj key := by
    rw [dictGet?_withoutField, if_neg different.symm]
  simp only [emfWritten, kept _ notOwn, kept _ notScope]

/-- What the row of a metric writes behind the scope. -/
def fixedFields (rt : Runtime) (obj : List (Str × rt.Value))
    (metric : Str × List (Str × rt.Value)) : List (Str × rt.Value) :=
  [(str "value", (dictGet? obj metric.1).getD .null),
    (str "unit", (dictGet? metric.2 (str "Unit")).getD .null),
    (str "metric_type", .str (str "SUM")), (str "otel_signal", .str (str "metric"))]

theorem emfWritten_withoutScope (notOwn : str "OTelLib" ≠ metric.1) :
    emfWritten rt (withoutField rt obj (str "OTelLib")) metric = fixedFields rt obj metric := by
  simp [emfWritten, fixedFields, dictGet?_withoutField, notOwn.symm, fieldUnlessNone]

theorem mem_fieldUnlessNone {key : String} {value : Option rt.Value} {field : Str × rt.Value} :
    field ∈ fieldUnlessNone rt key value ↔
      ∃ found, value = some found ∧ found ≠ .null ∧ field = (str key, found) := by
  rcases value with _ | value
  · simp [fieldUnlessNone]
  · cases value <;> simp [fieldUnlessNone]

variable (obj metric) in
theorem value_of_emfWrites :
    dictGet? (dictWrites [] (emfPayloadFields rt obj ++ emfWritten rt obj metric)) (str "value") =
      some ((dictGet? obj metric.1).getD .null) := by
  have valueMem : (str "value", (dictGet? obj metric.1).getD .null) ∈
      emfWritten rt obj metric := by
    simp [emfWritten]
  exact dictGet?_dictWrites_append (nodup_emfWritten obj metric) valueMem

/-- The payload of a metric's row is its own exactly when the scope it repeats is no metric. -/
theorem payloadOf_iff :
    PayloadOf rt obj metric (dictWrites [] (emfPayloadFields rt obj ++ emfWritten rt obj metric)) ↔
      (str "OTelLib" ∈ metricNames rt obj → str "OTelLib" ≠ metric.1 →
        ∀ value, dictGet? obj (str "OTelLib") = some value → value = .null ∨
          dictGet? (emfPayloadFields rt obj).reverse (str "otel_scope_name") = some value) := by
  have middle : (∀ key, dictGet? (dictWrites [] (emfPayloadFields rt obj ++
        emfWritten rt obj metric)) key =
          dictGet? (dictWrites [] (emfPayloadFields rt obj ++ fixedFields rt obj metric)) key) ↔
      ∀ value, dictGet? obj (str "OTelLib") = some value → value = .null ∨
        dictGet? (emfPayloadFields rt obj).reverse (str "otel_scope_name") = some value := by
    refine (dictWrites_middle_iff (nodup_emfWritten obj metric)).trans ?_
    simp only [mem_fieldUnlessNone]
    constructor
    · intro stands value found
      by_cases isNull : value = .null
      · exact Or.inl isNull
      · exact Or.inr (stands _ ⟨value, found, isNull, rfl⟩)
    · rintro stands _ ⟨value, found, notNull, rfl⟩
      exact (stands value found).resolve_left notNull
  constructor
  · intro payload scopeDeclared notOwn
    rcases payload.own _ scopeDeclared notOwn with ⟨rest, rest_eq, unchanged⟩
    rw [rowPayload_eq, rowWrites_withoutField scopeDeclared, emfWritten_withoutScope notOwn,
      Json.obj.injEq] at rest_eq
    subst rest_eq
    exact middle.mp unchanged
  · intro scope
    refine ⟨value_of_emfWrites obj metric, ?_, ?_⟩
    · have unitMem : (str "unit", (dictGet? metric.2 (str "Unit")).getD .null) ∈
          emfWritten rt obj metric := by
        simp [emfWritten]
      exact dictGet?_dictWrites_append (nodup_emfWritten obj metric) unitMem
    · intro other otherDeclared notOwn
      refine ⟨_, rowPayload_eq _, ?_⟩
      rw [rowWrites_withoutField otherDeclared]
      by_cases isScope : other = str "OTelLib"
      · subst isScope
        rw [emfWritten_withoutScope notOwn]
        exact middle.mpr (scope otherDeclared notOwn)
      · intro key
        rw [emfWritten_withoutField notOwn isScope]

end Payload

section Rows

variable {obj : List (Str × rt.Value)} {tool : Str} {rows : List Bytes}

/-- The payload of every row is its metric's own. -/
theorem fansOut_iff_of_carries {timestamp : Str}
    (carried : List.Forall₂ (fun metric row => Carries rt row timestamp tool metric.1
      (dictWrites [] (emfPayloadFields rt obj ++ emfWritten rt obj metric)))
        (metricsOf rt obj) rows) :
    FansOut rt obj tool rows ↔ ∀ metric ∈ metricsOf rt obj, PayloadOf rt obj metric
      (dictWrites [] (emfPayloadFields rt obj ++ emfWritten rt obj metric)) := by
  have declared : ∀ metric ∈ metricsOf rt obj,
      dictGet? (declaredMetrics rt (declarationsOf rt obj)) metric.1 = some metric.2 := by
    intro metric metricMem
    exact mem_dictDefaults.mp metricMem
  have listed := (List.forall₂_and_left _ _).mpr ⟨declared, carried⟩
  constructor
  · rintro ⟨other, each⟩
    rw [metricNames_eq, List.forall₂_map_left_iff] at each
    have payloads : List.Forall₂ (fun metric row => PayloadOf rt obj metric
        (dictWrites [] (emfPayloadFields rt obj ++ emfWritten rt obj metric)) ∧ (row : Bytes) = row)
          (metricsOf rt obj) rows := by
      apply List.Forall₂.mp _ listed each
      rintro metric row ⟨first, metricCarried⟩ ⟨declaration, payload, found, rowCarried, own⟩
      rw [first, Option.some.injEq] at found
      subst found
      rw [(metricCarried.unique rowCarried).2.2.2]
      exact ⟨own, rfl⟩
    exact ((List.forall₂_and_left _ _).mp payloads).1
  · intro own
    refine ⟨timestamp, ?_⟩
    rw [metricNames_eq, List.forall₂_map_left_iff]
    apply ((List.forall₂_and_left _ _).mpr ⟨own, listed⟩).imp
    rintro metric row ⟨payload, first, metricCarried⟩
    exact ⟨metric.2, _, first, metricCarried, payload⟩

theorem payloads_iff :
    (∀ metric ∈ metricsOf rt obj, PayloadOf rt obj metric
        (dictWrites [] (emfPayloadFields rt obj ++ emfWritten rt obj metric))) ↔
      ScopeIsNoMetric rt obj := by
  simp only [payloadOf_iff, ScopeIsNoMetric, metricNames_eq, List.mem_map]
  constructor
  · rintro each scopeDeclared ⟨_, ⟨metric, metricMem, rfl⟩, notScope⟩
    exact each metric metricMem scopeDeclared notScope.symm
  · intro scope metric metricMem scopeDeclared notOwn
    exact scope scopeDeclared ⟨metric.1, ⟨metric, metricMem, rfl⟩, notOwn.symm⟩

end Rows

section Redeclaration

theorem blocks_of_isEmf {obj : List (Str × rt.Value)} (emf : isEmf rt obj = true) :
    dictGet? obj (str "_aws") = some (.obj (awsBlock rt obj)) ∧
      dictGet? (awsBlock rt obj) (str "CloudWatchMetrics") = some
          (.arr (declarationsOf rt obj)) := by
  rcases declarations_of_isEmf emf with ⟨declarations, listed⟩
  have listedOf : dictGet? (awsBlock rt obj) (str "CloudWatchMetrics") =
      some (.arr (declarationsOf rt obj)) := by
    simp only [declarationsOf, listed]
  refine ⟨?_, listedOf⟩
  simp only [isEmf, Bool.and_eq_true] at emf
  rcases emf with ⟨_, emf⟩
  split at emf
  · next aws found => simp only [found, awsBlock]
  · cases emf

variable {obj obj' : List (Str × rt.Value)} {message : Str} {now : List Char}

theorem SameButRedeclared.metricsOf_eq (same : SameButRedeclared rt obj obj') :
    metricsOf rt obj' = metricsOf rt obj :=
  same.redeclared.dictDefaults_eq.symm

theorem SameButRedeclared.dictGet?_eq (same : SameButRedeclared rt obj obj') {key : Str}
    (different : key ≠ str "_aws") : dictGet? obj' key = dictGet? obj key := by
  have lookup (event : List (Str × rt.Value)) :
      dictGet? (withoutField rt event (str "_aws")) key = dictGet? event key := by
    rw [dictGet?_withoutField, if_neg different]
  rw [← lookup obj, ← lookup obj', same.fields]

theorem SameButRedeclared.basePayload_eq (same : SameButRedeclared rt obj obj')
    (names : List Str) : basePayload rt obj' names = basePayload rt obj names := by
  have copied (event : List (Str × rt.Value)) :
      (event.filter fun field => !(([str "_aws", str "OTelLib", str "Version"].contains field.1) ||
        names.contains field.1)) =
      (withoutField rt event (str "_aws")).filter fun field =>
        !(([str "_aws", str "OTelLib", str "Version"].contains field.1) ||
          names.contains field.1) := by
    simp only [withoutField, List.filter_filter]
    apply List.filter_congr
    intro field _
    by_cases aws : field.1 = str "_aws"
    · simp [aws]
    · simp [aws]
  have scope : str "OTelLib" ≠ str "_aws" := by decide
  simp only [basePayload, copied obj, copied obj', same.fields, same.dictGet?_eq scope]

/-- Declaring metrics again gives the same rows when no metric is named like the block of
metrics. -/
theorem SameButRedeclared.reshapeEmf_eq (same : SameButRedeclared rt obj obj')
    (emf : isEmf rt obj = true) (noMetric : str "_aws" ∉ metricNames rt obj) :
    reshapeEmf rt config now obj' = reshapeEmf rt config now obj := by
  have timed : emfTimestampIso rt now (awsBlock rt obj') =
      emfTimestampIso rt now (awsBlock rt obj) := by
    simp only [emfTimestampIso, same.timestamp]
  have collected : metricByName rt (declarationsOf rt obj') =
      metricByName rt (declarationsOf rt obj) := by
    by_cases readable : MetricsReadable rt obj
    · rw [metricByName_eq_ok.mpr ⟨same.readable.mpr readable, rfl⟩,
        metricByName_eq_ok.mpr ⟨readable, rfl⟩, same.redeclared.dictDefaults_eq]
    · rw [metricByName_of_not_readable readable,
        metricByName_of_not_readable (mt same.readable.mp readable)]
  have service : str "service.name" ≠ str "_aws" := by decide
  simp only [reshapeEmf, timed, itemsOrEmpty_declarationsOf emf,
    itemsOrEmpty_declarationsOf same.emf, collected, ok_bind, same.basePayload_eq,
    same.dictGet?_eq service]
  cases emfTimestampIso rt now (awsBlock rt obj) with
  | error error => rfl
  | ok timestamp =>
      cases found : metricByName rt (declarationsOf rt obj) with
      | error error => rfl
      | ok metrics =>
          have metrics_eq : metrics = metricsOf rt obj := (metricByName_eq_ok.mp found).2
          have payload : ∀ metric ∈ metrics, ∀ base,
              metricPayload rt obj' base metric = metricPayload rt obj base metric := by
            intro metric metricMem base
            have notBlock : metric.1 ≠ str "_aws" := by
              intro named
              apply noMetric
              rw [metricNames_eq, ← named, ← metrics_eq]
              exact List.mem_map_of_mem metricMem
            simp only [metricPayload, same.dictGet?_eq notBlock]
          simp only [ok_bind]
          congr 1
          funext serviceName
          congr 1
          funext tool
          apply mapM_congr
          intro metric metricMem
          rw [payload metric metricMem]

/-- A metric named like the block of metrics has the block as its value. -/
theorem SameButRedeclared.reshapeEmf_ne (floats : rt.WritesFloats)
    (same : SameButRedeclared rt obj obj') {message' : Str}
    (kind : kindOf rt message = .emf obj) (kind' : kindOf rt message' = .emf obj')
    (isMetric : str "_aws" ∈ metricNames rt obj)
    (different : awsBlock rt obj' ≠ awsBlock rt obj) {rows : List Bytes}
    (reshaped : reshapeEmf rt config now obj = .ok rows) :
    reshapeEmf rt config now obj' ≠ .ok rows := by
  intro reshaped'
  have records : reshapeRecords rt config now message = .ok rows := by
    simp only [reshapeRecords_eq, kind, reshaped]
  have records' : reshapeRecords rt config now message' = .ok rows := by
    simp only [reshapeRecords_eq, kind', reshaped']
  rcases carries_emf floats kind records with ⟨_, _, _, _, _, each⟩
  rcases carries_emf floats kind' records' with ⟨_, _, _, _, _, each'⟩
  rw [same.metricsOf_eq] at each'
  rw [metricNames_eq, List.mem_map] at isMetric
  rcases isMetric with ⟨metric, metricMem, named⟩
  have values : List.Forall₂ (fun (metric : Str × List (Str × rt.Value)) (row : Bytes) =>
      (dictGet? obj' metric.1).getD .null = (dictGet? obj metric.1).getD .null ∧ row = row)
        (metricsOf rt obj) rows := by
    apply List.Forall₂.mp _ each each'
    intro metric row carried carried'
    have payload := (carried.unique carried').2.2.2
    have value := value_of_emfWrites obj metric
    rw [payload, value_of_emfWrites, Option.some.injEq] at value
    exact ⟨value, rfl⟩
  have value := ((List.forall₂_and_left _ _).mp values).1 metric metricMem
  rw [named, (blocks_of_isEmf (loads_of_emf kind).2).1, (blocks_of_isEmf same.emf).1,
    Option.getD_some, Option.getD_some, Json.obj.injEq] at value
  exact different value

/-- The event with every declaration repeated. -/
def declaredTwice (rt : Runtime) (obj : List (Str × rt.Value)) : List (Str × rt.Value) :=
  dictSet obj (str "_aws") (.obj (dictSet (awsBlock rt obj) (str "CloudWatchMetrics")
    (.arr (declarationsOf rt obj ++ declarationsOf rt obj))))

theorem awsBlock_declaredTwice :
    awsBlock rt (declaredTwice rt obj) = dictSet (awsBlock rt obj) (str "CloudWatchMetrics")
      (.arr (declarationsOf rt obj ++ declarationsOf rt obj)) := by
  simp [awsBlock, declaredTwice, dictGet?_dictSet]

theorem declarationsOf_declaredTwice :
    declarationsOf rt (declaredTwice rt obj) = declarationsOf rt obj ++ declarationsOf rt obj := by
  simp [declarationsOf, awsBlock_declaredTwice, dictGet?_dictSet]

theorem sameButRedeclared_declaredTwice (emf : isEmf rt obj = true) :
    SameButRedeclared rt obj (declaredTwice rt obj) := by
  have tool : str "_aws" ≠ str "tool" := by decide
  have timestamp : str "CloudWatchMetrics" ≠ str "Timestamp" := by decide
  refine ⟨?_, filter_dictSet _ _ _, ?_, ?_, ?_⟩
  · simp [isEmf, declaredTwice, dictGet?_dictSet, tool, tool_of_isEmf emf]
  · rw [awsBlock_declaredTwice, dictGet?_dictSet, if_neg timestamp]
  · simp only [MetricsReadable, declarationsOf_declaredTwice, List.mem_append, or_self]
  · rw [declarationsOf_declaredTwice]
    simp only [declaredMetrics, List.flatMap_append]
    apply redeclared_append
    intro metric metricMem
    exact List.mem_map_of_mem metricMem

/-- An event that repeats the declarations of one that was read can be read as well. -/
theorem kindOf_declaredTwice (floats : rt.WritesFloats) (kind : kindOf rt message = .emf obj) :
    ∃ message', kindOf rt message' = .emf (declaredTwice rt obj) := by
  rcases loads_of_emf kind with ⟨loaded, emf⟩
  rcases blocks_of_isEmf emf with ⟨block, listed⟩
  rcases Runtime.readsBack_of_loads floats loaded with ⟨reads, nests⟩
  have blockReads : rt.ReadsBack (.obj (awsBlock rt obj)) :=
    (Runtime.hereditary_readsBack.member obj reads _ (mem_of_dictGet? block)).2
  have listReads : rt.ReadsBack (.arr (declarationsOf rt obj)) :=
    (Runtime.hereditary_readsBack.member _ blockReads _ (mem_of_dictGet? listed)).2
  have twiceReads : rt.ReadsBack (.arr (declarationsOf rt obj ++ declarationsOf rt obj)) := by
    apply Runtime.itemsReadBack_iff.mpr
    intro item itemMem
    apply Runtime.itemsReadBack_iff.mp listReads
    simpa using itemMem
  have readsAgain : rt.ReadsBack (.obj (declaredTwice rt obj)) :=
    Runtime.readsBack_dictSet reads _ (Runtime.readsBack_dictSet blockReads _ twiceReads)
  have depth : (Json.obj (declaredTwice rt obj) : rt.Value).depth ≤ rt.loadsDepth := by
    apply Nat.le_trans _ nests
    apply Json.depth_dictSet_le block
    apply Json.depth_dictSet_le listed
    exact Json.depth_arr_append_le fun item itemMem => itemMem
  refine ⟨rt.render .compact (.obj (declaredTwice rt obj)), ?_⟩
  simp only [kindOf, Runtime.loads_render readsAgain depth,
    (sameButRedeclared_declaredTwice emf).emf, if_true]

end Redeclaration

section Statement

variable {obj : List (Str × rt.Value)} {message tool : Str} {now : List Char}

theorem declaredTwice_ne (emf : isEmf rt obj = true) (declared : metricNames rt obj ≠ []) :
    awsBlock rt (declaredTwice rt obj) ≠ awsBlock rt obj := by
  intro same
  have listed := (blocks_of_isEmf emf).2
  rw [← same, awsBlock_declaredTwice, dictGet?_dictSet, if_pos rfl, Option.some.injEq,
    Json.arr.injEq, List.append_right_eq_self] at listed
  apply declared
  simp [metricNames, declaredMetrics, listed, firstKeys]

/-- The rows that were written are their metrics' own exactly when the scope is no metric. -/
theorem fansOut_iff_scope (floats : rt.WritesFloats) (kind : kindOf rt message = .emf obj)
    {service : Str} (named : emfServiceName rt obj = .ok service)
    (mapped : dictGet? config.serviceToolMap service = some tool) {rows : List Bytes}
    (reshaped : reshapeEmf rt config now obj = .ok rows) :
    FansOut rt obj tool rows ↔ ScopeIsNoMetric rt obj := by
  have records : reshapeRecords rt config now message = .ok rows := by
    simp only [reshapeRecords_eq, kind, reshaped]
  rcases carries_reshaped_emf floats kind named mapped records with ⟨timestamp, carried⟩
  rw [fansOut_iff_of_carries carried, payloads_iff]

/--
An event fans out into one row of its own for each metric, however its declarations
are repeated, exactly when the rows can be written and no metric is named like the
scope or like the block of metrics.
-/
theorem fanOut_iff (floats : rt.WritesFloats) (kind : kindOf rt message = .emf obj)
    {service : Str} (named : emfServiceName rt obj = .ok service)
    (mapped : dictGet? config.serviceToolMap service = some tool) :
    FansOutOnce rt config now obj tool ↔
      FanOutWritable rt obj tool ∧ ScopeIsNoMetric rt obj ∧ str "_aws" ∉ metricNames rt obj := by
  have emf := (loads_of_emf kind).2
  have reshaped_iff := reshapeEmf_isOk_iff_writable now emf named mapped
  constructor
  · rintro ⟨⟨rows, reshaped, fansOut⟩, redeclared⟩
    rcases reshaped_iff.mp ⟨rows, reshaped⟩ with ⟨time, metrics, writable⟩
    refine ⟨⟨time, metrics, writable⟩, (fansOut_iff_scope floats kind named mapped reshaped).mp
      fansOut, ?_⟩
    intro isMetric
    rcases kindOf_declaredTwice floats kind with ⟨message', kind'⟩
    have same := sameButRedeclared_declaredTwice emf
    have unchanged := redeclared message' _ kind' same
    have different := declaredTwice_ne emf (List.ne_nil_of_mem isMetric)
    apply same.reshapeEmf_ne floats kind kind' isMetric different reshaped
    rw [unchanged, reshaped]
  · rintro ⟨⟨time, metrics, writable⟩, scope, noMetric⟩
    rcases reshaped_iff.mpr ⟨time, metrics, writable⟩ with ⟨rows, reshaped⟩
    refine ⟨⟨rows, reshaped, (fansOut_iff_scope floats kind named mapped reshaped).mpr scope⟩, ?_⟩
    intro _ _ _ same
    exact same.reshapeEmf_eq emf noMetric

end Statement

namespace Sample

/-- An event with a metric that is named like the scope, beside another one. -/
@[irreducible]
def scopeMetricMessage : Str :=
  str ("\x7b\"_aws\":\x7b\"CloudWatchMetrics\":[\x7b\"Metrics\":[\x7b\"Name\":\"OTelLib\"\x7d," ++
    "\x7b\"Name\":\"m\"\x7d]\x7d]\x7d,\"service.name\":\"claude-code\",\"OTelLib\":2,\"m\":1\x7d")

def scopeMetricObject : List (Str × Runtime.whole.Value) :=
  [(str "_aws", .obj [(str "CloudWatchMetrics", .arr [.obj [(str "Metrics",
      .arr [.obj [(str "Name", .str (str "OTelLib"))], .obj [(str "Name", .str (str "m"))]])]])]),
    (str "service.name", .str (str "claude-code")), (str "OTelLib", .int 2), (str "m", .int 1)]

theorem kindOf_scopeMetric : kindOf Runtime.whole scopeMetricMessage = .emf scopeMetricObject := by
  have loaded : Runtime.whole.loads scopeMetricMessage = .ok (.obj scopeMetricObject) := by
    apply loads_of_loadsTo
    decide +kernel
  have emf : isEmf Runtime.whole scopeMetricObject = true := by decide +kernel
  simp only [kindOf, loaded, emf, if_true]

theorem emfServiceName_scopeMetric :
    emfServiceName Runtime.whole scopeMetricObject = .ok (str "claude-code") := by
  decide +kernel

theorem mapped_claudeCode :
    dictGet? settings.serviceToolMap (str "claude-code") = some (str "claude-code") := by
  decide

theorem scopeMetric_isMetric : ¬ScopeIsNoMetric Runtime.whole scopeMetricObject := by
  intro scope
  have names : metricNames Runtime.whole scopeMetricObject = [str "OTelLib", str "m"] := by
    decide +kernel
  have written := scope (by simp [names]) ⟨str "m", by simp [names], by decide⟩ (.int 2) rfl
  rcases written with impossible | found
  · cases impossible
  · have noField : dictGet? (emfPayloadFields Runtime.whole scopeMetricObject).reverse
        (str "otel_scope_name") = none := by
      decide +kernel
    rw [noField] at found
    cases found

end Sample

theorem fanOut_iff_scopeMetric :
    FansOutOnce Runtime.whole Sample.settings Sample.now Sample.scopeMetricObject
        (str "claude-code") ↔
      FanOutWritable Runtime.whole Sample.scopeMetricObject (str "claude-code") ∧
        ScopeIsNoMetric Runtime.whole Sample.scopeMetricObject ∧
          str "_aws" ∉ metricNames Runtime.whole Sample.scopeMetricObject :=
  fanOut_iff Runtime.whole_writesFloats Sample.kindOf_scopeMetric
    Sample.emfServiceName_scopeMetric Sample.mapped_claudeCode

/-- The value of a metric named like the scope stands in the row of another metric. -/
theorem scope_metric_spills :
    ¬∀ (rt : Runtime) (config : Config) (now : List Char) (message service tool : Str)
      (obj : List (Str × rt.Value)), rt.WritesFloats → kindOf rt message = .emf obj →
        emfServiceName rt obj = .ok service →
          dictGet? config.serviceToolMap service = some tool →
            FansOutOnce rt config now obj tool := by
  intro fansOut
  have once := fansOut Runtime.whole Sample.settings Sample.now _ _ _ _ Runtime.whole_writesFloats
    Sample.kindOf_scopeMetric Sample.emfServiceName_scopeMetric Sample.mapped_claudeCode
  rcases once.rows with ⟨rows, reshaped, each⟩
  apply Sample.scopeMetric_isMetric
  exact (fansOut_iff_scope Runtime.whole_writesFloats Sample.kindOf_scopeMetric
    Sample.emfServiceName_scopeMetric Sample.mapped_claudeCode reshaped).mp each

end CwlSplit
