import TelemetryPlatform.CwlSplit.Totality
import TelemetryPlatform.Routing.Registry

/-!
# The collector and the lake agree

The two conditions that the collector's filters are rendered from read back as the tests
they stand for, so that a record goes through one of the two filters and never through both.
The names the structured filter lets through are those the transform maps to a tool, and
the tools it maps them to are those the partitions enumerate.
-/

namespace Routing

open Python CwlSplit

variable {rt : Runtime} {tools : List Tool} {names : List Str}
  {collector : CollectorConfig} {lake : LakeConfig}

section Filters

/-- `resource.attributes["service.name"]`. -/
def serviceNamePath : Ottl.Path := ⟨[str "resource", str "attributes"], [str "service.name"]⟩

/-- The tokens before the name in a test. -/
def frontTokens (operator : Ottl.Token) : List Ottl.Token :=
  [.word (str "resource"), .dot, .word (str "attributes"), .opening, .text (str "service.name"),
    .closing, operator]

theorem run_front_unequal :
    Ottl.run .blank (str ("resource.attributes[\"service.name\"] " ++ "!=" ++ " \"")) =
      some (frontTokens .unequal, .text []) := by
  decide

theorem run_front_equal :
    Ottl.run .blank (str ("resource.attributes[\"service.name\"] " ++ "==" ++ " \"")) =
      some (frontTokens .equal, .text []) := by
  decide

theorem reads_unequal {name : Str} (named : isName name = true) :
    Ottl.Reads (serviceNameTest "!=" name) (.compare true serviceNamePath name) := by
  have ran := Ottl.run_quoted run_front_unequal (plain_of_isName named)
  refine ⟨frontTokens .unequal ++ [Ottl.Token.text name], ran, rfl, ?_, ?_⟩
  · simp [frontTokens, Ottl.andToken, str]
  · simp [frontTokens, Ottl.orToken, str]

theorem reads_equal {name : Str} (named : isName name = true) :
    Ottl.Reads (serviceNameTest "==" name) (.compare false serviceNamePath name) := by
  have ran := Ottl.run_quoted run_front_equal (plain_of_isName named)
  refine ⟨frontTokens .equal ++ [Ottl.Token.text name], ran, rfl, ?_, ?_⟩
  · simp [frontTokens, Ottl.andToken, str]
  · simp [frontTokens, Ottl.orToken, str]

theorem forall₂_map {test : Str → Str} {read : Str → Ottl.Test} (named : names.all isName = true)
    (reads : ∀ {name}, isName name = true → Ottl.Reads (test name) (read name)) :
    List.Forall₂ Ottl.Reads (names.map test) (names.map read) := by
  rw [List.forall₂_map_left_iff, List.forall₂_map_right_iff, List.forall₂_same]
  intro name nameMem
  exact reads (List.all_eq_true.mp named name nameMem)

/-- The names that the structured filter lets through. -/
def isStructured (rt : Runtime) (names : List Str) (resource : List (Str × rt.Value)) : Bool :=
  names.any (attributeIs rt resource serviceNamePath)

theorem passes_keepStructured (named : names.all isName = true)
    (resource : List (Str × rt.Value)) :
    passes rt (structuredFilterKeepCondition names) resource =
      some (isStructured rt names resource) := by
  cases names with
  | nil =>
      have parsed : Ottl.parse (str "true") = some [[.constant true]] := by decide
      simp [passes, structuredFilterKeepCondition, parsed, Ottl.Condition.holds, Ottl.Test.holds,
        isStructured]
  | cons name names =>
      have parsed := Ottl.parse_and (forall₂_map named reads_unequal) (by simp)
      rw [passes, structuredFilterKeepCondition, if_pos (by simp), parsed, Option.map_some,
        Option.some_inj, Bool.eq_iff_iff]
      simp [Ottl.Condition.holds, Ottl.Test.holds, isStructured]

theorem passes_dropStructured (named : names.all isName = true)
    (resource : List (Str × rt.Value)) :
    passes rt (structuredFilterDropCondition names) resource =
      some (!isStructured rt names resource) := by
  cases names with
  | nil =>
      have parsed : Ottl.parse (str "false") = some [[.constant false]] := by decide
      simp [passes, structuredFilterDropCondition, parsed, Ottl.Condition.holds, Ottl.Test.holds,
        isStructured]
  | cons name names =>
      have parsed := Ottl.parse_or (forall₂_map named reads_equal) (by simp)
      rw [passes, structuredFilterDropCondition, if_pos (by simp), parsed, Option.map_some,
        Option.some_inj, Bool.eq_iff_iff]
      simp [Ottl.Condition.holds, Ottl.Test.holds, isStructured]

theorem planCollector_eq_ok : planCollector tools = .ok collector ↔
    (structuredOtlpServiceNames tools).all isName = true ∧
      collector = ⟨structuredFilterKeepCondition (structuredOtlpServiceNames tools),
        structuredFilterDropCondition (structuredOtlpServiceNames tools)⟩ := by
  simp only [planCollector]
  split_ifs with named
  · rw [Except.ok.injEq, eq_comm, and_iff_right named]
  · simp [named]

theorem mem_structuredOtlpServiceNames {name : Str} :
    name ∈ structuredOtlpServiceNames tools ↔ ∃ tool ∈ tools, name ∈ tool.names := by
  rw [structuredOtlpServiceNames, List.mem_eraseDups, List.mem_flatMap]

theorem attributeIs_serviceName {resource : List (Str × rt.Value)} {name : Str} :
    attributeIs rt resource serviceNamePath name = true ↔
      dictGet? resource (str "service.name") = some (.str name) := by
  have isContext : str "resource" = str "resource" ∧ str "attributes" = str "attributes" :=
    ⟨rfl, rfl⟩
  rw [serviceNamePath, attributeIs, if_pos isContext]
  split
  · next found => simp [found]
  · next other =>
      simp only [Bool.false_eq_true, false_iff]
      exact other name

theorem isStructured_iff {resource : List (Str × rt.Value)} :
    isStructured rt (structuredOtlpServiceNames tools) resource = true ↔
      ∃ tool ∈ tools, ∃ name ∈ tool.names,
        dictGet? resource (str "service.name") = some (.str name) := by
  simp only [isStructured, List.any_eq_true, mem_structuredOtlpServiceNames,
    attributeIs_serviceName]
  constructor
  · rintro ⟨name, ⟨tool, toolMem, nameMem⟩, found⟩
    exact ⟨tool, toolMem, name, nameMem, found⟩
  · rintro ⟨tool, toolMem, name, nameMem, found⟩
    exact ⟨name, ⟨tool, toolMem, nameMem⟩, found⟩

/--
Of the raw and the structured pipeline exactly one keeps a record: the structured one if the
registry lists the name of its service, else the raw one.
-/
theorem routed_of_plan (planned : planCollector tools = .ok collector)
    (resource : List (Str × rt.Value)) : ∃ structured : Bool,
      passes rt collector.keepStructured resource = some structured ∧
      passes rt collector.dropStructured resource = some (!structured) ∧
      (structured = true ↔ ∃ tool ∈ tools, ∃ name ∈ tool.names,
        dictGet? resource (str "service.name") = some (.str name)) := by
  rcases planCollector_eq_ok.mp planned with ⟨named, rfl⟩
  exact ⟨isStructured rt (structuredOtlpServiceNames tools) resource,
    passes_keepStructured named resource, passes_dropStructured named resource, isStructured_iff⟩

end Filters

section Map

/-- The entries of a map of strings as the transform loads them. -/
def document (rt : Runtime) (entries : List (Str × Str)) : rt.Value :=
  .obj (entries.map fun entry => (entry.1, .str entry.2))

theorem render_document {entries : List (Str × Str)}
    (named : ∀ entry ∈ entries, isName entry.1 = true ∧ isName entry.2 = true) :
    .char '\x7b' :: ((str ",").intercalate (entries.map fun entry =>
      jsonencodeStr entry.1 ++ .char ':' :: jsonencodeStr entry.2) ++ [.char '\x7d']) =
      rt.render .compact (document rt entries) := by
  have members (rest : List (Str × Str))
      (restNamed : ∀ entry ∈ rest, isName entry.1 = true ∧ isName entry.2 = true) :
      Runtime.render.renderMembers rt .compact
          (rest.map fun entry => (entry.1, (.str entry.2 : rt.Value))) =
        rest.flatMap fun entry => str "," ++ (jsonencodeStr entry.1 ++
          .char ':' :: jsonencodeStr entry.2) := by
    induction rest with
    | nil => rfl
    | cons entry rest ih =>
        rcases List.forall_mem_cons.mp restNamed with ⟨here, later⟩
        simp only [List.map_cons, Runtime.render.renderMembers, ih later, List.flatMap_cons,
          jsonencodeStr_eq here.1, jsonencodeStr_eq here.2, Runtime.render]
        simp [JsonStyle.compact, str]
  have joined (first : Str) (rest : List (Str × Str)) :
      (str ",").intercalate (first :: rest.map fun entry =>
        jsonencodeStr entry.1 ++ .char ':' :: jsonencodeStr entry.2) =
        first ++ rest.flatMap fun entry => str "," ++ (jsonencodeStr entry.1 ++
          .char ':' :: jsonencodeStr entry.2) := by
    induction rest generalizing first with
    | nil => simp
    | cons entry rest ih =>
        rw [List.map_cons, List.intercalate_cons_cons, ih]
        simp
  cases entries with
  | nil => rfl
  | cons entry rest =>
      rcases List.forall_mem_cons.mp named with ⟨here, later⟩
      rw [List.map_cons, joined]
      simp only [document, List.map_cons, Runtime.render, members rest later,
        jsonencodeStr_eq here.1, jsonencodeStr_eq here.2]
      simp [JsonStyle.compact, str]

/-- What the writes of all entries together are. -/
def serviceWrites (tools : List Tool) : List (Str × Str) :=
  tools.flatMap fun tool => tool.names.map fun name => (name, tool.tool)

theorem foldl_dictWrites (entries : List (Str × Str)) (maps : List (List (Str × Str))) :
    maps.foldl dictWrites entries = dictWrites entries maps.flatten := by
  induction maps generalizing entries with
  | nil => rfl
  | cons map maps ih => rw [List.foldl_cons, ih, List.flatten_cons, dictWrites_append]

theorem eq_of_serviceMaps {maps : List (List (Str × Str))}
    (mapped : tools.mapM Tool.serviceMap = .ok maps) :
    maps = tools.map fun tool => tool.names.map fun name => (name, tool.tool) := by
  induction tools generalizing maps with
  | nil =>
      cases mapped
      rfl
  | cons tool tools ih =>
      rw [List.mapM_cons] at mapped
      rcases bind_eq_ok.mp mapped with ⟨map, first, others⟩
      rcases bind_eq_ok.mp others with ⟨rest, later, same⟩
      cases same
      unfold Tool.serviceMap at first
      split_ifs at first
      cases first
      rw [ih later, List.map_cons]

theorem eq_of_serviceToolMap {entries : List (Str × Str)}
    (mapped : serviceToolMap tools = .ok entries) :
    entries = dictWrites [] (serviceWrites tools) := by
  rcases bind_eq_ok.mp mapped with ⟨maps, maps_eq, same⟩
  cases same
  rw [foldl_dictWrites, eq_of_serviceMaps maps_eq, serviceWrites, List.flatMap_def]

/-- The last entry that lists a name. -/
def Owner (tools : List Tool) (name : Str) (tool : Tool) : Prop :=
  ∃ before after, tools = before ++ tool :: after ∧ name ∈ tool.names ∧
    ∀ other ∈ after, name ∉ other.names

theorem Owner.mem {name : Str} {tool : Tool} (owner : Owner tools name tool) : tool ∈ tools := by
  rcases owner with ⟨before, after, rfl, -, -⟩
  simp

theorem owner_concat {name : Str} {last tool : Tool} :
    Owner (tools ++ [last]) name tool ↔
      name ∈ last.names ∧ tool = last ∨ name ∉ last.names ∧ Owner tools name tool := by
  constructor
  · rintro ⟨before, after, same, nameMem, unlisted⟩
    rcases List.eq_nil_or_concat after with rfl | ⟨front, other, rfl⟩
    · rcases List.append_inj' same rfl with ⟨-, lastSame⟩
      rw [List.singleton_inj] at lastSame
      rw [lastSame]
      exact .inl ⟨nameMem, rfl⟩
    · rw [List.concat_eq_append, ← List.cons_append, ← List.append_assoc] at same
      rcases List.append_inj' same rfl with ⟨frontSame, lastSame⟩
      rw [List.singleton_inj] at lastSame
      rw [lastSame]
      refine .inr ⟨unlisted other (by simp), before, front, frontSame, nameMem, ?_⟩
      intro entry entryMem
      apply unlisted entry
      simp [entryMem]
  · rintro (⟨nameMem, rfl⟩ | ⟨notLast, before, after, rfl, nameMem, unlisted⟩)
    · exact ⟨tools, [], rfl, nameMem, by simp⟩
    · refine ⟨before, after ++ [last], by simp, nameMem, ?_⟩
      intro entry entryMem
      rcases List.mem_append.mp entryMem with earlier | isLast
      · exact unlisted entry earlier
      · rw [List.mem_singleton.mp isLast]
        exact notLast

theorem exists_owner {name : Str} (listed : ∃ tool ∈ tools, name ∈ tool.names) :
    ∃ tool, Owner tools name tool := by
  induction tools using List.reverseRecOn with
  | nil => simp at listed
  | append_singleton tools last ih =>
      by_cases here : name ∈ last.names
      · exact ⟨last, owner_concat.mpr (.inl ⟨here, rfl⟩)⟩
      · rcases listed with ⟨tool, toolMem, nameMem⟩
        rcases List.mem_append.mp toolMem with earlier | isLast
        · rcases ih ⟨tool, earlier, nameMem⟩ with ⟨owner, owns⟩
          exact ⟨owner, owner_concat.mpr (.inr ⟨here, owns⟩)⟩
        · rw [List.mem_singleton.mp isLast] at nameMem
          exact absurd nameMem here

theorem dictGet?_map_const (names : List Str) (value name : Str) :
    dictGet? (names.map fun name => (name, value)) name =
      if name ∈ names then some value else none := by
  induction names with
  | nil => rfl
  | cons first names ih =>
      rw [List.map_cons, dictGet?, ih]
      by_cases same : first = name
      · simp [same]
      · simp [same, Ne.symm same]

/-- A service is mapped to the tool of its owner. -/
theorem dictGet?_serviceWrites {name value : Str} :
    dictGet? (dictWrites [] (serviceWrites tools)) name = some value ↔
      ∃ tool, Owner tools name tool ∧ tool.tool = value := by
  induction tools using List.reverseRecOn with
  | nil =>
      constructor
      · rintro ⟨⟩
      · rintro ⟨tool, owner, -⟩
        exact absurd owner.mem List.not_mem_nil
  | append_singleton tools last ih =>
      have split : serviceWrites (tools ++ [last]) =
          serviceWrites tools ++ last.names.map fun name => (name, last.tool) := by
        simp [serviceWrites]
      rw [split, dictWrites_append, dictGet?_dictWrites, ← List.map_reverse, dictGet?_map_const]
      simp only [List.mem_reverse, owner_concat]
      split_ifs with listed
      · simp [listed]
      · simp [listed, ih]

/-- What the validations of the lake's variables leave. -/
theorem of_planLake (projects : planLake tools = .ok lake) :
    (toolValues tools ≠ [] ∧ ∀ value ∈ toolValues tools, isName value = true) ∧
      (∀ entry ∈ dictWrites [] (serviceWrites tools),
        isName entry.2 = true ∧ entry.2 ∈ toolValues tools) ∧
      lake = ⟨jsonencode (dictWrites [] (serviceWrites tools)),
        (str ",").intercalate ((toolValues tools).mergeSort Deploy.strLe)⟩ := by
  rcases bind_eq_ok.mp projects with ⟨entries, mapped, validated⟩
  simp only [eq_of_serviceToolMap mapped] at validated
  split_ifs at validated with values map
  cases validated
  simp only [Bool.or_eq_true, List.isEmpty_iff, Bool.not_eq_true', not_or, Bool.not_eq_false,
    List.all_eq_true] at values
  simp only [Bool.not_eq_true', Bool.not_eq_false, List.all_eq_true, Bool.and_eq_true,
    List.contains_iff_mem] at map
  exact ⟨values, map, rfl⟩

theorem isName_key (collects : planCollector tools = .ok collector) {entry : Str × Str}
    (entryMem : entry ∈ dictWrites [] (serviceWrites tools)) : isName entry.1 = true := by
  have named := (planCollector_eq_ok.mp collects).1
  rcases List.mem_flatMap.mp (mem_writes_of_mem_dictWrites entryMem) with ⟨tool, toolMem, isWrite⟩
  rcases List.mem_map.mp isWrite with ⟨name, nameMem, rfl⟩
  exact List.all_eq_true.mp named name (mem_structuredOtlpServiceNames.mpr ⟨tool, toolMem, nameMem⟩)

theorem readsBack_document {entries : List (Str × Str)} (nodup : (entries.map Prod.fst).Nodup) :
    rt.ReadsBack (document rt entries) := by
  refine ⟨?_, ?_⟩
  · simpa [document, Function.comp_def] using nodup
  · rw [Runtime.membersReadBack_iff]
    intro entry entryMem
    rcases List.mem_map.mp entryMem with ⟨source, -, rfl⟩
    trivial

theorem depth_document_le (entries : List (Str × Str)) : (document rt entries).depth ≤ 1 := by
  have flat : Json.depth.depthEntries
      (entries.map fun entry => (entry.1, (.str entry.2 : rt.Value))) ≤ 0 := by
    apply Json.depthEntries_le_iff.mpr
    intro entry entryMem
    rcases List.mem_map.mp entryMem with ⟨source, -, rfl⟩
    exact le_rfl
  simp only [document, Json.depth]
  omega

/-- The transform loads the map that the units have derived. -/
theorem dictGet?_of_loadsMap (collects : planCollector tools = .ok collector)
    (projects : planLake tools = .ok lake) {entries : List (Str × Str)}
    (loaded : LoadsMap rt lake.serviceToolMap entries) {name value : Str} :
    dictGet? entries name = some value ↔ ∃ tool, Owner tools name tool ∧ tool.tool = value := by
  have nodup := nodup_keys_dictWrites_nil (serviceWrites tools)
  have sorted := List.mergeSort_perm (dictWrites [] (serviceWrites tools))
    fun a b => Deploy.strLe a.1 b.1
  have sortedNodup := (sorted.map Prod.fst).nodup_iff.mpr nodup
  rcases of_planLake projects with ⟨-, values, rfl⟩
  have text : jsonencode (dictWrites [] (serviceWrites tools)) =
      rt.render .compact (document rt ((dictWrites [] (serviceWrites tools)).mergeSort
        fun a b => Deploy.strLe a.1 b.1)) := by
    apply render_document
    intro entry entryMem
    have entryMem := sorted.mem_iff.mp entryMem
    exact ⟨isName_key collects entryMem, (values entry entryMem).1⟩
  have nests := Runtime.one_le_loadsDepth loaded
  have flat : (document rt ((dictWrites [] (serviceWrites tools)).mergeSort
      fun a b => Deploy.strLe a.1 b.1)).depth ≤ rt.loadsDepth :=
    (depth_document_le _).trans nests
  have read := Runtime.loads_render (readsBack_document sortedNodup) flat
  have same : document rt entries = document rt ((dictWrites [] (serviceWrites tools)).mergeSort
      fun a b => Deploy.strLe a.1 b.1) := by
    have both := loaded.symm.trans ((congrArg rt.loads text).trans read)
    simpa [document] using both
  have entries_eq : entries = (dictWrites [] (serviceWrites tools)).mergeSort
      fun a b => Deploy.strLe a.1 b.1 := by
    simp only [document, Json.obj.injEq] at same
    refine List.map_injective_iff.mpr ?_ same
    rintro ⟨key, text⟩ ⟨otherKey, otherText⟩ pairs
    cases pairs
    rfl
  rw [entries_eq, dictGet?_eq_some_iff sortedNodup, sorted.mem_iff, ← dictGet?_eq_some_iff nodup]
  exact dictGet?_serviceWrites

end Map

section Rows

variable {config : Config} {message body : Str} {obj resource : List (Str × rt.Value)}
  {now : List Char}

/-- The row is the text of an object with this tool. -/
def HasTool (rt : Runtime) (row : Bytes) (tool : Str) : Prop :=
  ∃ text entries, encode text = .ok row ∧ rt.loads text = .ok (.obj entries) ∧
    dictGet? entries (str "tool") = some (.str tool)

/-- The values that Athena reads in the enumeration of the partitions. -/
def enumerated (lake : LakeConfig) : List Str := lake.projectionToolValues.splitOn (.char ',')

theorem mem_enumerated (projects : planLake tools = .ok lake) {value : Str} :
    value ∈ enumerated lake ↔ ∃ tool ∈ tools, tool.tool = value := by
  rcases of_planLake projects with ⟨⟨nonempty, named⟩, -, rfl⟩
  have sorted := List.mergeSort_perm (toolValues tools) Deploy.strLe
  have noComma : ∀ value ∈ (toolValues tools).mergeSort Deploy.strLe, .char ',' ∉ value := by
    intro value valueMem comma
    have isValue := named value (sorted.mem_iff.mp valueMem)
    simp only [isName, Bool.and_eq_true, List.all_eq_true] at isValue
    exact absurd (isValue.2 _ comma) (by decide)
  have sortedNonempty : (toolValues tools).mergeSort Deploy.strLe ≠ [] := by
    intro empty
    exact nonempty (List.perm_nil.mp (empty ▸ sorted.symm))
  have split := List.splitOn_intercalate (.char ',') noComma sortedNonempty
  rw [enumerated]
  change value ∈ ([Chr.char ','].intercalate _).splitOn _ ↔ _
  rw [split, sorted.mem_iff, toolValues, List.mem_eraseDups, List.mem_map]

/--
A log record or an EMF event becomes rows only if the registry lists its service, and its
rows have the tool of the last entry that does, which the partitions enumerate.
-/
theorem owned_of_reshaped (collects : planCollector tools = .ok collector)
    (projects : planLake tools = .ok lake)
    (loaded : LoadsMap rt lake.serviceToolMap config.serviceToolMap) {named : Except Exc Str}
    (kind : (kindOf rt message).serviceName? = some named) {rows : List Bytes}
    (reshaped : reshapeRecords rt config now message = .ok rows) :
    ∃ name tool, named = .ok name ∧ Owner tools name tool ∧ tool.tool ∈ enumerated lake ∧
      ∀ row ∈ rows, HasTool rt row tool.tool := by
  rcases tool_of_reshaped kind reshaped with ⟨name, value, named_eq, mapped, each⟩
  rcases (dictGet?_of_loadsMap collects projects loaded).mp mapped with ⟨tool, owner, rfl⟩
  exact ⟨name, tool, named_eq, owner, (mem_enumerated projects).mpr ⟨tool, owner.mem, rfl⟩, each⟩

/-- What the collector writes for a record of the structured pipeline. -/
structure Exported (rt : Runtime) (resource obj : List (Str × rt.Value)) (body message : Str) :
    Prop where
  kind : kindOf rt message = .structured obj body
  resource : dictGet? obj (str "resource") = some (.obj resource)
  message : Encodable message
  record : (Json.obj obj : rt.Value).Encodable

/--
A record that the structured pipeline keeps is never one of an unknown service: it becomes one
row, with the tool of the last entry that lists its service, whenever the row can be written.
-/
theorem reshaped_of_structured (collects : planCollector tools = .ok collector)
    (projects : planLake tools = .ok lake)
    (loaded : LoadsMap rt lake.serviceToolMap config.serviceToolMap)
    (kept : passes rt collector.keepStructured resource = some true)
    (exported : Exported rt resource obj body message) :
    ∃ name tool, dictGet? resource (str "service.name") = some (.str name) ∧
      Owner tools name tool ∧ tool.tool ∈ enumerated lake ∧
      ((∃ rows, reshapeRecords rt config now message = .ok rows) ↔
        StructuredWritable rt obj body tool.tool) ∧
      ∀ rows, reshapeRecords rt config now message = .ok rows →
        ∃ row, rows = [row] ∧ HasTool rt row tool.tool := by
  rcases planCollector_eq_ok.mp collects with ⟨names, rfl⟩
  rw [passes_keepStructured names, Option.some_inj] at kept
  rcases isStructured_iff.mp kept with ⟨lister, listerMem, name, nameMem, serviceName⟩
  rcases exists_owner ⟨lister, listerMem, nameMem⟩ with ⟨tool, owner⟩
  have mapped := (dictGet?_of_loadsMap collects projects loaded).mpr ⟨tool, owner, rfl⟩
  have named : claudeServiceName rt obj = .ok name := by
    simp [claudeServiceName, exported.resource, toMap, AttributeMap.getD, ok_bind, serviceName,
      Runtime.strOf]
  have structured := (loads_of_structured exported.kind).2.2.2
  have reshaped_eq := reshapeRecords_structured config now exported.kind exported.message
  have writable := reshapeClaude_isOk_iff now structured exported.record named mapped
  refine ⟨name, tool, serviceName, owner, (mem_enumerated projects).mpr ⟨tool, owner.mem, rfl⟩,
    ?_, ?_⟩
  · rw [reshaped_eq, ← writable]
    cases reshapeClaude rt config now obj body <;> simp [Except.map]
  · intro rows reshaped
    rcases tool_of_reshaped (by rw [exported.kind]; rfl) reshaped with
      ⟨other, otherTool, otherNamed, otherMapped, each⟩
    have sameName : name = other := Except.ok.inj (named.symm.trans otherNamed)
    rw [← sameName, mapped, Option.some_inj] at otherMapped
    rw [← otherMapped] at each
    rw [reshaped_eq] at reshaped
    cases reshapes : reshapeClaude rt config now obj body with
    | error error =>
        rw [reshapes] at reshaped
        cases reshaped
    | ok row =>
        rw [reshapes] at reshaped
        cases reshaped
        exact ⟨row, rfl, each row List.mem_cons_self⟩

end Rows

namespace Sample

/-- Two entries that list the same service, and a flat tool. -/
def registry : List Tool :=
  [⟨str "agents", some [str "claude-code", str "synthetic"]⟩,
    ⟨str "claude-code", some [str "claude-code"]⟩, ⟨str "example-cli", none⟩]

def filters : CollectorConfig where
  keepStructured := structuredFilterKeepCondition [str "claude-code", str "synthetic"]
  dropStructured := structuredFilterDropCondition [str "claude-code", str "synthetic"]

def table : LakeConfig where
  serviceToolMap := str "\x7b\"claude-code\":\"claude-code\",\"synthetic\":\"agents\"\x7d"
  projectionToolValues := str "agents,claude-code,example-cli"

def config : Config :=
  { CwlSplit.Sample.settings with
    serviceToolMap := [(str "claude-code", str "claude-code"), (str "synthetic", str "agents")] }

def resource : List (Str × Runtime.whole.Value) := [(str "service.name", .str (str "claude-code"))]

theorem planCollector_registry : planCollector registry = .ok filters := by
  decide +kernel

theorem planLake_registry : planLake registry = .ok table := by
  have sortedMap : config.serviceToolMap.mergeSort (fun a b => Deploy.strLe a.1 b.1) =
      config.serviceToolMap :=
    List.mergeSort_of_pairwise (by decide +kernel)
  have sortedValues : (toolValues registry).mergeSort Deploy.strLe = toolValues registry :=
    List.mergeSort_of_pairwise (by decide +kernel)
  have mapped : serviceToolMap registry = .ok config.serviceToolMap := by decide +kernel
  have named : ((toolValues registry).isEmpty || !(toolValues registry).all isName) = false := by
    decide +kernel
  have within : (!config.serviceToolMap.all fun entry =>
      isName entry.2 && (toolValues registry).contains entry.2) = false := by
    decide +kernel
  have text : jsonencode config.serviceToolMap = table.serviceToolMap := by
    rw [jsonencode, sortedMap]
    decide +kernel
  have values : (str ",").intercalate (toolValues registry) = table.projectionToolValues := by
    decide +kernel
  simp only [planLake, mapped, ok_bind, named, within, sortedValues, text, values]
  rfl

theorem loadsMap_table : LoadsMap Runtime.whole table.serviceToolMap config.serviceToolMap := by
  apply loads_of_loadsTo
  decide +kernel

theorem exported : Exported Runtime.whole resource CwlSplit.Sample.dottedObject (str "x")
    CwlSplit.Sample.dottedMessage where
  kind := CwlSplit.Sample.kindOf_dotted
  resource := rfl
  message := by decide +kernel
  record := CwlSplit.Sample.encodable_dottedObject

theorem kept : passes Runtime.whole filters.keepStructured resource = some true := by
  decide +kernel

end Sample

/-- A record of a service in two entries goes through the structured pipeline only. -/
theorem routed_registry : ∃ structured : Bool,
    passes Runtime.whole Sample.filters.keepStructured Sample.resource = some structured ∧
      passes Runtime.whole Sample.filters.dropStructured Sample.resource = some (!structured) ∧
      (structured = true ↔ ∃ tool ∈ Sample.registry, ∃ name ∈ tool.names,
        dictGet? Sample.resource (str "service.name") = some (.str name)) :=
  routed_of_plan Sample.planCollector_registry Sample.resource

/-- The last entry of a service gives its rows their tool. -/
theorem owned_dotted : ∃ name tool,
    claudeServiceName Runtime.whole CwlSplit.Sample.dottedObject = .ok name ∧
      Owner Sample.registry name tool ∧ tool.tool ∈ enumerated Sample.table ∧
      ∀ row ∈ [CwlSplit.Sample.dottedRow], HasTool Runtime.whole row tool.tool :=
  owned_of_reshaped Sample.planCollector_registry Sample.planLake_registry Sample.loadsMap_table
    (by rw [CwlSplit.Sample.kindOf_dotted]; rfl)
    (show reshapeRecords Runtime.whole Sample.config CwlSplit.Sample.now
      CwlSplit.Sample.dottedMessage = .ok [CwlSplit.Sample.dottedRow] by decide +kernel)

theorem reshaped_dotted : ∃ name tool,
    dictGet? Sample.resource (str "service.name") = some (.str name) ∧
      Owner Sample.registry name tool ∧ tool.tool ∈ enumerated Sample.table ∧
      ((∃ rows, reshapeRecords Runtime.whole Sample.config CwlSplit.Sample.now
          CwlSplit.Sample.dottedMessage = .ok rows) ↔
        StructuredWritable Runtime.whole CwlSplit.Sample.dottedObject (str "x") tool.tool) ∧
      ∀ rows, reshapeRecords Runtime.whole Sample.config CwlSplit.Sample.now
          CwlSplit.Sample.dottedMessage = .ok rows →
        ∃ row, rows = [row] ∧ HasTool Runtime.whole row tool.tool :=
  reshaped_of_structured Sample.planCollector_registry Sample.planLake_registry
    Sample.loadsMap_table Sample.kept Sample.exported

end Routing
