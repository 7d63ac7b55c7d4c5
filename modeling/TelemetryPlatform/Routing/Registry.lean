import TelemetryPlatform.CwlSplit.Reshape
import TelemetryPlatform.Deploy.Partition
import TelemetryPlatform.Library.Dict
import TelemetryPlatform.Library.JsonText
import TelemetryPlatform.Library.Ottl

/-!
# The tool registry and what is derived from it

The tools of `common/tool-registry.json`, and the values that the two units
`_envcommon/collector-ingestion.hcl` and `_envcommon/data-lake.hcl` derive from them, each
with the validations of the variables they are passed in: the conditions of the collector's
two filters, the `SERVICE_TOOL_MAP` of the `cwl_split` transform and the enumeration of the
`tool` partition.
-/

namespace Routing

open Python

/-- An entry of `tools`. The units read neither `ingestion` nor `description`. -/
structure Tool where
  tool : Str
  serviceNames : Option (List Str)
deriving DecidableEq

/-- `lookup(t, "service_names", [])`. -/
def Tool.names (tool : Tool) : List Str := tool.serviceNames.getD []

inductive PlanError where
  | duplicateObjectKey
  | invalidValue (variableName : String)
deriving DecidableEq

/-- The characters of `^[a-zA-Z0-9._-]+$`. -/
def isNameChr : Chr → Bool
  | .char c => c.isAlphanum || c == '.' || c == '_' || c == '-'
  | .surrogate _ => false

/-- `can(regex("^[a-zA-Z0-9._-]+$", s))`. -/
def isName (text : Str) : Bool := !text.isEmpty && text.all isNameChr

section Collector

/-- `distinct(flatten([for t in local.tools : lookup(t, "service_names", [])]))`. -/
def structuredOtlpServiceNames (tools : List Tool) : List Str :=
  (tools.flatMap Tool.names).eraseDups

/-- `resource.attributes["service.name"] <operator> "<name>"`. -/
def serviceNameTest (operator : String) (name : Str) : Str :=
  str ("resource.attributes[\"service.name\"] " ++ operator ++ " \"") ++ (name ++ [.char '"'])

def structuredFilterKeepCondition (names : List Str) : Str :=
  if 0 < names.length then (str " and ").intercalate (names.map (serviceNameTest "!="))
  else str "true"

def structuredFilterDropCondition (names : List Str) : Str :=
  if 0 < names.length then (str " or ").intercalate (names.map (serviceNameTest "=="))
  else str "false"

/-- The conditions on which the two filters drop a record. -/
structure CollectorConfig where
  keepStructured : Str
  dropStructured : Str
deriving DecidableEq

def planCollector (tools : List Tool) : Except PlanError CollectorConfig :=
  let names := structuredOtlpServiceNames tools
  if names.all isName then
    .ok ⟨structuredFilterKeepCondition names, structuredFilterDropCondition names⟩
  else .error (.invalidValue "structured_otlp_service_names")

end Collector

section Lake

/-- `{ for sn in lookup(t, "service_names", []) : sn => t.tool }`. -/
def Tool.serviceMap (tool : Tool) : Except PlanError (List (Str × Str)) :=
  if tool.names.Nodup then .ok (tool.names.map fun name => (name, tool.tool))
  else .error .duplicateObjectKey

/-- `merge([for t in local.tools : ...]...)`. -/
def serviceToolMap (tools : List Tool) : Except PlanError (List (Str × Str)) := do
  let maps ← tools.mapM Tool.serviceMap
  return maps.foldl dictWrites []

/-- `distinct([for t in local.tools : t.tool])`. -/
def toolValues (tools : List Tool) : List Str := (tools.map Tool.tool).eraseDups

/-- How `jsonencode` writes a character of a string. -/
def jsonencodeChr (c : Chr) : Str :=
  if c ∈ [Chr.char '<', .char '>', .char '&', .char '\u2028', .char '\u2029'] then
    hexEscape c.code
  else escapeChr .compact c

def jsonencodeStr (text : Str) : Str := .char '"' :: text.flatMap jsonencodeChr ++ [.char '"']

/-- `jsonencode` of a map of strings, which is in the order of its keys. -/
def jsonencode (entries : List (Str × Str)) : Str :=
  let members := (entries.mergeSort fun a b => Deploy.strLe a.1 b.1).map fun entry =>
    jsonencodeStr entry.1 ++ .char ':' :: jsonencodeStr entry.2
  .char '\x7b' :: ((str ",").intercalate members ++ [.char '\x7d'])

/-- The environment of the transform, and `projection.tool.values` of the table. -/
structure LakeConfig where
  serviceToolMap : Str
  projectionToolValues : Str
deriving DecidableEq

def planLake (tools : List Tool) : Except PlanError LakeConfig := do
  let serviceToolMap ← serviceToolMap tools
  let values := toolValues tools
  if values.isEmpty || !values.all isName then
    throw (.invalidValue "glue_partition_projection_tool_values")
  else if !(serviceToolMap.all fun entry => isName entry.2 && values.contains entry.2) then
    throw (.invalidValue "service_tool_map")
  else
    return ⟨jsonencode serviceToolMap, (str ",").intercalate (values.mergeSort Deploy.strLe)⟩

end Lake

section Records

variable (rt : Runtime)

/-- Whether an attribute of the resource of a record is a string. -/
def attributeIs (resource : List (Str × rt.Value)) (path : Ottl.Path) (value : Str) : Bool :=
  match path with
  | ⟨[context, field], [key]⟩ =>
      if context = str "resource" ∧ field = str "attributes" then
        match dictGet? resource key with
        | some (.str text) => text == value
        | _ => false
      else false
  | _ => false

/-- Whether a filter with a condition lets a record through; none, if the condition is malformed. -/
def passes (condition : Str) (resource : List (Str × rt.Value)) : Option Bool :=
  (Ottl.parse condition).map fun condition => !condition.holds (attributeIs rt resource)

/-- `json.loads(os.environ["SERVICE_TOOL_MAP"])`. -/
def LoadsMap (text : Str) (entries : List (Str × Str)) : Prop :=
  rt.loads text = .ok (.obj (entries.map fun entry => (entry.1, .str entry.2)))

end Records

section Names

variable {text : Str}

theorem plain_of_isName (named : isName text = true) : Ottl.Plain text := by
  intro c cMem
  have isChr : isNameChr c = true := by
    simp only [isName, Bool.and_eq_true, List.all_eq_true] at named
    exact named.2 c cMem
  constructor
  · rintro rfl
    exact absurd isChr (by decide)
  · rintro rfl
    exact absurd isChr (by decide)

theorem jsonencodeStr_eq (named : isName text = true) :
    jsonencodeStr text = renderStr .compact text := by
  have each : ∀ c ∈ text, jsonencodeChr c = escapeChr .compact c := by
    intro c cMem
    have isChr : isNameChr c = true := by
      simp only [isName, Bool.and_eq_true, List.all_eq_true] at named
      exact named.2 c cMem
    rw [jsonencodeChr, if_neg]
    intro special
    simp only [List.mem_cons, List.not_mem_nil, or_false] at special
    rcases special with rfl | rfl | rfl | rfl | rfl
    all_goals exact absurd isChr (by decide)
  rw [jsonencodeStr, renderStr, List.flatMap_congr each]

end Names

end Routing
