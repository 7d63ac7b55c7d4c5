import TelemetryPlatform.Library.DictEdit
import TelemetryPlatform.Library.PosixPath

/-!
# Rows of the common files

The part of `scripts/tg_copyability_test.py` that seeds rows in the JSON files of
`common/` and takes them back, and that patches the zone id of the DNS owner account.

A file is what `json.loads` reads in it. To write a document and to read it again is to
have it again, so that the text of a file and its last newline are left out.
-/

namespace Copyability

open Python

/-- The exceptions of a run. -/
inductive CopyExc where
  | copyabilityError (text : Str)
  | python (exc : Exc)
  | osError
deriving DecidableEq

variable (rt : Runtime)

/-- What is in a file: a document, a text that is none, or what cannot be read. -/
inductive Content where
  | parsed (data : rt.Value)
  | malformed (text : Str)
  | unreadable (exc : Exc)

/-- The files of `common/`, by their paths. -/
abbrev Common := PosixPath → Option (Content rt)

/-- `_SeedSpec`. -/
structure SeedSpec where
  jsonFile : PosixPath
  key : Str
  value : rt.Value
  parentKey : Option Str

variable {rt}

/-- The file with another document. -/
def Common.write (common : Common rt) (file : PosixPath) (data : rt.Value) : Common rt :=
  Function.update common file (some (.parsed data))

section Rows

/-- How an error about a row begins. -/
def cannot (verb : String) : Str := str "ERROR: cannot " ++ str verb ++ str " common/ row -- "

def quoted (text : Str) : Str := str "'" ++ text ++ str "'"

/-- The document of a file in which a row is seeded or restored. -/
def readRow (verb missingRemedy malformedRemedy : String) (common : Common rt)
    (jsonFile : PosixPath) : Except CopyExc rt.Value :=
  match common jsonFile with
  | none =>
      .error (.copyabilityError (cannot verb ++ str "file " ++ quoted jsonFile.text ++
        str " does not exist." ++ str missingRemedy))
  | some (.malformed text) =>
      .error (.copyabilityError (cannot verb ++ quoted jsonFile.text ++
        str " contains malformed JSON: " ++ rt.decodeErrorText text ++ str "." ++
        str malformedRemedy))
  | some (.unreadable exc) => .error (.python exc)
  | some (.parsed data) => .ok data

/-- An operation of the interpreter. -/
def ofPython {α : Type} (result : Except Exc α) : Except CopyExc α := result.mapError .python

/-- `container[key] = value` for a key that is not in the container. -/
def addKey (spec : SeedSpec rt) (container : rt.Value) : Except CopyExc rt.Value := do
  if ← ofPython (container.contains spec.key) then
    throw (.copyabilityError (cannot "seed" ++ str "key " ++ quoted spec.key ++
      str " already exists in " ++ quoted spec.jsonFile.text ++
      str ". Choose a unique synthetic key (prefix with 'cpytst-') to avoid collisions."))
  match container with
  | .obj entries => return .obj (dictSet entries spec.key spec.value)
  | _ => throw (.python .typeError)

/-- The document with a row. -/
def seedDoc (spec : SeedSpec rt) (data : rt.Value) : Except CopyExc rt.Value :=
  match spec.parentKey with
  | none => addKey spec data
  | some parentKey =>
      match data with
      | .obj entries =>
          match dictGet? entries parentKey with
          | some (.obj inner) => do
              let container ← addKey spec (.obj inner)
              return .obj (dictSet entries parentKey container)
          | _ =>
              .error (.copyabilityError (cannot "seed" ++ str "parent key " ++ quoted parentKey ++
                str " is missing or not an object in " ++ quoted spec.jsonFile.text ++
                str ". The nested seed target must already exist."))
      | _ => .error (.python .attributeError)

/-- `_seed_common_row`. -/
def seedCommonRow (spec : SeedSpec rt) (common : Common rt) : Except CopyExc (Common rt) := do
  let data ← readRow "seed"
    " Verify the common_dir configuration points to the correct directory."
    " Repair the JSON file before running the copyability test." common spec.jsonFile
  let seeded ← seedDoc spec data
  return common.write spec.jsonFile seeded

/-- `del container[key]` for a key that is in the container. -/
def deleteKey (spec : SeedSpec rt) (container : rt.Value) : Except CopyExc rt.Value := do
  if !(← ofPython (container.contains spec.key)) then
    throw (.copyabilityError (cannot "restore" ++ str "key " ++ quoted spec.key ++
      str " not found in " ++ quoted spec.jsonFile.text ++
      str ". Was the row seeded correctly before the restore attempt?"))
  match container with
  | .obj entries => return .obj (dictDel entries spec.key)
  | _ => throw (.python .typeError)

/-- The document without a row. -/
def restoreDoc (spec : SeedSpec rt) (data : rt.Value) : Except CopyExc rt.Value :=
  match spec.parentKey with
  | none => deleteKey spec data
  | some parentKey =>
      match data with
      | .obj entries =>
          match dictGet? entries parentKey with
          | some (.obj inner) => do
              let container ← deleteKey spec (.obj inner)
              return .obj (dictSet entries parentKey container)
          | _ => deleteKey spec data
      | _ => .error (.python .attributeError)

/-- `_restore_common_row`. -/
def restoreCommonRow (spec : SeedSpec rt) (common : Common rt) : Except CopyExc (Common rt) := do
  let data ← readRow "restore" "" "" common spec.jsonFile
  let restored ← restoreDoc spec data
  return common.write spec.jsonFile restored

end Rows

section ZoneId

def syntheticZoneId : Str := str "ZFAKEZONEID00000001"
def dnsOwnerAccountId : Str := str "444444444444"
def dnsOwnerZoneId : Str := str "dns_owner_zone_id"

/-- `json.loads(json_file.read_text())` without handlers. -/
def loadDoc (common : Common rt) (jsonFile : PosixPath) : Except CopyExc rt.Value :=
  match common jsonFile with
  | none => .error .osError
  | some (.malformed _) => .error (.python .jsonDecodeError)
  | some (.unreadable exc) => .error (.python exc)
  | some (.parsed data) => .ok data

/-- `data[key] = value`. -/
def setItem (data : rt.Value) (key : Str) (value : rt.Value) : Except Exc rt.Value :=
  match data with
  | .obj entries => .ok (.obj (dictSet entries key value))
  | _ => .error .typeError

/-- `data[_DNS_OWNER_ACCOUNT_ID]["dns_owner_zone_id"] = zone`. -/
def setZone (data : rt.Value) (zone : Str) : Except Exc rt.Value := do
  let owner ← data.subscript dnsOwnerAccountId
  let owner ← setItem owner dnsOwnerZoneId (.str zone)
  setItem data dnsOwnerAccountId owner

/-- The zone id in a document, and the document with the synthetic one. -/
def patchDoc (accountsJson : PosixPath) (data : rt.Value) :
    Except CopyExc (rt.Value × rt.Value) := do
  if !(← ofPython (data.contains dnsOwnerAccountId)) then
    throw (.copyabilityError (str "ERROR: dns-owner account " ++ quoted dnsOwnerAccountId ++
      str " not found in " ++ quoted accountsJson.text ++
      str ". Cannot patch the zone-id guard."))
  let owner ← ofPython (data.subscript dnsOwnerAccountId)
  let original ← ofPython (owner.getD dnsOwnerZoneId (.str []))
  let patched ← ofPython (setZone data syntheticZoneId)
  return (original, patched)

/-- `_patch_dns_owner_zone_id`. The file is written before the zone id becomes a string. -/
def patchDnsOwnerZoneId (accountsJson : PosixPath) (common : Common rt) :
    Except CopyExc Str × Common rt :=
  match loadDoc common accountsJson >>= patchDoc accountsJson with
  | .ok (original, patched) =>
      (ofPython (rt.strOf original), common.write accountsJson patched)
  | .error error => (.error error, common)

/-- `_restore_dns_owner_zone_id`. -/
def restoreDnsOwnerZoneId (accountsJson : PosixPath) (original : Str) (common : Common rt) :
    Except CopyExc (Common rt) := do
  let data ← loadDoc common accountsJson
  if ← ofPython (data.contains dnsOwnerAccountId) then
    let restored ← ofPython (setZone data original)
    return common.write accountsJson restored
  else
    return common

end ZoneId

end Copyability
