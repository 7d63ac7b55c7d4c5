import TelemetryPlatform.Deploy.Partition
import TelemetryPlatform.Library.Program

/-!
# Units whose state exists

`scripts/filter_units_with_state.py`. A unit that was never applied cannot be
planned, so the plan lane takes the units out of its scope whose state object is
absent. The script asks Terragrunt for the backend of each unit and S3 for the head
of the state object, and appends two lines to the output file of the job.

A run is a program over these calls: the S3 client, a `terragrunt render` process,
a `HeadObject` request and an append to a file. Any of them may raise. What the
script prints for the reader of the job is left out.
-/

namespace Deploy

open Python Interaction

def s3Backend : Str := str "s3"
def notFoundErrorCodes : List Str :=
  [str "404", str "NoSuchKey", str "NoSuchBucket", str "NotFound"]
def includeDirFlagsKey : Str := str "include_dir_flags"
def hasUnitsKey : Str := str "has_units"

/-- The exceptions of a run; `raised` is one that a call raised. -/
inductive FilterError where
  | render (text : Str)
  | stateCheck (text : Str)
  | deploy (error : DeployError)
  | builtin (error : Exc)
  | raised (text : Str)

instance : MonadLift (Except Exc) (Except FilterError) := ⟨Except.mapError .builtin⟩

inductive FilterCall where
  | client (regionName : Str)
  | render (unitPath : Str)
  | headObject (regionName bucket key : Str)
  | append (path text : Str)

/-- How `terragrunt render --format json` ends. -/
inductive RenderReply where
  | completed (returncode : Int) (stdout stderr : Str)
  | raised (text : Str)

variable (rt : Runtime)

/-- How `head_object` ends; a `ClientError` carries the parsed response. -/
inductive HeadReply where
  | success
  | clientError (response : rt.Value)
  | raised (text : Str)

@[reducible]
def FilterCall.Reply : FilterCall → Type
  | .client _ => Except Str Unit
  | .render _ => RenderReply
  | .headObject _ _ _ => HeadReply rt
  | .append _ _ => Except Str Unit

abbrev Filter := Program FilterCall (FilterCall.Reply rt) FilterError

/-- `value or {}`. -/
def orEmpty (value : rt.Value) : rt.Value := if rt.truth value then value else .obj []

/-- `repr(value)`. -/
def reprOf : rt.Value → Except Exc Str
  | .str text => .ok (rt.reprStr text)
  | value => rt.strOf value

def renderUnitBackend (unitPath : Str) : Filter rt rt.Value := do
  match ← Program.perform (FilterCall.render unitPath) with
  | .raised text => throw (.raised text)
  | .completed returncode stdout stderr =>
      if returncode ≠ 0 then
        throw (.render (str "ERROR: `terragrunt render` failed for unit '" ++ unitPath ++
          str "' (exit " ++ (Runtime.intText returncode).map .char ++ str ").\n  stderr: " ++
          (if strip stderr = [] then str "(none)" else strip stderr) ++
          str ("\n  Remedy: this is a genuine Terragrunt config error -- fix the unit's HCL. " ++
            "The plan-scope\n  state filter does NOT mask it as 'not deployed'.")))
      match rt.loads stdout with
      | .ok rendered => return rendered
      | .error .jsonDecodeError =>
          throw (.render (str "ERROR: `terragrunt render` for unit '" ++ unitPath ++
            str "' produced unparseable JSON.\n  " ++ rt.decodeErrorText stdout))
      | .error error => throw (.builtin error)

/-- The backend, the bucket and the key; the latter two are empty when the backend is not S3. -/
def extractBackendBucketKey (rendered : rt.Value) (unitPath : Str) :
    Except FilterError (Str × Str × Str) := do
  let remoteState ← rendered.get (str "remote_state")
  let backend ← (orEmpty rt remoteState).getD (str "backend") (.str [])
  let backend ← rt.strOf backend
  if backend ≠ s3Backend then
    return (backend, [], [])
  let config ← (orEmpty rt remoteState).get (str "config")
  let bucket ← (orEmpty rt config).get (str "bucket")
  let key ← (orEmpty rt config).get (str "key")
  if !rt.truth bucket || !rt.truth key then
    let bucketRepr ← reprOf rt bucket
    let keyRepr ← reprOf rt key
    throw (.render (str "ERROR: unit '" ++ unitPath ++
      str "' renders an S3 backend with no resolved bucket/key (bucket=" ++ bucketRepr ++
      str ", key=" ++ keyRepr ++
      str ").\n  Remedy: this is a genuine backend-config error, not a not-deployed unit."))
  let bucket ← rt.strOf bucket
  let key ← rt.strOf key
  return (backend, bucket, key)

/-- The `except ClientError` branch of `_exists`. -/
def existsAfterError (bucket key : Str) (response : rt.Value) : Except FilterError Bool := do
  let error ← response.getD (str "Error") (.obj [])
  let code ← error.getD (str "Code") (.str [])
  let code ← rt.strOf code
  let responseMetadata ← response.getD (str "ResponseMetadata") (.obj [])
  let httpStatus ← responseMetadata.getD (str "HTTPStatusCode") (.str [])
  let httpStatus ← rt.strOf httpStatus
  if code ∈ notFoundErrorCodes ∨ httpStatus = str "404" then
    return false
  throw (.stateCheck (str "ERROR: HeadObject on remote state s3://" ++ bucket ++ str "/" ++ key ++
    str " failed with a non-not-found error (code=" ++ rt.reprStr code ++ str ", http=" ++
    httpStatus ++ str (").\n  This is NOT treated as 'never deployed' -- a genuine " ++
      "access/service error must not\n  silently drop a real unit from the plan scope " ++
      "(fail-fast). Remedy: verify the plan\n  role's remote-state read grants and retry.")))

/-- The `_exists` of `make_s3_state_exists_fn`. -/
def stateExists (regionName bucket key : Str) : Filter rt Bool := do
  match ← Program.perform (FilterCall.headObject regionName bucket key) with
  | .success => return true
  | .clientError response => Program.ofExcept (existsAfterError rt bucket key response)
  | .raised text => throw (.raised text)

/-- The body of the loop of `partition_by_state_existence`. -/
def checkUnit (regionName : Str) (split : List Str × List Str) (unitPath : Str) :
    Filter rt (List Str × List Str) := do
  let rendered ← renderUnitBackend rt unitPath
  let (backend, bucket, key) ← Program.ofExcept (extractBackendBucketKey rt rendered unitPath)
  if backend ≠ s3Backend then
    return (split.1 ++ [unitPath], split.2)
  if ← stateExists rt regionName bucket key then
    return (split.1 ++ [unitPath], split.2)
  else
    return (split.1, split.2 ++ [unitPath])

/-- The units to plan, and those that were never applied. -/
def partitionByStateExistence (regionName : Str) (unitPaths : List Str) :
    Filter rt (List Str × List Str) :=
  unitPaths.foldlM (checkUnit rt regionName) ([], [])

/-- A line of the output file. -/
def outputLine (key value : Str) : Str := key ++ str "=" ++ value ++ str "\n"

def writeOutput (outputPath key value : Str) : Filter rt Unit := do
  match ← Program.perform (FilterCall.append outputPath (outputLine key value)) with
  | .ok () => return ()
  | .error text => throw (.raised text)

/-- The first of the two variables that is set and not empty. -/
def regionName (environ : List (Str × Str)) : Str :=
  match dictGet? environ (str "AWS_REGION") with
  | some (c :: rest) => c :: rest
  | _ =>
      match dictGet? environ (str "AWS_DEFAULT_REGION") with
      | some (c :: rest) => c :: rest
      | _ => str "us-east-1"

def run (environ : List (Str × Str)) (includeDirFlags outputPath : Str) : Filter rt Unit := do
  let unitPaths ← Program.ofExcept ((extractAllUnitPaths includeDirFlags).mapError .deploy)
  match ← Program.perform (FilterCall.client (regionName environ)) with
  | .error text => throw (.raised text)
  | .ok () =>
      let (kept, _) ← partitionByStateExistence rt (regionName environ) unitPaths
      if kept = [] then
        writeOutput rt outputPath includeDirFlagsKey []
        writeOutput rt outputPath hasUnitsKey (str "false")
      else
        writeOutput rt outputPath includeDirFlagsKey (reassembleFlags kept)
        writeOutput rt outputPath hasUnitsKey (str "true")

end Deploy
