import TelemetryPlatform.Library.Json
import TelemetryPlatform.Library.Numeral
import TelemetryPlatform.Library.Program
import TelemetryPlatform.Library.Text

/-!
# Authorization of the scope override

`scripts/check_scope_override.py` and `scripts/check_merged_pr_override.py`. A pull
request with the override label is built in full if its author is an admin of the
organization. There are three ways in: the event of the pull request itself, the
merge queue, whose event only names a ref, and the push of the merged commit. Each
writes `scope_override=true` or `scope_override=false` to the output of the job, or
raises.

The command lines of the two scripts and the lines they print are left out.
-/

namespace ScopeOverride

open Python Interaction

inductive OverrideError where
  | authorization (text : Str)
  | mergedPrLookup (text : Str)
  | builtin (error : Exc)

/-- What `subprocess.run` of a `gh api` command with `check=True` comes to. -/
inductive GhResult where
  | completed (stdout : Str)
  | calledProcessError (returncode : Int) (stderr : Str)
  | raised (error : Exc)

inductive Call where
  | whichGh
  | gh (command : List Str)
  | append (path text : Str)

@[reducible]
def Call.Reply : Call → Type
  | .whichGh => Option Str
  | .gh _ => GhResult
  | .append _ _ => Except Exc Unit

abbrev Script := Program Call Call.Reply OverrideError

def whichGh : Script (Option Str) := Program.perform Call.whichGh

def runGh (command : List Str) : Script GhResult := Program.perform (Call.gh command)

def appendText (path text : Str) : Script (Except Exc Unit) :=
    Program.perform (Call.append path text)

def scopeOverrideLabel : Str := str "detect-scope-override"
def outputKeyScopeOverride : Str := str "scope_override"

def overrideLine (value : Bool) : Str :=
  outputKeyScopeOverride ++ str "=" ++ (if value then str "true" else str "false") ++ str "\n"

/-- `write_output` of the decision. An error of the file leaves it as it was. -/
def writeOutput (path : Str) (value : Bool) : Script Unit := do
  match ← appendText path (overrideLine value) with
  | .ok () => return ()
  | .error error => throw (.builtin error)

def ghMissingText : Str :=
  str ("ERROR: 'gh' CLI binary not found on PATH. " ++
    "Ensure the GitHub CLI is installed (run 'make tools-ensure').")

variable (rt : Runtime)

section CheckScopeOverride

def nonEmptyStripped (texts : List Str) : List Str := (texts.map strip).filter (· ≠ [])

def parseLabels (rawLabels : Str) : Except Exc (List Str) := do
  if (str "[").isPrefixOf (strip rawLabels) then
    let decoded ← rt.loads (strip rawLabels)
    let items ← decoded.iterate
    return nonEmptyStripped (← items.mapM rt.strOf)
  return nonEmptyStripped (rawLabels.splitOn (.char ','))

def isAdminMember (org author : Str) : Script Bool := do
  match ← whichGh with
  | none => throw (.authorization ghMissingText)
  | some binary =>
      let command := [binary, str "api", str "orgs/" ++ org ++ str "/memberships/" ++ author,
        str "--jq", str ".role"]
      match ← runGh command with
      | .completed stdout => return decide (strip stdout = str "admin")
      | .calledProcessError returncode _ =>
          throw (.authorization (str "ERROR: Failed to verify org membership for actor '" ++
            author ++ str "' in org '" ++ org ++ str "'. gh API exited with code " ++
            (Runtime.intText returncode).map .char ++
            str (". Ensure the GitHub App has the 'members:read' permission and the actor " ++
              "exists.")))
      | .raised error => throw (.builtin error)

def checkScopeOverride (labels : List Str) (author org outputPath : Str) : Script Unit := do
  if scopeOverrideLabel ∉ labels then
    writeOutput outputPath false
  else
    let admin ← isAdminMember org author
    if !admin then
      throw (.authorization (str "ERROR: Actor '" ++ author ++ str "' attempted the '" ++
        scopeOverrideLabel ++ str "' override but is not an admin of org '" ++ org ++
        str ("'. Only org admins may use the scope-override label. " ++
          "Remove the label or request an admin to apply it.")))
    writeOutput outputPath true

/-- `main` of `check_scope_override.py`: the decision from the event of the pull request. -/
def checkPayload (rawLabels author org outputPath : Str) : Script Unit := do
  let labels ← Program.ofExcept ((parseLabels rt rawLabels).mapError .builtin)
  checkScopeOverride labels author org outputPath

end CheckScopeOverride

section Lookup

/-- The document a `gh api` command prints, if it prints one. -/
def ghJson (endpoint : Str) (failed : Int → Str → Str) (unparsed : Str → Str) :
    Script (Option rt.Value) := do
  match ← whichGh with
  | none => throw (.mergedPrLookup ghMissingText)
  | some binary =>
      match ← runGh [binary, str "api", endpoint] with
      | .calledProcessError returncode stderr =>
          throw (.mergedPrLookup (failed returncode (strip stderr)))
      | .raised error => throw (.builtin error)
      | .completed stdout =>
          if strip stdout = [] then
            return none
          match rt.loads (strip stdout) with
          | .ok document => return some document
          | .error .jsonDecodeError =>
              throw (.mergedPrLookup (unparsed (rt.decodeErrorText (strip stdout))))
          | .error error => throw (.builtin error)

/-- The entries of a pull request object. -/
abbrev PullObject := List (Str × rt.Value)

def fetchMergedPr (repo commitSha : Str) : Script (Option (PullObject rt)) := do
  let pulls ← ghJson rt (str "repos/" ++ repo ++ str "/commits/" ++ commitSha ++ str "/pulls")
    (fun returncode stderr => str "ERROR: gh api call failed resolving the PR for commit " ++
      rt.reprStr commitSha ++ str " in repo " ++ rt.reprStr repo ++ str ". gh exited with code " ++
      (Runtime.intText returncode).map .char ++ str ". stderr: " ++ stderr ++
      str "\nEnsure GH_TOKEN is set and has 'pull-requests: read' permission.")
    (fun error => str "ERROR: Failed to parse the gh api response for commit " ++
      rt.reprStr commitSha ++ str ": " ++ error)
  match pulls with
  | some (.arr (first :: _)) =>
      match first with
      | .obj entries => return some entries
      | _ => throw (.mergedPrLookup (str "ERROR: Unexpected gh api response shape for commit " ++
          rt.reprStr commitSha ++ str ": expected a list of PR objects."))
  | _ => return none

def isHexDigit (c : Chr) : Bool :=
  (0x30 ≤ c.code && c.code ≤ 0x39) || (0x41 ≤ c.code && c.code ≤ 0x46) ||
    (0x61 ≤ c.code && c.code ≤ 0x66)

/-- `pr-(\d+)-[0-9a-fA-F]+$` at the start of a text. The end may stand before a newline. -/
def matchQueuedPr (digits : DigitClass) (text : Str) : Option Str := do
  let number ← text.dropPrefix? (str "pr-")
  let sha ← (number.dropWhile digits.holds).dropPrefix? (str "-")
  let hex := if sha.getLast? = some (.char '\n') then sha.dropLast else sha
  if number.takeWhile digits.holds ≠ [] ∧ hex ≠ [] ∧ hex.all isHexDigit then
    some (number.takeWhile digits.holds)
  else none

/-- `int(text)` of a text of digits. -/
def intOfDigits (text : Str) : Except Exc Int :=
  match spanDigits text with
  | (c :: rest, []) =>
      if rt.intMaxStrDigits < (c :: rest).length then .error (.valueError (str "int"))
      else .ok (digitsValue (c :: rest))
  | _ => rt.intOfStr text

def parsePrNumberFromMergeGroupRef (digits : DigitClass) (mergeGroupRef : Str) :
    Except OverrideError Int :=
  match (strip mergeGroupRef).tails.findSome? (matchQueuedPr digits) with
  | some number => (intOfDigits rt number).mapError .builtin
  | none =>
      .error (.mergedPrLookup (str ("ERROR: Could not parse a queued PR number from " ++
        "merge_group head ref ") ++ rt.reprStr mergeGroupRef ++
        str (". Expected the GitHub merge-queue format " ++
          "'gh-readonly-queue/<base>/pr-<number>-<sha>'. Cannot authorize the " ++
          "scope-override fail-closed.")))

def fetchPrByNumber (repo : Str) (prNumber : Int) : Script (Option (PullObject rt)) := do
  let numberText : Str := (Runtime.intText prNumber).map .char
  let pr ← ghJson rt (str "repos/" ++ repo ++ str "/pulls/" ++ numberText)
    (fun returncode stderr => str "ERROR: gh api call failed resolving PR #" ++ numberText ++
      str " in repo " ++ rt.reprStr repo ++ str ". gh exited with code " ++
      (Runtime.intText returncode).map .char ++ str ". stderr: " ++ stderr ++
      str "\nEnsure GH_TOKEN is set and has 'pull-requests: read' permission.")
    (fun error => str "ERROR: Failed to parse the gh api response for PR #" ++ numberText ++
      str ": " ++ error)
  match pr with
  | none => return none
  | some (.obj entries) => return some entries
  | some _ => throw (.mergedPrLookup (str "ERROR: Unexpected gh api response shape for PR #" ++
      numberText ++ str ": expected a single PR object."))

end Lookup

section Resolve

variable {rt}

/-- The name of a label object, unless it is blank. -/
def labelName (label : rt.Value) : Option Str :=
  match label with
  | .obj entries =>
      match dictGet? entries (str "name") with
      | some (.str name) => if strip name ≠ [] then some (strip name) else none
      | _ => none
  | _ => none

def extractLabelNames (pr : PullObject rt) : List Str :=
  match dictGet? pr (str "labels") with
  | some (.arr labels) => labels.filterMap labelName
  | _ => []

def extractAuthor (pr : PullObject rt) : Option Str :=
  match dictGet? pr (str "user") with
  | some (.obj user) =>
      match dictGet? user (str "login") with
      | some (.str login) => if strip login ≠ [] then some (strip login) else none
      | _ => none
  | _ => none

def authorizePrScopeOverride (pr : PullObject rt) (org outputPath prDescriptor : Str) :
    Script Bool := do
  if scopeOverrideLabel ∉ extractLabelNames pr then
    writeOutput outputPath false
    return false
  else
    match extractAuthor pr with
    | none =>
        throw (.mergedPrLookup (str "ERROR: The " ++ prDescriptor ++ str " carries the '" ++
          scopeOverrideLabel ++ str ("' label but its author could not be determined from the " ++
            "gh api response. Cannot authorize the override fail-closed.")))
    | some author =>
        let admin ← isAdminMember org author
        if !admin then
          throw (.authorization (str "ERROR: The " ++ prDescriptor ++ str " carries the '" ++
            scopeOverrideLabel ++ str "' label but its author '" ++ author ++
            str "' is not an admin of org '" ++ org ++
            str "'. Only org admins may use the scope-override label."))
        writeOutput outputPath true
        return true

variable (rt)

def resolvePushScopeOverride (commitSha repo org outputPath : Str) : Script Bool := do
  match ← fetchMergedPr rt repo commitSha with
  | none =>
      -- a direct push is never an override
      writeOutput outputPath false
      return false
  | some pr =>
      authorizePrScopeOverride pr org outputPath
        (str "merged PR for commit " ++ rt.reprStr commitSha)

def resolveMergeGroupScopeOverride (digits : DigitClass) (mergeGroupRef repo org outputPath : Str) :
    Script Bool := do
  let prNumber ← Program.ofExcept (parsePrNumberFromMergeGroupRef rt digits mergeGroupRef)
  let numberText : Str := (Runtime.intText prNumber).map .char
  match ← fetchPrByNumber rt repo prNumber with
  | none =>
      throw (.mergedPrLookup (str "ERROR: gh api returned no PR object for queued PR #" ++
        numberText ++ str " in repo " ++ rt.reprStr repo ++
        str ". Cannot authorize the scope-override fail-closed."))
  | some pr => authorizePrScopeOverride pr org outputPath (str "queued PR #" ++ numberText)

end Resolve

end ScopeOverride
