import TelemetryPlatform.Deploy.Cover
import TelemetryPlatform.Deploy.StateFilter

/-!
# A unit is skipped only when its state is absent

A unit that leaves the plan scope is not reviewed. `run_skips_only_absent` follows the
filter through every run, whatever the processes and the service answer: when it
returns, each unit of the scope has its own part of the log, and the units left out are
those whose backend is S3 and whose state object the service says does not exist. Any
other failure ends the run before a line is written.
-/

namespace Deploy

open Python Interaction

variable {rt : Runtime}

/-- The value at the end of a path of keys. -/
def valueAt (value : rt.Value) : List Str → Option rt.Value
  | [] => some value
  | key :: path =>
      match value with
      | .obj entries => (dictGet? entries key).bind fun found => valueAt found path
      | _ => none

variable (rt) in
/-- The text at the end of a path of keys. -/
def TextAt (value : rt.Value) (path : List Str) (text : Str) : Prop :=
  ∃ found, valueAt value path = some found ∧ rt.strOf found = .ok text

variable (rt) in
/-- The text of what is at the end of a path of keys, which is not null, false, zero or empty. -/
def ResolvedAt (value : rt.Value) (path : List Str) (text : Str) : Prop :=
  ∃ found, valueAt value path = some found ∧ rt.truth found = true ∧ rt.strOf found = .ok text

variable (rt) in
/-- The configuration keeps the state of the unit in S3, under a bucket and a key that are there. -/
structure S3Backend (rendered : rt.Value) (bucket key : Str) : Prop where
  backend : TextAt rt rendered [str "remote_state", str "backend"] s3Backend
  bucket : ResolvedAt rt rendered [str "remote_state", str "config", str "bucket"] bucket
  key : ResolvedAt rt rendered [str "remote_state", str "config", str "key"] key

variable (rt) in
/-- The response says that the object or its bucket does not exist. -/
def SaysAbsent (response : rt.Value) : Prop :=
  (∃ code ∈ notFoundErrorCodes, TextAt rt response [str "Error", str "Code"] code) ∨
    TextAt rt response [str "ResponseMetadata", str "HTTPStatusCode"] (str "404")

variable (rt) in
/-- What the calls about a unit were answered, and whether it stays in the scope. -/
inductive Judged (regionName unit : Str) : List (Event FilterCall (FilterCall.Reply rt)) →
    Bool → Prop where
  | otherBackend {stdout stderr : Str} {rendered : rt.Value}
      (loaded : rt.loads stdout = .ok rendered)
      (notS3 : ¬TextAt rt rendered [str "remote_state", str "backend"] s3Backend) :
      Judged regionName unit [⟨.render unit, .completed 0 stdout stderr⟩] true
  | present {stdout stderr bucket key : Str} {rendered : rt.Value}
      (loaded : rt.loads stdout = .ok rendered) (isS3 : S3Backend rt rendered bucket key) :
      Judged regionName unit [⟨.render unit, .completed 0 stdout stderr⟩,
        ⟨.headObject regionName bucket key, .success⟩] true
  | absent {stdout stderr bucket key : Str} {rendered response : rt.Value}
      (loaded : rt.loads stdout = .ok rendered) (isS3 : S3Backend rt rendered bucket key)
      (saysAbsent : SaysAbsent rt response) :
      Judged regionName unit [⟨.render unit, .completed 0 stdout stderr⟩,
        ⟨.headObject regionName bucket key, .clientError response⟩] false

/-- The render process does not give the configuration of a unit. -/
inductive RenderFails (rt : Runtime) : RenderReply → Prop where
  | raised {text : Str} : RenderFails rt (.raised text)
  | exited {returncode : Int} {stdout stderr : Str} (nonzero : returncode ≠ 0) :
      RenderFails rt (.completed returncode stdout stderr)
  | unparseable {returncode : Int} {stdout stderr : Str} {error : Exc}
      (refused : rt.loads stdout = .error error) :
      RenderFails rt (.completed returncode stdout stderr)
  | incomplete {returncode : Int} {stdout stderr : Str} {rendered : rt.Value}
      (loaded : rt.loads stdout = .ok rendered)
      (isS3 : TextAt rt rendered [str "remote_state", str "backend"] s3Backend)
      (missing : ¬∃ bucket key, S3Backend rt rendered bucket key) :
      RenderFails rt (.completed returncode stdout stderr)

/-- A render that fails, or an error that does not say that the state is absent. -/
def Fails : Event FilterCall (FilterCall.Reply rt) → Prop
  | ⟨.render _, reply⟩ => RenderFails rt reply
  | ⟨.headObject _ _ _, .raised _⟩ => True
  | ⟨.headObject _ _ _, .clientError response⟩ => ¬SaysAbsent rt response
  | _ => False

def FilterCall.Writes : FilterCall → Prop
  | .append _ _ => True
  | _ => False

@[simp]
theorem liftFilter_eq_ok {α : Type} {result : Except Exc α} {value : α} :
    (liftM result : Except FilterError α) = .ok value ↔ result = .ok value := by
  cases result with
  | ok found =>
      change Except.ok found = Except.ok value ↔ Except.ok found = Except.ok value
      simp only [Except.ok.injEq]
  | error error => exact ⟨nofun, nofun⟩

section Paths

variable {value middle found default : rt.Value} {key next : Str} {path : List Str}

theorem get_eq_getD (value : rt.Value) (key : Str) : value.get key = value.getD key .null := by
  cases value <;> rfl

/-- What a default does not hold was reached through the key. -/
theorem valueAt_of_getD (got : value.getD key default = .ok middle)
    (absent : valueAt default path = none) (reached : valueAt middle path = some found) :
    valueAt value (key :: path) = some found := by
  cases value with
  | obj entries =>
      simp only [Json.getD, Except.ok.injEq] at got
      cases looked : dictGet? entries key with
      | none =>
          rw [looked, Option.getD_none] at got
          rw [← got, absent] at reached
          cases reached
      | some inner =>
          rw [looked, Option.getD_some] at got
          rw [valueAt, looked, Option.bind_some, got]
          exact reached
  | _ => cases got

theorem getD_eq_ok (got : value.getD key default = .ok found) :
    found = default ∨ valueAt value [key] = some found := by
  cases value with
  | obj entries =>
      simp only [Json.getD, Except.ok.injEq] at got
      cases looked : dictGet? entries key with
      | none =>
          left
          simpa [looked] using got.symm
      | some inner =>
          right
          simpa [valueAt, looked] using got
  | _ => cases got

theorem getD_of_valueAt (default : rt.Value) (reached : valueAt value (key :: path) = some found) :
    ∃ middle, value.getD key default = .ok middle ∧ valueAt middle path = some found := by
  cases value with
  | obj entries =>
      simp only [valueAt, Option.bind_eq_some_iff] at reached
      rcases reached with ⟨middle, looked, reached⟩
      exact ⟨middle, by rw [Json.getD, looked, Option.getD_some], reached⟩
  | _ => cases reached

theorem valueAt_of_orEmpty (reached : valueAt (orEmpty rt value) (key :: path) = some found) :
    valueAt value (key :: path) = some found := by
  rw [orEmpty] at reached
  split at reached
  · exact reached
  · cases reached

theorem orEmpty_of_valueAt (reached : valueAt value (key :: path) = some found) :
    orEmpty rt value = value := by
  cases value with
  | obj entries =>
      cases entries with
      | nil => cases reached
      | cons entry entries => rfl
  | _ => cases reached

/-- A text that is not the default stands at the key. -/
theorem textAt_of_getD {text : Str} (got : value.getD key (.str []) = .ok found)
    (written : rt.strOf found = .ok text) (nonempty : text ≠ []) : TextAt rt value [key] text := by
  rcases getD_eq_ok got with rfl | reached
  · cases written
    exact absurd rfl nonempty
  · exact ⟨found, reached, written⟩

/-- A true value stands at the key. -/
theorem valueAt_of_get (got : value.get key = .ok found) (isTrue : rt.truth found = true) :
    valueAt value [key] = some found := by
  rw [get_eq_getD] at got
  rcases getD_eq_ok got with rfl | reached
  · cases isTrue
  · exact reached

end Paths

section Backend

variable {rendered : rt.Value} {unit backend bucket key : Str}

theorem s3Backend_ne_nil : s3Backend ≠ [] := by decide

/-- What has been read when the backend of a unit is known. -/
theorem extract_eq_ok
    (extracted : extractBackendBucketKey rt rendered unit = .ok (backend, bucket, key)) :
    ∃ remoteState found, rendered.getD (str "remote_state") .null = .ok remoteState ∧
      (orEmpty rt remoteState).getD (str "backend") (.str []) = .ok found ∧
      rt.strOf found = .ok backend ∧
      (backend = s3Backend → ∃ config bucketValue keyValue,
        (orEmpty rt remoteState).getD (str "config") .null = .ok config ∧
        (orEmpty rt config).get (str "bucket") = .ok bucketValue ∧
        (orEmpty rt config).get (str "key") = .ok keyValue ∧
        rt.truth bucketValue = true ∧ rt.truth keyValue = true ∧
        rt.strOf bucketValue = .ok bucket ∧ rt.strOf keyValue = .ok key) := by
  simp only [extractBackendBucketKey, bind_eq_ok, liftFilter_eq_ok] at extracted
  rcases extracted with ⟨remoteState, gotState, found, gotBackend, written, isText, extracted⟩
  rw [get_eq_getD] at gotState
  split at extracted
  · next other =>
      cases extracted
      exact ⟨remoteState, found, gotState, gotBackend, isText, fun same => absurd same other⟩
  · simp only [bind_eq_ok, liftFilter_eq_ok] at extracted
    rcases extracted with ⟨config, gotConfig, bucketValue, gotBucket, keyValue, gotKey, extracted⟩
    rw [get_eq_getD] at gotConfig
    split at extracted
    · simp only [bind_eq_ok] at extracted
      rcases extracted with ⟨_, _, _, _, _, raised, _⟩
      cases raised
    · next isTrue =>
        simp only [Bool.or_eq_true, Bool.not_eq_true', not_or, Bool.not_eq_false] at isTrue
        simp only [bind_eq_ok, liftFilter_eq_ok] at extracted
        rcases extracted with ⟨bucketText, bucketWritten, keyText, keyWritten, returned⟩
        cases returned
        exact ⟨remoteState, found, gotState, gotBackend, isText, fun _ => ⟨config, bucketValue,
          keyValue, gotConfig, gotBucket, gotKey, isTrue.1, isTrue.2, bucketWritten, keyWritten⟩⟩

theorem s3Backend_of_extract
    (extracted : extractBackendBucketKey rt rendered unit = .ok (s3Backend, bucket, key)) :
    S3Backend rt rendered bucket key := by
  rcases extract_eq_ok extracted with ⟨remoteState, found, gotState, gotBackend, isText, s3⟩
  rcases s3 rfl with ⟨config, bucketValue, keyValue, gotConfig, gotBucket, gotKey, bucketTrue,
    keyTrue, bucketText, keyText⟩
  have below {next : Str} {path : List Str} {value : rt.Value}
      (reached : valueAt (orEmpty rt remoteState) (next :: path) = some value) :
      valueAt rendered (str "remote_state" :: next :: path) = some value :=
    valueAt_of_getD gotState rfl (valueAt_of_orEmpty reached)
  have belowConfig {last : Str} {value : rt.Value}
      (got : (orEmpty rt config).get last = .ok value) (isTrue : rt.truth value = true) :
      valueAt rendered [str "remote_state", str "config", last] = some value := by
    apply below
    exact valueAt_of_getD gotConfig rfl (valueAt_of_orEmpty (valueAt_of_get got isTrue))
  constructor
  · rcases textAt_of_getD gotBackend isText s3Backend_ne_nil with ⟨value, reached, text⟩
    exact ⟨value, below reached, text⟩
  · exact ⟨bucketValue, belowConfig gotBucket bucketTrue, bucketTrue, bucketText⟩
  · exact ⟨keyValue, belowConfig gotKey keyTrue, keyTrue, keyText⟩

theorem not_s3_of_extract
    (extracted : extractBackendBucketKey rt rendered unit = .ok (backend, bucket, key))
    (other : backend ≠ s3Backend) :
    ¬TextAt rt rendered [str "remote_state", str "backend"] s3Backend := by
  rintro ⟨value, reached, isS3⟩
  rcases getD_of_valueAt .null reached with ⟨remoteState, gotState, reached⟩
  rcases getD_of_valueAt (.str []) reached with ⟨found, gotBackend, same⟩
  cases same
  rcases extract_eq_ok extracted with ⟨_, _, gotState', gotBackend', isText, _⟩
  rw [gotState] at gotState'
  cases gotState'
  rw [orEmpty_of_valueAt reached, gotBackend] at gotBackend'
  cases gotBackend'
  rw [isS3] at isText
  cases isText
  exact other rfl

/-- A `False` of `_exists` is an error that says that the state is absent. -/
theorem saysAbsent_of_existsAfterError {response : rt.Value}
    (judged : existsAfterError rt bucket key response = .ok false) : SaysAbsent rt response := by
  simp only [existsAfterError, bind_eq_ok, liftFilter_eq_ok] at judged
  rcases judged with ⟨error, gotError, codeValue, gotCode, code, codeWritten, metadata,
    gotMetadata, statusValue, gotStatus, status, statusWritten, judged⟩
  split at judged
  · next notFound =>
      rcases notFound with listed | rfl
      · have nonempty : code ≠ [] := by
          rintro rfl
          revert listed
          decide
        rcases textAt_of_getD gotCode codeWritten nonempty with ⟨value, reached, text⟩
        exact Or.inl ⟨code, listed, value, valueAt_of_getD gotError rfl reached, text⟩
      · rcases textAt_of_getD gotStatus statusWritten (by decide) with ⟨value, reached, text⟩
        exact Or.inr ⟨value, valueAt_of_getD gotMetadata rfl reached, text⟩
  · cases judged

theorem existsAfterError_ne_true {response : rt.Value} :
    existsAfterError rt bucket key response ≠ .ok true := by
  intro judged
  simp only [existsAfterError, bind_eq_ok, liftFilter_eq_ok] at judged
  rcases judged with ⟨_, _, _, _, _, _, _, _, _, _, _, _, judged⟩
  split at judged
  · cases judged
  · cases judged

end Backend

section Judgement

variable {regionName outputPath unit bucket key : Str}
  {log part : List (Event FilterCall (FilterCall.Reply rt))}

/-- A render that returns has parsed what the process wrote. -/
theorem runs_render_ok {rendered : rt.Value}
    (ran : (renderUnitBackend rt unit).Runs log (.ok rendered)) :
    ∃ stdout stderr, log = [⟨.render unit, .completed 0 stdout stderr⟩] ∧
      rt.loads stdout = .ok rendered := by
  rw [renderUnitBackend, Program.perform_bind, Program.runs_call] at ran
  rcases ran with ⟨reply, rest, rfl, ran⟩
  cases reply with
  | raised text => cases ran.2
  | completed returncode stdout stderr =>
      dsimp only at ran
      split at ran
      · cases ran.2
      · next zero =>
          have same : returncode = 0 := by simpa using zero
          subst same
          split at ran
          · next loaded =>
              rcases ran with ⟨rfl, returned⟩
              cases returned
              exact ⟨stdout, stderr, rfl, loaded⟩
          · cases ran.2
          · cases ran.2

/-- A state check that returns has seen the object, or an error that says it is absent. -/
theorem runs_stateExists_ok {found : Bool}
    (ran : (stateExists rt regionName bucket key).Runs log (.ok found)) :
    (found = true ∧ log = [⟨.headObject regionName bucket key, .success⟩]) ∨
      ∃ response, SaysAbsent rt response ∧ found = false ∧
        log = [⟨.headObject regionName bucket key, .clientError response⟩] := by
  rw [stateExists, Program.perform_bind, Program.runs_call] at ran
  rcases ran with ⟨reply, rest, rfl, ran⟩
  cases reply with
  | success =>
      rcases ran with ⟨rfl, returned⟩
      cases returned
      exact Or.inl ⟨rfl, rfl⟩
  | clientError response =>
      rcases Program.runs_ofExcept.mp ran with ⟨rfl, judged⟩
      cases found with
      | true => exact absurd judged.symm existsAfterError_ne_true
      | false => exact Or.inr ⟨response, saysAbsent_of_existsAfterError judged.symm, rfl, rfl⟩
  | raised text => cases ran.2

/-- Put a unit on its side of the split. -/
def place (split : List Str × List Str) (unit : Str) (keep : Bool) : List Str × List Str :=
  if keep then (split.1 ++ [unit], split.2) else (split.1, split.2 ++ [unit])

/-- One iteration judges its unit and places it accordingly. -/
theorem runs_checkUnit_ok {split next : List Str × List Str}
    (ran : (checkUnit rt regionName split unit).Runs log (.ok next)) :
    ∃ keep, Judged rt regionName unit log keep ∧ next = place split unit keep := by
  rw [checkUnit, Program.runs_bind_ok] at ran
  rcases ran with ⟨rendered, first, rest, rfl, renderRan, ran⟩
  rcases runs_render_ok renderRan with ⟨stdout, stderr, rfl, loaded⟩
  rcases Program.runs_ofExcept_bind.mp ran with ⟨_, _, _, impossible⟩ |
    ⟨⟨backend, bucket, key⟩, extracted, ran⟩
  · cases impossible
  dsimp only at ran
  split at ran
  · next other =>
      rcases ran with ⟨rfl, returned⟩
      cases returned
      exact ⟨true, .otherBackend loaded (not_s3_of_extract extracted other), rfl⟩
  · next same =>
      have isS3 : backend = s3Backend := by simpa using same
      subst isS3
      rw [Program.runs_bind_ok] at ran
      rcases ran with ⟨found, second, last, rfl, checked, placed⟩
      rcases runs_stateExists_ok checked with ⟨rfl, rfl⟩ | ⟨response, saysAbsent, rfl, rfl⟩
      · rcases placed with ⟨rfl, returned⟩
        cases returned
        exact ⟨true, .present loaded (s3Backend_of_extract extracted), rfl⟩
      · rcases placed with ⟨rfl, returned⟩
        cases returned
        exact ⟨false, .absent loaded (s3Backend_of_extract extracted) saysAbsent, rfl⟩

theorem Judged.not_fails {keep : Bool} (judged : Judged rt regionName unit log keep) :
    ∀ event ∈ log, ¬Fails event := by
  have rendered {stdout stderr : Str} {rendered : rt.Value}
      (loaded : rt.loads stdout = .ok rendered)
      (whole : TextAt rt rendered [str "remote_state", str "backend"] s3Backend →
        ∃ bucket key, S3Backend rt rendered bucket key) :
      ¬RenderFails rt (.completed 0 stdout stderr) := by
    intro fails
    cases fails with
    | exited nonzero => exact nonzero rfl
    | unparseable refused =>
        rw [loaded] at refused
        cases refused
    | incomplete loaded' isS3 missing =>
        rw [loaded] at loaded'
        cases loaded'
        exact missing (whole isS3)
  cases judged with
  | otherBackend loaded notS3 =>
      intro event eventMem
      rw [List.mem_singleton.mp eventMem]
      exact rendered loaded fun isS3 => absurd isS3 notS3
  | present loaded isS3 =>
      simp only [List.forall_mem_cons]
      exact ⟨rendered loaded fun _ => ⟨_, _, isS3⟩, id, nofun⟩
  | absent loaded isS3 saysAbsent =>
      simp only [List.forall_mem_cons]
      exact ⟨rendered loaded fun _ => ⟨_, _, isS3⟩, fun other => other saysAbsent, nofun⟩

end Judgement

/-- A unit, the part of the log about it, and whether it stays in the scope. -/
abbrev UnitPiece (rt : Runtime) := Program.Piece FilterCall (FilterCall.Reply rt) Str Bool

def keptUnits (pieces : List (UnitPiece rt)) : List Str :=
  (pieces.filter Program.Piece.value).map Program.Piece.input

def skippedUnits (pieces : List (UnitPiece rt)) : List Str :=
  (pieces.filter fun piece => !piece.value).map Program.Piece.input

variable (rt) in
/-- What a run that returns has done about the units of its scope, and what it wrote. -/
structure Filtered (regionName outputPath : Str) (units : List Str)
    (log : List (Event FilterCall (FilterCall.Reply rt))) (pieces : List (UnitPiece rt))
    (written hasUnits : Str) : Prop where
  scope : pieces.map Program.Piece.input = units
  judged : ∀ piece ∈ pieces, Judged rt regionName piece.input piece.log piece.value
  splits : (partitionByStateExistence rt regionName units).Runs
    (pieces.flatMap Program.Piece.log) (.ok (keptUnits pieces, skippedUnits pieces))
  logged : log = ⟨.client regionName, .ok ()⟩ :: (pieces.flatMap Program.Piece.log ++
    [⟨.append outputPath (outputLine includeDirFlagsKey written), .ok ()⟩,
      ⟨.append outputPath (outputLine hasUnitsKey hasUnits), .ok ()⟩])
  reparses : findIncludeDirs written = keptUnits pieces
  flagged : hasUnits = if keptUnits pieces = [] then str "false" else str "true"

section Runs

variable {regionName outputPath unit : Str} {units : List Str}
  {log part : List (Event FilterCall (FilterCall.Reply rt))}

/-- The units judged so far are the state of the loop. -/
theorem pieces_of_partition {outcome : Except FilterError (List Str × List Str)}
    (ran : (partitionByStateExistence rt regionName units).Runs log outcome) :
    (∃ error, outcome = .error error) ∨ ∃ pieces : List (UnitPiece rt),
      pieces.map Program.Piece.input = units ∧ pieces.flatMap Program.Piece.log = log ∧
        (∀ piece ∈ pieces, Judged rt regionName piece.input piece.log piece.value) ∧
        outcome = .ok (keptUnits pieces, skippedUnits pieces) := by
  let inv (done : List Str) (before : List (Event FilterCall (FilterCall.Reply rt)))
      (split : List Str × List Str) : Prop :=
    ∃ pieces : List (UnitPiece rt), pieces.map Program.Piece.input = done ∧
      pieces.flatMap Program.Piece.log = before ∧
      (∀ piece ∈ pieces, Judged rt regionName piece.input piece.log piece.value) ∧
      split = (keptUnits pieces, skippedUnits pieces)
  have preserved : ∀ done before split item part next, inv done before split →
      (checkUnit rt regionName split item).Runs part (.ok next) →
      inv (done ++ [item]) (before ++ part) next := by
    rintro done before split item part next ⟨pieces, rfl, rfl, judged, rfl⟩ checked
    rcases runs_checkUnit_ok checked with ⟨keep, itemJudged, rfl⟩
    refine ⟨pieces ++ [⟨item, part, keep⟩], by simp, by simp, ?_, ?_⟩
    · intro piece pieceMem
      rcases List.mem_append.mp pieceMem with old | new
      · exact judged piece old
      · rw [List.mem_singleton.mp new]
        exact itemJudged
    · cases keep with
      | true => simp [place, keptUnits, skippedUnits]
      | false => simp [place, keptUnits, skippedUnits]
  have start : inv [] [] ([], []) := ⟨[], rfl, rfl, nofun, rfl⟩
  rcases Program.runs_foldlM inv preserved start ran with ⟨final, rfl, pieces, scope, logged,
    judged, rfl⟩ | ⟨_, _, _, _, _, _, error, _, _, _, _, rfl⟩
  · exact Or.inr ⟨pieces, scope, logged, judged, rfl⟩
  · exact Or.inl ⟨error, rfl⟩

theorem render_issuesOnly :
    (renderUnitBackend rt unit).IssuesOnly fun call => ¬call.Writes := by
  rw [renderUnitBackend, Program.perform_bind, Program.issuesOnly_call]
  refine ⟨id, fun reply => ?_⟩
  cases reply with
  | raised text => trivial
  | completed returncode stdout stderr =>
      dsimp only
      split
      · trivial
      · split
        · trivial
        · trivial
        · trivial

theorem stateExists_issuesOnly {bucket key : Str} :
    (stateExists rt regionName bucket key).IssuesOnly fun call => ¬call.Writes := by
  rw [stateExists, Program.perform_bind, Program.issuesOnly_call]
  refine ⟨id, fun reply => ?_⟩
  cases reply with
  | success => trivial
  | clientError response => exact Program.issuesOnly_ofExcept
  | raised text => trivial

/-- The checks of the units write nothing. -/
theorem partition_issuesOnly :
    (partitionByStateExistence rt regionName units).IssuesOnly fun call => ¬call.Writes := by
  apply Program.issuesOnly_foldlM
  intro split item
  apply Program.IssuesOnly.bind render_issuesOnly
  intro rendered
  rw [Program.issuesOnly_ofExcept_bind]
  rintro ⟨backend, bucket, key⟩ _
  dsimp only
  split
  · trivial
  · apply Program.IssuesOnly.bind stateExists_issuesOnly
    intro found
    split
    · trivial
    · trivial

/-- A line that is written was appended; otherwise its append raised. -/
theorem runs_writeOutput {key value : Str} {outcome : Except FilterError Unit}
    (ran : (writeOutput rt outputPath key value).Runs log outcome) :
    (∀ event ∈ log, ¬Fails event) ∧ (outcome = .ok () →
      log = [⟨.append outputPath (outputLine key value), .ok ()⟩]) := by
  rw [writeOutput, Program.perform_bind, Program.runs_call] at ran
  rcases ran with ⟨reply, rest, rfl, ran⟩
  cases reply with
  | ok done =>
      rcases ran with ⟨rfl, _⟩
      exact ⟨by simp [Fails], fun _ => rfl⟩
  | error text =>
      rcases ran with ⟨rfl, rfl⟩
      exact ⟨by simp [Fails], nofun⟩

/-- Two lines are written one after the other. -/
theorem runs_writeOutputs {key key' value value' : Str} {outcome : Except FilterError Unit}
    (ran : (writeOutput rt outputPath key value >>= fun _ =>
      writeOutput rt outputPath key' value').Runs log outcome) :
    (∀ event ∈ log, ¬Fails event) ∧ (outcome = .ok () →
      log = [⟨.append outputPath (outputLine key value), .ok ()⟩,
        ⟨.append outputPath (outputLine key' value'), .ok ()⟩]) := by
  rcases Program.runs_bind.mp ran with ⟨error, rfl, stopped⟩ |
    ⟨done, first, second, rfl, wrote, rest⟩
  · exact ⟨(runs_writeOutput stopped).1, nofun⟩
  · rcases runs_writeOutput wrote with ⟨firstFine, firstLog⟩
    rcases runs_writeOutput rest with ⟨secondFine, secondLog⟩
    constructor
    · intro event eventMem
      rcases List.mem_append.mp eventMem with early | late
      · exact firstFine event early
      · exact secondFine event late
    · intro returned
      rw [firstLog rfl, secondLog returned]
      rfl

end Runs

/--
For every scope and environment and whatever the calls answer: a run that returns has
judged the units in their order, has left out only those whose state object is said to
be absent, and has written flags that are read back as the units it kept; a run in
which a render fails, or an error says anything else, raises and writes nothing.
-/
theorem run_skips_only_absent (rt : Runtime) (environ : List (Str × Str))
    (includeDirFlags outputPath : Str) {log : List (Event FilterCall (FilterCall.Reply rt))}
    {outcome : Except FilterError Unit}
    (ran : (run rt environ includeDirFlags outputPath).Runs log outcome) :
    (outcome = .ok () → ∃ units pieces written hasUnits,
      extractAllUnitPaths includeDirFlags = .ok units ∧
        Filtered rt (regionName environ) outputPath units log pieces written hasUnits) ∧
      ((∃ event ∈ log, Fails event) →
        (∃ error, outcome = .error error) ∧ ∀ event ∈ log, ¬event.request.Writes) := by
  rw [run, Program.runs_ofExcept_bind] at ran
  rcases ran with ⟨error, _, rfl, rfl⟩ | ⟨units, extracted, ran⟩
  · exact ⟨nofun, by simp⟩
  have extracted : extractAllUnitPaths includeDirFlags = .ok units := by
    cases found : extractAllUnitPaths includeDirFlags with
    | ok found =>
        rw [found] at extracted
        exact congrArg _ (Except.ok.inj extracted)
    | error error =>
        rw [found] at extracted
        cases extracted
  rw [Program.perform_bind, Program.runs_call] at ran
  rcases ran with ⟨reply, rest, rfl, ran⟩
  cases reply with
  | error text =>
      rcases ran with ⟨rfl, rfl⟩
      exact ⟨nofun, by simp [Fails]⟩
  | ok connected =>
      rw [Program.runs_bind] at ran
      rcases ran with ⟨error, rfl, stopped⟩ | ⟨⟨kept, skipped⟩, first, second, rfl, split, ran⟩
      · refine ⟨nofun, fun _ => ⟨⟨error, rfl⟩, ?_⟩⟩
        exact List.forall_mem_cons.mpr ⟨id, partition_issuesOnly.allowed_of_runs stopped⟩
      · rcases pieces_of_partition split with ⟨_, impossible⟩ | ⟨pieces, scope, rfl, judged, same⟩
        · cases impossible
        rcases Prod.mk.inj (Except.ok.inj same) with ⟨rfl, rfl⟩
        have solid : ∀ unit ∈ keptUnits pieces, IsUnitPath unit := by
          intro unit unitMem
          rcases List.mem_map.mp unitMem with ⟨piece, pieceMem, rfl⟩
          apply isUnitPath_of_findIncludeDirs includeDirFlags
          rw [← extractAllUnitPaths_eq_ok extracted, ← scope]
          exact List.mem_map_of_mem (List.mem_filter.mp pieceMem).1
        have judgedFine : ∀ event ∈ pieces.flatMap Program.Piece.log, ¬Fails event := by
          intro event eventMem
          rcases List.mem_flatMap.mp eventMem with ⟨piece, pieceMem, eventMem⟩
          exact (judged piece pieceMem).not_fails event eventMem
        have wrote : ∃ written hasUnits, findIncludeDirs written = keptUnits pieces ∧
            (hasUnits = if keptUnits pieces = [] then str "false" else str "true") ∧
            (writeOutput rt outputPath includeDirFlagsKey written >>= fun _ =>
              writeOutput rt outputPath hasUnitsKey hasUnits).Runs second outcome := by
          dsimp only at ran
          split at ran
          · next none =>
              rw [none, if_pos rfl]
              exact ⟨[], str "false", by rw [findIncludeDirs], rfl, ran⟩
          · next some =>
              rw [if_neg some]
              exact ⟨_, str "true", findIncludeDirs_of_renders (renders_reassembleFlags solid),
                rfl, ran⟩
        rcases wrote with ⟨written, hasUnits, reparses, flagged, ran⟩
        rcases runs_writeOutputs ran with ⟨writesFine, writesLog⟩
        constructor
        · intro returned
          refine ⟨units, pieces, written, hasUnits, extracted, scope, judged, split, ?_, reparses,
            flagged⟩
          rw [writesLog returned]
        · rintro ⟨event, eventMem, fails⟩
          exfalso
          rcases List.mem_cons.mp eventMem with rfl | eventMem
          · exact fails
          · rcases List.mem_append.mp eventMem with early | late
            · exact judgedFine event early fails
            · exact writesFine event late fails

namespace Sample

def freshUnit : Str := str "live/telemetry/us-east-1/sandbox/001/lake"

/-- The state object is there for one unit and absent for every other. -/
def stateReply : (call : FilterCall) → call.Reply Runtime.whole
  | .client _ => .ok ()
  | .render path => .completed 0 (str ("\x7b\"remote_state\":\x7b\"backend\":\"s3\"," ++
      "\"config\":\x7b\"bucket\":\"state\",\"key\":\"") ++ path ++
      str "\"\x7d\x7d\x7d") []
  | .headObject _ _ key =>
      if key = unit then .success
      else .clientError (.obj [(str "Error", .obj [(str "Code", .str (str "NoSuchBucket"))])])
  | .append _ _ => .ok ()

def stateRun : Filter Runtime.whole Unit :=
  run Runtime.whole [] (reassembleFlags [unit, freshUnit]) (str "out")

theorem stateRun_returns : (stateRun.answer stateReply).2.toOption.isSome = true := by
  decide +kernel

theorem extract_stateRun :
    (extractAllUnitPaths (reassembleFlags [unit, freshUnit])).toOption =
      some [unit, freshUnit] := by
  decide +kernel

end Sample

theorem run_skips_only_absent_fresh : ∃ log pieces written hasUnits,
    Filtered Runtime.whole (str "us-east-1") (str "out") [Sample.unit, Sample.freshUnit] log pieces
      written hasUnits := by
  have ran := Program.runs_answer Sample.stateReply Sample.stateRun
  have returns := Sample.stateRun_returns
  have filtered := run_skips_only_absent Runtime.whole [] _ _ ran
  cases ended : (Sample.stateRun.answer Sample.stateReply).2 with
  | error error => simp [ended, Except.toOption] at returns
  | ok value =>
      rcases filtered.1 ended with ⟨units, pieces, written, hasUnits, extracted, filtered⟩
      have units_eq := Sample.extract_stateRun
      rw [extracted] at units_eq
      cases units_eq
      exact ⟨_, pieces, written, hasUnits, filtered⟩

end Deploy
