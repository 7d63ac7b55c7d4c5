import TelemetryPlatform.ScopeOverride.Authorization

/-!
# What a run of the authorization writes

GitHub and the file system of a job as one function that answers every call, and the
verdict of a script under it: the lines it adds to the output, and whether it raises.
Whatever way in a script decides from, its verdict is `settled` by two facts: whether
it saw the override label, and whether the membership of the author it saw is that of
an admin.
-/

namespace ScopeOverride

open Python Interaction

/-- The replies to all calls of a job. -/
abbrev Environment := (call : Call) → call.Reply

def Environment.whichGh (env : Environment) : Option Str := env Call.whichGh

def Environment.gh (env : Environment) (command : List Str) : GhResult := env (Call.gh command)

def Environment.append (env : Environment) (path text : Str) : Except Exc Unit :=
  env (Call.append path text)

structure Verdict where
  written : List Str
  raised : Bool
  deriving DecidableEq

/-- The text a call added to the output. -/
def appended : Event Call Call.Reply → Option Str
  | ⟨.append _ text, .ok ()⟩ => some text
  | _ => none

def verdict {α : Type} (env : Environment) (program : Script α) : Verdict where
  written := (program.answer env).1.filterMap appended
  raised := match (program.answer env).2 with
    | .ok _ => false
    | .error _ => true

def refused : Verdict := ⟨[], true⟩

/-- The verdict of writing a decision, which the output file may refuse. -/
def recorded (env : Environment) (outputPath : Str) (value : Bool) : Verdict :=
  match env.append outputPath (overrideLine value) with
  | .ok () => ⟨[overrideLine value], false⟩
  | .error _ => refused

/-- The verdict of a script that saw a label or did not, for an author who is an admin or not. -/
def settled (env : Environment) (outputPath : Str) (labelled admin : Bool) : Verdict :=
  if labelled then
    if admin then recorded env outputPath true else refused
  else recorded env outputPath false

def isAdmin (env : Environment) (org author : Str) : Bool :=
  match env.whichGh with
  | none => false
  | some binary =>
      match env.gh [binary, str "api", str "orgs/" ++ org ++ str "/memberships/" ++ author,
        str "--jq", str ".role"] with
      | .completed stdout => strip stdout = str "admin"
      | _ => false

variable {α β : Type} {env : Environment} {rt : Runtime} {org author outputPath : Str}

section Rules

@[simp]
theorem verdict_ret (value : α) : verdict env (.ret value) = ⟨[], false⟩ := rfl

@[simp]
theorem verdict_raise (error : OverrideError) : verdict (α := α) env (.raise error) = refused := rfl

theorem verdict_whichGh_bind (next : Option Str → Script α) :
    verdict env (whichGh >>= next) = verdict env (next env.whichGh) := rfl

theorem verdict_runGh_bind (command : List Str) (next : GhResult → Script α) :
    verdict env (runGh command >>= next) = verdict env (next (env.gh command)) := rfl

theorem verdict_appendText_bind (path text : Str) (next : Except Exc Unit → Script α) :
    verdict env (appendText path text >>= next) =
      match env.append path text with
      | .ok () => { verdict env (next (.ok ())) with
          written := text :: (verdict env (next (.ok ()))).written }
      | .error error => verdict env (next (.error error)) := by
  rw [appendText, Program.perform_bind]
  simp only [verdict, Program.answer, Environment.append]
  cases env (Call.append path text) with
  | ok nothing => rfl
  | error error => rfl

theorem verdict_writeOutput_bind (value : Bool) (result : α) :
    verdict env (writeOutput outputPath value >>= fun _ => .ret result) =
      recorded env outputPath value := by
  rw [writeOutput, bind_assoc, verdict_appendText_bind, recorded]
  cases env.append outputPath (overrideLine value) with
  | ok nothing => rfl
  | error error => rfl

theorem verdict_writeOutput (value : Bool) :
    verdict env (writeOutput outputPath value) = recorded env outputPath value := by
  rw [← bind_pure (writeOutput outputPath value)]
  exact verdict_writeOutput_bind value ()

/-- The membership check adds nothing to the output; past it goes only an admin. -/
theorem verdict_isAdminMember_bind (denied : OverrideError) (next : Script α) :
    verdict env (isAdminMember org author >>= fun admin =>
      if !admin then throw denied else next) =
      if isAdmin env org author then verdict env next else refused := by
  rw [isAdminMember, bind_assoc, verdict_whichGh_bind, isAdmin]
  cases env.whichGh with
  | none => rfl
  | some binary =>
      dsimp only
      rw [bind_assoc, verdict_runGh_bind]
      split
      · next stdout replied =>
          simp only [replied]
          by_cases admin : strip stdout = str "admin"
          · simp [admin]
          · simp [admin]
      · next returncode stderr replied =>
          simp only [replied]
          rfl
      · next error replied =>
          simp only [replied]
          rfl

end Rules

section Paths

/-- The verdicts of the authorization: it writes one decision, or it raises and writes nothing. -/
def Settles (env : Environment) (outputPath : Str) (found : Verdict) : Prop :=
  found = refused ∨ ∃ value, found = recorded env outputPath value

theorem settles_settled (labelled admin : Bool) :
    Settles env outputPath (settled env outputPath labelled admin) := by
  cases labelled with
  | false => exact .inr ⟨false, rfl⟩
  | true =>
      cases admin with
      | false => exact .inl rfl
      | true => exact .inr ⟨true, rfl⟩

theorem Settles.written_of_raised {found : Verdict} (settles : Settles env outputPath found)
    (raised : found.raised = true) : found.written = [] := by
  rcases settles with rfl | ⟨value, rfl⟩
  · rfl
  · rw [recorded] at raised ⊢
    cases replied : env.append outputPath (overrideLine value) with
    | ok nothing =>
        rw [replied] at raised
        cases raised
    | error error => rfl

theorem verdict_checkScopeOverride (labels : List Str) :
    verdict env (checkScopeOverride labels author org outputPath) =
      settled env outputPath (decide (scopeOverrideLabel ∈ labels)) (isAdmin env org author) := by
  rw [checkScopeOverride, settled]
  by_cases labelled : scopeOverrideLabel ∈ labels
  · rw [if_neg (not_not_intro labelled), decide_eq_true labelled, if_pos rfl]
    exact (verdict_isAdminMember_bind _ _).trans (by rw [verdict_writeOutput])
  · rw [if_pos labelled, decide_eq_false labelled, verdict_writeOutput]
    rfl

/-- Whether the author of a pull request object is an admin. -/
def authorIsAdmin (env : Environment) (org : Str) (pr : PullObject rt) : Bool :=
  match extractAuthor pr with
  | none => false
  | some author => isAdmin env org author

theorem verdict_authorizePrScopeOverride (pr : PullObject rt) (prDescriptor : Str) :
    verdict env (authorizePrScopeOverride pr org outputPath prDescriptor) =
      settled env outputPath (decide (scopeOverrideLabel ∈ extractLabelNames pr))
        (authorIsAdmin env org pr) := by
  rw [authorizePrScopeOverride, settled]
  by_cases labelled : scopeOverrideLabel ∈ extractLabelNames pr
  · rw [if_neg (not_not_intro labelled), decide_eq_true labelled, if_pos rfl, authorIsAdmin]
    cases extractAuthor pr with
    | none => rfl
    | some author =>
        exact (verdict_isAdminMember_bind _ _).trans (by rw [← verdict_writeOutput_bind]; rfl)
  · rw [if_pos labelled, decide_eq_false labelled]
    exact verdict_writeOutput_bind false false

/-- `gh` prints a document for an endpoint. -/
def Prints (rt : Runtime) (env : Environment) (endpoint : Str) (document : rt.Value) : Prop :=
  ∃ binary stdout, env.whichGh = some binary ∧
    env.gh [binary, str "api", endpoint] = .completed stdout ∧ strip stdout ≠ [] ∧
      rt.loads (strip stdout) = .ok document

theorem verdict_ghJson_bind {endpoint : Str} {document : rt.Value} {failed : Int → Str → Str}
    {unparsed : Str → Str} {next : Option rt.Value → Script α}
    (prints : Prints rt env endpoint document) :
    verdict env (ghJson rt endpoint failed unparsed >>= next) =
      verdict env (next (some document)) := by
  rcases prints with ⟨binary, stdout, found, completed, nonempty, loaded⟩
  rw [ghJson, bind_assoc, verdict_whichGh_bind, found]
  dsimp only
  rw [bind_assoc, verdict_runGh_bind, completed]
  simp only [nonempty, if_false, loaded]
  rfl

/-- Without a document that can be read, a lookup raises. -/
theorem verdict_ghJson_bind_cases {endpoint : Str} {failed : Int → Str → Str}
    {unparsed : Str → Str} {next : Option rt.Value → Script α} :
    verdict env (ghJson rt endpoint failed unparsed >>= next) = refused ∨
      ∃ document, verdict env (ghJson rt endpoint failed unparsed >>= next) =
        verdict env (next document) := by
  rw [ghJson, bind_assoc, verdict_whichGh_bind]
  cases env.whichGh with
  | none => exact .inl rfl
  | some binary =>
      dsimp only
      rw [bind_assoc, verdict_runGh_bind]
      split
      · exact .inl rfl
      · exact .inl rfl
      · next stdout replied =>
          split
          · exact .inr ⟨none, rfl⟩
          · split
            · next document loaded => exact .inr ⟨some document, rfl⟩
            · exact .inl rfl
            · exact .inl rfl

end Paths

end ScopeOverride
