import TelemetryPlatform.Library.Grouping
import TelemetryPlatform.Library.WholeRuntime
import TelemetryPlatform.ScopeOverride.Verdict

/-!
# The three ways in

The same pull request reaches the authorization as the JSON array of its label names
and a login, as a number inside a ref of the merge queue, and as an element of the
list of pull requests a commit belongs to. `SameDecision` says that the verdicts are
the same and right for that pull request. The push path takes the first element of
the list for the merged pull request, and so the property holds when that element
would be decided alike, which `Faithful` spells out.
-/

namespace ScopeOverride

open Python

section Encodings

/-- A pull request, with the names of its labels and the login of its author. -/
structure PullRequest where
  number : Nat
  labels : List Str
  author : Str

/-- The scripts compare label names without the white space around them. -/
def PullRequest.CarriesOverride (pr : PullRequest) : Prop :=
  ∃ name ∈ pr.labels, strip name = scopeOverrideLabel

variable (rt : Runtime)

/-- A label object of the API. -/
def IsLabel (label : rt.Value) (name : Str) : Prop :=
  ∃ entries, label = .obj entries ∧ dictGet? entries (str "name") = some (.str name)

/-- A pull request object of the API. -/
def Describes (object : rt.Value) (pr : PullRequest) : Prop :=
  ∃ entries labels user, object = .obj entries ∧
    dictGet? entries (str "labels") = some (.arr labels) ∧
    List.Forall₂ (IsLabel rt) labels pr.labels ∧
    dictGet? entries (str "user") = some (.obj user) ∧
    dictGet? user (str "login") = some (.str pr.author)

def natText (n : Nat) : Str := (Nat.toDigits 10 n).map .char

/-- The head ref of a pull request in the merge queue of a branch. -/
def mergeGroupRef (base sha : Str) (number : Nat) : Str :=
  str "gh-readonly-queue/" ++ base ++ str "/pr-" ++ natText number ++ str "-" ++ sha

/-- What the three events and `gh` say about a pull request. The push event names a commit of it
and of others, which `gh` may list in any order. -/
structure Reported (env : Environment) (repo rawLabels sha commitSha : Str) (pr : PullRequest)
    (first : PullRequest) (others : List PullRequest) : Prop where
  opens : (str "[").isPrefixOf (strip rawLabels) = true
  payload : rt.loads (strip rawLabels) = .ok (.arr (pr.labels.map .str))
  shaSome : sha ≠ []
  shaHex : ∀ c ∈ sha, isHexDigit c = true
  queued : ∃ object, Prints rt env (str "repos/" ++ repo ++ str "/pulls/" ++ natText pr.number)
    object ∧ Describes rt object pr
  listed : ∃ objects, Prints rt env
    (str "repos/" ++ repo ++ str "/commits/" ++ commitSha ++ str "/pulls") (.arr objects) ∧
      List.Forall₂ (Describes rt) objects (first :: others)
  merged : pr ∈ first :: others

variable {rt} {object : rt.Value} {pr : PullRequest}

theorem mem_nonEmptyStripped {texts : List Str} :
    scopeOverrideLabel ∈ nonEmptyStripped texts ↔ ∃ text ∈ texts,
        strip text = scopeOverrideLabel := by
  rw [nonEmptyStripped, List.mem_filter, List.mem_map]
  exact and_iff_left (by decide)

theorem mapM_strOf (labels : List Str) :
    (labels.map fun label => (.str label : rt.Value)).mapM rt.strOf = .ok labels := by
  induction labels with
  | nil => rfl
  | cons label rest ih =>
      rw [List.map_cons, List.mapM_cons, ih]
      rfl

theorem parseLabels_eq {rawLabels : Str} {labels : List Str}
    (opens : (str "[").isPrefixOf (strip rawLabels) = true)
    (payload : rt.loads (strip rawLabels) = .ok (.arr (labels.map .str))) :
    parseLabels rt rawLabels = .ok (nonEmptyStripped labels) := by
  rw [parseLabels, if_pos opens, payload]
  change ((labels.map fun label => (.str label : rt.Value)).mapM rt.strOf >>= fun _ => _) = _
  rw [mapM_strOf]
  rfl

theorem labelName_eq {label : rt.Value} {name : Str} (isLabel : IsLabel rt label name) :
    labelName label = if strip name ≠ [] then some (strip name) else none := by
  rcases isLabel with ⟨entries, rfl, named⟩
  simp only [labelName, named]

theorem filterMap_labelName {labels : List rt.Value} {names : List Str}
    (each : List.Forall₂ (IsLabel rt) labels names) :
    labels.filterMap labelName = nonEmptyStripped names := by
  induction each with
  | nil => rfl
  | @cons label name labels names isLabel others ih =>
      rw [List.filterMap_cons, labelName_eq isLabel, ih]
      by_cases blank : strip name = []
      · simp [nonEmptyStripped, blank]
      · simp [nonEmptyStripped, blank]

instance : Decidable pr.CarriesOverride := inferInstanceAs (Decidable (∃ name ∈ _, _))

/-- Whether a login without the white space around it is that of an admin. -/
def loginIsAdmin (env : Environment) (org login : Str) : Bool :=
  decide (strip login ≠ []) && isAdmin env org (strip login)

/-- What the scripts read off a pull request object. -/
theorem extract_of_describes (describes : Describes rt object pr) :
    ∃ entries, object = .obj entries ∧
      (scopeOverrideLabel ∈ extractLabelNames entries ↔ pr.CarriesOverride) ∧
      ∀ env org, authorIsAdmin env org entries = loginIsAdmin env org pr.author := by
  rcases describes with ⟨entries, labels, user, rfl, labelled, each, authored, login⟩
  refine ⟨entries, rfl, ?_, ?_⟩
  · simp only [extractLabelNames, labelled, filterMap_labelName each]
    exact mem_nonEmptyStripped
  · intro env org
    simp only [authorIsAdmin, extractAuthor, authored, login, loginIsAdmin]
    by_cases blank : strip pr.author = []
    · simp [blank]
    · simp [blank]

end Encodings

section Ref

variable {rt : Runtime} (digits : DigitClass)

theorem slash_not_mem_of_matchQueuedPr {text number : Str}
    (found : matchQueuedPr digits text = some number) : .char '/' ∉ text := by
  simp only [matchQueuedPr, Option.bind_eq_bind, Option.bind_eq_some_iff] at found
  rcases found with ⟨rest, opened, sha, dashed, checked⟩
  rcases Option.ite_none_right_eq_some.mp checked with ⟨⟨_, _, hex⟩, _⟩
  rw [dropPrefix?_eq_some.mp opened]
  have split := List.takeWhile_append_dropWhile (p := digits.holds) (l := rest)
  rw [dropPrefix?_eq_some.mp dashed] at split
  rw [← split]
  intro slashMem
  simp only [List.mem_append] at slashMem
  rcases slashMem with inOpener | inNumber | inDash | inSha
  · revert inOpener
    decide
  · have isDigit := List.mem_takeWhile_imp inNumber
    rw [digits.ascii _ (by decide)] at isDigit
    revert isDigit
    decide
  · revert inDash
    decide
  · have allHex := List.all_eq_true.mp hex (.char '/')
    split at allHex
    · next newline =>
        have whole := List.dropLast_append_getLast? _ newline
        rw [← whole, List.mem_append] at inSha
        rcases inSha with inHex | inNewline
        · exact absurd (allHex inHex) (by decide)
        · revert inNewline
          decide
    · exact absurd (allHex inSha) (by decide)

theorem findSome?_tails_append {found : Str → Option Str} {front tail : Str}
    (misses : ∀ skipped rest, front = skipped ++ rest → rest ≠ [] → found (rest ++ tail) = none) :
    (front ++ tail).tails.findSome? found = tail.tails.findSome? found := by
  induction front with
  | nil => rfl
  | cons c front ih =>
      have here := misses [] (c :: front) rfl (List.cons_ne_nil c front)
      rw [List.cons_append] at here ⊢
      rw [List.tails_cons, List.findSome?_cons, here]
      exact ih fun skipped rest split nonempty => misses (c :: skipped) rest
        (by rw [split]; rfl) nonempty

theorem spanDigits_natText (n : Nat) : spanDigits (natText n) = (Nat.toDigits 10 n, []) := by
  have ends : NoDigitHead [] := fun c rest nothing => absurd nothing (by simp)
  have each : ∀ c ∈ Nat.toDigits 10 n, IsDigit c := fun c cMem => isDigit_of_mem_toDigits cMem
  have read := spanDigits_append each ends
  rwa [List.append_nil] at read

/-- `int` of a numeral. -/
theorem intOfDigits_natText (n : Nat) : intOfDigits rt (natText n) =
    if rt.intMaxStrDigits < (natText n).length then .error (.valueError (str "int"))
    else .ok (n : Int) := by
  rw [intOfDigits, spanDigits_natText, natText, List.length_map]
  have nonempty := Nat.toDigits_ne_nil (n := n) (b := 10)
  have value := digitsValue_toDigits n
  cases written : Nat.toDigits 10 n with
  | nil => exact absurd written nonempty
  | cons c rest =>
      rw [written] at value
      dsimp only
      rw [value]

theorem not_isSpace_of_hex {c : Chr} (hex : isHexDigit c = true) : isSpace c = false := by
  simp only [isHexDigit, Bool.or_eq_true, Bool.and_eq_true, decide_eq_true_eq] at hex
  rw [isSpace, decide_eq_false_iff_not]
  intro listed
  simp only [List.mem_cons, List.not_mem_nil, or_false] at listed
  omega

theorem parsePrNumberFromMergeGroupRef_eq {base sha : Str} {number : Nat} (shaSome : sha ≠ [])
    (shaHex : ∀ c ∈ sha, isHexDigit c = true) :
    parsePrNumberFromMergeGroupRef rt digits (mergeGroupRef base sha number) =
      (intOfDigits rt (natText number)).mapError .builtin := by
  have opens : mergeGroupRef base sha number =
      (str "gh-readonly-queue/" ++ base ++ str "/") ++
        (str "pr-" ++ (natText number ++ (str "-" ++ sha))) := by
    simp only [mergeGroupRef, List.append_assoc]
    rfl
  have stripped : strip (mergeGroupRef base sha number) = mergeGroupRef base sha number := by
    have lastSolid := not_isSpace_of_hex (shaHex _ (List.getLast_mem shaSome))
    have firstSolid : isSpace (.char 'g') = false := by decide
    have whole := strip_eq_self (str "h-readonly-queue/" ++ base ++ str "/pr-" ++
      natText number ++ str "-" ++ sha.dropLast) firstSolid lastSolid
    simp only [List.cons_append, List.append_assoc, List.dropLast_append_getLast] at whole
    simp only [mergeGroupRef, List.append_assoc]
    exact whole
  have digitsOnly : ∀ c ∈ natText number, digits.holds c = true := by
    intro c cMem
    rcases List.mem_map.mp cMem with ⟨char, charMem, rfl⟩
    have isDigit := Nat.isDigit_of_mem_toDigits (by decide) (by decide) charMem
    simp only [Char.isDigit, Bool.and_eq_true, decide_eq_true_eq] at isDigit
    have range : 0x30 ≤ char.toNat ∧ char.toNat ≤ 0x39 := isDigit
    rw [digits.ascii _ (by change char.toNat < 0x80; omega)]
    exact decide_eq_true range
  have here : matchQueuedPr digits (str "pr-" ++ (natText number ++ (str "-" ++ sha))) =
      some (natText number) := by
    have dashNot : digits.holds (.char '-') ≠ true := by
      rw [digits.ascii _ (by decide)]
      decide
    have taken : (natText number ++ (str "-" ++ sha)).takeWhile digits.holds = natText number := by
      rw [List.takeWhile_append_of_pos digitsOnly]
      simp [str, dashNot]
    have dropped : (natText number ++ (str "-" ++ sha)).dropWhile digits.holds = str
        "-" ++ sha := by
      rw [List.dropWhile_append_of_pos digitsOnly]
      simp [str, dashNot]
    have noNewline : sha.getLast? ≠ some (.char '\n') := by
      intro newline
      exact absurd (shaHex _ (List.mem_of_getLast? newline)) (by decide)
    have numberSome : natText number ≠ [] := by
      rw [natText, ne_eq, List.map_eq_nil_iff]
      exact Nat.toDigits_ne_nil
    simp only [matchQueuedPr, dropPrefix?_eq_some.mpr rfl, Option.bind_eq_bind, Option.bind_some,
      dropped, taken, if_neg noNewline]
    exact if_pos ⟨numberSome, shaSome, List.all_eq_true.mpr shaHex⟩
  have later : ∀ skipped rest, str "gh-readonly-queue/" ++ base ++ str "/" = skipped ++ rest →
      rest ≠ [] → matchQueuedPr digits
        (rest ++ (str "pr-" ++ (natText number ++ (str "-" ++ sha)))) = none := by
    intro skipped rest split nonempty
    rw [Option.eq_none_iff_forall_ne_some]
    intro found matched
    refine slash_not_mem_of_matchQueuedPr digits matched ?_
    have last := congrArg List.getLast? split
    rw [List.getLast?_append_of_ne_nil _ nonempty] at last
    refine List.mem_append_left _ (List.mem_of_getLast? (last.symm.trans ?_))
    exact List.getLast?_concat ..
  rw [parsePrNumberFromMergeGroupRef, stripped, opens, findSome?_tails_append later]
  rw [show str "pr-" = .char 'p' :: str "r-" from rfl, List.cons_append] at here ⊢
  rw [List.tails_cons, List.findSome?_cons, here]

end Ref

section Decision

variable (rt : Runtime) (digits : DigitClass) (env : Environment)
variable (org repo outputPath rawLabels base sha commitSha : Str)
variable (pr first : PullRequest) (others : List PullRequest)

def payloadVerdict : Verdict := verdict env (checkPayload rt rawLabels pr.author org outputPath)

def queueVerdict : Verdict :=
  verdict env (resolveMergeGroupScopeOverride rt digits (mergeGroupRef base sha pr.number) repo org
    outputPath)

def pushVerdict : Verdict := verdict env (resolvePushScopeOverride rt commitSha repo org outputPath)

/-- A verdict that is right for a pull request. -/
structure RightFor (found : Verdict) : Prop where
  granted : overrideLine true ∈ found.written →
    pr.CarriesOverride ∧ isAdmin env org pr.author = true
  denied : overrideLine false ∈ found.written → ¬pr.CarriesOverride
  silent : found.raised = true → found.written = []

/-- The three ways in decide alike, and rightly. -/
structure SameDecision : Prop where
  payload : RightFor env org pr (payloadVerdict rt env org outputPath rawLabels pr)
  queue : RightFor env org pr (queueVerdict rt digits env org repo outputPath base sha pr)
  push : RightFor env org pr (pushVerdict rt env org repo outputPath commitSha)
  queueSame : queueVerdict rt digits env org repo outputPath base sha pr =
    payloadVerdict rt env org outputPath rawLabels pr
  pushSame : pushVerdict rt env org repo outputPath commitSha =
    payloadVerdict rt env org outputPath rawLabels pr

/-- The pull request looks the same from the three sides: the first of the listed pull requests has
the label when this one has it, and then its author is an admin when this one's is; a login with
white space around it would do; and a number that `int` does not convert is refused anyway. -/
structure Faithful : Prop where
  label : first.CarriesOverride ↔ pr.CarriesOverride
  firstAuthor : pr.CarriesOverride →
    loginIsAdmin env org first.author = isAdmin env org pr.author
  author : (natText pr.number).length ≤ rt.intMaxStrDigits → pr.CarriesOverride →
    loginIsAdmin env org pr.author = isAdmin env org pr.author
  number : rt.intMaxStrDigits < (natText pr.number).length →
    pr.CarriesOverride ∧ isAdmin env org pr.author = false

variable {rt digits env org repo outputPath rawLabels base sha commitSha pr first others}

theorem payloadVerdict_eq
    (reported : Reported rt env repo rawLabels sha commitSha pr first others) :
    payloadVerdict rt env org outputPath rawLabels pr =
      settled env outputPath (decide pr.CarriesOverride) (isAdmin env org pr.author) := by
  rw [payloadVerdict, checkPayload, parseLabels_eq reported.opens reported.payload]
  refine (verdict_checkScopeOverride _).trans ?_
  rw [decide_eq_decide.mpr mem_nonEmptyStripped]
  rfl

theorem verdict_authorize_of_describes {object : rt.Value} (describes : Describes rt object pr) :
    ∃ entries, object = .obj entries ∧ ∀ descriptor,
      verdict env (authorizePrScopeOverride entries org outputPath descriptor) =
        settled env outputPath (decide pr.CarriesOverride) (loginIsAdmin env org pr.author) := by
  rcases extract_of_describes describes with ⟨entries, rfl, labelled, authored⟩
  refine ⟨entries, rfl, ?_⟩
  intro descriptor
  rw [verdict_authorizePrScopeOverride, authored, decide_eq_decide.mpr labelled]

theorem pushVerdict_eq
    (reported : Reported rt env repo rawLabels sha commitSha pr first others) :
    pushVerdict rt env org repo outputPath commitSha =
      settled env outputPath (decide first.CarriesOverride)
        (loginIsAdmin env org first.author) := by
  rcases reported.listed with ⟨objects, prints, each⟩
  cases each with
  | cons describes others =>
      rcases verdict_authorize_of_describes describes with ⟨entries, rfl, authorized⟩
      rw [pushVerdict, resolvePushScopeOverride, fetchMergedPr, bind_assoc,
        verdict_ghJson_bind prints]
      exact authorized _

theorem queueVerdict_eq
    (reported : Reported rt env repo rawLabels sha commitSha pr first others) :
    queueVerdict rt digits env org repo outputPath base sha pr =
      if rt.intMaxStrDigits < (natText pr.number).length then refused
      else settled env outputPath (decide pr.CarriesOverride)
        (loginIsAdmin env org pr.author) := by
  rcases reported.queued with ⟨object, prints, describes⟩
  rcases verdict_authorize_of_describes describes with ⟨entries, rfl, authorized⟩
  rw [queueVerdict, resolveMergeGroupScopeOverride,
    parsePrNumberFromMergeGroupRef_eq digits reported.shaSome reported.shaHex, intOfDigits_natText]
  split
  · rfl
  · have numeral : (Runtime.intText (pr.number : Int)).map .char = natText pr.number := by
      have natural : ¬(pr.number : Int) < 0 := by omega
      rw [Runtime.intText, if_neg natural, Int.natAbs_natCast]
      rfl
    change verdict env (fetchPrByNumber rt repo pr.number >>= _) = _
    rw [fetchPrByNumber, numeral, bind_assoc, verdict_ghJson_bind prints]
    exact authorized _

theorem overrideLine_ne : overrideLine true ≠ overrideLine false := by decide

/-- What a verdict of the authorization says when the output takes it. -/
theorem mem_written_settled {labelled admin value : Bool}
    (lineMem : overrideLine value ∈ (settled env outputPath labelled admin).written) :
    if value then labelled = true ∧ admin = true else labelled = false := by
  cases labelled with
  | false =>
      rw [settled, if_neg (by decide), recorded] at lineMem
      cases replied : env.append outputPath (overrideLine false) with
      | error error =>
          rw [replied] at lineMem
          cases lineMem
      | ok nothing =>
          rw [replied, List.mem_singleton] at lineMem
          cases value with
          | false => rfl
          | true => exact absurd lineMem overrideLine_ne
  | true =>
      cases admin with
      | false => cases lineMem
      | true =>
          change _ ∈ (recorded env outputPath true).written at lineMem
          rw [recorded] at lineMem
          cases replied : env.append outputPath (overrideLine true) with
          | error error =>
              rw [replied] at lineMem
              cases lineMem
          | ok nothing =>
              rw [replied, List.mem_singleton] at lineMem
              cases value with
              | false => exact absurd lineMem.symm overrideLine_ne
              | true => exact ⟨rfl, rfl⟩

theorem rightFor_settled : RightFor env org pr (settled env outputPath
    (decide pr.CarriesOverride) (isAdmin env org pr.author)) where
  granted lineMem := by
    have shown := mem_written_settled lineMem
    rw [if_pos rfl] at shown
    exact ⟨of_decide_eq_true shown.1, shown.2⟩
  denied lineMem := by
    have shown := mem_written_settled lineMem
    rw [if_neg (by decide)] at shown
    exact of_decide_eq_false shown
  silent := (settles_settled _ _).written_of_raised

/-- When the output takes both lines, the verdict tells the label and, behind it, the author. -/
theorem settled_inj (writable : ∀ value, env.append outputPath (overrideLine value) = .ok ())
    {labelled admin labelled' admin' : Bool} :
    settled env outputPath labelled admin = settled env outputPath labelled' admin' ↔
      labelled = labelled' ∧ (labelled = true → admin = admin') := by
  cases labelled <;> cases labelled' <;> cases admin <;> cases admin' <;>
    simp [settled, recorded, writable, refused, overrideLine_ne, overrideLine_ne.symm]

theorem settled_eq_refused_iff
    (writable : ∀ value, env.append outputPath (overrideLine value) = .ok ())
    {labelled admin : Bool} :
    refused = settled env outputPath labelled admin ↔ labelled = true ∧ admin = false := by
  cases labelled <;> cases admin <;> simp [settled, recorded, writable, refused]

theorem sameDecision_of_faithful
    (reported : Reported rt env repo rawLabels sha commitSha pr first others)
    (faithful : Faithful rt env org pr first) :
    SameDecision rt digits env org repo outputPath rawLabels base sha commitSha pr := by
  have payload : payloadVerdict rt env org outputPath rawLabels pr =
      settled env outputPath (decide pr.CarriesOverride) (isAdmin env org pr.author) :=
    payloadVerdict_eq reported
  have right : RightFor env org pr (settled env outputPath (decide pr.CarriesOverride)
      (isAdmin env org pr.author)) := rightFor_settled
  have queueSame : queueVerdict rt digits env org repo outputPath base sha pr =
      payloadVerdict rt env org outputPath rawLabels pr := by
    rw [queueVerdict_eq reported, payload]
    split
    · next long =>
        rcases faithful.number long with ⟨labelled, notAdmin⟩
        rw [settled, decide_eq_true labelled, notAdmin]
        rfl
    · next short =>
        by_cases labelled : pr.CarriesOverride
        · rw [faithful.author (by omega) labelled]
        · rw [settled, settled, decide_eq_false labelled]
          rfl
  have pushSame : pushVerdict rt env org repo outputPath commitSha =
      payloadVerdict rt env org outputPath rawLabels pr := by
    rw [pushVerdict_eq reported, payload, decide_eq_decide.mpr faithful.label]
    by_cases labelled : pr.CarriesOverride
    · rw [faithful.firstAuthor labelled]
    · rw [settled, settled, decide_eq_false labelled]
      rfl
  refine ⟨?_, ?_, ?_, queueSame, pushSame⟩
  · rw [payload]
    exact right
  · rw [queueSame, payload]
    exact right
  · rw [pushSame, payload]
    exact right

theorem faithful_of_sameDecision
    (reported : Reported rt env repo rawLabels sha commitSha pr first others)
    (writable : ∀ value, env.append outputPath (overrideLine value) = .ok ())
    (same : SameDecision rt digits env org repo outputPath rawLabels base sha commitSha pr) :
    Faithful rt env org pr first := by
  have push := same.pushSame
  have queue := same.queueSame
  rw [pushVerdict_eq reported, payloadVerdict_eq reported, settled_inj writable] at push
  rw [queueVerdict_eq reported, payloadVerdict_eq reported] at queue
  have label := decide_eq_decide.mp push.1
  refine ⟨label, ?_, ?_, ?_⟩
  · intro labelled
    exact push.2 (decide_eq_true (label.mpr labelled))
  · intro short labelled
    rw [if_neg (by omega), settled_inj writable] at queue
    exact queue.2 (decide_eq_true labelled)
  · intro long
    rw [if_pos long, settled_eq_refused_iff writable] at queue
    exact ⟨of_decide_eq_true queue.1, queue.2⟩

/-- Whatever `gh` replies, a script that raises has written nothing. -/
theorem written_of_raised {author mergeGroupRef : Str} {found : Verdict}
    (ran : found ∈ [verdict env (checkPayload rt rawLabels author org outputPath),
      verdict env (resolveMergeGroupScopeOverride rt digits mergeGroupRef repo org outputPath),
      verdict env (resolvePushScopeOverride rt commitSha repo org outputPath)])
    (raised : found.raised = true) : found.written = [] := by
  refine @Settles.written_of_raised env outputPath _ ?_ raised
  simp only [List.mem_cons, List.not_mem_nil, or_false] at ran
  rcases ran with rfl | rfl | rfl
  · rw [checkPayload]
    cases parseLabels rt rawLabels with
    | error error => exact .inl rfl
    | ok labels =>
        change Settles _ _ (verdict env (checkScopeOverride labels author org outputPath))
        rw [verdict_checkScopeOverride]
        exact settles_settled _ _
  · rw [resolveMergeGroupScopeOverride]
    cases parsePrNumberFromMergeGroupRef rt digits mergeGroupRef with
    | error error => exact .inl rfl
    | ok number =>
        change Settles _ _ (verdict env (fetchPrByNumber rt repo number >>= _))
        rw [fetchPrByNumber, bind_assoc]
        rcases verdict_ghJson_bind_cases with refuses | ⟨document, continues⟩
        · rw [refuses]
          exact .inl rfl
        · rw [continues]
          cases document with
          | none => exact .inl rfl
          | some document =>
              cases document with
              | obj entries =>
                  change Settles _ _ (verdict env (authorizePrScopeOverride entries org _ _))
                  rw [verdict_authorizePrScopeOverride]
                  exact settles_settled _ _
              | _ => exact .inl rfl
  · rw [resolvePushScopeOverride, fetchMergedPr, bind_assoc]
    rcases verdict_ghJson_bind_cases with refuses | ⟨document, continues⟩
    · rw [refuses]
      exact .inl rfl
    · rw [continues]
      split
      · split
        · next entries =>
            change Settles _ _ (verdict env (authorizePrScopeOverride entries org _ _))
            rw [verdict_authorizePrScopeOverride]
            exact settles_settled _ _
        · exact .inl rfl
      · exact .inr ⟨false, verdict_writeOutput_bind false false⟩

/-- The three ways in decide alike exactly when the pull request looks the same from each of them,
the first of the listed pull requests included; whatever `gh` replies, a script that raises has
written nothing. -/
theorem sameDecision_iff
    (reported : Reported rt env repo rawLabels sha commitSha pr first others) :
    (Faithful rt env org pr first →
      SameDecision rt digits env org repo outputPath rawLabels base sha commitSha pr) ∧
    ((∀ value, env.append outputPath (overrideLine value) = .ok ()) →
      SameDecision rt digits env org repo outputPath rawLabels base sha commitSha pr →
        Faithful rt env org pr first) ∧
    ∀ (env : Environment) (rawLabels author mergeGroupRef commitSha : Str),
      ∀ found ∈ [verdict env (checkPayload rt rawLabels author org outputPath),
        verdict env (resolveMergeGroupScopeOverride rt digits mergeGroupRef repo org outputPath),
        verdict env (resolvePushScopeOverride rt commitSha repo org outputPath)],
      found.raised = true → found.written = [] :=
  ⟨sameDecision_of_faithful reported, faithful_of_sameDecision reported,
    fun _ _ _ _ _ _ ran raised => written_of_raised ran raised⟩

end Decision

section Sample

/-- A pull request of an admin that has the override label. -/
def Sample.labelled : PullRequest := ⟨9, [scopeOverrideLabel], str "alice"⟩

/-- A pull request that has no label. -/
def Sample.plain : PullRequest := ⟨7, [], str "bob"⟩

def Sample.labelledText : Str :=
  str ("\x7b\"labels\":[\x7b\"name\":\"detect-scope-override\"\x7d]," ++
    "\"user\":\x7b\"login\":\"alice\"\x7d\x7d")

def Sample.plainText : Str := str "\x7b\"labels\":[],\"user\":\x7b\"login\":\"bob\"\x7d\x7d"

def Sample.labelledObject : Json Int :=
  .obj [(str "labels", .arr [.obj [(str "name", .str scopeOverrideLabel)]]),
    (str "user", .obj [(str "login", .str (str "alice"))])]

def Sample.plainObject : Json Int :=
  .obj [(str "labels", .arr []), (str "user", .obj [(str "login", .str (str "bob"))])]

def Sample.listText : Str :=
  str "[" ++ Sample.labelledText ++ str "," ++ Sample.plainText ++ str "]\n"

def Sample.repo : Str := str "example-org/telemetry-platform"

def Sample.pullCommand : List Str :=
  [str "gh", str "api", str "repos/" ++ Sample.repo ++ str "/pulls/" ++ natText 7]

def Sample.commitCommand : List Str :=
  [str "gh", str "api", str "repos/" ++ Sample.repo ++ str "/commits/" ++ str "c0ffee" ++
    str "/pulls"]

/-- The replies of a repository in which a commit belongs to both pull requests. -/
def Sample.gh (command : List Str) : GhResult :=
  if command = Sample.pullCommand then .completed Sample.plainText
  else if command = Sample.commitCommand then .completed Sample.listText
  else if command = [str "gh", str "api", str "orgs/example-org/memberships/alice", str "--jq",
      str ".role"] then .completed (str "admin\n")
  else .calledProcessError 1 (str "gh: Not Found (HTTP 404)")

def Sample.environment : Environment
  | .whichGh => some (str "gh")
  | .gh command => Sample.gh command
  | .append _ _ => .ok ()

theorem Sample.gh_pullCommand : Sample.gh Sample.pullCommand = .completed Sample.plainText :=
  if_pos rfl

theorem Sample.gh_commitCommand : Sample.gh Sample.commitCommand = .completed Sample.listText := by
  have other : Sample.commitCommand ≠ Sample.pullCommand := by decide +kernel
  rw [Sample.gh, if_neg other, if_pos rfl]

theorem Sample.describes_labelled : Describes Runtime.whole Sample.labelledObject Sample.labelled :=
  ⟨_, _, _, rfl, rfl, .cons ⟨_, rfl, rfl⟩ .nil, rfl, rfl⟩

theorem Sample.describes_plain : Describes Runtime.whole Sample.plainObject Sample.plain :=
  ⟨_, _, _, rfl, rfl, .nil, rfl, rfl⟩

theorem Sample.reported : Reported Runtime.whole Sample.environment Sample.repo (str "[]")
    (str "1edfc05") (str "c0ffee") Sample.plain Sample.labelled [Sample.plain] where
  opens := by decide +kernel
  payload := loads_of_loadsTo (by decide +kernel)
  shaSome := by decide
  shaHex := by decide +kernel
  queued := ⟨Sample.plainObject, ⟨str "gh", Sample.plainText, rfl,
    Sample.gh_pullCommand, by decide +kernel, loads_of_loadsTo (by decide +kernel)⟩,
    Sample.describes_plain⟩
  listed := ⟨[Sample.labelledObject, Sample.plainObject],
    ⟨str "gh", Sample.listText, rfl, Sample.gh_commitCommand, by decide +kernel,
      loads_of_loadsTo (by decide +kernel)⟩,
    .cons Sample.describes_labelled (.cons Sample.describes_plain .nil)⟩
  merged := List.mem_cons_of_mem _ List.mem_cons_self

/-- The witness: the push path does not decide for this pull request as the others do. -/
theorem sameDecision_iff_sample : ¬SameDecision Runtime.whole DigitClass.latin Sample.environment
    (str "example-org") Sample.repo (str "out") (str "[]") (str "main") (str "1edfc05")
    (str "c0ffee") Sample.plain := by
  intro same
  have faithful := (sameDecision_iff Sample.reported).2.1 (fun _ => rfl) same
  have labelled : Sample.labelled.CarriesOverride := by decide +kernel
  have plain : ¬Sample.plain.CarriesOverride := by decide +kernel
  exact plain (faithful.label.mp labelled)

/-- The merged pull request has no label, and its push is granted the override: the first of the
listed pull requests has the label, and its author is an admin. -/
theorem pushVerdict_grants_other :
    Reported Runtime.whole Sample.environment Sample.repo (str "[]") (str "1edfc05")
        (str "c0ffee") Sample.plain Sample.labelled [Sample.plain] ∧
      ¬Sample.plain.CarriesOverride ∧
      pushVerdict Runtime.whole Sample.environment (str "example-org") Sample.repo (str "out")
        (str "c0ffee") = ⟨[overrideLine true], false⟩ ∧
      ¬SameDecision Runtime.whole DigitClass.latin Sample.environment (str "example-org")
        Sample.repo (str "out") (str "[]") (str "main") (str "1edfc05") (str "c0ffee")
        Sample.plain := by
  have plain : ¬Sample.plain.CarriesOverride := by decide +kernel
  have pushed : pushVerdict Runtime.whole Sample.environment (str "example-org") Sample.repo
      (str "out") (str "c0ffee") = ⟨[overrideLine true], false⟩ := by decide +kernel
  refine ⟨Sample.reported, plain, pushed, ?_⟩
  intro same
  have granted := same.push.granted
  rw [pushed] at granted
  exact plain (granted (List.mem_singleton.mpr rfl)).1

end Sample

end ScopeOverride
