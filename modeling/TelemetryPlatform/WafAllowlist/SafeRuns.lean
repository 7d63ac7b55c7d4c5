import TelemetryPlatform.WafAllowlist.Effects

/-!
# Runs of `apply` beside each other

What a run of `apply` may rely on when other runs and other clients use the service between
its calls, and what it guarantees. The rules follow the functions of the script: each of
them says what has been achieved when the function returns, and what has happened when it
raises. Where calls may fail by themselves, they may have had their effect all the same.
-/

namespace WafAllowlist

open Python Interaction Transition

variable {rt : Runtime}

section Rely

/-- Every rule with the name allows the addresses of the IPSet. -/
def Refers (ruleName : Str) (s : WafState rt) : Prop :=
  ∀ rule ∈ s.acl.settings.rulesNamed ruleName,
    ∃ ipSet, s.ipSet = some ipSet ∧ rule = buildAllowRule ruleName rule.priority ipSet.arn

/-- An IPSet has the name. -/
def Named (ipsetName : Str) (s : WafState rt) : Prop :=
  ∀ ipSet, s.ipSet = some ipSet → ipSet.name = ipsetName

/-- What the runs rely on, and what each of their calls keeps to. -/
structure Keeps (names : Str × Str) (reserved : Int → Prop) (s s' : WafState rt) : Prop where
  grows : Grows names.2 reserved s s'
  refers : Refers names.2 s → Refers names.2 s'
  stays : s.acl.settings.rulesNamed names.2 ⊆ s'.acl.settings.rulesNamed names.2
  named : Named names.1 s → Named names.1 s'

variable {ipsetName ruleName : Str} {names : Str × Str} {reserved : Int → Prop}
  {a b c s s' : WafState rt}

theorem Keeps.refl (s : WafState rt) : Keeps names reserved s s :=
  ⟨.refl s, id, List.Subset.refl _, id⟩

theorem Keeps.trans (first : Keeps names reserved a b) (second : Keeps names reserved b c) :
    Keeps names reserved a c :=
  ⟨first.grows.trans second.grows, second.refers ∘ first.refers,
    List.Subset.trans first.stays second.stays, second.named ∘ first.named⟩

theorem OtherEdit.keeps (edit : OtherEdit names.2 reserved a b) : Keeps names reserved a b := by
  refine ⟨edit.grows, ?_, ?_, ?_⟩
  · rcases edit with ⟨settings, kept, -, rfl⟩
    intro refers rule ruleMem
    apply refers rule
    rw [← kept]
    exact ruleMem
  · rcases edit with ⟨settings, kept, -, rfl⟩
    rw [kept]
    exact List.Subset.refl _
  · rcases edit with ⟨settings, -, -, rfl⟩
    exact id

/-- An IPSet with the summary has the addresses. -/
def Holds (summary : Summary) (addresses : List Str) (s : WafState rt) : Prop :=
  ∃ ipSet, s.ipSet = some ipSet ∧ ipSet.summary = summary ∧ addresses ⊆ ipSet.addresses

theorem Holds.stable {summary : Summary} {addresses : List Str} (holds : Holds summary addresses s)
    (kept : Keeps names reserved s s') : Holds summary addresses s' := by
  rcases holds with ⟨ipSet, found, isSummary, within⟩
  rcases kept.grows.ipSet ipSet found with ⟨later, laterFound, extended⟩
  exact ⟨later, laterFound, extended.summary.trans isSummary,
    List.Subset.trans within extended.addresses⟩

/-- Calls that only read the service leave it alone. -/
theorem keeps_of_eq {call : WafCall rt} (same : (s.answer call).2 = s) :
    Keeps names reserved s (s.answer call).2 := by
  rw [same]
  exact .refl s

theorem keeps_createIpSet (addresses : List Str) :
    Keeps names reserved s (s.answer (.createIpSet names.1 addresses)).2 := by
  refine ⟨grows_createIpSet names.1 addresses, ?_, ?_, ?_⟩
  · cases found : s.ipSet with
    | some ipSet =>
        simp only [WafState.answer, found]
        exact id
    | none =>
        simp only [WafState.answer, found]
        intro refers rule ruleMem
        -- there is no rule with the name without an IPSet
        rcases refers rule ruleMem with ⟨ipSet, impossible, -⟩
        rw [found] at impossible
        cases impossible
  · simp only [WafState.answer]
    split <;> exact List.Subset.refl _
  · cases found : s.ipSet with
    | some ipSet =>
        simp only [WafState.answer, found]
        exact id
    | none =>
        simp only [WafState.answer, found]
        rintro - ipSet ⟨⟩
        rfl

theorem keeps_updateIpSet {name ident : Str} {addresses : List Str} {lockToken : Nat}
    (adds : ∀ ipSet, s.ipSet = some ipSet → lockToken = ipSet.lockToken →
      ipSet.addresses ⊆ addresses) :
    Keeps names reserved s (s.answer (.updateIpSet name ident addresses lockToken)).2 := by
  refine ⟨grows_updateIpSet adds, ?_, ?_, ?_⟩
  · simp only [WafState.answer]
    split
    · next ipSet found =>
        have exist := (Option.filter_eq_some_iff.mp found).1
        split
        · intro refers rule ruleMem
          rcases refers rule ruleMem with ⟨other, otherFound, isRule⟩
          cases exist.symm.trans otherFound
          exact ⟨_, rfl, isRule⟩
        · exact id
    · exact id
  · simp only [WafState.answer]
    split
    · split <;> exact List.Subset.refl _
    · exact List.Subset.refl _
  · simp only [WafState.answer]
    split
    · next ipSet found =>
        have exist := (Option.filter_eq_some_iff.mp found).1
        split
        · rintro isNamed _ ⟨⟩
          exact isNamed ipSet exist
        · exact id
    · exact id

/-- An update of the WebACL adds a rule that refers to the IPSet. -/
theorem keeps_updateWebAcl {name ident : Str} {webAcl : WebAcl rt} {lockToken : Nat}
    {summary : Summary} {addresses : List Str} {priority : Int}
    (holds : Holds summary addresses s)
    (adds : lockToken = s.acl.lockToken →
      webAcl = webaclUpdateKwargs s.acl.settings.document
        (s.acl.settings.rules ++ [buildAllowRule names.2 priority summary.arn])) :
    Keeps names reserved s (s.answer (.updateWebAcl name ident webAcl lockToken)).2 := by
  have added : lockToken = s.acl.lockToken → ∃ rule : Rule rt, rule.name = names.2 ∧
      webAcl = webaclUpdateKwargs s.acl.settings.document (s.acl.settings.rules ++ [rule]) :=
    fun current => ⟨_, rfl, adds current⟩
  refine ⟨grows_updateWebAcl added, ?_, ?_, ?_⟩
  · simp only [WafState.answer]
    split_ifs with named current distinct
    · rcases adds current with rfl
      intro refers rule ruleMem
      simp only [AclSettings.rulesNamed, AclSettings.ofDocument, webaclUpdateKwargs,
        List.filter_append, List.mem_append] at ruleMem
      rcases ruleMem with old | new
      · exact refers rule old
      · rcases holds with ⟨ipSet, found, rfl, -⟩
        have isRule := List.mem_singleton.mp (List.mem_of_mem_filter new)
        rw [isRule]
        exact ⟨ipSet, found, rfl⟩
    · exact id
    · exact id
    · exact id
  · simp only [WafState.answer]
    split_ifs with named current distinct
    · rcases adds current with rfl
      simp only [AclSettings.rulesNamed, AclSettings.ofDocument, webaclUpdateKwargs,
        List.filter_append]
      exact List.subset_append_left _ _
    · exact List.Subset.refl _
    · exact List.Subset.refl _
    · exact List.Subset.refl _
  · simp only [WafState.answer]
    split_ifs <;> exact id

end Rely

section Service

/-- The service and the other clients. Where calls may fail by themselves, they may have had
their effect. -/
def wafService (ruleName : Str) (reserved : Int → Prop) (faulty : Prop) :
    Serving (WafState rt) (WafCall rt) (WafCall.Reply rt) where
  serve s event s' := Exactly s event s' ∨ faulty ∧ Failed s event s'
  outside := OtherEdit ruleName reserved

variable {names : Str × Str} {reserved : Int → Prop} {faulty : Prop} {α β : Type} {s : WafState rt}

variable (names reserved faulty) in
/-- What a run does is safe beside the other runs and clients. -/
def SafeRun (program : Waf rt α) (post : Except WafExc α → WafState rt → Prop)
    (s : WafState rt) : Prop :=
  program.Safe (wafService names.2 reserved faulty).serve (Keeps names reserved)
    (Keeps names reserved) post s

/-- A call is safe if its effect keeps to the rules and what follows on its answer is safe. -/
theorem safeRun_send {call : WafCall rt} {next : call.Result rt → Waf rt β}
    {post : Except WafExc β → WafState rt → Prop}
    (effect : ∀ s₁, Keeps names reserved s s₁ →
      Keeps names reserved s₁ (s₁.answer call).2)
    (answered : ∀ s₁ result, Keeps names reserved s s₁ → (s₁.answer call).1 = .ok result →
      SafeRun names reserved faulty (next result) post (s₁.answer call).2)
    (refused : ∀ s₁ error s₂, Keeps names reserved s s₁ → (s₁.answer call).1 = .error error →
      Keeps names reserved (s₁.answer call).2 s₂ → post (.error (.api error)) s₂)
    (faults : faulty → ∀ error s₂, Keeps names reserved s s₂ → post (.error (.api error)) s₂) :
    SafeRun names reserved faulty (send rt call >>= next) post s := by
  intro s₁ moved reply s₂ served
  have own : Keeps names reserved s₁ s₂ := by
    rcases served with exactly | ⟨-, error, -, rfl | rfl⟩
    · rw [(Prod.mk.inj exactly).2]
      exact effect s₁ moved
    · exact .refl _
    · exact effect s₁ moved
  refine ⟨own, ?_⟩
  rcases served with exactly | ⟨isFaulty, error, failed, -⟩
  · rcases Prod.mk.inj exactly with ⟨reply_eq, rfl⟩
    change reply = _ at reply_eq
    cases reply with
    | ok result => exact answered s₁ result moved reply_eq.symm
    | error error => exact fun s₃ later => refused s₁ error s₃ moved reply_eq.symm later
  · change reply = _ at failed
    rw [failed]
    exact fun s₃ later => faults isFaulty error s₃ ((moved.trans own).trans later)

theorem safeRun_bind {program : Waf rt α} {next : α → Waf rt β}
    {middle : Except WafExc α → WafState rt → Prop} {post : Except WafExc β → WafState rt → Prop}
    (first : SafeRun names reserved faulty program middle s)
    (second : ∀ value s', middle (.ok value) s' →
      SafeRun names reserved faulty (next value) post s')
    (stopped : ∀ error s', middle (.error error) s' → post (.error error) s') :
    SafeRun names reserved faulty (program >>= next) post s :=
  Program.Safe.bind .refl first second stopped

theorem send_eq_bind (call : WafCall rt) : send rt call = send rt call >>= .ret :=
  (Program.bind_ret _).symm

/-- The error says that the updates of something have exhausted the budget of retries. -/
def Exhausted (what : Str) (error : WafExc) : Prop :=
  ∃ rest, error = .wafAllowlistError (str "ERROR: " ++ what ++ rest)

theorem Exhausted.of_append {what first rest : Str} {error : WafExc}
    (exhausted : Exhausted what error) (split : what = first ++ rest) : Exhausted first error := by
  rcases exhausted with ⟨last, rfl⟩
  refine ⟨rest ++ last, ?_⟩
  rw [split]
  simp only [List.append_assoc]

theorem str_webAcl : str "WebACL ALLOW-rule " = str "WebACL " ++ str "ALLOW-rule " := by decide

/-- A loop of attempts is safe if each of them is, where `counted k` holds after `k` failures. -/
theorem safeRun_attempts {attempt : Waf rt α} {retries : Int} {what : Str}
    (counted : Nat → WafState rt → Prop) {post : Except WafExc α → WafState rt → Prop}
    (stable : ∀ {k s s'}, counted k s → Keeps names reserved s s' → counted k s')
    (settled : ∀ {error s s'}, post (.error error) s → Keeps names reserved s s' →
      post (.error error) s')
    (each : ∀ k s, counted k s → SafeRun names reserved faulty attempt (fun outcome s' =>
      match outcome with
      | .ok value => post (.ok value) s'
      | .error error =>
          if isRetryableWafError error then counted (k + 1) s' else post (.error error) s') s)
    (exhausted : ∀ error s, Exhausted what error → counted (retries + 1).toNat s →
      post (.error error) s)
    (holds : counted 0 s) :
    SafeRun names reserved faulty (withLockRetry attempt retries what) post s := by
  have general (n k : Nat) (whole : k + n = (retries + 1).toNat) (last : Str) (s : WafState rt)
      (holds : counted k s) :
      SafeRun names reserved faulty (withLockRetry.attempts attempt retries what n last)
        post s := by
    induction n generalizing k last s with
    | zero =>
        intro s' moved
        apply exhausted
        · simp only [Exhausted, List.append_assoc]
          exact ⟨_, rfl⟩
        · rw [← whole]
          exact stable holds moved
    | succ n ih =>
        apply Program.Safe.handle .refl (each k s holds)
        · intro value s' returned
          exact returned
        · intro error s' failed
          dsimp only at failed
          by_cases retryable : isRetryableWafError error
          · rw [if_pos retryable] at failed
            rw [if_pos retryable]
            exact ih (k + 1) (by omega) _ s' failed
          · rw [if_neg retryable] at failed
            rw [if_neg retryable]
            intro s'' moved
            exact settled failed moved
  exact general _ 0 (Nat.zero_add _) _ s holds

end Service

section Resolution

variable {names : Str × Str} {reserved : Int → Prop} {faulty : Prop} {s₀ s : WafState rt}

/-- The WebACL is named, or found without a name. -/
def Resolves (webAclName : Option Str) (s : WafState rt) : Prop :=
  s.acl.name ≠ [] ∧ (webAclName.getD [] = [] ∨ webAclName = some s.acl.name)

theorem Keeps.aclName (kept : Keeps names reserved s₀ s) : s.acl.name = s₀.acl.name :=
  congrArg Summary.name kept.grows.summary

theorem Keeps.aclId (kept : Keeps names reserved s₀ s) : s.acl.id = s₀.acl.id :=
  congrArg Summary.id kept.grows.summary

/-- The WebACL that is found is the one there is. -/
theorem safeRun_discoverWafWebAcl (kept : Keeps names reserved s₀ s) :
    SafeRun names reserved faulty discoverWafWebAcl (fun outcome s' =>
      Keeps names reserved s₀ s' ∧
        match outcome with
        | .ok name => name = some s₀.acl.name
        | .error _ => faulty) s := by
  apply safeRun_send
  · intro s₁ _
    exact keeps_of_eq rfl
  · rintro s₁ _ moved ⟨⟩
    have single : SafeRun names reserved faulty
        (.ret (some s₁.acl.name) : Waf rt (Option Str)) (fun outcome s' =>
          Keeps names reserved s₀ s' ∧
            match outcome with
            | .ok name => name = some s₀.acl.name
            | .error _ => faulty) s₁ := by
      intro s' later
      exact ⟨(kept.trans moved).trans later, congrArg some (kept.trans moved).aclName⟩
    by_cases collector : Contains (str "adot") s₁.acl.name ∧ Contains (str "waf") s₁.acl.name
    · simp only [List.find?_cons, Acl.summary, collector, and_self, decide_true]
      exact single
    · simp only [List.find?_cons, Acl.summary, collector, decide_false, List.find?_nil]
      exact single
  · rintro s₁ error s₂ _ ⟨⟩
  · intro isFaulty error s' later
    exact ⟨kept.trans later, isFaulty⟩

/-- The name that is looked up. -/
def wantedName (webAclName : Option Str) (s : WafState rt) : Str :=
  if webAclName.getD [] = [] then s.acl.name else webAclName.getD []

theorem resolvesAcl_iff {webAclName : Option Str} :
    Resolves webAclName s ↔ s.acl.name ≠ [] ∧ wantedName webAclName s = s.acl.name := by
  rw [Resolves, wantedName]
  rcases webAclName with _ | _ | ⟨c, rest⟩ <;> simp

variable (names reserved faulty) in
/-- How `resolve_web_acl` ends. -/
def Resolved (webAclName : Option Str) (s₀ : WafState rt) :
    Except WafExc (Str × Str) → WafState rt → Prop
  | .ok webAcl, s => Keeps names reserved s₀ s ∧ webAcl = (s₀.acl.name, s₀.acl.id)
  | .error _, _ => faulty ∨ ¬Resolves webAclName s₀

theorem safeRun_lookUpName {webAclName : Option Str} (kept : Keeps names reserved s₀ s) :
    SafeRun names reserved faulty (lookUpName (some (wantedName webAclName s₀)))
      (Resolved names reserved faulty webAclName s₀) s := by
  rcases isWanted : wantedName webAclName s₀ with _ | ⟨c, rest⟩
  · intro s' _
    right
    rw [resolvesAcl_iff, isWanted]
    exact fun resolved => resolved.1 resolved.2.symm
  · apply safeRun_send
    · intro s₁ _
      exact keeps_of_eq rfl
    · rintro s₁ _ moved ⟨⟩
      have whole := kept.trans moved
      by_cases same : s₁.acl.name = c :: rest
      · simp only [List.find?_cons, Acl.summary, same, decide_true]
        intro s' later
        refine ⟨whole.trans later, ?_⟩
        rw [← whole.aclName, same, ← whole.aclId]
      · simp only [List.find?_cons, Acl.summary, same, decide_false, List.find?_nil]
        intro s' _
        right
        rw [resolvesAcl_iff, isWanted, ← whole.aclName]
        exact fun resolved => same resolved.2.symm
    · rintro s₁ error s₂ _ ⟨⟩
    · exact fun isFaulty error s' _ => Or.inl isFaulty

theorem safeRun_resolveWebAcl (webAclName : Option Str) (kept : Keeps names reserved s₀ s) :
    SafeRun names reserved faulty (resolveWebAcl webAclName)
      (Resolved names reserved faulty webAclName s₀) s := by
  have discovers (unnamed : webAclName.getD [] = []) :
      SafeRun names reserved faulty (discoverWafWebAcl >>= lookUpName)
        (Resolved names reserved faulty webAclName s₀) s := by
    refine safeRun_bind (safeRun_discoverWafWebAcl kept) ?_ ?_
    · rintro name s' ⟨kept', rfl⟩
      have isWanted : wantedName webAclName s₀ = s₀.acl.name := if_pos unnamed
      rw [← isWanted]
      exact safeRun_lookUpName kept'
    · exact fun error s' stopped => Or.inl stopped.2
  rcases webAclName with _ | _ | ⟨c, rest⟩
  · exact discovers rfl
  · exact discovers rfl
  · exact safeRun_lookUpName kept

end Resolution

section IpSets

variable {names : Str × Str} {reserved : Int → Prop} {faulty : Prop} {s₀ s s' : WafState rt}
  {addCidrs : List Str} {existing : Summary}

/-- The lock token of the IPSet, and 0 as long as there is none. -/
def ipSetToken (s : WafState rt) : Nat := (s.ipSet.map IpSet.lockToken).getD 0

theorem Keeps.ipSetToken_le (kept : Keeps names reserved s s') : ipSetToken s ≤ ipSetToken s' := by
  rw [ipSetToken]
  rcases found : s.ipSet with _ | ipSet
  · exact Nat.zero_le _
  · rcases kept.grows.ipSet ipSet found with ⟨later, laterFound, extended⟩
    rw [ipSetToken, laterFound]
    exact extended.token

variable (names reserved faulty) in
/-- So many attempts to merge into the IPSet have failed. -/
def MergeFailures (s₀ : WafState rt) (existing : Summary) (k : Nat) (s : WafState rt) : Prop :=
  Keeps names reserved s₀ s ∧ Holds existing [] s ∧
    (¬faulty → ipSetToken s₀ + k ≤ ipSetToken s)

theorem MergeFailures.stable {k : Nat} (failures : MergeFailures names reserved faulty s₀
    existing k s)
    (kept : Keeps names reserved s s') : MergeFailures names reserved faulty s₀ existing k s' := by
  rcases failures with ⟨before, holds, counted⟩
  refine ⟨before.trans kept, holds.stable kept, fun notFaulty => ?_⟩
  exact (counted notFaulty).trans kept.ipSetToken_le

/-- An answer about the IPSet that is there. -/
theorem filter_eq_some {ipSet : IpSet} (found : s.ipSet = some ipSet) :
    (s.ipSet.filter fun other => other.name = ipSet.summary.name ∧ other.id = ipSet.summary.id) =
      some ipSet := by
  rw [found]
  exact Option.filter_some_pos (by simp [IpSet.summary])

theorem ipSetToken_eq {ipSet : IpSet} (found : s.ipSet = some ipSet) :
    ipSetToken s = ipSet.lockToken := by
  rw [ipSetToken, found]
  rfl

/-- The effect of an update with the addresses and the token that were read. -/
theorem keeps_update_of_read {ipSet : IpSet} {addresses : List Str} (found : s.ipSet = some ipSet)
    (within : ipSet.addresses ⊆ addresses) (later : Keeps names reserved s s') {name id : Str} :
    Keeps names reserved s' (s'.answer (.updateIpSet name id addresses ipSet.lockToken)).2 := by
  apply keeps_updateIpSet
  intro other otherFound current
  rcases later.grows.ipSet ipSet found with ⟨second, secondFound, extended⟩
  cases otherFound.symm.trans secondFound
  rw [extended.same current]
  exact within

/-- The answer to such an update. -/
theorem answer_update_of_read {ipSet : IpSet} {addresses : List Str} (found : s.ipSet = some ipSet)
    (later : Keeps names reserved s s') :
    ∃ second, s'.ipSet = some second ∧ second.Extends ipSet ∧
      (s'.answer (.updateIpSet ipSet.summary.name ipSet.summary.id addresses ipSet.lockToken)) =
        if ipSet.lockToken = second.lockToken then
          (.ok (), { s' with
            ipSet := some { second with
              addresses := addresses, lockToken := ipSet.lockToken + 1 } })
        else (.error staleToken, s') := by
  rcases later.grows.ipSet ipSet found with ⟨second, secondFound, extended⟩
  refine ⟨second, secondFound, extended, ?_⟩
  rw [← extended.summary]
  simp only [WafState.answer, filter_eq_some secondFound]

theorem isRetryable_staleToken : isRetryableWafError (.api staleToken) := by
  unfold isRetryableWafError staleToken
  exact List.mem_cons_self

/-- An attempt to merge adds the addresses, or another update has come in between. -/
theorem safeRun_mergeAddresses {k : Nat}
    (failures : MergeFailures names reserved faulty s₀ existing k s) :
    SafeRun names reserved faulty (mergeAddresses existing.name existing.id addCidrs)
      (fun outcome s' =>
        match outcome with
        | .ok _ => Keeps names reserved s₀ s' ∧ Holds existing addCidrs s'
        | .error error =>
            if isRetryableWafError error then
              MergeFailures names reserved faulty s₀ existing (k + 1) s'
            else faulty) s := by
  have faults (isFaulty : faulty) (error : ApiError) (s' : WafState rt)
      (kept : Keeps names reserved s s') :
      if isRetryableWafError (.api error) then
        MergeFailures names reserved faulty s₀ existing (k + 1) s'
      else faulty := by
    split_ifs with retryable
    · exact ⟨failures.1.trans kept, failures.2.1.stable kept, fun notFaulty =>
        absurd isFaulty notFaulty⟩
    · exact isFaulty
  apply safeRun_send
  · intro s₁ _
    apply keeps_of_eq
    simp only [WafState.answer]
    split <;> rfl
  · intro s₁ result moved answered
    rcases failures.2.1.stable moved with ⟨ipSet, found, rfl, -⟩
    simp only [WafState.answer, filter_eq_some found] at answered ⊢
    cases answered
    have whole := failures.1.trans moved
    dsimp only
    have within : ipSet.addresses ⊆ dedupe (ipSet.addresses ++ addCidrs) := by
      intro address addressMem
      rw [mem_dedupe]
      exact List.mem_append_left _ addressMem
    have added : addCidrs ⊆ dedupe (ipSet.addresses ++ addCidrs) := by
      intro address addressMem
      rw [mem_dedupe]
      exact List.mem_append_right _ addressMem
    split_ifs with changed
    · rw [send_eq_bind]
      apply safeRun_send
      · intro s₂ later
        exact keeps_update_of_read found within later
      · intro s₂ _ later answered s₃ last
        have kept := whole.trans (later.trans
          ((keeps_update_of_read found within later).trans last))
        refine ⟨kept, ?_⟩
        rcases answer_update_of_read found later with ⟨second, -, extended, answer_eq⟩
        rw [answer_eq] at answered last
        split_ifs at answered last with current
        have holds : Holds ipSet.summary addCidrs { s₂ with
            ipSet := some { second with
              addresses := dedupe (ipSet.addresses ++ addCidrs)
              lockToken := ipSet.lockToken + 1 } } :=
          ⟨_, rfl, extended.summary, added⟩
        exact holds.stable last
      · intro s₂ error s₃ later refused last
        rcases answer_update_of_read found later with ⟨second, secondFound, extended, answer_eq⟩
        rw [answer_eq] at refused last
        split_ifs at refused last with current
        cases refused
        dsimp only
        rw [if_pos isRetryable_staleToken]
        have kept := moved.trans (later.trans last)
        refine ⟨failures.1.trans kept, failures.2.1.stable kept, fun notFaulty => ?_⟩
        -- the token that was read is not the one of the update any more
        have counted := failures.2.2 notFaulty
        have read := moved.ipSetToken_le
        have changed := last.ipSetToken_le
        rw [ipSetToken_eq found] at read
        rw [ipSetToken_eq secondFound] at changed
        have grown := extended.token
        omega
      · exact fun isFaulty error s' later => faults isFaulty error s' (moved.trans later)
    · intro s' later
      rw [not_not] at changed
      rw [changed] at added
      have holds : Holds ipSet.summary addCidrs s₁ := ⟨ipSet, found, rfl, added⟩
      exact ⟨whole.trans later, holds.stable later⟩
  · intro s₁ error s₂ moved refused
    rcases failures.2.1.stable moved with ⟨ipSet, found, rfl, -⟩
    simp only [WafState.answer, filter_eq_some found] at refused
    cases refused
  · exact faults

/-- How `ensure_ip_set` fails. -/
inductive IpSetFailure (names : Str × Str) (faulty : Prop) (retries : Int) (s₀ : WafState rt) :
    WafExc → WafState rt → Prop where
  | faulty {error : WafExc} {s : WafState rt} (isFaulty : faulty) :
      IpSetFailure names faulty retries s₀ error s
  | otherName {error : WafExc} {s : WafState rt} (notNamed : ¬Named names.1 s₀) :
      IpSetFailure names faulty retries s₀ error s
  | lostRace {s : WafState rt} (absent : s₀.ipSet = none) :
      IpSetFailure names faulty retries s₀ (.api duplicateItem) s
  | contended {error : WafExc} {s : WafState rt} (exhausted : Exhausted (str "IPSet ") error)
      (updates : ipSetToken s₀ + (retries + 1).toNat ≤ ipSetToken s) :
      IpSetFailure names faulty retries s₀ error s

theorem IpSetFailure.stable {retries : Int} {error : WafExc}
    (failure : IpSetFailure names faulty retries s₀ error s) (kept : Keeps names reserved s s') :
    IpSetFailure names faulty retries s₀ error s' := by
  cases failure with
  | faulty isFaulty => exact .faulty isFaulty
  | otherName notNamed => exact .otherName notNamed
  | lostRace absent => exact .lostRace absent
  | contended exhausted updates =>
      exact .contended exhausted (updates.trans kept.ipSetToken_le)

variable (names reserved faulty) in
/-- How `ensure_ip_set` ends. -/
def IpSetEnsured (addCidrs : List Str) (retries : Int) (s₀ : WafState rt) :
    Except WafExc Summary → WafState rt → Prop
  | .ok summary, s => Keeps names reserved s₀ s ∧ Holds summary addCidrs s
  | .error error, s => IpSetFailure names faulty retries s₀ error s

theorem safeRun_merges {retries : Int} (what : Str) (kept : Keeps names reserved s₀ s)
    (holds : Holds existing [] s) :
    SafeRun names reserved faulty (withLockRetry
        (mergeAddresses existing.name existing.id addCidrs) retries
        (str "IPSet " ++ what ++ str " address merge")) (fun outcome s' =>
      match outcome with
      | .ok _ => Keeps names reserved s₀ s' ∧ Holds existing addCidrs s'
      | .error error => IpSetFailure names faulty retries s₀ error s') s := by
  apply safeRun_attempts (MergeFailures names reserved faulty s₀ existing)
  · exact fun failures => failures.stable
  · exact fun failure => failure.stable
  · intro k s failures
    refine (safeRun_mergeAddresses failures).mono ?_
    rintro (error | ⟨⟩) s' ended
    · dsimp only at ended ⊢
      split_ifs at ended ⊢ with retryable
      · exact ended
      · exact .faulty ended
    · exact ended
  · rintro error s exhausted ⟨-, -, counted⟩
    by_cases isFaulty : faulty
    · exact .faulty isFaulty
    · exact .contended (exhausted.of_append (List.append_assoc _ _ _)) (counted isFaulty)
  · exact ⟨kept, holds, fun _ => kept.ipSetToken_le⟩

/-- The creation of the IPSet, after a listing without it. -/
theorem safeRun_createIpSet {retries : Int} (kept : Keeps names reserved s₀ s)
    (unlisted : s.ipSet = none ∨ ∃ ipSet, s.ipSet = some ipSet ∧ ipSet.name ≠ names.1) :
    SafeRun names reserved faulty (do
        let created ← send rt (.createIpSet names.1 (dedupe addCidrs))
        return ⟨names.1, created.id, created.arn⟩)
      (IpSetEnsured names reserved faulty addCidrs retries s₀) s := by
  apply safeRun_send
  · intro s₁ _
    exact keeps_createIpSet (dedupe addCidrs)
  · intro s₁ result moved answered s₂ later
    have effect := @keeps_createIpSet rt names reserved s₁ (dedupe addCidrs)
    refine ⟨kept.trans (moved.trans (effect.trans later)), ?_⟩
    cases found : s₁.ipSet with
    | some ipSet =>
        simp only [WafState.answer, found] at answered
        cases answered
    | none =>
        simp only [WafState.answer, found] at answered later
        cases answered
        have holds : Holds ⟨names.1, s₁.nextId, s₁.nextArn⟩ addCidrs { s₁ with
            ipSet := some ⟨names.1, s₁.nextId, s₁.nextArn, dedupe addCidrs, 0⟩ } := by
          refine ⟨_, rfl, rfl, ?_⟩
          intro address addressMem
          exact mem_dedupe.mpr addressMem
        exact holds.stable later
  · intro s₁ error s₂ moved refused later
    rcases unlisted with absent | ⟨ipSet, found, otherName⟩
    · have absent₀ : s₀.ipSet = none := by
        by_contra present
        rcases Option.ne_none_iff_exists'.mp present with ⟨ipSet, found⟩
        rcases kept.grows.ipSet ipSet found with ⟨second, secondFound, -⟩
        rw [absent] at secondFound
        cases secondFound
      cases found : s₁.ipSet with
      | none =>
          simp only [WafState.answer, found] at refused
          cases refused
      | some ipSet =>
          simp only [WafState.answer, found] at refused
          by_cases named : ipSet.name = names.1
          · rw [if_pos named] at refused
            cases refused
            exact .lostRace absent₀
          · refine .otherName fun named₀ => named ?_
            exact (kept.trans moved).named named₀ ipSet found
    · exact .otherName fun named₀ => otherName (kept.named named₀ ipSet found)
  · exact fun isFaulty error s' _ => .faulty isFaulty

/-- The listing shows the IPSet of the name if there is one. -/
theorem safeRun_findIpSet (kept : Keeps names reserved s₀ s) :
    SafeRun names reserved faulty (findIpSet names.1) (fun outcome s' => match outcome with
      | .ok none => ∃ s₁, Keeps names reserved s₀ s₁ ∧ Keeps names reserved s₁ s' ∧
          (s₁.ipSet = none ∨ ∃ ipSet, s₁.ipSet = some ipSet ∧ ipSet.name ≠ names.1)
      | .ok (some existing) =>
          Keeps names reserved s₀ s' ∧ existing.name = names.1 ∧ Holds existing [] s'
      | .error _ => faulty) s := by
  apply safeRun_send
  · intro s₁ _
    exact keeps_of_eq rfl
  · rintro s₁ _ moved ⟨⟩
    have whole := kept.trans moved
    cases found : s₁.ipSet with
    | none => exact fun s' later => ⟨s₁, whole, later, Or.inl found⟩
    | some ipSet =>
        by_cases named : ipSet.name = names.1
        · simp only [Option.toList_some, List.map_cons, List.map_nil, List.find?_cons,
            IpSet.summary, named, decide_true]
          have holds : Holds ipSet.summary [] s₁ := ⟨ipSet, found, rfl, List.nil_subset _⟩
          rw [IpSet.summary, named] at holds
          exact fun s' later => ⟨whole.trans later, rfl, holds.stable later⟩
        · simp only [Option.toList_some, List.map_cons, List.map_nil, List.find?_cons,
            IpSet.summary, named, decide_false, List.find?_nil]
          exact fun s' later => ⟨s₁, whole, later, Or.inr ⟨ipSet, found, named⟩⟩
  · rintro s₁ error s₂ _ ⟨⟩
  · exact fun isFaulty _ _ _ => isFaulty

theorem safeRun_ensureIpSet {retries : Int} (kept : Keeps names reserved s₀ s) :
    SafeRun names reserved faulty (ensureIpSet names.1 addCidrs retries)
      (IpSetEnsured names reserved faulty addCidrs retries s₀) s := by
  refine safeRun_bind (safeRun_findIpSet kept) ?_ ?_
  · rintro (_ | existing) s' found
    · rcases found with ⟨s₁, before, later, unlisted⟩
      exact Program.Safe.stable Keeps.trans (safeRun_createIpSet before unlisted) later
    · rcases found with ⟨kept', named, holds⟩
      dsimp only
      split_ifs with some
      · rw [← named]
        refine safeRun_bind (safeRun_merges (rt.reprStr existing.name) kept' holds) ?_ ?_
        · rintro - s'' ⟨kept'', holds'⟩ s₃ later
          exact ⟨kept''.trans later, holds'.stable later⟩
        · exact fun error s'' failure => failure
      · rw [not_not] at some
        rw [some]
        exact fun s'' later => ⟨kept'.trans later, holds.stable later⟩
  · exact fun error s' isFaulty => .faulty isFaulty

end IpSets

section Rules

variable {names : Str × Str} {reserved : Int → Prop} {faulty : Prop} {s₀ s s' : WafState rt}
  {addCidrs : List Str} {summary : Summary} {priority : Int} {rules : List (Rule rt)}

theorem mem_of_findAllowRule (found : findAllowRule names.2 priority rules = .ok true) :
    names.2 ∈ rules.map Rule.name := by
  induction rules with
  | nil => cases found
  | cons existing rules ih =>
      rw [findAllowRule] at found
      split_ifs at found with named
      · rw [List.map_cons, named]
        exact List.mem_cons_self
      · exact List.mem_cons_of_mem _ (ih found)

theorem exists_of_findAllowRule {error : WafExc}
    (found : findAllowRule names.2 priority rules = .error error) :
    ∃ rule ∈ rules, rule.priority = priority ∧ rule.name ≠ names.2 := by
  induction rules with
  | nil => cases found
  | cons existing rules ih =>
      rw [findAllowRule] at found
      split_ifs at found with named taken
      · exact ⟨existing, List.mem_cons_self, taken, named⟩
      · rcases ih found with ⟨rule, ruleMem, isTaken⟩
        exact ⟨rule, List.mem_cons_of_mem _ ruleMem, isTaken⟩

/-- How `ensure_allow_rule` fails. -/
inductive RuleFailure (names : Str × Str) (reserved : Int → Prop) (faulty : Prop)
    (priority retries : Int) (s₀ : WafState rt) : WafExc → WafState rt → Prop where
  | faulty {error : WafExc} {s : WafState rt} (isFaulty : faulty) :
      RuleFailure names reserved faulty priority retries s₀ error s
  | notFree {error : WafExc} {s : WafState rt}
      (notFree : ¬(priority < rateRulePriority ∧ reserved priority ∧
        s₀.acl.settings.Free names.2 reserved)) :
      RuleFailure names reserved faulty priority retries s₀ error s
  | contended {error : WafExc} {s : WafState rt} (exhausted : Exhausted (str "WebACL ") error)
      (updates : s₀.acl.lockToken + (retries + 1).toNat ≤ s.acl.lockToken) :
      RuleFailure names reserved faulty priority retries s₀ error s

theorem RuleFailure.stable {retries : Int} {error : WafExc}
    (failure : RuleFailure names reserved faulty priority retries s₀ error s)
    (kept : Keeps names reserved s s') :
    RuleFailure names reserved faulty priority retries s₀ error s' := by
  cases failure with
  | faulty isFaulty => exact .faulty isFaulty
  | notFree notFree => exact .notFree notFree
  | contended exhausted updates =>
      exact .contended exhausted (updates.trans kept.grows.token)

variable (names reserved faulty) in
/-- So many attempts to add the rule have failed. -/
def RuleFailures (addCidrs : List Str) (s₀ : WafState rt) (summary : Summary) (k : Nat)
    (s : WafState rt) : Prop :=
  Keeps names reserved s₀ s ∧ Holds summary addCidrs s ∧
    (¬faulty → s₀.acl.lockToken + k ≤ s.acl.lockToken)

theorem RuleFailures.stable {k : Nat}
    (failures : RuleFailures names reserved faulty addCidrs s₀ summary k s)
    (kept : Keeps names reserved s s') :
    RuleFailures names reserved faulty addCidrs s₀ summary k s' := by
  rcases failures with ⟨before, holds, counted⟩
  refine ⟨before.trans kept, holds.stable kept, fun notFaulty => ?_⟩
  exact (counted notFaulty).trans kept.grows.token

variable (names reserved) in
/-- The addresses are allowed. -/
def Allowed (addCidrs : List Str) (summary : Summary) (s₀ s : WafState rt) : Prop :=
  Keeps names reserved s₀ s ∧ Holds summary addCidrs s ∧ HasRule names.2 s

theorem Allowed.stable (allowed : Allowed names reserved addCidrs summary s₀ s)
    (kept : Keeps names reserved s s') : Allowed names reserved addCidrs summary s₀ s' :=
  ⟨allowed.1.trans kept, allowed.2.1.stable kept, kept.grows.rule allowed.2.2⟩

/-- The document that adds the rule to the settings that were read. -/
def withAllowRule (settings : AclSettings rt) (rule : Rule rt) : WebAcl rt :=
  webaclUpdateKwargs settings.document (settings.rules ++ [rule])

/-- The effect of an update with the settings and the token that were read. -/
theorem keeps_addRule_of_read (holds : Holds summary addCidrs s) (later : Keeps names reserved s s')
    {name id : Str} : Keeps names reserved s' (s'.answer (.updateWebAcl name id
      (withAllowRule s.acl.settings (buildAllowRule names.2 priority summary.arn))
      s.acl.lockToken)).2 := by
  apply keeps_updateWebAcl (holds.stable later)
  intro current
  rw [later.grows.same current]
  rfl

/-- The answer to such an update. -/
theorem answer_addRule_of_read (fresh : names.2 ∉ s.acl.settings.rules.map Rule.name)
    (later : Keeps names reserved s s') :
    (∃ s'', s'.answer (.updateWebAcl s.acl.name s.acl.id
        (withAllowRule s.acl.settings (buildAllowRule names.2 priority summary.arn))
        s.acl.lockToken) = (.ok (), s'') ∧ HasRule names.2 s'') ∨
      (s'.answer (.updateWebAcl s.acl.name s.acl.id
        (withAllowRule s.acl.settings (buildAllowRule names.2 priority summary.arn))
        s.acl.lockToken) = (.error staleToken, s') ∧ s.acl.lockToken < s'.acl.lockToken) := by
  have isAcl : s'.acl.name = s.acl.name ∧ s'.acl.id = s.acl.id := ⟨later.aclName, later.aclId⟩
  by_cases current : s.acl.lockToken = s'.acl.lockToken
  · left
    have distinct : ((withAllowRule s.acl.settings
        (buildAllowRule names.2 priority summary.arn)).rules.map Rule.name).Nodup := by
      simp only [withAllowRule, webaclUpdateKwargs, List.map_append]
      exact List.nodup_append_comm.mp (List.nodup_cons.mpr ⟨fresh, s.acl.settings.distinct⟩)
    simp only [WafState.answer, if_pos isAcl, if_pos current, dif_pos distinct]
    refine ⟨_, rfl, ?_⟩
    simp [HasRule, AclSettings.ofDocument, withAllowRule, webaclUpdateKwargs, buildAllowRule]
  · right
    simp only [WafState.answer, if_pos isAcl, if_neg current, true_and]
    exact lt_of_le_of_ne later.grows.token current

/-- An attempt to add the rule adds it, or another update has come in between. -/
theorem safeRun_addAllowRule (retries : Int) {k : Nat}
    (failures : RuleFailures names reserved faulty addCidrs s₀ summary k s) :
    SafeRun names reserved faulty
      (addAllowRule (s₀.acl.name, s₀.acl.id) names.2 priority summary.arn)
      (fun outcome s' =>
        match outcome with
        | .ok _ => Allowed names reserved addCidrs summary s₀ s'
        | .error error =>
            if isRetryableWafError error then
              RuleFailures names reserved faulty addCidrs s₀ summary (k + 1) s'
            else RuleFailure names reserved faulty priority retries s₀ error s') s := by
  have faults (isFaulty : faulty) (error : ApiError) (s' : WafState rt)
      (kept : Keeps names reserved s s') :
      if isRetryableWafError (.api error) then
        RuleFailures names reserved faulty addCidrs s₀ summary (k + 1) s'
      else RuleFailure names reserved faulty priority retries s₀ (.api error) s' := by
    split_ifs with retryable
    · exact ⟨failures.1.trans kept, failures.2.1.stable kept, fun notFaulty =>
        absurd isFaulty notFaulty⟩
    · exact .faulty isFaulty
  have isAcl {s₁ : WafState rt} (kept : Keeps names reserved s₀ s₁) :
      s₁.acl.name = s₀.acl.name ∧ s₁.acl.id = s₀.acl.id := ⟨kept.aclName, kept.aclId⟩
  apply safeRun_send
  · intro s₁ _
    apply keeps_of_eq
    simp only [WafState.answer]
    split_ifs <;> rfl
  · intro s₁ result moved answered
    have whole := failures.1.trans moved
    have holds := failures.2.1.stable moved
    simp only [WafState.answer, if_pos (isAcl whole)] at answered ⊢
    cases answered
    dsimp only
    cases searched : findAllowRule names.2 priority s₁.acl.settings.document.rules with
    | error error =>
        intro s' later
        dsimp only
        rw [if_neg (not_retryable_findAllowRule searched)]
        refine .notFree ?_
        rintro ⟨-, isReserved, free⟩
        rcases exists_of_findAllowRule searched with ⟨rule, ruleMem, taken, other⟩
        rw [← taken] at isReserved
        exact other (whole.grows.free free rule ruleMem isReserved)
    | ok present =>
        cases present with
        | true =>
            have allowed : Allowed names reserved addCidrs summary s₀ s₁ :=
              ⟨whole, holds, mem_of_findAllowRule searched⟩
            exact fun s' later => allowed.stable later
        | false =>
            have fresh := findAllowRule_eq_false searched
            change SafeRun names reserved faulty (send rt (.updateWebAcl s₀.acl.name s₀.acl.id
              (withAllowRule s₁.acl.settings (buildAllowRule names.2 priority summary.arn))
              s₁.acl.lockToken) >>= fun _ => .ret true) _ s₁
            rw [← (isAcl whole).1, ← (isAcl whole).2]
            apply safeRun_send
            · intro s₂ later
              exact keeps_addRule_of_read holds later
            · intro s₂ _ later answered s₃ last
              have kept := later.trans ((keeps_addRule_of_read holds later).trans last)
              refine ⟨whole.trans kept, holds.stable kept, ?_⟩
              rcases answer_addRule_of_read fresh later with ⟨s'', answer_eq, present⟩ | stale
              · rw [answer_eq] at last
                exact last.grows.rule present
              · rw [stale.1] at answered
                cases answered
            · intro s₂ error s₃ later refused last
              rcases answer_addRule_of_read fresh later with ⟨s'', answer_eq, -⟩ | ⟨stale, passed⟩
              · rw [answer_eq] at refused
                cases refused
              · rw [stale] at refused last
                cases refused
                dsimp only
                rw [if_pos isRetryable_staleToken]
                have kept := moved.trans (later.trans last)
                refine ⟨failures.1.trans kept, failures.2.1.stable kept, fun notFaulty => ?_⟩
                have counted := failures.2.2 notFaulty
                have read := moved.grows.token
                have changed : s₂.acl.lockToken ≤ s₃.acl.lockToken := last.grows.token
                omega
            · exact fun isFaulty error s' later => faults isFaulty error s' (moved.trans later)
  · intro s₁ error s₂ moved refused
    simp only [WafState.answer, if_pos (isAcl (failures.1.trans moved))] at refused
    cases refused
  · exact faults

variable (names reserved faulty) in
/-- How `ensure_allow_rule` ends. -/
def RuleEnsured (addCidrs : List Str) (summary : Summary) (priority retries : Int)
    (s₀ : WafState rt) : Except WafExc Bool → WafState rt → Prop
  | .ok _, s => Allowed names reserved addCidrs summary s₀ s
  | .error error, s => RuleFailure names reserved faulty priority retries s₀ error s

theorem safeRun_ensureAllowRule {retries : Int} (kept : Keeps names reserved s₀ s)
    (holds : Holds summary addCidrs s) :
    SafeRun names reserved faulty (ensureAllowRule (s₀.acl.name, s₀.acl.id) names.2 priority
        summary.arn retries)
      (RuleEnsured names reserved faulty addCidrs summary priority retries s₀) s := by
  have adds : SafeRun names reserved faulty (withLockRetry (addAllowRule
      (s₀.acl.name, s₀.acl.id) names.2 priority summary.arn) retries
        (str "WebACL ALLOW-rule " ++ rt.reprStr names.2 ++ str " add"))
      (RuleEnsured names reserved faulty addCidrs summary priority retries s₀) s := by
    apply safeRun_attempts (RuleFailures names reserved faulty addCidrs s₀ summary)
    · exact fun failures => failures.stable
    · exact fun failure => failure.stable
    · intro k s failures
      refine (safeRun_addAllowRule retries failures).mono ?_
      rintro (error | added) s' ended
      · exact ended
      · exact ended
    · rintro error s exhausted ⟨-, -, counted⟩
      by_cases isFaulty : faulty
      · exact .faulty isFaulty
      · rw [str_webAcl, List.append_assoc, List.append_assoc] at exhausted
        exact .contended (exhausted.of_append rfl) (counted isFaulty)
    · exact ⟨kept, holds, fun _ => kept.grows.token⟩
  unfold ensureAllowRule
  split_ifs with high
  · exact fun s' _ => .notFree fun low => absurd low.1 (not_lt.mpr high)
  · exact adds

end Rules

section Apply

/-- The names of the IPSet and the rule of a run. -/
def ApplySettings.names (settings : ApplySettings) : Str × Str :=
  (settings.ipsetName, settings.ruleName)

/-- What a run needs of the service to succeed. -/
structure Ready (reserved : Int → Prop) (settings : ApplySettings) (s : WafState rt) : Prop where
  low : settings.priority < rateRulePriority
  isReserved : reserved settings.priority
  free : s.acl.settings.Free settings.ruleName reserved
  resolves : Resolves settings.webAclName s
  named : Named settings.ipsetName s

/-- Why a run raises. -/
inductive Hindered (reserved : Int → Prop) (faulty : Prop) (settings : ApplySettings)
    (s₀ s : WafState rt) (error : WafExc) : Prop where
  | faulty (isFaulty : faulty)
  | notReady (notReady : ¬Ready reserved settings s₀)
  | lostRace (absent : s₀.ipSet = none) (isDuplicate : error = .api duplicateItem)
  | ipSet (exhausted : Exhausted (str "IPSet ") error)
      (updates : ipSetToken s₀ + (settings.retries + 1).toNat ≤ ipSetToken s)
  | webAcl (exhausted : Exhausted (str "WebACL ") error)
      (updates : s₀.acl.lockToken + (settings.retries + 1).toNat ≤ s.acl.lockToken)

/-- How a run of `apply` ends. -/
def ApplyEnded (reserved : Int → Prop) (faulty : Prop) (settings : ApplySettings)
    (s₀ : WafState rt) : Except WafExc ApplyEvidence → WafState rt → Prop
  | .ok evidence, s => ∃ summary : Summary, summary.arn = evidence.ipSetArn ∧
      Allowed settings.names reserved settings.addCidrs summary s₀ s
  | .error error, s => Hindered reserved faulty settings s₀ s error

variable {reserved : Int → Prop} {faulty : Prop} {settings : ApplySettings} {s₀ s : WafState rt}
  {error : WafExc}

theorem IpSetFailure.hindered
    (failure : IpSetFailure settings.names faulty settings.retries s₀ error s) :
    Hindered reserved faulty settings s₀ s error := by
  cases failure with
  | faulty isFaulty => exact .faulty isFaulty
  | otherName notNamed => exact .notReady fun ready => notNamed ready.named
  | lostRace absent => exact .lostRace absent rfl
  | contended exhausted updates => exact .ipSet exhausted updates

theorem RuleFailure.hindered (failure : RuleFailure settings.names reserved faulty
    settings.priority settings.retries s₀ error s) :
    Hindered reserved faulty settings s₀ s error := by
  cases failure with
  | faulty isFaulty => exact .faulty isFaulty
  | notFree notFree =>
      exact .notReady fun ready => notFree ⟨ready.low, ready.isReserved, ready.free⟩
  | contended exhausted updates => exact .webAcl exhausted updates

variable (reserved faulty settings s₀) in
/-- A run of `apply` beside other runs and clients. -/
theorem safeRun_applyAllowlist : SafeRun settings.names reserved faulty (applyAllowlist settings)
    (ApplyEnded reserved faulty settings s₀) s₀ := by
  refine safeRun_bind (safeRun_resolveWebAcl settings.webAclName (.refl s₀)) ?_ ?_
  · rintro webAcl s₁ ⟨kept, rfl⟩
    refine safeRun_bind (safeRun_ensureIpSet kept) ?_ ?_
    · rintro summary s₂ ⟨kept, holds⟩
      refine safeRun_bind (safeRun_ensureAllowRule kept holds) ?_ ?_
      · intro ruleAdded s₃ allowed s₄ later
        exact ⟨summary, rfl, allowed.stable later⟩
      · exact fun error s₃ failure => failure.hindered
    · exact fun error s₂ failure => failure.hindered
  · rintro error s₁ (isFaulty | unresolved)
    · exact .faulty isFaulty
    · exact .notReady fun ready => unresolved ready.resolves

end Apply

end WafAllowlist
