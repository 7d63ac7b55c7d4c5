import TelemetryPlatform.Sweep.Addressing
import TelemetryPlatform.Sweep.CheckMode
import TelemetryPlatform.Sweep.FailSafe

/-!
# What check mode leaves out

A probe that leaves a resource out of the residue makes one call about it. The
answer shows the resource gone or no longer live, but for the probe of ECS, which
takes every `ClientError` of a describe call for the absence of the resource.
-/

namespace Sweep

open Python Interaction

variable {rt : Runtime} {digits : DigitTable} {settings : Settings} {runId : Option Str}

section Evidence

/-- An error code that says that there is no such resource. A task definition that does not exist
is reported by a plain `ClientException`. -/
def NotFoundFor : ApiCall → Str → Prop
  | .describeTaskDefinition _, code => isBenignNotFound code ∨ code = str "ClientException"
  | _, code => isBenignNotFound code

/-- The answer to a describe call says that the resource is gone or no longer live. -/
def Telling (call : ApiCall) : Except Fault (Response call) → Prop
  | .ok response => ShowsGone call response
  | .error (.client code) => NotFoundFor call code
  | .error .other => False

/-- The service says of a resource that it is gone or no longer live. -/
def TellsGone (target : Target) (event : SweepEvent) : Prop :=
  ∃ call reply, event = ⟨.api call, reply⟩ ∧ subject call = some target ∧ Telling call reply

def IsEcsDescribe : ApiCall → Prop
  | .describeClusters _ | .describeServices _ _ | .describeTaskDefinition _ => True
  | _ => False

/-- A describe call of ECS is answered with an error that does not say that the resource does not
exist, such as throttling or a denied access. -/
def Ambiguous (event : SweepEvent) : Prop :=
  ∃ call code, event = ⟨.api call, .error (.client code)⟩ ∧ IsEcsDescribe call ∧
    ¬NotFoundFor call code

/-- The probe of a text asks about a resource, which is the one its handler deletes. The probes of
the VPC family take the id after the last slash. -/
inductive Asks (arn : Str) (found : Target) : Prop
  | handled (service : Service) (isService : servicePrefixFromArn arn = service.servicePrefix)
      (isProbed : service ∈ [.kms, .cloudfront, .ecs, .cognitoIdp])
      (reads : handling service arn = .acts found)
  | vpcFamily (isEc2 : servicePrefixFromArn arn = str "ec2")
      (reads : ec2TargetOf (ec2TypeAndId arn).1 (afterLast slash arn) = some found)

/-- A probe that leaves its resource out made one call, and took its answer for evidence. -/
def LeavesOut (arn : Str) (log : List SweepEvent) : Prop :=
  ∃ call reply found, log = [⟨.api call, reply⟩] ∧ subject call = some found ∧ Asks arn found ∧
    (Telling call reply ∨ IsEcsDescribe call ∧ ∃ code, reply = .error (.client code))

end Evidence

section Probing

variable {arn : Str} {log : List SweepEvent}

theorem runs_probed {α : Type} {goneCodes : List Str} {gone : α → Bool}
    {reply : Except Fault α} {flag : Bool}
    (ran : (probed goneCodes gone reply).Runs log (.ok flag)) :
    log = [] ∧ ((∃ described, reply = .ok described ∧ gone described = flag) ∨
      ∃ code, reply = .error (.client code) ∧ goneCodes.contains code = flag) := by
  cases reply with
  | ok described =>
      rcases ran with ⟨rfl, same⟩
      exact ⟨rfl, Or.inl ⟨described, rfl, (Except.ok.inj same).symm⟩⟩
  | error fault =>
      cases fault with
      | client code =>
          rcases ran with ⟨rfl, same⟩
          exact ⟨rfl, Or.inr ⟨code, rfl, (Except.ok.inj same).symm⟩⟩
      | other => cases ran.2

/-- A probe of the residue filter that finds its resource gone. -/
theorem leavesOut_of_probed (call : ApiCall) {found : Target} {goneCodes : List Str}
    {gone : Response call → Bool} (about : subject call = some found) (asks : Asks arn found)
    (shows : ∀ response, gone response = true → ShowsGone call response)
    (known : ∀ code ∈ goneCodes, NotFoundFor call code)
    (ran : (attempt call >>= probed goneCodes gone).Runs log (.ok true)) : LeavesOut arn log := by
  rcases ran with ⟨reply, rest, rfl, ran⟩
  rcases runs_probed ran with ⟨rfl, ⟨described, rfl, isGone⟩ | ⟨code, rfl, isGone⟩⟩
  · exact ⟨call, _, found, rfl, about, asks, Or.inl (shows described isGone)⟩
  · rw [List.contains_iff_mem] at isGone
    exact ⟨call, _, found, rfl, about, asks, Or.inl (known code isGone)⟩

theorem leavesOut_of_kms (isKms : servicePrefixFromArn arn = str "kms")
    (ran : (isKmsKeyInPendingDeletion arn).Runs log (.ok true)) : LeavesOut arn log := by
  unfold isKmsKeyInPendingDeletion at ran
  cases isAlias : splitOnce (str ":alias/") arn with
  | some parts =>
      rw [isAlias] at ran
      cases ran.2
  | none =>
      rw [isAlias] at ran
      apply leavesOut_of_probed (.describeKey (afterLast slash arn)) rfl
        (.handled .kms isKms (by decide) (by simp only [handling, isAlias])) _ _ ran
      · exact fun response pending =>
          of_decide_eq_true (p := response ∈ kmsPendingDeletionStates) pending
      · simp

theorem any_deletedStates {states : List Str}
    (going : states.any (fun state => decide (state ∈ deletedStates)) = true) :
    ∃ state ∈ states, state ∈ deletedStates := by
  rcases List.any_eq_true.mp going with ⟨state, stateMem, isDeleted⟩
  exact ⟨state, stateMem, of_decide_eq_true isDeleted⟩

/-- The probes of the VPC family. -/
theorem leavesOut_of_ec2 (log : List SweepEvent) (isEc2 : servicePrefixFromArn arn = str "ec2") :
    (ec2ResourceType arn = str "natgateway" → (isNatGatewayDeleted arn).Runs log (.ok true) →
        LeavesOut arn log) ∧
      (ec2ResourceType arn = str "vpc-flow-log" → (isVpcFlowLogDeleted arn).Runs log (.ok true) →
        LeavesOut arn log) ∧
      (ec2ResourceType arn = str "vpc-endpoint" → (isVpcEndpointDeleted arn).Runs log (.ok true) →
        LeavesOut arn log) ∧
      (ec2ResourceType arn = str "security-group" →
        (isSecurityGroupDeleted arn).Runs log (.ok true) → LeavesOut arn log) := by
  have asks {type : Str} (isType : ec2ResourceType arn = type) {found : Target}
      (reads : ec2TargetOf type (afterLast slash arn) = some found) : Asks arn found :=
    .vpcFamily isEc2 (by rw [← reads, ← isType, ec2ResourceType])
  have benign {code : String} (isBenign : isBenignNotFound (str code)) :
      ∀ found ∈ [str code], isBenignNotFound found := List.forall_mem_singleton.mpr isBenign
  refine ⟨fun isType ran => ?_, fun isType ran => ?_, fun isType ran => ?_, fun isType ran => ?_⟩
  · apply leavesOut_of_probed (.describeNatGateways (afterLast slash arn)) rfl
      (asks isType rfl) _ (benign (by decide +kernel)) ran
    exact fun states going => Or.inr (any_deletedStates going)
  · apply leavesOut_of_probed (.describeFlowLogs (afterLast slash arn)) rfl
      (asks isType rfl) _ _ ran
    · exact fun flowLogs none => List.isEmpty_iff.mp none
    · simp
  · apply leavesOut_of_probed (.describeVpcEndpoints (afterLast slash arn)) rfl
      (asks isType rfl) _ (benign (by decide +kernel)) ran
    intro states gone
    rcases Bool.or_eq_true_iff.mp gone with none | going
    · exact Or.inl (List.isEmpty_iff.mp none)
    · exact Or.inr (any_deletedStates going)
  · apply leavesOut_of_probed (.describeSecurityGroups (afterLast slash arn)) rfl
      (asks isType rfl) _ (benign (by decide +kernel)) ran
    exact fun _ impossible => Bool.noConfusion impossible

theorem leavesOut_of_isGone (ran : (isGone arn).Runs log (.ok true)) : LeavesOut arn log := by
  unfold isGone at ran
  dsimp only at ran
  split at ran
  · next isKms => exact leavesOut_of_kms isKms ran
  split at ran
  swap
  · cases ran.2
  next isEc2 =>
    rcases leavesOut_of_ec2 log isEc2 with ⟨nat, flowLog, endpoint, securityGroup⟩
    split at ran
    · next isType => exact nat isType ran
    split at ran
    · next isType => exact flowLog isType ran
    split at ran
    · next isType => exact endpoint isType ran
    split at ran
    · next isType => exact securityGroup isType ran
    · cases ran.2

theorem leavesOut_of_cloudFront (isService : servicePrefixFromArn arn = str "cloudfront")
    (ran : (cloudFrontIsLive arn).Runs log (.ok false)) : LeavesOut arn log := by
  rcases ran with ⟨reply, rest, rfl, ran⟩
  have asks : Asks arn (.distribution (afterLast slash arn)) :=
    .handled .cloudfront isService (by decide) rfl
  cases reply with
  | ok described => cases ran.2
  | error fault =>
      cases fault with
      | other => cases ran.2
      | client code =>
          change (if isBenignNotFound code then Program.ret false
            else Program.raise (.clientError code) : Aws Bool).Runs rest (.ok false) at ran
          split at ran
          · next benign =>
              rw [ran.1]
              exact ⟨.getDistribution (afterLast slash arn), .error (.client code), _, rfl, rfl,
                asks, Or.inl benign⟩
          · cases ran.2

theorem leavesOut_of_cognitoIdp (isService : servicePrefixFromArn arn = str "cognito-idp")
    (ran : (cognitoIdpIsLive arn).Runs log (.ok false)) : LeavesOut arn log := by
  unfold cognitoIdpIsLive poolIdAndRegion at ran
  cases hasRegion : (arn.splitOn colon)[3]? with
  | none =>
      rw [hasRegion] at ran
      cases ran.2
  | some region =>
      cases read : splitOnce (str ":userpool/") arn with
      | none =>
          rw [hasRegion, read] at ran
          cases ran.2
      | some parts =>
          rw [hasRegion, read] at ran
          rcases ran with ⟨reply, rest, rfl, ran⟩
          have asks : Asks arn (.userPool region parts.2) := by
            refine .handled .cognitoIdp isService (by decide) ?_
            simp only [handling, hasRegion, read]
          cases reply with
          | ok described => cases ran.2
          | error fault =>
              change (if fault.hasCode "ResourceNotFoundException" then Program.ret false
                else Program.raise (.ofFault fault) : Aws Bool).Runs rest (.ok false) at ran
              split at ran
              · next notFound =>
                  rw [ran.1, Fault.hasCode_iff.mp notFound]
                  refine ⟨.describeUserPool region parts.2, _, _, rfl, rfl, asks, Or.inl ?_⟩
                  change isBenignNotFound (str "ResourceNotFoundException") = true
                  decide +kernel
              · cases ran.2

/-- The probe of ECS takes an answer that is not `ACTIVE`, or any `ClientError`, for evidence. -/
theorem leavesOut_of_activeUnlessClientError (call : ApiCall) {found : Target}
    {isActive : Response call → Bool} (about : subject call = some found) (asks : Asks arn found)
    (isDescribe : IsEcsDescribe call)
    (shows : ∀ response, isActive response = false → ShowsGone call response)
    (ran : (attempt call >>= activeUnlessClientError isActive).Runs log (.ok false)) :
    LeavesOut arn log := by
  rcases ran with ⟨reply, rest, rfl, ran⟩
  cases reply with
  | ok described =>
      rcases ran with ⟨rfl, same⟩
      exact ⟨call, _, found, rfl, about, asks, Or.inl (shows described (Except.ok.inj same).symm)⟩
  | error fault =>
      cases fault with
      | client code =>
          rw [ran.1]
          exact ⟨call, _, found, rfl, about, asks, Or.inr ⟨isDescribe, code, rfl⟩⟩
      | other => cases ran.2

theorem leavesOut_of_ecs (isService : servicePrefixFromArn arn = str "ecs")
    (ran : (ecsIsLive arn).Runs log (.ok false)) : LeavesOut arn log := by
  have asks {found : Target} (reads : ecsHandling arn = .acts found) : Asks arn found :=
    .handled .ecs isService (by decide) reads
  unfold ecsIsLive at ran
  split at ran
  · next cluster isCluster =>
      refine leavesOut_of_activeUnlessClientError (.describeClusters cluster) rfl (asks ?_) trivial
        ?_ ran
      · simp only [ecsHandling, isCluster]
      · exact fun _ inactive => inactive
  next notCluster =>
    split at ran
    · next isEcsService =>
        refine leavesOut_of_activeUnlessClientError
          (.describeServices (ecsServiceParts arn).1 (ecsServiceParts arn).2) rfl (asks ?_) trivial
          ?_ ran
        · simp only [ecsHandling, notCluster, isEcsService, if_true]
        · exact fun _ inactive => inactive
    next notEcsService =>
      split at ran
      · next taskDef isTask =>
          refine leavesOut_of_activeUnlessClientError (.describeTaskDefinition taskDef) rfl
            (asks ?_) trivial ?_ ran
          · simp only [ecsHandling, notCluster, notEcsService, isTask]
            rfl
          · exact fun status inactive => of_decide_eq_false (p := status = str "ACTIVE") inactive
      · cases ran.2

theorem runs_isGone_of_other (notKms : servicePrefixFromArn arn ≠ str "kms")
    (notEc2 : servicePrefixFromArn arn ≠ str "ec2") {gone : Bool}
    (ran : (isGone arn).Runs log (.ok gone)) : log = [] := by
  unfold isGone at ran
  dsimp only at ran
  rw [if_neg notKms, if_neg notEc2] at ran
  exact ran.1

theorem leavesOut_of_handlerReportsLive
    (ran : (handlerReportsLive settings arn).Runs log (.ok false)) :
    LeavesOut arn log ∧ servicePrefixFromArn arn ≠ str "kms" ∧
      servicePrefixFromArn arn ≠ str "ec2" := by
  unfold handlerReportsLive at ran
  cases found : handlers settings.pollTimeout (servicePrefixFromArn arn) with
  | none =>
      rw [found] at ran
      cases ran.2
  | some handler =>
      rw [found] at ran
      rcases Option.map_eq_some_iff.mp found with ⟨service, service_eq, rfl⟩
      have isService : servicePrefixFromArn arn = service.servicePrefix := by
        have matched := List.find?_some service_eq
        exact (of_decide_eq_true matched).symm
      cases service with
      | cloudfront =>
          exact ⟨leavesOut_of_cloudFront isService ran, by rw [isService]; decide,
            by rw [isService]; decide⟩
      | ecs =>
          exact ⟨leavesOut_of_ecs isService ran, by rw [isService]; decide,
            by rw [isService]; decide⟩
      | cognitoIdp =>
          exact ⟨leavesOut_of_cognitoIdp isService ran, by rw [isService]; decide,
            by rw [isService]; decide⟩
      | _ => cases ran.2

/-- A resource that its probes do not count was left out for a reason. -/
theorem leavesOut_of_isResidue {resource : Resource}
    (ran : (isResidue settings resource).Runs log (.ok false)) : LeavesOut resource.arn log := by
  unfold isResidue at ran
  rcases Program.runs_bind_ok.mp ran with ⟨gone, first, second, rfl, probing, rest⟩
  cases gone with
  | true =>
      rcases rest with ⟨rfl, _⟩
      rw [List.append_nil]
      exact leavesOut_of_isGone probing
  | false =>
      rcases leavesOut_of_handlerReportsLive rest with ⟨leftOut, notKms, notEc2⟩
      rw [runs_isGone_of_other notKms notEc2 probing]
      exact leftOut

end Probing

section Addressed

/-- The id of a resource of the VPC family has a slash, where the probes cut it off. -/
def ProbedElsewhere (arn : Arn) : Prop :=
  arn.service = .ec2 ∧ ∃ type id, splitOnce (str "/") arn.resource = some (type, id) ∧ slash ∈ id

theorem servicePrefix_injective {service service' : Service}
    (same : service.servicePrefix = service'.servicePrefix) : service = service' := by
  have found : ∀ service : Service, Service.all.find?
      (fun other => other.servicePrefix = service.servicePrefix) = some service := by
    intro service
    cases service <;> rfl
  have first := found service
  rw [same, found service'] at first
  exact (Option.some.inj first).symm

/-- The types of the VPC family as what they make of an id. -/
def ec2KindOf (type : Str) : Option (Str → Target) :=
  if type = str "natgateway" then some .natGateway
  else if type = str "vpc-flow-log" then some .flowLog
  else if type = str "elastic-ip" ∨ type = str "eip-allocation" then some .elasticIp
  else if type = str "subnet" then some .subnet
  else if type = str "route-table" then some .routeTable
  else if type = str "internet-gateway" then some .internetGateway
  else if type = str "security-group" then some .securityGroup
  else if type = str "vpc-endpoint" then some .vpcEndpoint
  else if type = str "vpc" then some .vpc
  else none

theorem ec2TargetOf_eq {type id : Str} :
    ec2TargetOf type id = (ec2KindOf type).map fun kind => kind id := by
  simp only [ec2TargetOf, ec2KindOf, apply_ite (Option.map fun kind : Str → Target => kind id),
    Option.map_some, Option.map_none]

theorem ec2TargetOf_injective {type id id' : Str} {target : Target}
    (first : ec2TargetOf type id = some target) (second : ec2TargetOf type id' = some target) :
    id = id' := by
  rw [ec2TargetOf_eq, Option.map_eq_some_iff] at first second
  rcases first with ⟨kind, isKind, rfl⟩
  rcases second with ⟨kind', isKind', same⟩
  cases isKind.symm.trans isKind'
  have injective : Function.Injective kind := by
    unfold ec2KindOf at isKind
    split_ifs at isKind
    all_goals
      cases isKind
      intro left right equal
      cases equal
      rfl
  exact (injective same).symm

variable {arn : Arn} {found target : Target}

/-- A probe asks about the resource the ARN names, but for an id it cuts off. -/
theorem found_eq_iff (asks : Asks arn.text found) (named : targetOf arn = some target) :
    found = target ↔ ¬ProbedElsewhere arn := by
  cases asks with
  | handled service isService isProbed reads =>
      rw [servicePrefixFromArn_text] at isService
      have service_eq := servicePrefix_injective isService
      subst service_eq
      have notEc2 : arn.service ≠ .ec2 := by
        rintro isEc2
        rw [isEc2] at isProbed
        exact absurd isProbed (by decide)
      have rightly : ¬Misread arn := by
        intro misread
        cases isIam : arn.service with
        | iam =>
            rw [isIam] at isProbed
            exact absurd isProbed (by decide)
        | cloudwatch =>
            rw [isIam] at isProbed
            exact absurd isProbed (by decide)
        | _ => simp only [Misread, isIam] at misread
      rw [handling_of_target named rightly, Handling.acts.injEq] at reads
      exact iff_of_true reads.symm fun elsewhere => notEc2 elsewhere.1
  | vpcFamily isEc2 reads =>
      rw [servicePrefixFromArn_text] at isEc2
      have service_eq : arn.service = .ec2 := servicePrefix_injective isEc2
      simp only [targetOf, service_eq, Option.bind_eq_some_iff] at named
      rcases named with ⟨⟨type, id⟩, split, named⟩
      have probed_eq : afterLast slash arn.text = afterLast slash id := by
        rw [Arn.text, text_of_splitOnce split]
        simp only [show str "/" = [slash] from rfl, List.append_assoc, List.singleton_append]
        rw [← List.cons_append, ← List.append_assoc, afterLast_append]
      rw [ec2TypeAndId_text, split, probed_eq] at reads
      have elsewhere_iff : ProbedElsewhere arn ↔ slash ∈ id := by
        constructor
        · rintro ⟨_, type', id', split', inId⟩
          rw [split] at split'
          cases split'
          exact inId
        · exact fun inId => ⟨service_eq, type, id, split, inId⟩
      rw [elsewhere_iff]
      constructor
      · rintro rfl inId
        have same : id = afterLast slash id := ec2TargetOf_injective named reads
        rw [same] at inId
        exact not_mem_afterLast inId
      · intro notIn
        rw [afterLast_eq_self notIn] at reads
        exact Option.some.inj (reads.symm.trans named)

end Addressed

section Shown

/-- There is evidence about the resource that an ARN names. -/
def ShownGone (text : Str) (log : List SweepEvent) : Prop :=
  ∃ arn target, text = Arn.text arn ∧ targetOf arn = some target ∧
    ∃ event ∈ log, TellsGone target event

/-- No describe call of ECS was answered ambiguously, the ARN names a resource of a type with a
deletion path, and its id was not cut off. A CloudFront ARN of another type is asked about as a
distribution all the same. -/
def Trustworthy (text : Str) (log : List SweepEvent) : Prop :=
  (∀ event ∈ log, ¬Ambiguous event) ∧
    ∃ arn, text = Arn.text arn ∧ (∃ target, targetOf arn = some target) ∧ ¬ProbedElsewhere arn

theorem tellsGone_iff {call : ApiCall} {reply : Except Fault (Response call)}
    {target found : Target}
    (about : subject call = some found) :
    (∃ event ∈ ([⟨.api call, reply⟩] : List SweepEvent), TellsGone target event) ↔
      found = target ∧ Telling call reply := by
  constructor
  · rintro ⟨event, eventMem, call', reply', rfl, about', telling⟩
    cases List.mem_singleton.mp eventMem
    rw [about, Option.some.injEq] at about'
    exact ⟨about', telling⟩
  · rintro ⟨rfl, telling⟩
    exact ⟨_, List.mem_singleton_self _, call, reply, rfl, about, telling⟩

theorem ambiguous_iff {call : ApiCall} {reply : Except Fault (Response call)}
    (taken : Telling call reply ∨ IsEcsDescribe call ∧ ∃ code, reply = .error (.client code)) :
    (∀ event ∈ ([⟨.api call, reply⟩] : List SweepEvent), ¬Ambiguous event) ↔
      Telling call reply := by
  rw [List.forall_mem_singleton]
  constructor
  · intro notAmbiguous
    rcases taken with telling | ⟨isDescribe, code, rfl⟩
    · exact telling
    · by_contra notTelling
      exact notAmbiguous ⟨call, code, rfl, isDescribe, notTelling⟩
  · rintro telling ⟨call', code, same, _, notFound⟩
    cases same
    exact notFound telling

/-- What is left out is shown to be gone exactly where its probe is trustworthy. -/
theorem shownGone_iff {text : Str} {log : List SweepEvent} (leftOut : LeavesOut text log) :
    ShownGone text log ↔ Trustworthy text log := by
  rcases leftOut with ⟨call, reply, found, rfl, about, asks, taken⟩
  simp only [ShownGone, Trustworthy, tellsGone_iff about, ambiguous_iff taken]
  constructor
  · rintro ⟨arn, target, rfl, named, found_eq, telling⟩
    exact ⟨telling, arn, rfl, ⟨target, named⟩, (found_eq_iff asks named).mp found_eq⟩
  · rintro ⟨telling, arn, rfl, ⟨target, named⟩, rightly⟩
    exact ⟨arn, target, rfl, named, (found_eq_iff asks named).mpr rightly, telling⟩

variable (rt digits settings runId) in
/-- In a run of check mode that came to its report, the probe of a resource that the report does not
count. -/
def Excluded (log : List SweepEvent) (probe : Probe) : Prop :=
  ∃ account now enumerated resources probes ceLog items report,
    Sweepable rt digits settings runId now enumerated resources ∧
      Probed settings resources probes ∧ Listed rt digits settings runId now ceLog items ∧
      log = ⟨.api .getCallerIdentity, .ok account⟩ :: enumeration runId now enumerated ++
        (probes.flatMap Program.Piece.log ++ ceLog ++ [⟨.writeReport report, ()⟩]) ∧
      report.found = (live probes).map foundEntry ++ items.map ceFound ∧
      probe ∈ probes ∧ probe.value = false

/-- Check mode leaves a resource out only on evidence that it is gone or no longer live, or fails,
exactly when none of the probes it goes by is untrustworthy. -/
theorem main_check_failClosed_iff {log : List SweepEvent} {outcome : Except Halt Int}
    (ran : (main rt digits settings .check runId).Runs log outcome) :
    (((∀ count : Nat, outcome ≠ .ok count) → exitStatus outcome = 1) ∧
        ∀ probe, Excluded rt digits settings runId log probe →
          ShownGone probe.input.arn probe.log) ↔
      ∀ probe, Excluded rt digits settings runId log probe →
        Trustworthy probe.input.arn probe.log := by
  have aborts : (∀ count : Nat, outcome ≠ .ok count) → exitStatus outcome = 1 := by
    intro aborted
    rcases runs_main_check ran with ⟨status, _⟩ | ⟨count, _, outcome_eq, _⟩
    · exact status
    · exact False.elim (aborted count outcome_eq)
  have each : ∀ probe, Excluded rt digits settings runId log probe →
      (ShownGone probe.input.arn probe.log ↔ Trustworthy probe.input.arn probe.log) := by
    rintro probe ⟨_, _, _, _, probes, _, _, _, _, probed, _, _, _, probeMem, notCounted⟩
    have probing := probed.2 probe probeMem
    rw [notCounted] at probing
    exact shownGone_iff (leavesOut_of_isResidue probing)
  constructor
  · rintro ⟨_, shown⟩ probe excluded
    exact (each probe excluded).mp (shown probe excluded)
  · refine fun trustworthy => ⟨aborts, fun probe excluded => ?_⟩
    exact (each probe excluded).mpr (trustworthy probe excluded)

end Shown

namespace Sample

/-- `arn:aws:ecs:us-east-1:222222222222:cluster/web`. -/
def cluster : Arn where
  partition := str "aws"
  service := .ecs
  region := str "us-east-1"
  account := str "222222222222"
  resource := str "cluster/web"
  isPartition := isPartition_aws
  isRegion := isRegion_usEast1
  isAccount := user.isAccount

/-- The services while ECS throttles its callers. -/
def throttled : (request : Call) → Call.Reply request
  | .api (.describeClusters _) => .error (.client (str "ThrottlingException"))
  | request => services (calmReply .now) [⟨cluster.text, []⟩] request

/-- A check of the cluster. -/
theorem exists_throttledCheck : ∃ log outcome,
    (main Runtime.whole DigitTable.latin sandbox .check (some (str "tt-1"))).Runs log outcome ∧
      outcome.toOption = some 0 ∧ ∀ event ∈ log, event.reply = throttled event.request :=
  Program.exists_run _ _ (fun outcome => outcome.toOption = some 0) (by decide +kernel)

end Sample

theorem main_check_failClosed_iff_throttled : ∃ log outcome,
    outcome.toOption = some 0 ∧
      ((((∀ count : Nat, outcome ≠ .ok count) → exitStatus outcome = 1) ∧
          ∀ probe, Excluded Runtime.whole DigitTable.latin Sample.sandbox (some (str "tt-1")) log
            probe → ShownGone probe.input.arn probe.log) ↔
        ∀ probe, Excluded Runtime.whole DigitTable.latin Sample.sandbox (some (str "tt-1")) log
          probe → Trustworthy probe.input.arn probe.log) := by
  rcases Sample.exists_throttledCheck with ⟨log, outcome, ran, code_eq, _⟩
  exact ⟨log, outcome, code_eq, main_check_failClosed_iff ran⟩

/-- A cluster that ECS could not be asked about is left out, and the check succeeds. -/
theorem main_check_masks_throttled : ∃ log outcome probe,
    (main Runtime.whole DigitTable.latin Sample.sandbox .check (some (str "tt-1"))).Runs log
        outcome ∧
      exitStatus outcome = 0 ∧
      Excluded Runtime.whole DigitTable.latin Sample.sandbox (some (str "tt-1")) log probe ∧
      ¬ShownGone probe.input.arn probe.log := by
  rcases Sample.exists_throttledCheck with ⟨log, outcome, ran, code_eq, replies⟩
  rcases runs_main_report ran with ⟨status, _⟩ | ⟨account, now, enumerated, resources, probes,
    ceLog, items, report, swept, probed, listed, rfl, found_eq, rfl⟩
  · cases outcome with
    | ok code =>
        cases code_eq
        cases status
    | error halt => cases code_eq
  have length_eq : report.found.length = 0 := by exact_mod_cast Option.some.inj code_eq
  have notCounted : ∀ probe ∈ probes, ¬probe.value = true := by
    rw [found_eq, List.length_append, List.length_map, List.length_map, live, List.length_map,
      Nat.add_eq_zero_iff, List.length_eq_zero_iff, List.filter_eq_nil_iff] at length_eq
    exact length_eq.1
  have enumerated_eq : enumerated = [⟨Sample.cluster.text, []⟩] := Except.ok.inj
    (replies ⟨.api (.getResources (some (str "tt-1"))), .ok enumerated⟩ (by simp [enumeration]))
  have inputMem : (⟨Sample.cluster.text, []⟩ : Resource) ∈ probes.map Program.Piece.input := by
    rw [probed.1, show resources = enumerated from swept, enumerated_eq]
    exact List.mem_singleton_self _
  rcases List.mem_map.mp inputMem with ⟨probe, probeMem, input_eq⟩
  refine ⟨_, _, probe, ran, ?_, ⟨account, now, enumerated, resources, probes, ceLog, items, report,
    swept, probed, listed, rfl, found_eq, probeMem,
    Bool.eq_false_iff.mpr (notCounted probe probeMem)⟩, ?_⟩
  · rw [length_eq]
    rfl
  have probing := probed.2 probe probeMem
  rw [Bool.eq_false_iff.mpr (notCounted probe probeMem)] at probing
  have leftOut := leavesOut_of_isResidue probing
  rw [input_eq] at leftOut ⊢
  rcases leftOut with ⟨call, reply, found, log_eq, about, asks, _⟩
  have named : targetOf Sample.cluster = some (.ecsCluster (str "web")) := by decide
  -- The one call is about the cluster, so its answer is the throttled one.
  have found_eq : found = .ecsCluster (str "web") := by
    rw [found_eq_iff asks named]
    rintro ⟨isEc2, _⟩
    cases isEc2
  rw [found_eq] at about
  have eventMem : ⟨.api call, reply⟩ ∈ probes.flatMap Program.Piece.log :=
    List.mem_flatMap.mpr ⟨probe, probeMem, by rw [log_eq]; exact List.mem_singleton_self _⟩
  have reply_eq := replies ⟨.api call, reply⟩ (by simp [eventMem])
  dsimp only at reply_eq
  subst reply_eq
  rintro ⟨_, _, _, _, shown⟩
  rw [log_eq, tellsGone_iff (about.trans (congrArg some found_eq.symm))] at shown
  unfold subject at about
  split at about
  all_goals cases about
  · have throttling : ¬isBenignNotFound (str "ThrottlingException") = true := by decide +kernel
    exact throttling shown.2
  · exact shown.2

end Sweep
