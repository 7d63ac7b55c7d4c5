import TelemetryPlatform.Sweep.Handling

/-!
# What the handlers delete

For every service and every text, the handler acts on one resource, returns without
a call, or raises at once. `handling` reads which off the text, and
`handling_correct` proves it of the handlers, branch by branch.
-/

namespace Sweep

open Python Interaction

inductive Handling where
  | acts (target : Target)
  | idles
  | rejects
  deriving DecidableEq

section Reading

def iamHandling (arn : Str) : Handling :=
  match splitOnce (str ":role/") arn with
  | some (_, roleName) => .acts (.iamRole roleName)
  | none =>
      match splitOnce (str ":policy/") arn with
      | some _ => .acts (.iamPolicy arn)
      | none =>
          match splitOnce (str ":instance-profile/") arn with
          | some (_, profileName) => .acts (.instanceProfile profileName)
          | none => .idles

def ecsHandling (arn : Str) : Handling :=
  match splitOnce (str ":cluster/") arn with
  | some (_, cluster) => .acts (.ecsCluster cluster)
  | none =>
      if (splitOnce (str ":service/") arn).isSome then
        .acts (.ecsService (ecsServiceParts arn).1 (ecsServiceParts arn).2)
      else
        match splitOnce (str ":task-definition/") arn with
        | some (_, taskDef) => .acts (.taskDefinition taskDef)
        | none => .rejects

def elbHandling (arn : Str) : Handling :=
  if (splitOnce (str ":loadbalancer/") arn).isSome then .acts (.loadBalancer arn)
  else if (splitOnce (str ":targetgroup/") arn).isSome then .acts (.targetGroup arn)
  else .idles

def glueHandling (arn : Str) : Handling :=
  match splitOnce (str ":database/") arn with
  | some (_, dbName) => .acts (.database dbName)
  | none =>
      match splitOnce (str ":table/") arn with
      | some (_, rest) =>
          let dbName := beforeFirst slash rest
          .acts (.table dbName ((rest.splitOn slash)[1]?.getD dbName))
      | none => .rejects

def quickSightHandling (arn : Str) : Handling :=
  match (arn.splitOn colon)[4]? with
  | none => .rejects
  | some accountId =>
      let segment := (arn.splitOn colon)[5]?.getD []
      if (str "dataset/").isPrefixOf segment then
        .acts (.dataSet accountId (afterLast slash segment))
      else if (str "datasource/").isPrefixOf segment then
        .acts (.dataSource accountId (afterLast slash segment))
      else .rejects

def wafv2Handling (arn : Str) : Handling :=
  match wafv2ParseArn arn with
  | .error _ => .rejects
  | .ok acl =>
      if acl.scope = str "CLOUDFRONT" then
        .acts (.webAcl (str "us-east-1") acl.scope acl.name acl.id)
      else
        match (arn.splitOn colon)[3]? with
        | some region => .acts (.webAcl region acl.scope acl.name acl.id)
        | none => .rejects

/-- What the handler of a service does with an ARN. -/
def handling (service : Service) (arn : Str) : Handling :=
  match service with
  | .s3 => .acts (.bucket (beforeFirst slash (lastPart (str ":::") arn)))
  | .kms =>
      match splitOnce (str ":alias/") arn with
      | some (_, name) => .acts (.kmsAlias (str "alias/" ++ name))
      | none => .acts (.kmsKey (afterLast slash arn))
  | .iam => iamHandling arn
  | .cloudfront => .acts (.distribution (afterLast slash arn))
  | .acm => .acts (.certificate arn)
  | .route53 =>
      match splitOnce (str ":hostedzone/") arn with
      | some (_, zoneId) => .acts (.hostedZone zoneId)
      | none => .rejects
  | .ec2 =>
      match ec2TargetOf (ec2TypeAndId arn).1 (ec2TypeAndId arn).2 with
      | some target => .acts target
      | none => .rejects
  | .ecs => ecsHandling arn
  | .elasticloadbalancing => elbHandling arn
  | .firehose =>
      .acts (.deliveryStream (match splitOnce (str "/") arn with
        | some (_, rest) => rest
        | none => arn))
  | .glue => glueHandling arn
  | .athena =>
      match splitOnce (str ":workgroup/") arn with
      | some (_, workgroup) => .acts (.workgroup workgroup)
      | none => .idles
  | .sns => .acts (.topic arn)
  | .ssm =>
      .acts (.parameter (match splitOnce (str ":parameter/") arn with
        | some (_, name) => str "/" ++ name
        | none =>
            match splitOnce (str "/") arn with
            | some (_, rest) => rest
            | none => arn))
  | .lambda => .acts (.lambdaFunction arn)
  | .logs =>
      .acts (.logGroup (beforeFirst colon (match splitOnce (str ":log-group:") arn with
        | some (_, rest) => rest
        | none => arn)))
  | .cloudwatch => .acts (.alarm (afterLast colon arn))
  | .quicksight => quickSightHandling arn
  | .budgets =>
      match splitOnce (str ":budget/") arn with
      | some (_, budgetName) =>
          match (arn.splitOn colon)[4]? with
          | some accountId => .acts (.budget accountId budgetName)
          | none => .rejects
      | none => .acts (.anomalyMonitor arn)
  | .ce =>
      if (splitOnce (str ":anomalysubscription/") arn).isSome then
        .acts (.anomalySubscription arn)
      else .acts (.anomalyMonitor arn)
  | .wafv2 => wafv2Handling arn
  | .cognitoIdp =>
      match (arn.splitOn colon)[3]?, splitOnce (str ":userpool/") arn with
      | some region, some (_, poolId) => .acts (.userPool region poolId)
      | _, _ => .rejects

/-- What a handling says about the program. -/
def Handling.Describes (program : Aws Action) : Handling → Prop
  | .acts target => Acts program target
  | .idles => program = pure .deleted
  | .rejects => ∃ error, program = throw error ∧ ∀ code, error ≠ .clientError code

end Reading

section Storage

theorem acts_s3 (arn : Str) :
    Acts (s3Delete arn) (.bucket (beforeFirst slash (lastPart (str ":::") arn))) where
  serves := by
    apply (serves_api (about_of_subject rfl) fun _ => rfl).bind
    intro pages
    apply (serves_forM fun versions => ?_).bind
    · intro _
      apply (serves_api (about_of_subject rfl) fun _ => rfl).bind
      intro _
      exact (serves_api (about_of_subject rfl) fun _ => rfl).bind fun _ => rfl
    · split
      · exact serves_api (about_of_none rfl) fun _ => rfl
      · rfl
  settles := by
    apply Program.ensures_bind_right
    intro pages
    apply Program.ensures_bind_right
    intro _
    apply Program.ensures_bind_right
    intro _
    exact settles_deletion rfl rfl
  calm := rfl

theorem acts_firehose (arn : Str) :
    Acts (firehoseDelete arn) (.deliveryStream (match splitOnce (str "/") arn with
      | some (_, rest) => rest
      | none => arn)) :=
  acts_of_deletion rfl rfl (fun _ => rfl) rfl

/-- The tables of a database are deleted before it. -/
theorem acts_database (dbName : Str) :
    Acts (do
      let tables ← api (.getTables dbName)
      tables.forM fun table => api (.deleteTable dbName table)
      api (.deleteDatabase dbName)
      return .deleted) (.database dbName) where
  serves := by
    apply (serves_api (about_of_subject rfl) fun _ => rfl).bind
    intro tables
    apply (serves_forM fun table => ?_).bind
    · intro _
      exact (serves_api (about_of_subject rfl) fun _ => rfl).bind fun _ => rfl
    · apply serves_api
      · intro found foundMem
        cases foundMem
        exact Or.inr rfl
      · exact fun _ => rfl
  settles := by
    apply Program.ensures_bind_right
    intro tables
    apply Program.ensures_bind_right
    intro _
    exact settles_deletion rfl rfl
  calm := rfl

theorem describes_glue (arn : Str) : (glueHandling arn).Describes (glueDelete arn) := by
  unfold glueHandling glueDelete
  cases splitOnce (str ":database/") arn with
  | some parts => exact acts_database parts.2
  | none =>
      dsimp only
      cases splitOnce (str ":table/") arn with
      | some parts => exact acts_of_deletion rfl rfl (fun _ => rfl) rfl
      | none => exact ⟨_, rfl, nofun⟩

end Storage

section Keys

theorem serves_deleteKeyAlias {keyId aliasName : Str} :
    Serves (.kmsKey keyId) (fun _ => false) (deleteKeyAlias aliasName) := by
  unfold deleteKeyAlias
  split
  · apply serves_unless "NotFoundException"
    · intro found foundMem
      cases foundMem
      exact Or.inr trivial
    · exact fun _ => rfl
    · exact fun _ => rfl
    · rfl
    · intro fault unknown
      simp [unknown]
  · rfl

theorem serves_keyStateOf {keyId : Str} :
    Serves (.kmsKey keyId) (fun _ => false) (keyStateOf keyId) := by
  refine ⟨about_of_subject rfl, fun _ => rfl, fun fault => ?_⟩
  cases fault with
  | client code => rfl
  | other => exact Or.inl ⟨.unexpected, rfl, nofun⟩

/-- A key in pending deletion is left as it is. -/
theorem acts_key (keyId : Str) :
    Acts (do
      deleteKeyAliases keyId
      let keyState ← keyStateOf keyId
      if keyState ∈ kmsPendingDeletionStates then
        return .scheduled
      api (.scheduleKeyDeletion keyId kmsPendingWindowDays)
      return .scheduled) (.kmsKey keyId) where
  serves := by
    apply Serves.bind
    · apply (serves_api (about_of_subject rfl) fun _ => rfl).bind
      intro pages
      apply (serves_forM fun _ => serves_deleteKeyAlias).bind
      exact fun _ => serves_api (about_of_subject rfl) fun _ => rfl
    · intro _
      apply serves_keyStateOf.bind
      intro keyState
      split
      · rfl
      · exact (serves_api (about_of_subject rfl) fun _ => rfl).bind fun _ => rfl
  settles := by
    apply Program.ensures_bind_right
    intro _ reply
    cases reply with
    | error fault => exact Or.inl (Or.inl ⟨fault, rfl⟩)
    | ok keyState =>
        by_cases pending : keyState ∈ kmsPendingDeletionStates
        · exact Or.inl (Or.inr ⟨rfl, Or.inr pending⟩)
        · apply Or.inr
          show (if keyState ∈ kmsPendingDeletionStates then _ else _ : Aws Action).Ensures _
          rw [if_neg pending]
          exact settles_deletion rfl rfl
  calm := rfl

theorem describes_kms (arn : Str) : (handling .kms arn).Describes (kmsDelete arn) := by
  unfold handling kmsDelete
  dsimp only
  cases splitOnce (str ":alias/") arn with
  | some parts => exact acts_of_deletion rfl rfl (fun _ => rfl) rfl
  | none => exact acts_key _

end Keys

section Identity

theorem acts_role (roleName : Str) : Acts (iamDeleteRole roleName) (.iamRole roleName) where
  serves := by
    apply (serves_api (about_of_subject rfl) fun _ => rfl).bind
    intro profiles
    apply (serves_forM fun _ => serves_api (about_of_none rfl) fun _ => rfl).bind
    intro _
    apply (serves_api (about_of_subject rfl) fun _ => rfl).bind
    intro policies
    apply (serves_forM fun _ => serves_api (about_of_none rfl) fun _ => rfl).bind
    intro _
    apply (serves_api (about_of_subject rfl) fun _ => rfl).bind
    intro policyNames
    apply (serves_forM fun _ => serves_api (about_of_none rfl) fun _ => rfl).bind
    intro _
    exact (serves_api (about_of_subject rfl) fun _ => rfl).bind fun _ => rfl
  settles := by
    iterate 6
      apply Program.ensures_bind_right
      intro _
    exact settles_deletion rfl rfl
  calm := rfl

theorem acts_policy (arn : Str) : Acts (iamDeletePolicy arn) (.iamPolicy arn) where
  serves := by
    apply (serves_api (about_of_subject rfl) fun _ => rfl).bind
    intro roles
    apply (serves_forM fun _ => serves_api (about_of_none rfl) fun _ => rfl).bind
    intro _
    exact (serves_api (about_of_subject rfl) fun _ => rfl).bind fun _ => rfl
  settles := by
    iterate 2
      apply Program.ensures_bind_right
      intro _
    exact settles_deletion rfl rfl
  calm := rfl

theorem acts_instanceProfile (profileName : Str) :
    Acts (iamDeleteInstanceProfile profileName) (.instanceProfile profileName) where
  serves := by
    apply (serves_api (about_of_subject rfl) fun _ => rfl).bind
    intro roles
    apply (serves_forM fun _ => serves_api (about_of_none rfl) fun _ => rfl).bind
    intro _
    exact (serves_api (about_of_subject rfl) fun _ => rfl).bind fun _ => rfl
  settles := by
    iterate 2
      apply Program.ensures_bind_right
      intro _
    exact settles_deletion rfl rfl
  calm := rfl

theorem describes_iam (arn : Str) : (iamHandling arn).Describes (iamDelete arn) := by
  unfold iamHandling iamDelete
  cases splitOnce (str ":role/") arn with
  | some parts => exact acts_role parts.2
  | none =>
      dsimp only
      cases splitOnce (str ":policy/") arn with
      | some parts => exact acts_policy arn
      | none =>
          dsimp only
          cases splitOnce (str ":instance-profile/") arn with
          | some parts => exact acts_instanceProfile parts.2
          | none => rfl

theorem serves_deletePoolDomain {region poolId domain : Str} :
    Serves (.userPool region poolId) (fun _ => false) (deletePoolDomain region poolId domain) := by
  unfold deletePoolDomain
  split
  · apply serves_unless "ResourceNotFoundException"
    · exact about_of_none rfl
    · exact fun _ => rfl
    · exact fun _ => rfl
    · rfl
    · intro fault unknown
      simp [unknown]
  · rfl

theorem serves_deletePoolAndDomain {region poolId domain : Str} :
    Serves (.userPool region poolId) (fun action => action = .alreadyDeleted)
      (deletePoolAndDomain region poolId domain) := by
  apply serves_deletePoolDomain.bind
  intro _
  apply serves_telling "ResourceNotFoundException"
  · exact about_of_subject rfl
  · exact fun _ => rfl
  · decide
  · exact fun _ => rfl
  · rfl
  · rfl
  · intro fault unknown
    simp [unknown]

theorem settles_deletePoolAndDomain {region poolId domain : Str} :
    (deletePoolAndDomain region poolId domain).Ensures (Settles (.userPool region poolId)) := by
  apply Program.ensures_bind_right
  intro _
  exact settles_attempt_bind fun _ => Or.inl ⟨rfl, Or.inl rfl⟩

theorem acts_userPool (region poolId : Str) :
    Acts (deletePool region poolId) (.userPool region poolId) where
  serves := by
    apply serves_telling "ResourceNotFoundException"
    · exact about_of_subject rfl
    · exact fun _ => rfl
    · decide
    · intro pool
      dsimp only
      split
      · apply (serves_api (about_of_subject rfl) fun _ => rfl).bind
        exact fun _ => serves_deletePoolAndDomain
      · exact serves_deletePoolAndDomain
    · rfl
    · rfl
    · intro fault unknown
      simp [unknown]
  settles := by
    apply settles_attempt_bind
    intro pool
    apply Or.inr
    dsimp only
    split
    · exact Program.ensures_bind_right fun _ => settles_deletePoolAndDomain
    · exact settles_deletePoolAndDomain
  calm := rfl

theorem describes_cognitoIdp (arn : Str) :
    (handling .cognitoIdp arn).Describes (cognitoIdpDelete arn) := by
  unfold handling cognitoIdpDelete poolIdAndRegion
  dsimp only
  cases (arn.splitOn colon)[3]? with
  | none => exact ⟨_, rfl, nofun⟩
  | some region =>
      cases splitOnce (str ":userpool/") arn with
      | none => exact ⟨_, rfl, nofun⟩
      | some parts => exact acts_userPool region parts.2

end Identity

section Delivery

theorem serves_disableDistribution {pollTimeout distId etag : Str} :
    Serves (.distribution distId) (fun _ => false)
      (disableDistribution pollTimeout distId etag) := by
  apply (serves_api (about_of_subject rfl) fun _ => rfl).bind
  intro _
  refine ⟨about_of_subject rfl, ?_, fun fault => ?_⟩
  · exact fun _ => serves_api (about_of_subject rfl) fun _ => rfl
  · exact Or.inl ⟨_, rfl, nofun⟩

theorem acts_cloudFront (pollTimeout arn : Str) :
    Acts (cloudFrontDelete pollTimeout arn) (.distribution (afterLast slash arn)) where
  serves := by
    apply (serves_api (about_of_subject rfl) fun _ => rfl).bind
    intro config
    have deletes : ∀ etag, Serves (.distribution (afterLast slash arn))
        (fun action => action = Action.alreadyDeleted)
        (api (.deleteDistribution (afterLast slash arn) etag) >>= fun _ => pure Action.deleted) :=
      fun _ => (serves_api (about_of_subject rfl) fun _ => rfl).bind fun _ => rfl
    dsimp only
    split
    · exact serves_disableDistribution.bind deletes
    · exact deletes _
  settles := by
    apply Program.ensures_bind_right
    intro config
    dsimp only
    split
    · exact Program.ensures_bind_right fun _ => settles_deletion rfl rfl
    · exact settles_deletion rfl rfl
  calm := rfl

theorem serves_zoneNameOf {zoneId : Str} :
    Serves (.hostedZone zoneId) (fun _ => false) (zoneNameOf zoneId) := by
  refine ⟨about_of_subject rfl, fun _ => rfl, fun fault => ?_⟩
  cases fault with
  | client code => rfl
  | other => exact Or.inl ⟨.unexpected, rfl, nofun⟩

theorem serves_deleteDelegation {zoneId childZoneId zoneName : Str} {zones : List HostedZone} :
    Serves (.hostedZone zoneId) (fun _ => false)
      (deleteDelegation childZoneId zoneName zones) := by
  induction zones with
  | nil => rfl
  | cons zone zones ih =>
      unfold deleteDelegation
      cases parentId? childZoneId zoneName zone with
      | none => exact ih
      | some parentId =>
          apply (serves_api (about_of_none rfl) fun _ => rfl).bind
          intro recordSets
          cases recordSets.find? (isDelegation zoneName) with
          | none => exact ih
          | some recordSet =>
              exact (serves_api (about_of_none rfl) fun _ => rfl).bind fun _ => rfl

theorem serves_deleteParentDelegation {zoneId childZoneId zoneName : Str} :
    Serves (.hostedZone zoneId) (fun _ => false)
      (deleteParentDelegation childZoneId zoneName) := by
  apply (serves_api (about_of_none rfl) fun _ => rfl).bind
  intro pages
  apply serves_deleteDelegation.bind
  intro done
  cases done with
  | true => rfl
  | false => exact serves_api (about_of_none rfl) fun _ => rfl

/-- The zone and then its delegation. -/
theorem serves_zoneEnd {zoneId zoneName : Str} :
    Serves (.hostedZone zoneId) (fun action => action = Action.alreadyDeleted) (do
      api (.deleteHostedZone zoneId)
      if zoneName ≠ [] then
        deleteParentDelegation zoneId zoneName
      return .deleted) := by
  apply (serves_api (about_of_subject rfl) fun _ => rfl).bind
  intro _
  split
  · exact serves_deleteParentDelegation.bind fun _ => rfl
  · rfl

theorem describes_route53 (arn : Str) : (handling .route53 arn).Describes (route53Delete arn) := by
  unfold handling route53Delete
  dsimp only
  cases splitOnce (str ":hostedzone/") arn with
  | none => exact ⟨_, rfl, nofun⟩
  | some parts =>
      refine ⟨?_, ?_, rfl⟩
      · apply serves_zoneNameOf.bind
        intro zoneName
        apply (serves_api (about_of_subject rfl) fun _ => rfl).bind
        intro recordSets
        split
        · apply (serves_api (about_of_none rfl) fun _ => rfl).bind
          exact fun _ => serves_zoneEnd
        · exact serves_zoneEnd
      · apply Program.ensures_bind_right
        intro zoneName
        apply Program.ensures_bind_right
        intro recordSets
        split
        · exact Program.ensures_bind_right fun _ => settles_deletion rfl rfl
        · exact settles_deletion rfl rfl

end Delivery

section Network

theorem acts_natGateway (id : Str) :
    Acts (deleteNatGatewayUnlessGone id >>= fun _ => pure .deleted) (.natGateway id) where
  serves := by
    apply Serves.bind
    · apply (serves_api (about_of_subject rfl) fun _ => rfl).bind
      intro states
      split
      · exact serves_api (about_of_subject rfl) fun _ => rfl
      · rfl
    · exact fun _ => rfl
  settles := by
    apply Program.Ensures.bind
    apply settles_api_bind
    intro states
    by_cases gone : states.getLastD [] ∈ deletedStates
    · refine Or.inl ⟨rfl, Or.inr (Or.inr ⟨_, ?_, gone⟩)⟩
      have nonempty : states ≠ [] := by
        rintro rfl
        exact absurd gone (by decide)
      rw [List.getLastD_eq_getLast?, List.getLast?_eq_some_getLast nonempty]
      exact List.getLast_mem nonempty
    · apply Or.inr
      rw [if_pos gone]
      exact settles_api rfl rfl
  calm := rfl

theorem acts_flowLog (id : Str) :
    Acts (deleteFlowLogUnlessGone id >>= fun _ => pure .deleted) (.flowLog id) where
  serves := by
    apply Serves.bind
    · apply serves_unless "InvalidFlowLogId.NotFound"
      · exact about_of_subject rfl
      · exact fun _ => rfl
      · exact fun _ => rfl
      · rfl
      · intro fault unknown
        simp [unknown]
    · exact fun _ => rfl
  settles := by
    apply Program.Ensures.bind
    exact settles_attempt_bind fun _ => Or.inl ⟨rfl, Or.inl rfl⟩
  calm := rfl

theorem acts_internetGateway (id : Str) :
    Acts (detachAndDeleteInternetGateway id >>= fun _ => pure .deleted) (.internetGateway id) where
  serves := by
    apply Serves.bind
    · apply (serves_api (about_of_subject rfl) fun _ => rfl).bind
      intro gateways
      apply (serves_forM fun _ => serves_api (about_of_none rfl) fun _ => rfl).bind
      exact fun _ => serves_api (about_of_subject rfl) fun _ => rfl
    · exact fun _ => rfl
  settles := by
    apply Program.Ensures.bind
    iterate 2
      apply Program.ensures_bind_right
      intro _
    exact settles_api rfl rfl
  calm := rfl

/-- The default group of a VPC is skipped with an exception of its own. -/
theorem acts_securityGroup (id : Str) :
    Acts (deleteSecurityGroupUnlessDefault id >>= fun _ => pure .deleted)
      (.securityGroup id) where
  serves := by
    apply Serves.bind
    · have looks : Serves (.securityGroup id) (fun _ => false) (isDefaultSecurityGroup id) := by
        refine ⟨about_of_subject rfl, fun _ => rfl, fun fault => ?_⟩
        cases fault with
        | client code => rfl
        | other => exact Or.inl ⟨.unexpected, rfl, nofun⟩
      apply looks.bind
      intro isDefault
      cases isDefault with
      | true => exact nofun
      | false => exact serves_api (about_of_subject rfl) fun _ => rfl
    · exact fun _ => rfl
  settles := by
    apply Program.Ensures.bind
    apply Program.ensures_bind_right
    intro isDefault
    cases isDefault with
    | true => trivial
    | false => exact settles_api rfl rfl
  calm := rfl

/-- One `try` around a call about an endpoint. -/
theorem serves_exceptEndpointGone {id : Str} {call : ApiCall}
    (uses : ∀ fault, absorbs (.vpcEndpoint id) call fault =
      fault.hasCode "InvalidVpcEndpointId.NotFound")
    (fault : Fault) :
    if absorbs (.vpcEndpoint id) call fault then
      Serves (.vpcEndpoint id) (fun _ => false) (exceptEndpointGone (.ofFault fault))
    else
      (∃ error, exceptEndpointGone (.ofFault fault) = .raise error ∧
          ∀ code, error = .clientError code → fault = .client code) ∨
        ∃ value code, exceptEndpointGone (.ofFault fault) = .ret value ∧ false ∧
          fault = .client code ∧ isBenignNotFound code := by
  rw [uses]
  cases fault with
  | other => exact Or.inl ⟨.unexpected, rfl, nofun⟩
  | client code =>
      by_cases gone : code = str "InvalidVpcEndpointId.NotFound"
      · simp [Fault.hasCode, exceptEndpointGone, Raised.ofFault, gone]
      · rw [if_neg (by simp [Fault.hasCode, gone])]
        refine Or.inl ⟨.ofFault (.client code), ?_, fun _ => ofFault_eq_clientError⟩
        simp [exceptEndpointGone, Raised.ofFault, gone]

theorem serves_deleteVpcEndpoint {id : Str} :
    Serves (.vpcEndpoint id) (fun _ => false) (deleteVpcEndpointUnlessGone id) := by
  refine ⟨about_of_subject rfl, fun states => ?_, serves_exceptEndpointGone fun _ => rfl⟩
  show Serves _ _ (Program.handle (if _ then _ else _) _)
  split
  · exact ⟨about_of_subject rfl, fun _ => rfl, serves_exceptEndpointGone fun _ => rfl⟩
  · rfl

theorem acts_vpcEndpoint (id : Str) :
    Acts (deleteVpcEndpointUnlessGone id >>= fun _ => pure .deleted) (.vpcEndpoint id) where
  serves := serves_deleteVpcEndpoint.bind fun _ => rfl
  settles := by
    apply Program.Ensures.bind
    intro reply
    cases reply with
    | error fault => exact Or.inl (Or.inl ⟨fault, rfl⟩)
    | ok states =>
        by_cases gone : states.headD (str "deleted") ∈ deletedStates
        · refine Or.inl (Or.inr ⟨rfl, Or.inr ?_⟩)
          cases states with
          | nil => exact Or.inl rfl
          | cons state states => exact Or.inr ⟨state, List.mem_cons_self, gone⟩
        · apply Or.inr
          show (Program.handle (if _ then _ else _) _).Ensures _
          rw [if_pos gone]
          intro reply
          cases reply with
          | ok response => exact Or.inl (Or.inr ⟨rfl, Or.inl rfl⟩)
          | error fault => exact Or.inl (Or.inl ⟨fault, rfl⟩)
  calm := rfl

theorem describes_ec2 (arn : Str) : (handling .ec2 arn).Describes (ec2Delete arn) := by
  unfold handling ec2Delete ec2TargetOf
  dsimp only
  split_ifs
  · exact acts_natGateway _
  · exact acts_flowLog _
  · exact acts_of_deletion rfl rfl (fun _ => rfl) rfl
  · exact acts_of_deletion rfl rfl (fun _ => rfl) rfl
  · exact acts_of_deletion rfl rfl (fun _ => rfl) rfl
  · exact acts_internetGateway _
  · exact acts_securityGroup _
  · exact acts_vpcEndpoint _
  · exact acts_of_deletion rfl rfl (fun _ => rfl) rfl
  · exact ⟨_, rfl, nofun⟩

theorem describes_elb (arn : Str) : (elbHandling arn).Describes (elbDelete arn) := by
  unfold elbHandling elbDelete
  dsimp only
  split_ifs
  · refine ⟨?_, ?_, rfl⟩
    · apply (serves_api (about_of_subject rfl) fun _ => rfl).bind
      intro listeners
      apply (serves_forM fun listener => ?_).bind
      · intro _
        exact (serves_api (about_of_subject rfl) fun _ => rfl).bind fun _ => rfl
      · apply serves_api
        · intro found foundMem
          cases foundMem
          exact Or.inr trivial
        · exact fun _ => rfl
    · iterate 2
        apply Program.ensures_bind_right
        intro _
      exact settles_deletion rfl rfl
  · exact acts_of_deletion rfl rfl (fun _ => rfl) rfl
  · rfl

end Network

section Compute

theorem describes_ecs (arn : Str) : (ecsHandling arn).Describes (ecsDelete arn) := by
  unfold ecsHandling ecsDelete
  cases splitOnce (str ":cluster/") arn with
  | some parts => exact acts_of_deletion rfl rfl (fun _ => rfl) rfl
  | none =>
      dsimp only
      split_ifs
      · refine ⟨?_, ?_, rfl⟩
        · apply (serves_api (about_of_subject rfl) fun _ => rfl).bind
          intro _
          exact (serves_api (about_of_subject rfl) fun _ => rfl).bind fun _ => rfl
        · apply Program.ensures_bind_right
          intro _
          exact settles_deletion rfl rfl
      · cases splitOnce (str ":task-definition/") arn with
        | some parts => exact acts_of_deletion rfl rfl (fun _ => rfl) rfl
        | none => exact ⟨_, rfl, nofun⟩

end Compute

section Operations

theorem describes_athena (arn : Str) : (handling .athena arn).Describes (athenaDelete arn) := by
  unfold handling athenaDelete
  dsimp only
  cases splitOnce (str ":workgroup/") arn with
  | some parts => exact acts_of_deletion rfl rfl (fun _ => rfl) rfl
  | none => rfl

theorem describes_quickSight (arn : Str) :
    (quickSightHandling arn).Describes (quickSightDelete arn) := by
  unfold quickSightHandling quickSightDelete arnField
  cases (arn.splitOn colon)[4]? with
  | none => exact ⟨_, rfl, nofun⟩
  | some accountId =>
      simp only [Program.pure_eq_ret, Program.ret_bind]
      split_ifs
      · exact acts_of_deletion rfl rfl (fun _ => rfl) rfl
      · exact acts_of_deletion rfl rfl (fun _ => rfl) rfl
      · exact ⟨_, rfl, nofun⟩

theorem describes_budgets (arn : Str) : (handling .budgets arn).Describes (budgetsDelete arn) := by
  unfold handling budgetsDelete arnField
  dsimp only
  cases splitOnce (str ":budget/") arn with
  | none => exact acts_of_deletion rfl rfl (fun _ => rfl) rfl
  | some parts =>
      dsimp only
      cases (arn.splitOn colon)[4]? with
      | none => exact ⟨_, rfl, nofun⟩
      | some accountId => exact acts_of_deletion rfl rfl (fun _ => rfl) rfl

theorem describes_ce (arn : Str) : (handling .ce arn).Describes (ceDelete arn) := by
  unfold handling ceDelete
  dsimp only
  split_ifs
  · exact acts_of_deletion rfl rfl (fun _ => rfl) rfl
  · exact acts_of_deletion rfl rfl (fun _ => rfl) rfl

theorem acts_webAcl (region scope name id : Str) :
    Acts (deleteWebAclOf region ⟨name, scope, id⟩) (.webAcl region scope name id) where
  serves := by
    apply serves_telling "WAFNonexistentItemException"
    · exact about_of_subject rfl
    · exact fun _ => rfl
    · decide
    · intro lockToken
      apply serves_telling "WAFNonexistentItemException"
      · exact about_of_subject rfl
      · exact fun _ => rfl
      · decide
      · exact fun _ => rfl
      · rfl
      · rfl
      · intro fault unknown
        simp [unknown]
    · rfl
    · rfl
    · intro fault unknown
      simp [unknown]
  settles := by
    apply settles_attempt_bind
    intro lockToken
    apply Or.inr
    exact settles_attempt_bind fun _ => Or.inl ⟨rfl, Or.inl rfl⟩
  calm := rfl

theorem describes_wafv2 (arn : Str) : (wafv2Handling arn).Describes (wafv2Delete arn) := by
  unfold wafv2Handling wafv2Delete arnField
  cases wafv2ParseArn arn with
  | error text => exact ⟨_, rfl, nofun⟩
  | ok acl =>
      dsimp only
      split_ifs
      · exact acts_webAcl _ _ _ _
      · cases (arn.splitOn colon)[3]? with
        | some region => exact acts_webAcl _ _ _ _
        | none => exact ⟨_, rfl, nofun⟩

end Operations

/-- What `handling` reads off the ARN is what the handler does. -/
theorem handling_correct (pollTimeout : Str) (service : Service) (arn : Str) :
    (handling service arn).Describes ((handlerOf pollTimeout service).delete arn) := by
  cases service with
  | s3 => exact acts_s3 arn
  | kms => exact describes_kms arn
  | iam => exact describes_iam arn
  | cloudfront => exact acts_cloudFront pollTimeout arn
  | acm => exact acts_of_deletion rfl rfl (fun _ => rfl) rfl
  | route53 => exact describes_route53 arn
  | ec2 => exact describes_ec2 arn
  | ecs => exact describes_ecs arn
  | elasticloadbalancing => exact describes_elb arn
  | firehose => exact acts_firehose arn
  | glue => exact describes_glue arn
  | athena => exact describes_athena arn
  | sns => exact acts_of_deletion rfl rfl (fun _ => rfl) rfl
  | ssm => exact acts_of_deletion rfl rfl (fun _ => rfl) rfl
  | lambda => exact acts_of_deletion rfl rfl (fun _ => rfl) rfl
  | logs => exact acts_of_deletion rfl rfl (fun _ => rfl) rfl
  | cloudwatch => exact acts_of_deletion rfl rfl (fun _ => rfl) rfl
  | quicksight => exact describes_quickSight arn
  | budgets => exact describes_budgets arn
  | ce => exact describes_ce arn
  | wafv2 => exact describes_wafv2 arn
  | cognitoIdp => exact describes_cognitoIdp arn

end Sweep
