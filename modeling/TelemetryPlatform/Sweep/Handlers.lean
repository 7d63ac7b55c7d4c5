import TelemetryPlatform.Sweep.Calls

/-!
# The handlers

One deletion program per service, and the liveness checks of the three services
whose handler has one. A handler takes the ARN of a matched resource apart with
string operations only; what it does not recognise falls to its last branch.
-/

namespace Sweep

open Python Interaction

def slash : Chr := .char '/'

def colon : Chr := .char ':'

def apostrophe : Chr := .char (Char.ofNat 0x27)

/-- `raise ValueError(...)`. -/
def valueError {α : Type} (text : Str) : Aws α := throw (.builtin (.valueError text))

/-- A character as `repr` writes it between such quotes. It depends on the interpreter which
characters beyond ASCII it can print; here they are all but the surrogates. -/
def reprChr (mark c : Chr) : Str :=
  if c = mark ∨ c = .char '\\' then [.char '\\', c]
  else if c = .char '\n' then str "\\n"
  else if c = .char '\r' then str "\\r"
  else if c = .char '\t' then str "\\t"
  else if c.code < 0x20 ∨ c.code = 0x7f then
    str "\\x" ++ [.char (Nat.digitChar (c.code / 0x10)), .char (Nat.digitChar (c.code % 0x10))]
  else
    match c with
    | .char _ => [c]
    | .surrogate _ => hexEscape c.code

/-- `repr(text)`, in double quotes where the text has single quotes only. -/
def reprText (text : Str) : Str :=
  let mark := if apostrophe ∈ text ∧ .char '"' ∉ text then .char '"' else apostrophe
  mark :: text.flatMap (reprChr mark) ++ [mark]

/-- The code of a fault, where it is a `ClientError`. -/
def Fault.hasCode (fault : Fault) (code : String) : Bool :=
  match fault with
  | .client found => found = str code
  | .other => false

section Storage

def s3Delete (arn : Str) : Aws Action := do
  let bucket := beforeFirst slash (lastPart (str ":::") arn)
  let pages ← api (.listObjectVersions bucket)
  pages.forM fun versions => do
    if versions ≠ [] then
      api (.deleteObjects bucket versions)
  api (.exhaust (.objectVersions bucket))
  api (.deleteBucket bucket)
  return .deleted

def firehoseDelete (arn : Str) : Aws Action := do
  let streamName := match splitOnce (str "/") arn with
    | some (_, rest) => rest
    | none => arn
  api (.deleteDeliveryStream streamName)
  return .deleted

def glueDelete (arn : Str) : Aws Action := do
  match splitOnce (str ":database/") arn with
  | some (_, dbName) =>
      let tables ← api (.getTables dbName)
      tables.forM fun table => api (.deleteTable dbName table)
      api (.deleteDatabase dbName)
      return .deleted
  | none =>
      match splitOnce (str ":table/") arn with
      | some (_, rest) =>
          let dbName := beforeFirst slash rest
          let tableName := (rest.splitOn slash)[1]?.getD dbName
          api (.deleteTable dbName tableName)
          return .deleted
      | none =>
          valueError (str "GlueHandler: unrecognised resource sub-type (ARN: " ++ arn ++
            str "). Resource left untouched.")

def athenaDelete (arn : Str) : Aws Action := do
  match splitOnce (str ":workgroup/") arn with
  | some (_, workgroup) => api (.deleteWorkGroup workgroup)
  | none => pure ()
  return .deleted

end Storage

section Keys

def kmsPendingWindowDays : Nat := 7

def awsManagedAliasPrefix : Str := str "alias/aws/"

def kmsPendingDeletionStates : List Str := ["PendingDeletion", "PendingReplicaDeletion"].map str

/-- The body of the loops of `_delete_key_aliases`. -/
def deleteKeyAlias (aliasName : Str) : Aws Unit := do
  if aliasName ≠ [] ∧ ¬awsManagedAliasPrefix.isPrefixOf aliasName then
    match ← attempt (.deleteAlias aliasName) with
    | .ok _ => pure ()
    | .error fault =>
        if fault.hasCode "NotFoundException" then pure () else throw (.ofFault fault)

def deleteKeyAliases (keyId : Str) : Aws Unit := do
  let pages ← api (.listAliases keyId)
  pages.flatten.forM deleteKeyAlias
  api (.exhaust (.aliases keyId))

/-- The key state, empty where a `ClientError` leaves it unknown. -/
def keyStateOf (keyId : Str) : Aws Str := do
  match ← attempt (.describeKey keyId) with
  | .ok keyState => pure keyState
  | .error (.client _) => pure []
  | .error .other => throw .unexpected

def kmsDelete (arn : Str) : Aws Action := do
  match splitOnce (str ":alias/") arn with
  | some (_, name) =>
      api (.deleteAlias (str "alias/" ++ name))
      return .deleted
  | none =>
      let keyId := afterLast slash arn
      deleteKeyAliases keyId
      let keyState ← keyStateOf keyId
      if keyState ∈ kmsPendingDeletionStates then
        return .scheduled
      api (.scheduleKeyDeletion keyId kmsPendingWindowDays)
      return .scheduled

end Keys

section Identity

def iamDeleteRole (roleName : Str) : Aws Action := do
  let profiles ← api (.listInstanceProfilesForRole roleName)
  profiles.forM fun profile => api (.removeRoleFromInstanceProfile profile roleName)
  let policies ← api (.listAttachedRolePolicies roleName)
  policies.forM fun policyArn => api (.detachRolePolicy roleName policyArn)
  let policyNames ← api (.listRolePolicies roleName)
  policyNames.forM fun policyName => api (.deleteRolePolicy roleName policyName)
  api (.deleteRole roleName)
  return .deleted

def iamDeletePolicy (arn : Str) : Aws Action := do
  let roles ← api (.listEntitiesForPolicy arn)
  roles.forM fun roleName => api (.detachRolePolicy roleName arn)
  api (.deletePolicy arn)
  return .deleted

def iamDeleteInstanceProfile (profileName : Str) : Aws Action := do
  let roles ← api (.getInstanceProfile profileName)
  roles.forM fun roleName => api (.removeRoleFromInstanceProfile profileName roleName)
  api (.deleteInstanceProfile profileName)
  return .deleted

def iamDelete (arn : Str) : Aws Action :=
  match splitOnce (str ":role/") arn with
  | some (_, roleName) => iamDeleteRole roleName
  | none =>
      match splitOnce (str ":policy/") arn with
      | some _ => iamDeletePolicy arn
      | none =>
          match splitOnce (str ":instance-profile/") arn with
          | some (_, profileName) => iamDeleteInstanceProfile profileName
          | none => return .deleted

/-- `_pool_id_and_region`. -/
def poolIdAndRegion (arn : Str) : Aws (Str × Str) := do
  let region ← match (arn.splitOn colon)[3]? with
    | some region => pure region
    | none => throw (.builtin .indexError)
  match splitOnce (str ":userpool/") arn with
  | some (_, poolId) => return (poolId, region)
  | none => throw (.builtin .indexError)

/-- The Hosted-UI domain of a pool; one that is gone is no error. -/
def deletePoolDomain (region poolId domain : Str) : Aws Unit := do
  if domain ≠ [] then
    match ← attempt (.deleteUserPoolDomain region domain poolId) with
    | .ok _ => pure ()
    | .error fault =>
        if fault.hasCode "ResourceNotFoundException" then pure () else throw (.ofFault fault)

/-- The end of the deletion of a pool: its domain, then the pool. -/
def deletePoolAndDomain (region poolId domain : Str) : Aws Action := do
  deletePoolDomain region poolId domain
  match ← attempt (.deleteUserPool region poolId) with
  | .ok _ => return .deleted
  | .error fault =>
      if fault.hasCode "ResourceNotFoundException" then return .alreadyDeleted
      else throw (.ofFault fault)

def deletePool (region poolId : Str) : Aws Action := do
  match ← attempt (.describeUserPool region poolId) with
  | .ok pool =>
      if pool.deletionProtection = str "ACTIVE" then
        api (.updateUserPool region poolId)
      deletePoolAndDomain region poolId pool.domain
  | .error fault =>
      if fault.hasCode "ResourceNotFoundException" then return .alreadyDeleted
      else throw (.ofFault fault)

def cognitoIdpDelete (arn : Str) : Aws Action := do
  let (poolId, region) ← poolIdAndRegion arn
  deletePool region poolId

def cognitoIdpIsLive (arn : Str) : Aws Bool := do
  let (poolId, region) ← poolIdAndRegion arn
  match ← attempt (.describeUserPool region poolId) with
  | .ok _ => return true
  | .error fault =>
      if fault.hasCode "ResourceNotFoundException" then return false else throw (.ofFault fault)

end Identity

section Delivery

/-- Disabling a distribution and waiting until it is deployed, with the new ETag. -/
def disableDistribution (pollTimeout distId etag : Str) : Aws Str := do
  let _ ← api (.updateDistribution distId false etag)
  match ← attempt (.waitDistributionDeployed distId) with
  | .ok _ => pure ()
  | .error _ =>
      throw (.timeoutError (str "CloudFront distribution " ++ distId ++
        str " did not reach Deployed within " ++ pollTimeout ++ str "s after disabling."))
  api (.getDistribution distId)

def cloudFrontDelete (pollTimeout arn : Str) : Aws Action := do
  let distId := afterLast slash arn
  let config ← api (.getDistributionConfig distId)
  let etag ← if config.enabled then disableDistribution pollTimeout distId config.etag
    else pure config.etag
  api (.deleteDistribution distId etag)
  return .deleted

def cloudFrontIsLive (arn : Str) : Aws Bool := do
  match ← attempt (.getDistribution (afterLast slash arn)) with
  | .ok _ => return true
  | .error (.client code) =>
      if isBenignNotFound code then return false else throw (.clientError code)
  | .error .other => throw .unexpected

def acmDelete (arn : Str) : Aws Action := do
  api (.deleteCertificate arn)
  return .deleted

/-- `_zone_name`: empty where a `ClientError` leaves it unknown. -/
def zoneNameOf (zoneId : Str) : Aws Str := do
  match ← attempt (.getHostedZone zoneId) with
  | .ok name => pure name
  | .error (.client _) => pure []
  | .error .other => throw .unexpected

/-- A zone that can hold the delegation of `zoneName`, by its id. -/
def parentId? (childZoneId zoneName : Str) (zone : HostedZone) : Option Str :=
  let parentId := afterLast slash zone.id
  if parentId = afterLast slash childZoneId then none
  else if (str "." ++ zone.name).isSuffixOf zoneName ∨ zoneName = zone.name then some parentId
  else none

/-- The record that delegates to `zoneName`. -/
def isDelegation (zoneName : Str) (recordSet : RecordSet) : Bool :=
  recordSet.name = zoneName && recordSet.type = str "NS"

/-- The loops of `_delete_parent_delegation`; they end at the first record deleted. -/
def deleteDelegation (childZoneId zoneName : Str) (zones : List HostedZone) : Aws Bool := do
  match zones with
  | [] => return false
  | zone :: rest =>
      match parentId? childZoneId zoneName zone with
      | none => deleteDelegation childZoneId zoneName rest
      | some parentId =>
          let recordSets ← api (.listResourceRecordSets parentId (some (zoneName, str "NS")))
          match recordSets.find? (isDelegation zoneName) with
          | some recordSet =>
              api (.changeResourceRecordSets parentId [recordSet])
              return true
          | none => deleteDelegation childZoneId zoneName rest

def deleteParentDelegation (childZoneId zoneName : Str) : Aws Unit := do
  let pages ← api .listHostedZones
  let done ← deleteDelegation childZoneId zoneName pages.flatten
  if !done then
    api (.exhaust .hostedZones)

def route53Delete (arn : Str) : Aws Action := do
  match splitOnce (str ":hostedzone/") arn with
  | some (_, zoneId) =>
      let zoneName ← zoneNameOf zoneId
      let recordSets ← api (.listResourceRecordSets zoneId none)
      let changes := recordSets.filter fun recordSet =>
        !([str "SOA", str "NS"].contains recordSet.type)
      if changes ≠ [] then
        api (.changeResourceRecordSets zoneId changes)
      api (.deleteHostedZone zoneId)
      if zoneName ≠ [] then
        deleteParentDelegation zoneId zoneName
      return .deleted
  | none =>
      valueError (str "Route53Handler: no deletion path for ARN sub-type (ARN: " ++ arn ++
        str "). Only ':hostedzone/' ARNs are supported. Resource left untouched.")

end Delivery

section Network

/-- `arn.split(":", 5)[-1] if arn.count(":") >= 5 else arn`. -/
def resourceSegment (arn : Str) : Str := (fieldsAfter? 5 colon arn).getD arn

/-- `resource_segment.partition("/")`: the type and the id. -/
def ec2TypeAndId (arn : Str) : Str × Str :=
  match splitOnce (str "/") (resourceSegment arn) with
  | some parts => parts
  | none => (resourceSegment arn, [])

def deletedStates : List Str := ["deleted", "deleting"].map str

def deleteNatGatewayUnlessGone (resourceId : Str) : Aws Unit := do
  let states ← api (.describeNatGateways resourceId)
  -- the loop leaves the state of the last gateway
  if states.getLastD [] ∉ deletedStates then
    api (.deleteNatGateway resourceId)

def deleteFlowLogUnlessGone (resourceId : Str) : Aws Unit := do
  match ← attempt (.deleteFlowLogs resourceId) with
  | .ok _ => pure ()
  | .error fault =>
      if fault.hasCode "InvalidFlowLogId.NotFound" then pure () else throw (.ofFault fault)

def detachAndDeleteInternetGateway (resourceId : Str) : Aws Unit := do
  let gateways ← api (.describeInternetGateways resourceId)
  gateways.flatten.forM fun vpcId => api (.detachInternetGateway resourceId vpcId)
  api (.deleteInternetGateway resourceId)

/-- `_is_default_security_group`. -/
def isDefaultSecurityGroup (resourceId : Str) : Aws Bool := do
  match ← attempt (.describeSecurityGroups resourceId) with
  | .ok groupNames => return groupNames.contains (str "default")
  | .error (.client _) => return false
  | .error .other => throw .unexpected

def deleteSecurityGroupUnlessDefault (resourceId : Str) : Aws Unit := do
  if ← isDefaultSecurityGroup resourceId then
    throw (.defaultSecurityGroupSkip resourceId)
  api (.deleteSecurityGroup resourceId)

/-- The `except` clause that takes an endpoint that is gone for deleted. -/
def exceptEndpointGone (error : Raised) : Aws Unit :=
  match error with
  | .clientError code =>
      if code = str "InvalidVpcEndpointId.NotFound" then pure () else throw error
  | _ => throw error

/-- Both calls stand in one `try`. -/
def deleteVpcEndpointUnlessGone (resourceId : Str) : Aws Unit :=
  try
    let states ← api (.describeVpcEndpoints resourceId)
    if states.headD (str "deleted") ∉ deletedStates then
      api (.deleteVpcEndpoints resourceId)
  catch error => exceptEndpointGone error

def ec2Delete (arn : Str) : Aws Action := do
  let (resourceType, resourceId) := ec2TypeAndId arn
  if resourceType = str "natgateway" then
    deleteNatGatewayUnlessGone resourceId
  else if resourceType = str "vpc-flow-log" then
    deleteFlowLogUnlessGone resourceId
  else if resourceType = str "elastic-ip" ∨ resourceType = str "eip-allocation" then
    api (.releaseAddress resourceId)
  else if resourceType = str "subnet" then
    api (.deleteSubnet resourceId)
  else if resourceType = str "route-table" then
    api (.deleteRouteTable resourceId)
  else if resourceType = str "internet-gateway" then
    detachAndDeleteInternetGateway resourceId
  else if resourceType = str "security-group" then
    deleteSecurityGroupUnlessDefault resourceId
  else if resourceType = str "vpc-endpoint" then
    deleteVpcEndpointUnlessGone resourceId
  else if resourceType = str "vpc" then
    api (.deleteVpc resourceId)
  else
    valueError (str "EC2Handler: unrecognised resource type " ++ reprText resourceType ++
      str " (ARN: " ++ arn ++ str "). Resource left untouched.")
  return .deleted

def elbDelete (arn : Str) : Aws Action := do
  if (splitOnce (str ":loadbalancer/") arn).isSome then
    let listeners ← api (.describeListeners arn)
    listeners.forM fun listener => api (.deleteListener listener)
    api (.deleteLoadBalancer arn)
  else if (splitOnce (str ":targetgroup/") arn).isSome then
    api (.deleteTargetGroup arn)
  return .deleted

end Network

section Compute

/-- The cluster and the service an ECS service ARN is taken apart into. -/
def ecsServiceParts (arn : Str) : Str × Str :=
  let servicePart := (afterLast colon arn).splitOn slash
  let cluster := if 3 ≤ servicePart.length then servicePart[1]?.getD []
    else servicePart[0]?.getD []
  (cluster, servicePart.getLastD [])

def ecsDelete (arn : Str) : Aws Action := do
  match splitOnce (str ":cluster/") arn with
  | some (_, cluster) =>
      api (.deleteCluster cluster)
      return .deleted
  | none =>
      if (splitOnce (str ":service/") arn).isSome then
        let (cluster, service) := ecsServiceParts arn
        api (.updateService cluster service 0)
        api (.deleteService cluster service)
        return .deleted
      else
        match splitOnce (str ":task-definition/") arn with
        | some (_, taskDef) =>
            api (.deregisterTaskDefinition taskDef)
            return .deleted
        | none =>
            valueError (str "ECSHandler: unrecognised resource sub-type (ARN: " ++ arn ++
              str "). Resource left untouched.")

/-- Whether the first status of a describe response is `ACTIVE`. -/
def firstIsActive (statuses : List Str) : Bool := statuses.head? = some (str "ACTIVE")

/-- `except ClientError: return False` around a describe call. -/
def activeUnlessClientError {α : Type} (isActive : α → Bool) :
    Except Fault α → Aws Bool
  | .ok described => return isActive described
  | .error (.client _) => return false
  | .error .other => throw .unexpected

def ecsIsLive (arn : Str) : Aws Bool := do
  match splitOnce (str ":cluster/") arn with
  | some (_, cluster) =>
      activeUnlessClientError firstIsActive (← attempt (.describeClusters cluster))
  | none =>
      if (splitOnce (str ":service/") arn).isSome then
        let (cluster, service) := ecsServiceParts arn
        activeUnlessClientError firstIsActive (← attempt (.describeServices cluster service))
      else
        match splitOnce (str ":task-definition/") arn with
        | some (_, taskDef) =>
            activeUnlessClientError (fun status => status = str "ACTIVE")
              (← attempt (.describeTaskDefinition taskDef))
        | none => return true

def lambdaDelete (arn : Str) : Aws Action := do
  api (.deleteFunction arn)
  return .deleted

end Compute

section Operations

def snsDelete (arn : Str) : Aws Action := do
  api (.deleteTopic arn)
  return .deleted

def ssmDelete (arn : Str) : Aws Action := do
  let paramName := match splitOnce (str ":parameter/") arn with
    | some (_, name) => str "/" ++ name
    | none =>
        match splitOnce (str "/") arn with
        | some (_, rest) => rest
        | none => arn
  api (.deleteParameter paramName)
  return .deleted

def logsDelete (arn : Str) : Aws Action := do
  let rest := match splitOnce (str ":log-group:") arn with
    | some (_, rest) => rest
    | none => arn
  api (.deleteLogGroup (beforeFirst colon rest))
  return .deleted

def cloudWatchDelete (arn : Str) : Aws Action := do
  api (.deleteAlarms (afterLast colon arn))
  return .deleted

/-- `parts[n]` of `arn.split(":")`. -/
def arnField (arn : Str) (n : Nat) : Aws Str :=
  match (arn.splitOn colon)[n]? with
  | some field => pure field
  | none => throw (.builtin .indexError)

def quickSightDelete (arn : Str) : Aws Action := do
  let accountId ← arnField arn 4
  let segment := (arn.splitOn colon)[5]?.getD []
  if (str "dataset/").isPrefixOf segment then
    api (.deleteDataSet accountId (afterLast slash segment))
    return .deleted
  else if (str "datasource/").isPrefixOf segment then
    api (.deleteDataSource accountId (afterLast slash segment))
    return .deleted
  else
    valueError (str "QuickSightHandler: unrecognised resource sub-type " ++ reprText segment ++
      str " (ARN: " ++ arn ++ str "). Resource left untouched.")

def budgetsDelete (arn : Str) : Aws Action := do
  match splitOnce (str ":budget/") arn with
  | some (_, budgetName) =>
      let accountId ← arnField arn 4
      api (.deleteBudget accountId budgetName)
  | none => api (.deleteAnomalyMonitor arn)
  return .deleted

def ceDelete (arn : Str) : Aws Action := do
  if (splitOnce (str ":anomalysubscription/") arn).isSome then
    api (.deleteAnomalySubscription arn)
  else
    api (.deleteAnomalyMonitor arn)
  return .deleted

structure WebAclName where
  name : Str
  scope : Str
  id : Str

/-- `_wafv2_parse_arn`, with the text of the `ValueError` it raises. -/
def wafv2ParseArn (arn : Str) : Except Str WebAclName :=
  match fieldsAfter? 5 colon arn with
  | none =>
      .error (str "WAFv2Handler: ARN too short to parse (ARN: " ++ arn ++ str "). " ++
        str "Expected arn:aws:wafv2:<region>:<account>:<scope>/webacl/<name>/<id>.")
  | some segment =>
      match segment.splitOn slash with
      | scopeSegment :: type :: name :: id :: _ =>
          if type ≠ str "webacl" then
            .error (unsupported segment)
          else if scopeSegment = str "regional" then
            .ok ⟨name, str "REGIONAL", id⟩
          else if scopeSegment = str "global" then
            .ok ⟨name, str "CLOUDFRONT", id⟩
          else
            .error (str "WAFv2Handler: unrecognised scope segment " ++ reprText scopeSegment ++
              str " in ARN " ++ arn ++ str ". Expected 'regional' or 'global'.")
      | _ => .error (unsupported segment)
where
  unsupported (segment : Str) : Str :=
    str "WAFv2Handler: unsupported WAFv2 ARN resource segment " ++ reprText segment ++
      str " (ARN: " ++ arn ++ str ("). Only regional/webacl/<name>/<id> and " ++
        "global/webacl/<name>/<id> are supported.")

/-- `get_web_acl` and `delete_web_acl` with its lock token. -/
def deleteWebAclOf (region : Str) (acl : WebAclName) : Aws Action := do
  match ← attempt (.getWebAcl region acl.name acl.scope acl.id) with
  | .ok lockToken =>
      match ← attempt (.deleteWebAcl region acl.name acl.scope acl.id lockToken) with
      | .ok _ => return .deleted
      | .error fault =>
          if fault.hasCode "WAFNonexistentItemException" then return .alreadyDeleted
          else throw (.ofFault fault)
  | .error fault =>
      if fault.hasCode "WAFNonexistentItemException" then return .alreadyDeleted
      else throw (.ofFault fault)

def wafv2Delete (arn : Str) : Aws Action := do
  match wafv2ParseArn arn with
  | .error text => valueError text
  | .ok acl =>
      let region ← if acl.scope = str "CLOUDFRONT" then pure (str "us-east-1") else arnField arn 3
      deleteWebAclOf region acl

end Operations

/-- The services with a handler. -/
inductive Service where
  | s3 | kms | iam | cloudfront | acm | route53 | ec2 | ecs | elasticloadbalancing | firehose
  | glue | athena | sns | ssm | lambda | logs | cloudwatch | quicksight | budgets | ce | wafv2
  | cognitoIdp
  deriving DecidableEq

namespace Service

def all : List Service :=
  [s3, kms, iam, cloudfront, acm, route53, ec2, ecs, elasticloadbalancing, firehose, glue, athena,
    sns, ssm, lambda, logs, cloudwatch, quicksight, budgets, ce, wafv2, cognitoIdp]

/-- `service_prefix`. -/
def servicePrefix : Service → Str
  | s3 => str "s3"
  | kms => str "kms"
  | iam => str "iam"
  | cloudfront => str "cloudfront"
  | acm => str "acm"
  | route53 => str "route53"
  | ec2 => str "ec2"
  | ecs => str "ecs"
  | elasticloadbalancing => str "elasticloadbalancing"
  | firehose => str "firehose"
  | glue => str "glue"
  | athena => str "athena"
  | sns => str "sns"
  | ssm => str "ssm"
  | lambda => str "lambda"
  | logs => str "logs"
  | cloudwatch => str "cloudwatch"
  | quicksight => str "quicksight"
  | budgets => str "budgets"
  | ce => str "ce"
  | wafv2 => str "wafv2"
  | cognitoIdp => str "cognito-idp"

end Service

structure Handler where
  delete : Str → Aws Action
  isLive : Str → Aws Bool

/-- The handler of a service; `is_live` is true unless the service overrides it. -/
def handlerOf (pollTimeout : Str) : Service → Handler
  | .s3 => ⟨s3Delete, fun _ => return true⟩
  | .kms => ⟨kmsDelete, fun _ => return true⟩
  | .iam => ⟨iamDelete, fun _ => return true⟩
  | .cloudfront => ⟨cloudFrontDelete pollTimeout, cloudFrontIsLive⟩
  | .acm => ⟨acmDelete, fun _ => return true⟩
  | .route53 => ⟨route53Delete, fun _ => return true⟩
  | .ec2 => ⟨ec2Delete, fun _ => return true⟩
  | .ecs => ⟨ecsDelete, ecsIsLive⟩
  | .elasticloadbalancing => ⟨elbDelete, fun _ => return true⟩
  | .firehose => ⟨firehoseDelete, fun _ => return true⟩
  | .glue => ⟨glueDelete, fun _ => return true⟩
  | .athena => ⟨athenaDelete, fun _ => return true⟩
  | .sns => ⟨snsDelete, fun _ => return true⟩
  | .ssm => ⟨ssmDelete, fun _ => return true⟩
  | .lambda => ⟨lambdaDelete, fun _ => return true⟩
  | .logs => ⟨logsDelete, fun _ => return true⟩
  | .cloudwatch => ⟨cloudWatchDelete, fun _ => return true⟩
  | .quicksight => ⟨quickSightDelete, fun _ => return true⟩
  | .budgets => ⟨budgetsDelete, fun _ => return true⟩
  | .ce => ⟨ceDelete, fun _ => return true⟩
  | .wafv2 => ⟨wafv2Delete, fun _ => return true⟩
  | .cognitoIdp => ⟨cognitoIdpDelete, cognitoIdpIsLive⟩

/-- `_service_prefix_from_arn`. -/
def servicePrefixFromArn (arn : Str) : Str :=
  if (arn.splitOn colon).length < 6 then [] else (arn.splitOn colon)[2]?.getD []

/-- `_HANDLERS.get`. -/
def handlers (pollTimeout name : Str) : Option Handler :=
  (Service.all.find? fun service => service.servicePrefix = name).map (handlerOf pollTimeout)

end Sweep
