import TelemetryPlatform.Library.Program
import TelemetryPlatform.Library.Calendar
import TelemetryPlatform.Library.Json
import TelemetryPlatform.Library.Text

/-!
# The calls of the sweep

`scripts/terratest_sweep.py` deletes what the tests left behind in an AWS account.
It reads the clock, writes a report and calls the AWS API. An API call is answered
with a response or with a fault: a `ClientError` with its code, or any other
exception of the SDK. Responses carry the fields the script reads; an absent text
is the empty one, as the defaults of the script have it.

A paginated listing is one call that answers with the pages that arrive, followed,
once they have been worked through, by `exhaust`, which answers whether the listing
ended there or broke off with a fault. Retries, waits between attempts and the
lines the script prints are left out.
-/

namespace Sweep

open Python Interaction

inductive Fault where
  | client (code : Str)
  | other
  deriving DecidableEq

/-- A tag of a resource in the Tagging API. -/
structure Tag where
  key : Option Str
  value : Option Str

/-- An entry of `ResourceTagMappingList`. -/
structure Resource where
  arn : Str
  tags : List Tag

/-- An anomaly monitor or subscription of Cost Explorer. -/
structure CeItem where
  name : Str
  arn : Str

structure ObjectVersion where
  key : Str
  versionId : Str

structure DistributionConfig where
  etag : Str
  enabled : Bool
  deriving Inhabited

structure HostedZone where
  id : Str
  name : Str

structure RecordSet where
  name : Str
  type : Str
  values : List Str

structure UserPool where
  deletionProtection : Str
  domain : Str
  deriving Inhabited

/-- A paginated listing whose pages are worked through one by one. -/
inductive Listing where
  | objectVersions (bucket : Str)
  | aliases (keyId : Str)
  | hostedZones

inductive ApiCall where
  | getCallerIdentity
  | getResources (runId : Option Str)
  | exhaust (listing : Listing)
  | getAnomalySubscriptions
  | getAnomalyMonitors
  | deleteAnomalySubscription (arn : Str)
  | deleteAnomalyMonitor (arn : Str)
  | listObjectVersions (bucket : Str)
  | deleteObjects (bucket : Str) (objects : List ObjectVersion)
  | deleteBucket (bucket : Str)
  | deleteAlias (aliasName : Str)
  | listAliases (keyId : Str)
  | describeKey (keyId : Str)
  | scheduleKeyDeletion (keyId : Str) (pendingWindowInDays : Nat)
  | listInstanceProfilesForRole (roleName : Str)
  | removeRoleFromInstanceProfile (instanceProfileName roleName : Str)
  | listAttachedRolePolicies (roleName : Str)
  | detachRolePolicy (roleName policyArn : Str)
  | listRolePolicies (roleName : Str)
  | deleteRolePolicy (roleName policyName : Str)
  | deleteRole (roleName : Str)
  | listEntitiesForPolicy (policyArn : Str)
  | deletePolicy (policyArn : Str)
  | getInstanceProfile (instanceProfileName : Str)
  | deleteInstanceProfile (instanceProfileName : Str)
  | getDistributionConfig (id : Str)
  | updateDistribution (id : Str) (enabled : Bool) (ifMatch : Str)
  | waitDistributionDeployed (id : Str)
  | getDistribution (id : Str)
  | deleteDistribution (id ifMatch : Str)
  | deleteCertificate (certificateArn : Str)
  | getHostedZone (id : Str)
  | listResourceRecordSets (hostedZoneId : Str) (start : Option (Str × Str))
  | changeResourceRecordSets (hostedZoneId : Str) (deleted : List RecordSet)
  | deleteHostedZone (id : Str)
  | listHostedZones
  | describeNatGateways (natGatewayId : Str)
  | deleteNatGateway (natGatewayId : Str)
  | describeFlowLogs (flowLogId : Str)
  | deleteFlowLogs (flowLogId : Str)
  | releaseAddress (allocationId : Str)
  | deleteSubnet (subnetId : Str)
  | deleteRouteTable (routeTableId : Str)
  | describeInternetGateways (internetGatewayId : Str)
  | detachInternetGateway (internetGatewayId vpcId : Str)
  | deleteInternetGateway (internetGatewayId : Str)
  | describeSecurityGroups (groupId : Str)
  | deleteSecurityGroup (groupId : Str)
  | describeVpcEndpoints (vpcEndpointId : Str)
  | deleteVpcEndpoints (vpcEndpointId : Str)
  | deleteVpc (vpcId : Str)
  | describeClusters (cluster : Str)
  | deleteCluster (cluster : Str)
  | describeServices (cluster service : Str)
  | updateService (cluster service : Str) (desiredCount : Nat)
  | deleteService (cluster service : Str)
  | describeTaskDefinition (taskDefinition : Str)
  | deregisterTaskDefinition (taskDefinition : Str)
  | describeListeners (loadBalancerArn : Str)
  | deleteListener (listenerArn : Str)
  | deleteLoadBalancer (loadBalancerArn : Str)
  | deleteTargetGroup (targetGroupArn : Str)
  | deleteDeliveryStream (deliveryStreamName : Str)
  | getTables (databaseName : Str)
  | deleteTable (databaseName name : Str)
  | deleteDatabase (name : Str)
  | deleteWorkGroup (workGroup : Str)
  | deleteTopic (topicArn : Str)
  | deleteParameter (name : Str)
  | deleteFunction (functionName : Str)
  | deleteLogGroup (logGroupName : Str)
  | deleteAlarms (alarmName : Str)
  | deleteDataSet (awsAccountId dataSetId : Str)
  | deleteDataSource (awsAccountId dataSourceId : Str)
  | deleteBudget (accountId budgetName : Str)
  | getWebAcl (region name scope id : Str)
  | deleteWebAcl (region name scope id lockToken : Str)
  | describeUserPool (region userPoolId : Str)
  | updateUserPool (region userPoolId : Str)
  | deleteUserPoolDomain (region domain userPoolId : Str)
  | deleteUserPool (region userPoolId : Str)

/-- What a call answers with when it succeeds. -/
@[reducible]
def Response : ApiCall → Type
  | .getCallerIdentity => Str
  | .getResources _ => List Resource
  | .getAnomalySubscriptions | .getAnomalyMonitors => List CeItem
  | .listObjectVersions _ => List (List ObjectVersion)
  | .listAliases _ => List (List Str)
  | .describeKey _ => Str
  | .listInstanceProfilesForRole _ | .listAttachedRolePolicies _ | .listRolePolicies _ => List Str
  | .listEntitiesForPolicy _ | .getInstanceProfile _ => List Str
  | .getDistributionConfig _ => DistributionConfig
  | .updateDistribution _ _ _ | .getDistribution _ => Str
  | .getHostedZone _ => Str
  | .listResourceRecordSets _ _ => List RecordSet
  | .listHostedZones => List (List HostedZone)
  | .describeNatGateways _ | .describeVpcEndpoints _ | .describeSecurityGroups _ => List Str
  | .describeFlowLogs _ => List Str
  | .describeInternetGateways _ => List (List Str)
  | .describeClusters _ | .describeServices _ _ => List Str
  | .describeTaskDefinition _ => Str
  | .describeListeners _ | .getTables _ => List Str
  | .getWebAcl _ _ _ _ => Str
  | .describeUserPool _ _ => UserPool
  | _ => Unit

/-- The outcome recorded for a resource. -/
inductive Action where
  | found
  | deleted
  | scheduled
  | alreadyDeleted
  | alreadyGone
  | skippedDefaultSg
  | reportedUnsupported
  | deferred
  | failed
  deriving DecidableEq

structure Entry where
  arn : Str
  type : Str
  action : Action
  name : Option Str
  deriving DecidableEq

inductive Mode where
  | check
  | delete
  deriving DecidableEq

structure Report where
  accountId : Str
  mode : Mode
  runId : Option Str
  found : List Entry
  remaining : Nat

inductive Call where
  | api (call : ApiCall)
  | now
  | writeReport (report : Report)

@[reducible]
def Call.Reply : Call → Type
  | .api call => Except Fault (Response call)
  | .now => DateTime
  | .writeReport _ => Unit

abbrev SweepEvent := Event Call Call.Reply

/-- The exceptions a handler can raise. -/
inductive Raised where
  | clientError (code : Str)
  | defaultSecurityGroupSkip (resourceId : Str)
  | timeoutError (text : Str)
  | builtin (error : Exc)
  | unexpected

def Raised.ofFault : Fault → Raised
  | .client code => .clientError code
  | .other => .unexpected

abbrev Aws := Program Call Call.Reply Raised

/-- The fault an event reports. -/
def faultOf : SweepEvent → Option Fault
  | ⟨.api _, .error fault⟩ => some fault
  | _ => none

/-- A call outside any `try`: its fault is raised. -/
def api (call : ApiCall) : Aws (Response call) :=
  Program.call (Call.api call) fun reply => Program.ofExcept (reply.mapError Raised.ofFault)

/-- A call whose fault the caller looks at. -/
def attempt (call : ApiCall) : Aws (Except Fault (Response call)) :=
  Program.perform (Call.api call)

section Classification

def benignAlreadyGoneCodes : List Str :=
  ["InvalidSubnetID.NotFound", "InvalidRouteTableID.NotFound", "InvalidVpcID.NotFound",
    "InvalidVpcEndpointId.NotFound", "InvalidInternetGatewayID.NotFound", "InvalidGroup.NotFound",
    "InvalidAllocationID.NotFound", "InvalidNatGatewayID.NotFound", "NatGatewayNotFound",
    "InvalidFlowLogId.NotFound", "ClusterNotFoundException", "ServiceNotFoundException",
    "ServiceNotActiveException", "ResourceNotFoundException", "NoSuchEntity", "NoSuchBucket",
    "NoSuchDistribution", "NoSuchCloudFrontOriginAccessIdentity", "NoSuchOriginAccessControl",
    "NoSuchResponseHeadersPolicy", "WAFNonexistentItemException", "NotFoundException",
    "ParameterNotFound"].map str

def dependencyViolationCodes : List Str :=
  ["DependencyViolation", "ResourceInUseException", "ResourceInUse"].map str

/-- `_is_benign_not_found` on the code of a `ClientError`. -/
def isBenignNotFound (code : Str) : Bool :=
  benignAlreadyGoneCodes.contains code || decide (Contains (str "NotFound") code)

/-- `_is_dependency_violation` on the code of a `ClientError`. -/
def isDependencyViolation (code : Str) : Bool := dependencyViolationCodes.contains code

end Classification

end Sweep
