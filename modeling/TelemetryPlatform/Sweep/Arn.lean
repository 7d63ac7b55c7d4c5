import TelemetryPlatform.Sweep.Handlers

/-!
# What an ARN names

An ARN is `arn:partition:service:region:account:resource`. The first fields hold
no colon and no slash; the resource is free text whose beginning says what kind of
resource it is. `targetOf` reads the resource the way the services document it and
is the reference the handlers are compared with: a handler looks for a separator
such as `:role/` anywhere in the text of the ARN.
-/

namespace Sweep

open Python

/-- An ARN of a service that has a handler. -/
structure Arn where
  partition : Str
  service : Service
  region : Str
  account : Str
  resource : Str
  isPartition : colon ∉ partition ∧ slash ∉ partition ∧ str "aws" <+: partition
  isRegion : colon ∉ region ∧ slash ∉ region ∧
    (region = [] ∨ ∃ front digit, region = front ++ [.char digit] ∧ digit.isDigit)
  isAccount : ∀ c ∈ account, ∃ digit : Char, c = .char digit ∧ digit.isDigit

theorem isPartition_aws :
    colon ∉ str "aws" ∧ slash ∉ str "aws" ∧ str "aws" <+: str "aws" := by decide

theorem isRegion_usEast1 : colon ∉ str "us-east-1" ∧ slash ∉ str "us-east-1" ∧
    (str "us-east-1" = [] ∨ ∃ front digit, str "us-east-1" = front ++ [.char digit] ∧
      digit.isDigit) :=
  ⟨by decide, by decide, Or.inr ⟨str "us-east-", '1', rfl, by decide⟩⟩

namespace Arn

variable (arn : Arn)

/-- The fields before the resource. -/
def header : Str :=
  str "arn" ++ colon :: (arn.partition ++ colon :: (arn.service.servicePrefix ++
    colon :: (arn.region ++ colon :: arn.account)))

def text : Str := arn.header ++ colon :: arn.resource

/-- The rest of a resource of a type. -/
def ofType (type : String) : Option Str := arn.resource.dropPrefix? (str type ++ [slash])

/-! The fields of an ARN, as the string operations of the handlers find them. -/

theorem servicePrefix_plain (service : Service) :
    colon ∉ service.servicePrefix ∧ slash ∉ service.servicePrefix := by
  cases service <;> exact ⟨by decide, by decide⟩

theorem plain_of_isAccount {c : Chr} (notDigit : ∀ digit : Char, digit.isDigit → c ≠ .char digit) :
    c ∉ arn.account := by
  intro cMem
  rcases arn.isAccount c cMem with ⟨digit, rfl, isDigit⟩
  exact notDigit digit isDigit rfl

theorem colon_not_mem_account : colon ∉ arn.account := by
  apply plain_of_isAccount
  rintro digit isDigit same
  cases same
  exact absurd isDigit (by decide)

theorem slash_not_mem_account : slash ∉ arn.account := by
  apply plain_of_isAccount
  rintro digit isDigit same
  cases same
  exact absurd isDigit (by decide)

/-- `arn.split(":")`. -/
theorem splitOn_text :
    arn.text.splitOn colon = str "arn" :: arn.partition :: arn.service.servicePrefix ::
      arn.region :: arn.account :: arn.resource.splitOn colon := by
  have lead : colon ∉ str "arn" := by decide
  simp only [text, header, List.append_assoc, List.cons_append]
  rw [List.splitOn_append_cons_self_of_not_mem lead,
    List.splitOn_append_cons_self_of_not_mem arn.isPartition.1,
    List.splitOn_append_cons_self_of_not_mem (servicePrefix_plain arn.service).1,
    List.splitOn_append_cons_self_of_not_mem arn.isRegion.1,
    List.splitOn_append_cons_self_of_not_mem arn.colon_not_mem_account]

/-- `arn.split(":", 5)[5]`. -/
theorem fieldsAfter?_text : fieldsAfter? 5 colon arn.text = some arn.resource := by
  have lead : colon ∉ str "arn" := by decide
  simp only [text, header, List.append_assoc, List.cons_append]
  rw [fieldsAfter?_succ lead, fieldsAfter?_succ arn.isPartition.1,
    fieldsAfter?_succ (servicePrefix_plain arn.service).1, fieldsAfter?_succ arn.isRegion.1,
    fieldsAfter?_succ arn.colon_not_mem_account]
  rfl

theorem slash_not_mem_header : slash ∉ arn.header := by
  have lead : slash ∉ str "arn" := by decide
  have apart : slash ≠ colon := by decide
  simp only [header, List.mem_append, List.mem_cons, not_or]
  exact ⟨lead, apart, arn.isPartition.2.1, apart, (servicePrefix_plain arn.service).2, apart,
    arn.isRegion.2.1, apart, arn.slash_not_mem_account⟩

/-- A separator that starts with a colon is found where the resource starts with the rest of it,
or else inside the resource, when no other field starts with the rest of it. -/
theorem splitOnce_text {tail : Str}
    (apart : ∀ field ∈ [arn.partition, arn.service.servicePrefix, arn.region, arn.account],
      ∀ rest, ¬tail <+: field ++ colon :: rest) :
    splitOnce (colon :: tail) arn.text =
      match arn.resource.dropPrefix? tail with
      | some after => some (arn.header, after)
      | none => (splitOnce (colon :: tail) arn.resource).map fun found =>
          (arn.header ++ colon :: found.1, found.2) := by
  have lead : colon ∉ str "arn" := by decide
  simp only [List.forall_mem_cons] at apart
  rcases apart with ⟨inPartition, inService, inRegion, inAccount, _⟩
  simp only [text, header, List.append_assoc, List.cons_append]
  rw [splitOnce_opener lead, dropPrefix?_eq_none.mpr (inPartition _)]
  dsimp only
  rw [splitOnce_opener arn.isPartition.1, dropPrefix?_eq_none.mpr (inService _)]
  dsimp only
  rw [splitOnce_opener (servicePrefix_plain arn.service).1,
    dropPrefix?_eq_none.mpr (inRegion _)]
  dsimp only
  rw [splitOnce_opener arn.isRegion.1, dropPrefix?_eq_none.mpr (inAccount _)]
  dsimp only
  rw [splitOnce_opener arn.colon_not_mem_account]
  cases arn.resource.dropPrefix? tail with
  | some after => simp
  | none => simp [Function.comp_def]

/-- A word that ends in a slash does not begin a field. -/
theorem not_prefix_of_slash {word field rest : Str} (plain : colon ∉ word)
    (noSlash : slash ∉ field) : ¬word ++ [slash] <+: field ++ colon :: rest := by
  induction word generalizing field with
  | nil =>
      cases field with
      | nil => exact fun isPrefix => absurd (List.cons_prefix_cons.mp isPrefix).1 (by decide)
      | cons c field =>
          rcases not_or.mp (mt List.mem_cons.mpr noSlash) with ⟨different, _⟩
          exact fun isPrefix => different (List.cons_prefix_cons.mp isPrefix).1
  | cons w word ih =>
      rcases not_or.mp (mt List.mem_cons.mpr plain) with ⟨different, plain⟩
      cases field with
      | nil => exact fun isPrefix => different (List.cons_prefix_cons.mp isPrefix).1.symm
      | cons c field =>
          rcases not_or.mp (mt List.mem_cons.mpr noSlash) with ⟨_, noSlash⟩
          exact fun isPrefix => ih plain noSlash (List.cons_prefix_cons.mp isPrefix).2

/-- Splitting at `:type/`. -/
theorem splitOnce_type (type : String) {sep : Str} (delimited : sep = colon ::
    (str type ++ [slash]))
    (plain : colon ∉ str type) :
    splitOnce sep arn.text =
      match arn.ofType type with
      | some rest => some (arn.header, rest)
      | none => (splitOnce sep arn.resource).map fun found =>
          (arn.header ++ colon :: found.1, found.2) := by
  subst delimited
  apply splitOnce_text
  simp only [List.forall_mem_cons]
  exact ⟨fun _ => not_prefix_of_slash plain arn.isPartition.2.1,
    fun _ => not_prefix_of_slash plain (servicePrefix_plain arn.service).2,
    fun _ => not_prefix_of_slash plain arn.isRegion.2.1,
    fun _ => not_prefix_of_slash plain arn.slash_not_mem_account,
    fun _ absurdMem => absurd absurdMem List.not_mem_nil⟩

theorem ofType_eq_some {type : String} {rest : Str} :
    arn.ofType type = some rest ↔ arn.resource = str type ++ slash :: rest := by
  rw [ofType, dropPrefix?_eq_some, List.append_assoc]
  rfl

/-- `arn.split("/", 1)`. -/
theorem splitOnce_slash_text :
    splitOnce (str "/") arn.text = (splitOnce (str "/") arn.resource).map fun found =>
      (arn.header ++ colon :: found.1, found.2) := by
  have plain : slash ∉ arn.header ++ [colon] := by
    simp only [List.mem_append, List.mem_singleton, not_or]
    exact ⟨arn.slash_not_mem_header, by decide⟩
  have text_eq : arn.text = (arn.header ++ [colon]) ++ arn.resource := by simp [text]
  rw [text_eq, show str "/" = [slash] from rfl, splitOnce_append plain]
  simp

end Arn

/-- The resources the handlers have a deletion path for. -/
inductive Target where
  | bucket (name : Str)
  | kmsAlias (name : Str)
  | kmsKey (id : Str)
  | iamRole (name : Str)
  | iamPolicy (arn : Str)
  | instanceProfile (name : Str)
  | distribution (id : Str)
  | certificate (arn : Str)
  | hostedZone (id : Str)
  | natGateway (id : Str)
  | flowLog (id : Str)
  | elasticIp (id : Str)
  | subnet (id : Str)
  | routeTable (id : Str)
  | internetGateway (id : Str)
  | securityGroup (id : Str)
  | vpcEndpoint (id : Str)
  | vpc (id : Str)
  | ecsCluster (name : Str)
  | ecsService (cluster name : Str)
  | taskDefinition (name : Str)
  | loadBalancer (arn : Str)
  | listener (arn : Str)
  | targetGroup (arn : Str)
  | deliveryStream (name : Str)
  | database (name : Str)
  | table (database name : Str)
  | workgroup (name : Str)
  | topic (arn : Str)
  | parameter (name : Str)
  | lambdaFunction (arn : Str)
  | logGroup (name : Str)
  | alarm (name : Str)
  | dataSet (account id : Str)
  | dataSource (account id : Str)
  | budget (account name : Str)
  | anomalyMonitor (arn : Str)
  | anomalySubscription (arn : Str)
  | webAcl (region scope name id : Str)
  | userPool (region id : Str)
  deriving DecidableEq

/-- The resource a call is about; none for calls about what a resource is made of. -/
def subject : ApiCall → Option Target
  | .listObjectVersions bucket | .exhaust (.objectVersions bucket) | .deleteBucket bucket =>
      some (.bucket bucket)
  | .deleteAlias name => some (.kmsAlias name)
  | .listAliases keyId | .exhaust (.aliases keyId) | .describeKey keyId
  | .scheduleKeyDeletion keyId _ => some (.kmsKey keyId)
  | .listInstanceProfilesForRole roleName | .listAttachedRolePolicies roleName
  | .listRolePolicies roleName | .deleteRole roleName => some (.iamRole roleName)
  | .listEntitiesForPolicy arn | .deletePolicy arn => some (.iamPolicy arn)
  | .getInstanceProfile name | .deleteInstanceProfile name => some (.instanceProfile name)
  | .getDistributionConfig id | .updateDistribution id _ _ | .waitDistributionDeployed id
  | .getDistribution id | .deleteDistribution id _ => some (.distribution id)
  | .deleteCertificate arn => some (.certificate arn)
  | .getHostedZone id | .listResourceRecordSets id none | .deleteHostedZone id =>
      some (.hostedZone id)
  | .describeNatGateways id | .deleteNatGateway id => some (.natGateway id)
  | .describeFlowLogs id | .deleteFlowLogs id => some (.flowLog id)
  | .releaseAddress id => some (.elasticIp id)
  | .deleteSubnet id => some (.subnet id)
  | .deleteRouteTable id => some (.routeTable id)
  | .describeInternetGateways id | .deleteInternetGateway id => some (.internetGateway id)
  | .describeSecurityGroups id | .deleteSecurityGroup id => some (.securityGroup id)
  | .describeVpcEndpoints id | .deleteVpcEndpoints id => some (.vpcEndpoint id)
  | .deleteVpc id => some (.vpc id)
  | .describeClusters cluster | .deleteCluster cluster => some (.ecsCluster cluster)
  | .describeServices cluster service | .updateService cluster service _
  | .deleteService cluster service => some (.ecsService cluster service)
  | .describeTaskDefinition name | .deregisterTaskDefinition name => some (.taskDefinition name)
  | .describeListeners arn | .deleteLoadBalancer arn => some (.loadBalancer arn)
  | .deleteListener arn => some (.listener arn)
  | .deleteTargetGroup arn => some (.targetGroup arn)
  | .deleteDeliveryStream name => some (.deliveryStream name)
  | .getTables name | .deleteDatabase name => some (.database name)
  | .deleteTable database name => some (.table database name)
  | .deleteWorkGroup name => some (.workgroup name)
  | .deleteTopic arn => some (.topic arn)
  | .deleteParameter name => some (.parameter name)
  | .deleteFunction name => some (.lambdaFunction name)
  | .deleteLogGroup name => some (.logGroup name)
  | .deleteAlarms name => some (.alarm name)
  | .deleteDataSet account id => some (.dataSet account id)
  | .deleteDataSource account id => some (.dataSource account id)
  | .deleteBudget account name => some (.budget account name)
  | .deleteAnomalyMonitor arn => some (.anomalyMonitor arn)
  | .deleteAnomalySubscription arn => some (.anomalySubscription arn)
  | .getWebAcl region name scope id | .deleteWebAcl region name scope id _ =>
      some (.webAcl region scope name id)
  | .describeUserPool region id | .updateUserPool region id | .deleteUserPool region id =>
      some (.userPool region id)
  | _ => none

/-- The call deletes, releases, deregisters or schedules for deletion what it is about. -/
def isDeletion : ApiCall → Bool
  | .deleteAnomalySubscription _ | .deleteAnomalyMonitor _ | .deleteBucket _ | .deleteAlias _
  | .scheduleKeyDeletion _ _ | .deleteRole _ | .deletePolicy _ | .deleteInstanceProfile _
  | .deleteDistribution _ _ | .deleteCertificate _ | .deleteHostedZone _ | .deleteNatGateway _
  | .deleteFlowLogs _ | .releaseAddress _ | .deleteSubnet _ | .deleteRouteTable _
  | .deleteInternetGateway _ | .deleteSecurityGroup _ | .deleteVpcEndpoints _ | .deleteVpc _
  | .deleteCluster _ | .deleteService _ _ | .deregisterTaskDefinition _ | .deleteListener _
  | .deleteLoadBalancer _ | .deleteTargetGroup _ | .deleteDeliveryStream _ | .deleteTable _ _
  | .deleteDatabase _ | .deleteWorkGroup _ | .deleteTopic _ | .deleteParameter _
  | .deleteFunction _ | .deleteLogGroup _ | .deleteAlarms _ | .deleteDataSet _ _
  | .deleteDataSource _ _ | .deleteBudget _ _ | .deleteWebAcl _ _ _ _ _
  | .deleteUserPool _ _ => true
  | _ => false

section Documented

variable (arn : Arn)

/-- `type/<id>` with an id without slashes. -/
def Arn.plainOfType (type : String) : Option Str :=
  (arn.ofType type).filter fun id => slash ∉ id

/-- The VPC-family resource of a type with an id. -/
def ec2TargetOf (type id : Str) : Option Target :=
  if type = str "natgateway" then some (.natGateway id)
  else if type = str "vpc-flow-log" then some (.flowLog id)
  else if type = str "elastic-ip" ∨ type = str "eip-allocation" then some (.elasticIp id)
  else if type = str "subnet" then some (.subnet id)
  else if type = str "route-table" then some (.routeTable id)
  else if type = str "internet-gateway" then some (.internetGateway id)
  else if type = str "security-group" then some (.securityGroup id)
  else if type = str "vpc-endpoint" then some (.vpcEndpoint id)
  else if type = str "vpc" then some (.vpc id)
  else none

/-- `service/<cluster>/<service>`. -/
def ecsServiceTarget (rest : Str) : Option Target :=
  match rest.splitOn slash with
  | [cluster, service] => if colon ∈ rest then none else some (.ecsService cluster service)
  | _ => none

/-- `table/<database>/<table>`. -/
def glueTableTarget (rest : Str) : Option Target :=
  match rest.splitOn slash with
  | [database, table] => if colon ∈ rest then none else some (.table database table)
  | _ => none

/-- `<scope>/webacl/<name>/<id>`; the global ones live in one region. -/
def webAclTarget (region resource : Str) : Option Target :=
  match resource.splitOn slash with
  | [scope, type, name, id] =>
      if type ≠ str "webacl" then none
      else if scope = str "regional" then some (.webAcl region (str "REGIONAL") name id)
      else if scope = str "global" then
        some (.webAcl (str "us-east-1") (str "CLOUDFRONT") name id)
      else none
  | _ => none

/-- `<name>` or `<name>:*`; what follows the name otherwise is a log stream. -/
def logGroupTarget (rest : Str) : Option Target :=
  match rest.splitOn colon with
  | [name] => some (.logGroup name)
  | [name, wildcard] => if wildcard = str "*" then some (.logGroup name) else none
  | _ => none

/-- The resource an ARN names, where it is one of a type with a deletion path. -/
def targetOf : Option Target :=
  match arn.service with
  | .s3 =>
      if arn.region = [] ∧ arn.account = [] ∧ colon ∉ arn.resource ∧ slash ∉ arn.resource then
        some (.bucket arn.resource)
      else none
  | .kms =>
      match arn.ofType "alias" with
      | some name => some (.kmsAlias (str "alias/" ++ name))
      | none => (arn.plainOfType "key").map .kmsKey
  | .iam =>
      match arn.ofType "role" with
      | some path => some (.iamRole (afterLast slash path))
      | none =>
          match arn.ofType "policy" with
          | some _ => some (.iamPolicy arn.text)
          | none =>
              (arn.ofType "instance-profile").map fun path =>
                .instanceProfile (afterLast slash path)
  | .cloudfront => (arn.plainOfType "distribution").map .distribution
  | .acm => (arn.ofType "certificate").map fun _ => .certificate arn.text
  | .route53 => (arn.ofType "hostedzone").map .hostedZone
  | .ec2 => (splitOnce (str "/") arn.resource).bind fun (type, id) => ec2TargetOf type id
  | .ecs =>
      match arn.ofType "cluster" with
      | some name => some (.ecsCluster name)
      | none =>
          match arn.ofType "service" with
          | some rest => ecsServiceTarget rest
          | none => (arn.plainOfType "task-definition").map .taskDefinition
  | .elasticloadbalancing =>
      match arn.ofType "loadbalancer" with
      | some _ => some (.loadBalancer arn.text)
      | none =>
          ((arn.ofType "targetgroup").filter fun rest => colon ∉ rest).map fun _ =>
            .targetGroup arn.text
  | .firehose => (arn.ofType "deliverystream").map .deliveryStream
  | .glue =>
      match arn.ofType "database" with
      | some name => some (.database name)
      | none => (arn.ofType "table").bind glueTableTarget
  | .athena => (arn.ofType "workgroup").map .workgroup
  | .sns => if colon ∈ arn.resource then none else some (.topic arn.text)
  | .ssm => (arn.ofType "parameter").map fun name => .parameter (str "/" ++ name)
  | .lambda =>
      (arn.resource.dropPrefix? (str "function:")).map fun _ => .lambdaFunction arn.text
  | .logs =>
      (arn.resource.dropPrefix? (str "log-group:")).bind logGroupTarget
  | .cloudwatch => (arn.resource.dropPrefix? (str "alarm:")).map .alarm
  | .quicksight =>
      if colon ∈ arn.resource then none
      else
        match arn.ofType "dataset" with
        | some rest => some (.dataSet arn.account (afterLast slash rest))
        | none =>
            (arn.ofType "datasource").map fun rest =>
              .dataSource arn.account (afterLast slash rest)
  | .budgets =>
      ((arn.ofType "budget").filter fun name => !decide (Contains (str "/action/") name)).map
        (.budget arn.account)
  | .ce =>
      match arn.ofType "anomalysubscription" with
      | some _ => some (.anomalySubscription arn.text)
      | none => (arn.plainOfType "anomalymonitor").map fun _ => .anomalyMonitor arn.text
  | .wafv2 => webAclTarget arn.region arn.resource
  | .cognitoIdp => (arn.ofType "userpool").map (.userPool arn.region)

end Documented

end Sweep
