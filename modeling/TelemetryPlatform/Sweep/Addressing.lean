import TelemetryPlatform.Sweep.Deletions

/-!
# Which resource the handlers take an ARN for

`targetOf` reads an ARN from its fields, `handling` from its text. The two agree on
every ARN that names a resource with a deletion path, but for the ones in `Misread`,
where the handler takes a part of the name for the name. `Refused` are the ARNs whose
handler raises at once.
-/

namespace Sweep

open Python

section Separators

variable {arn : Arn} {type : String} {sep rest : Str}

theorem splitOnce_of_ofType (named : arn.ofType type = some rest)
    (delimited : sep = colon :: (str type ++ [slash])) (plain : colon ∉ str type) :
    splitOnce sep arn.text = some (arn.header, rest) := by
  rw [arn.splitOnce_type type delimited plain, named]

theorem splitOnce_absent (named : arn.ofType type = none)
    (delimited : sep = colon :: (str type ++ [slash])) (plain : colon ∉ str type)
    (absent : ¬Contains sep arn.resource) : splitOnce sep arn.text = none := by
  rw [arn.splitOnce_type type delimited plain, named, splitOnce_eq_none.mpr absent]
  rfl

/-- A resource of one type is of no other. -/
theorem ofType_other {other : String} (named : arn.ofType type = some rest)
    (apart : ¬str other ++ [slash] <+: str type ++ [slash])
    (apart' : ¬str type ++ [slash] <+: str other ++ [slash]) : arn.ofType other = none := by
  rw [Arn.ofType, dropPrefix?_eq_none]
  have found : str type ++ [slash] <+: arn.resource := by
    rw [Arn.ofType, dropPrefix?_eq_some] at named
    exact ⟨rest, named.symm⟩
  intro there
  rcases List.prefix_or_prefix_of_prefix there found with first | second
  · exact apart first
  · exact apart' second

theorem afterLast_slash_text (named : arn.ofType type = some rest) :
    afterLast slash arn.text = afterLast slash rest := by
  have text_eq : arn.text = (arn.header ++ colon :: str type) ++ slash :: rest := by
    simp [Arn.text, arn.ofType_eq_some.mp named]
  rw [text_eq, afterLast_append]

theorem afterLast_colon_text : afterLast colon arn.text = afterLast colon arn.resource :=
  afterLast_append _ _

theorem plainOfType_eq_some : arn.plainOfType type = some rest ↔
    arn.ofType type = some rest ∧ slash ∉ rest := by
  simp [Arn.plainOfType, Option.filter_eq_some_iff]

/-- In a resource of a type, a separator can only stand in the rest. -/
theorem contains_resource (named : arn.ofType type = some rest) (plain : colon ∉ str type)
    {tail : Str} : Contains (colon :: tail) arn.resource ↔ Contains (colon :: tail) rest := by
  have front : colon ∉ str type ++ [slash] := by
    simp only [List.mem_append, List.mem_singleton, not_or]
    exact ⟨plain, by decide⟩
  rw [arn.ofType_eq_some.mp named, show str type ++ slash :: rest =
    (str type ++ [slash]) ++ rest by simp, contains_append front]

/-- No separator is found in a rest that has no colon, or no slash. -/
theorem splitOnce_of_other {other : String} (named : arn.ofType type = some rest)
    (plain : colon ∉ str type) (apart : colon ∉ rest ∨ slash ∉ rest)
    (delimited : sep = colon :: (str other ++ [slash])) (plainOther : colon ∉ str other)
    (different : arn.ofType other = none) : splitOnce sep arn.text = none := by
  apply splitOnce_absent different delimited plainOther
  rw [delimited, contains_resource named plain]
  rcases apart with noColon | noSlash
  · have absent : ¬Contains (colon :: (str other ++ [slash])) (rest ++ []) :=
      not_contains_delimited noColon List.not_mem_nil
    rwa [List.append_nil] at absent
  · have absent : ¬Contains (colon :: (str other ++ [slash])) ([] ++ rest) :=
      not_contains_delimited List.not_mem_nil noSlash
    exact absent

end Separators

section Readings

variable (arn : Arn)

/-- The handler takes a part of the name of the resource for its name: the path of a role or
an instance profile, a policy whose name has the separator of roles, the last part of the name
of an alarm. -/
def Misread : Prop :=
  match arn.service with
  | .iam =>
      (∃ path ∈ arn.ofType "role", slash ∈ path) ∨
        (∃ path ∈ arn.ofType "policy", Contains (str ":role/") path) ∨
          ∃ path ∈ arn.ofType "instance-profile", slash ∈ path
  | .cloudwatch => ∃ name ∈ arn.resource.dropPrefix? (str "alarm:"), colon ∈ name
  | _ => False

/-- The handler raises at once: the text has none of the separators it looks for. -/
def Refused : Prop :=
  match arn.service with
  | .route53 => ¬Contains (str ":hostedzone/") arn.text
  | .ec2 => ec2TargetOf (ec2TypeAndId arn.text).1 (ec2TypeAndId arn.text).2 = none
  | .ecs =>
      ¬Contains (str ":cluster/") arn.text ∧ ¬Contains (str ":service/") arn.text ∧
        ¬Contains (str ":task-definition/") arn.text
  | .glue => ¬Contains (str ":database/") arn.text ∧ ¬Contains (str ":table/") arn.text
  | .quicksight =>
      ¬str "dataset/" <+: beforeFirst colon arn.resource ∧
        ¬str "datasource/" <+: beforeFirst colon arn.resource
  | .wafv2 => ∀ acl, wafv2ParseArn arn.text ≠ .ok acl
  | .cognitoIdp => ¬Contains (str ":userpool/") arn.text
  | _ => False

variable {arn}

theorem handling_s3 (isService : arn.service = .s3) {target : Target}
    (named : targetOf arn = some target) : handling .s3 arn.text = .acts target := by
  simp only [targetOf, isService] at named
  split at named
  · next shape =>
      cases named
      rcases shape with ⟨noRegion, noAccount, noColon, noSlash⟩
      have found : splitOnce (str ":::") arn.text =
          some (str "arn" ++ colon :: (arn.partition ++ colon :: str "s3"), arn.resource) := by
        have lead : colon ∉ str "arn" := by decide
        have service : colon ∉ str "s3" := by decide
        have text_eq : arn.text = str "arn" ++ colon :: (arn.partition ++ colon ::
            (str "s3" ++ colon :: (str "::" ++ arn.resource))) := by
          simp [Arn.text, Arn.header, isService, noRegion, noAccount, Service.servicePrefix,
            show str "::" = [colon, colon] from rfl]
        have notThere : ¬str "::" <+: arn.partition ++ colon ::
            (str "s3" ++ colon :: (str "::" ++ arn.resource)) := by
          rcases arn.isPartition.2.2 with ⟨front, partition_eq⟩
          rw [← partition_eq]
          exact fun isPrefix => absurd (List.cons_prefix_cons.mp isPrefix).1 (by decide)
        have notHere : ¬str "::" <+: str "s3" ++ colon :: (str "::" ++ arn.resource) :=
          fun isPrefix => absurd (List.cons_prefix_cons.mp isPrefix).1 (by decide)
        have there : (str "::" ++ arn.resource).dropPrefix? (str "::") = some arn.resource :=
          dropPrefix?_eq_some.mpr rfl
        rw [text_eq, show str ":::" = colon :: str "::" from rfl, splitOnce_opener lead,
          dropPrefix?_eq_none.mpr notThere]
        dsimp only
        rw [splitOnce_opener arn.isPartition.1, dropPrefix?_eq_none.mpr notHere]
        dsimp only
        rw [splitOnce_opener service, there]
        simp
      have absent : splitOnce (str ":::") arn.resource = none := by
        rw [splitOnce_eq_none]
        rintro ⟨before, after, found⟩
        apply noColon
        rw [← found]
        simp [str, colon]
      have bucket_eq : lastPart (str ":::") arn.text = arn.resource :=
        lastPart_of_splitOnce found absent
      have plain : beforeFirst slash arn.resource = arn.resource := beforeFirst_eq_self noSlash
      simp only [handling, bucket_eq, plain]
  · cases named

theorem handling_kms (isService : arn.service = .kms) {target : Target}
    (named : targetOf arn = some target) : handling .kms arn.text = .acts target := by
  simp only [targetOf, isService] at named
  cases isAlias : arn.ofType "alias" with
  | some name =>
      have read : splitOnce (str ":alias/") arn.text = some (arn.header, name) :=
        splitOnce_of_ofType isAlias rfl (by decide)
      rw [isAlias] at named
      cases named
      simp only [handling, read]
  | none =>
      simp only [isAlias, Option.map_eq_some_iff, plainOfType_eq_some] at named
      rcases named with ⟨id, ⟨isKey, noSlash⟩, rfl⟩
      have read : splitOnce (str ":alias/") arn.text = none :=
        splitOnce_of_other isKey (by decide) (Or.inr noSlash) rfl (by decide) isAlias
      simp only [handling, read, afterLast_slash_text isKey, afterLast_eq_self noSlash]

section Identity

variable {path : Str}

theorem iamHandling_role (isRole : arn.ofType "role" = some path) :
    iamHandling arn.text = .acts (.iamRole path) := by
  have read : splitOnce (str ":role/") arn.text = some (arn.header, path) :=
    splitOnce_of_ofType isRole rfl (by decide)
  simp only [iamHandling, read]

/-- The separator of roles is looked for first, in the whole text. -/
theorem iamHandling_of_contains (contains : Contains (str ":role/") arn.text) :
    ∃ roleName, iamHandling arn.text = .acts (.iamRole roleName) := by
  cases read : splitOnce (str ":role/") arn.text with
  | none => exact absurd contains (splitOnce_eq_none.mp read)
  | some parts => exact ⟨parts.2, by simp only [iamHandling, read]⟩

theorem contains_text_of_rest {tail : Str} (named : arn.ofType type = some path)
    (contains : Contains (colon :: tail) path) : Contains (colon :: tail) arn.text := by
  rcases contains with ⟨before, after, path_eq⟩
  refine ⟨arn.header ++ colon :: (str type ++ slash :: before), after, ?_⟩
  simp [Arn.text, arn.ofType_eq_some.mp named, ← path_eq]

theorem iamHandling_policy (isPolicy : arn.ofType "policy" = some path)
    (noRole : ¬Contains (str ":role/") path) :
    iamHandling arn.text = .acts (.iamPolicy arn.text) := by
  have notRole : arn.ofType "role" = none := ofType_other isPolicy (by decide) (by decide)
  have first : splitOnce (str ":role/") arn.text = none := by
    apply splitOnce_absent notRole rfl (by decide)
    exact fun contains => noRole ((contains_resource isPolicy (by decide)).mp contains)
  have second : splitOnce (str ":policy/") arn.text = some (arn.header, path) :=
    splitOnce_of_ofType isPolicy rfl (by decide)
  simp only [iamHandling, first, second]

theorem iamHandling_profile (isProfile : arn.ofType "instance-profile" = some path)
    (noSlash : slash ∉ path) : iamHandling arn.text = .acts (.instanceProfile path) := by
  have notRole : arn.ofType "role" = none := ofType_other isProfile (by decide) (by decide)
  have notPolicy : arn.ofType "policy" = none := ofType_other isProfile (by decide) (by decide)
  have first : splitOnce (str ":role/") arn.text = none :=
    splitOnce_of_other isProfile (by decide) (Or.inr noSlash) rfl (by decide) notRole
  have second : splitOnce (str ":policy/") arn.text = none :=
    splitOnce_of_other isProfile (by decide) (Or.inr noSlash) rfl (by decide) notPolicy
  have third : splitOnce (str ":instance-profile/") arn.text = some (arn.header, path) :=
    splitOnce_of_ofType isProfile rfl (by decide)
  simp only [iamHandling, first, second, third]

/-- With a path in the name the handler still acts, on a name that is not the profile's. -/
theorem iamHandling_profile_path (isProfile : arn.ofType "instance-profile" = some path) :
    ∃ found, iamHandling arn.text = .acts found ∧
      (found = .instanceProfile path ∨ (∃ name, found = .iamRole name) ∨
        found = .iamPolicy arn.text) := by
  cases first : splitOnce (str ":role/") arn.text with
  | some parts =>
      exact ⟨.iamRole parts.2, by simp only [iamHandling, first], Or.inr (Or.inl ⟨_, rfl⟩)⟩
  | none =>
      cases second : splitOnce (str ":policy/") arn.text with
      | some parts =>
          exact ⟨.iamPolicy arn.text, by simp only [iamHandling, first, second],
            Or.inr (Or.inr rfl)⟩
      | none =>
          have third : splitOnce (str ":instance-profile/") arn.text =
              some (arn.header, path) := splitOnce_of_ofType isProfile rfl (by decide)
          exact ⟨.instanceProfile path, by simp only [iamHandling, first, second, third],
            Or.inl rfl⟩

end Identity

theorem handling_route53 (isService : arn.service = .route53) {target : Target}
    (named : targetOf arn = some target) : handling .route53 arn.text = .acts target := by
  simp only [targetOf, isService, Option.map_eq_some_iff] at named
  rcases named with ⟨id, isZone, rfl⟩
  have read : splitOnce (str ":hostedzone/") arn.text = some (arn.header, id) :=
    splitOnce_of_ofType isZone rfl (by decide)
  simp only [handling, read]

theorem ec2TypeAndId_text : ec2TypeAndId arn.text =
    (splitOnce (str "/") arn.resource).getD (arn.resource, []) := by
  simp only [ec2TypeAndId, resourceSegment, arn.fieldsAfter?_text, Option.getD_some]
  cases splitOnce (str "/") arn.resource with
  | none => rfl
  | some parts => rfl

theorem handling_ec2 (isService : arn.service = .ec2) {target : Target}
    (named : targetOf arn = some target) : handling .ec2 arn.text = .acts target := by
  simp only [targetOf, isService, Option.bind_eq_some_iff] at named
  rcases named with ⟨parts, split, found⟩
  simp only [handling, ec2TypeAndId_text, split, Option.getD_some, found]

theorem afterLast_colon_of_ofType {path : Str} (named : arn.ofType type = some path)
    (plain : colon ∉ str type) (noColon : colon ∉ path) :
    afterLast colon arn.text = arn.resource := by
  rw [afterLast_colon_text]
  apply afterLast_eq_self
  rw [arn.ofType_eq_some.mp named]
  simp only [List.mem_append, List.mem_cons, not_or]
  exact ⟨plain, by decide, noColon⟩

theorem handling_ecs (isService : arn.service = .ecs) {target : Target}
    (named : targetOf arn = some target) : handling .ecs arn.text = .acts target := by
  simp only [targetOf, isService] at named
  cases isCluster : arn.ofType "cluster" with
  | some name =>
      have read : splitOnce (str ":cluster/") arn.text = some (arn.header, name) :=
        splitOnce_of_ofType isCluster rfl (by decide)
      rw [isCluster] at named
      cases named
      simp only [handling, ecsHandling, read]
  | none =>
      simp only [isCluster] at named
      cases isService : arn.ofType "service" with
      | some rest =>
          simp only [isService, ecsServiceTarget] at named
          split at named
          · next cluster service parts =>
              split at named
              · cases named
              · next noColon =>
                  cases named
                  have first : splitOnce (str ":cluster/") arn.text = none :=
                    splitOnce_of_other isService (by decide) (Or.inl noColon) rfl (by decide)
                      isCluster
                  have second : splitOnce (str ":service/") arn.text = some (arn.header, rest) :=
                    splitOnce_of_ofType isService rfl (by decide)
                  have segments : arn.resource.splitOn slash =
                      [str "service", cluster, service] := by
                    rw [arn.ofType_eq_some.mp isService,
                      List.splitOn_append_cons_self_of_not_mem (by decide), parts]
                  have taken : ecsServiceParts arn.text = (cluster, service) := by
                    simp [ecsServiceParts, segments,
                      afterLast_colon_of_ofType isService (by decide) noColon]
                  simp [handling, ecsHandling, first, second, taken]
          · cases named
      | none =>
          simp only [isService, Option.map_eq_some_iff, plainOfType_eq_some] at named
          rcases named with ⟨id, ⟨isTask, noSlash⟩, rfl⟩
          have first : splitOnce (str ":cluster/") arn.text = none :=
            splitOnce_of_other isTask (by decide) (Or.inr noSlash) rfl (by decide) isCluster
          have second : splitOnce (str ":service/") arn.text = none :=
            splitOnce_of_other isTask (by decide) (Or.inr noSlash) rfl (by decide) isService
          have third : splitOnce (str ":task-definition/") arn.text = some (arn.header, id) :=
            splitOnce_of_ofType isTask rfl (by decide)
          simp [handling, ecsHandling, first, second, third]

theorem handling_elb (isService : arn.service = .elasticloadbalancing) {target : Target}
    (named : targetOf arn = some target) :
    handling .elasticloadbalancing arn.text = .acts target := by
  simp only [targetOf, isService] at named
  cases isBalancer : arn.ofType "loadbalancer" with
  | some rest =>
      have read : splitOnce (str ":loadbalancer/") arn.text = some (arn.header, rest) :=
        splitOnce_of_ofType isBalancer rfl (by decide)
      rw [isBalancer] at named
      cases named
      simp [handling, elbHandling, read]
  | none =>
      simp only [isBalancer, Option.map_eq_some_iff, Option.filter_eq_some_iff,
        decide_eq_true_eq] at named
      rcases named with ⟨rest, ⟨isGroup, noColon⟩, rfl⟩
      have first : splitOnce (str ":loadbalancer/") arn.text = none :=
        splitOnce_of_other isGroup (by decide) (Or.inl noColon) rfl (by decide) isBalancer
      have second : splitOnce (str ":targetgroup/") arn.text = some (arn.header, rest) :=
        splitOnce_of_ofType isGroup rfl (by decide)
      simp [handling, elbHandling, first, second]

theorem handling_firehose (isService : arn.service = .firehose) {target : Target}
    (named : targetOf arn = some target) : handling .firehose arn.text = .acts target := by
  simp only [targetOf, isService, Option.map_eq_some_iff] at named
  rcases named with ⟨name, isStream, rfl⟩
  have split : splitOnce (str "/") arn.resource = some (str "deliverystream", name) := by
    rw [arn.ofType_eq_some.mp isStream]
    exact splitOnce_chr (by decide)
  simp [handling, arn.splitOnce_slash_text, split]

theorem handling_glue (isService : arn.service = .glue) {target : Target}
    (named : targetOf arn = some target) : handling .glue arn.text = .acts target := by
  simp only [targetOf, isService] at named
  cases isDatabase : arn.ofType "database" with
  | some name =>
      have read : splitOnce (str ":database/") arn.text = some (arn.header, name) :=
        splitOnce_of_ofType isDatabase rfl (by decide)
      rw [isDatabase] at named
      cases named
      simp only [handling, glueHandling, read]
  | none =>
      simp only [isDatabase, Option.bind_eq_some_iff] at named
      rcases named with ⟨rest, isTable, named⟩
      simp only [glueTableTarget] at named
      split at named
      · next database table parts =>
          split at named
          · cases named
          · next noColon =>
              cases named
              have first : splitOnce (str ":database/") arn.text = none :=
                splitOnce_of_other isTable (by decide) (Or.inl noColon) rfl (by decide) isDatabase
              have second : splitOnce (str ":table/") arn.text = some (arn.header, rest) :=
                splitOnce_of_ofType isTable rfl (by decide)
              have name : beforeFirst slash rest = database := beforeFirst_of_splitOn parts
              simp [handling, glueHandling, first, second, name, parts]
      · cases named

theorem handling_logs (isService : arn.service = .logs) {target : Target}
    (named : targetOf arn = some target) : handling .logs arn.text = .acts target := by
  simp only [targetOf, isService, Option.bind_eq_some_iff, dropPrefix?_eq_some] at named
  rcases named with ⟨rest, resource_eq, named⟩
  have apart : ∀ field : Str, colon ∉ field → field ≠ str "log-group" →
      ∀ rest, ¬str "log-group" ++ [colon] <+: field ++ colon :: rest := by
    intro field plain different rest isPrefix
    rcases isPrefix with ⟨after, same⟩
    have split := congrArg (List.splitOn colon) same
    rw [List.append_assoc, List.singleton_append,
      List.splitOn_append_cons_self_of_not_mem (by decide),
      List.splitOn_append_cons_self_of_not_mem plain] at split
    exact different (List.cons.inj split).1.symm
  have notPartition : arn.partition ≠ str "log-group" := by
    rcases arn.isPartition.2.2 with ⟨front, partition_eq⟩
    rw [← partition_eq]
    exact fun same => absurd (List.cons.inj same).1 (by decide)
  have notRegion : arn.region ≠ str "log-group" := by
    rcases arn.isRegion.2.2 with empty | ⟨front, digit, region_eq, isDigit⟩
    · rw [empty]
      decide
    · rw [region_eq]
      intro same
      have last := congrArg List.getLast? same
      rw [List.getLast?_append, List.getLast?_singleton] at last
      cases last
      exact absurd isDigit (by decide)
  have notAccount : arn.account ≠ str "log-group" := by
    intro same
    have digits := arn.isAccount (.char 'l')
    rw [same] at digits
    rcases digits (by decide) with ⟨digit, isL, isDigit⟩
    cases isL
    exact absurd isDigit (by decide)
  have read : splitOnce (str ":log-group:") arn.text = some (arn.header, rest) := by
    have here : arn.resource.dropPrefix? (str "log-group" ++ [colon]) = some rest :=
      dropPrefix?_eq_some.mpr resource_eq
    rw [show str ":log-group:" = colon :: (str "log-group" ++ [colon]) from rfl,
      arn.splitOnce_text, here]
    simp only [List.forall_mem_cons]
    exact ⟨apart _ arn.isPartition.1 notPartition,
      apart _ (Arn.servicePrefix_plain arn.service).1 (by rw [isService]; decide),
      apart _ arn.isRegion.1 notRegion, apart _ arn.colon_not_mem_account notAccount,
      fun _ absurdMem => absurd absurdMem List.not_mem_nil⟩
  simp only [handling, read]
  simp only [logGroupTarget] at named
  split at named
  · next name parts =>
      cases named
      rw [beforeFirst_of_splitOn parts]
  · next name wildcard parts =>
      split at named
      · cases named
        rw [beforeFirst_of_splitOn parts]
      · cases named
  · cases named

theorem afterLast_alarm {name : Str} (isAlarm : arn.resource.dropPrefix?
    (str "alarm:") = some name) :
    afterLast colon arn.text = afterLast colon name := by
  rw [afterLast_colon_text, dropPrefix?_eq_some.mp isAlarm,
    show str "alarm:" ++ name = str "alarm" ++ colon :: name from rfl, afterLast_append]

theorem field_text (n : Nat) : (arn.text.splitOn colon)[n]? =
    (str "arn" :: arn.partition :: arn.service.servicePrefix :: arn.region :: arn.account ::
      arn.resource.splitOn colon)[n]? := by
  rw [arn.splitOn_text]

theorem handling_quickSight (isService : arn.service = .quicksight) {target : Target}
    (named : targetOf arn = some target) : handling .quicksight arn.text = .acts target := by
  simp only [targetOf, isService] at named
  split at named
  · cases named
  · next noColon =>
      have segment : arn.resource.splitOn colon = [arn.resource] :=
          List.splitOn_eq_singleton noColon
      cases isDataSet : arn.ofType "dataset" with
      | some rest =>
          rw [isDataSet] at named
          cases named
          have resource_eq := arn.ofType_eq_some.mp isDataSet
          have isPrefix : (str "dataset/").isPrefixOf arn.resource = true := by
            rw [List.isPrefixOf_iff_prefix, resource_eq]
            exact ⟨rest, rfl⟩
          have id : afterLast slash arn.resource = afterLast slash rest := by
            rw [resource_eq, afterLast_append]
          simp [handling, quickSightHandling, field_text, segment, isPrefix, id]
      | none =>
          simp only [isDataSet, Option.map_eq_some_iff] at named
          rcases named with ⟨rest, isDataSource, rfl⟩
          have resource_eq := arn.ofType_eq_some.mp isDataSource
          have notDataSet : (str "dataset/").isPrefixOf arn.resource = false := by
            rw [Bool.eq_false_iff, ne_eq, List.isPrefixOf_iff_prefix]
            exact dropPrefix?_eq_none.mp isDataSet
          have isPrefix : (str "datasource/").isPrefixOf arn.resource = true := by
            rw [List.isPrefixOf_iff_prefix, resource_eq]
            exact ⟨rest, rfl⟩
          have id : afterLast slash arn.resource = afterLast slash rest := by
            rw [resource_eq, afterLast_append]
          simp [handling, quickSightHandling, field_text, segment, notDataSet, isPrefix, id]

theorem handling_budgets (isService : arn.service = .budgets) {target : Target}
    (named : targetOf arn = some target) : handling .budgets arn.text = .acts target := by
  simp only [targetOf, isService, Option.map_eq_some_iff, Option.filter_eq_some_iff] at named
  rcases named with ⟨name, ⟨isBudget, _⟩, rfl⟩
  have read : splitOnce (str ":budget/") arn.text = some (arn.header, name) :=
    splitOnce_of_ofType isBudget rfl (by decide)
  simp [handling, read, field_text]

theorem handling_ce (isService : arn.service = .ce) {target : Target}
    (named : targetOf arn = some target) : handling .ce arn.text = .acts target := by
  simp only [targetOf, isService] at named
  cases isSubscription : arn.ofType "anomalysubscription" with
  | some rest =>
      have read : splitOnce (str ":anomalysubscription/") arn.text = some (arn.header, rest) :=
        splitOnce_of_ofType isSubscription rfl (by decide)
      rw [isSubscription] at named
      cases named
      simp [handling, read]
  | none =>
      simp only [isSubscription, Option.map_eq_some_iff, plainOfType_eq_some] at named
      rcases named with ⟨id, ⟨isMonitor, noSlash⟩, rfl⟩
      have read : splitOnce (str ":anomalysubscription/") arn.text = none :=
        splitOnce_of_other isMonitor (by decide) (Or.inr noSlash) rfl (by decide) isSubscription
      simp [handling, read]

theorem handling_wafv2 (isService : arn.service = .wafv2) {target : Target}
    (named : targetOf arn = some target) : handling .wafv2 arn.text = .acts target := by
  simp only [targetOf, isService, webAclTarget] at named
  split at named
  · next scope type name id parts =>
      split at named
      · cases named
      · next isWebAcl =>
          split at named
          · next regional =>
              cases named
              have parsed : wafv2ParseArn arn.text = .ok ⟨name, str "REGIONAL", id⟩ := by
                simp [wafv2ParseArn, arn.fieldsAfter?_text, parts, not_not.mp isWebAcl, regional]
              have notGlobal : str "REGIONAL" ≠ str "CLOUDFRONT" := by decide
              simp [handling, wafv2Handling, parsed, field_text, notGlobal]
          · next notRegional =>
              split at named
              · next global =>
                  cases named
                  have different : str "global" ≠ str "regional" := by decide
                  have parsed : wafv2ParseArn arn.text = .ok ⟨name, str "CLOUDFRONT", id⟩ := by
                    simp [wafv2ParseArn, arn.fieldsAfter?_text, parts, not_not.mp isWebAcl, global,
                      different]
                  simp [handling, wafv2Handling, parsed]
              · cases named
  · cases named

theorem handling_cognitoIdp (isService : arn.service = .cognitoIdp) {target : Target}
    (named : targetOf arn = some target) : handling .cognitoIdp arn.text = .acts target := by
  simp only [targetOf, isService, Option.map_eq_some_iff] at named
  rcases named with ⟨id, isPool, rfl⟩
  have read : splitOnce (str ":userpool/") arn.text = some (arn.header, id) :=
    splitOnce_of_ofType isPool rfl (by decide)
  simp [handling, read, field_text]

/-- Where nothing is misread, the handler acts on the resource the ARN names. -/
theorem handling_of_target {target : Target} (named : targetOf arn = some target)
    (rightly : ¬Misread arn) : handling arn.service arn.text = .acts target := by
  cases isService : arn.service with
  | s3 => exact handling_s3 isService named
  | kms => exact handling_kms isService named
  | iam =>
      simp only [Misread, isService, not_or, not_exists, not_and] at rightly
      rcases rightly with ⟨roles, policies, profiles⟩
      simp only [targetOf, isService] at named
      cases isRole : arn.ofType "role" with
      | some path =>
          rw [isRole] at named
          cases named
          rw [afterLast_eq_self (roles path isRole)]
          exact iamHandling_role isRole
      | none =>
          simp only [isRole] at named
          cases isPolicy : arn.ofType "policy" with
          | some path =>
              rw [isPolicy] at named
              cases named
              exact iamHandling_policy isPolicy (policies path isPolicy)
          | none =>
              simp only [isPolicy, Option.map_eq_some_iff] at named
              rcases named with ⟨path, isProfile, rfl⟩
              rw [afterLast_eq_self (profiles path isProfile)]
              exact iamHandling_profile isProfile (profiles path isProfile)
  | cloudfront =>
      simp only [targetOf, isService, Option.map_eq_some_iff, plainOfType_eq_some] at named
      rcases named with ⟨id, ⟨isDistribution, noSlash⟩, rfl⟩
      simp only [handling, afterLast_slash_text isDistribution, afterLast_eq_self noSlash]
  | acm =>
      simp only [targetOf, isService, Option.map_eq_some_iff] at named
      rcases named with ⟨id, _, rfl⟩
      rfl
  | route53 => exact handling_route53 isService named
  | ec2 => exact handling_ec2 isService named
  | ecs => exact handling_ecs isService named
  | elasticloadbalancing => exact handling_elb isService named
  | firehose => exact handling_firehose isService named
  | glue => exact handling_glue isService named
  | athena =>
      simp only [targetOf, isService, Option.map_eq_some_iff] at named
      rcases named with ⟨name, isWorkgroup, rfl⟩
      have read : splitOnce (str ":workgroup/") arn.text = some (arn.header, name) :=
        splitOnce_of_ofType isWorkgroup rfl (by decide)
      simp only [handling, read]
  | sns =>
      simp only [targetOf, isService] at named
      split at named
      · cases named
      · cases named
        rfl
  | ssm =>
      simp only [targetOf, isService, Option.map_eq_some_iff] at named
      rcases named with ⟨name, isParameter, rfl⟩
      have read : splitOnce (str ":parameter/") arn.text = some (arn.header, name) :=
        splitOnce_of_ofType isParameter rfl (by decide)
      simp only [handling, read]
  | lambda =>
      simp only [targetOf, isService, Option.map_eq_some_iff] at named
      rcases named with ⟨name, _, rfl⟩
      rfl
  | logs => exact handling_logs isService named
  | cloudwatch =>
      simp only [Misread, isService, not_exists, not_and] at rightly
      simp only [targetOf, isService, Option.map_eq_some_iff] at named
      rcases named with ⟨name, isAlarm, rfl⟩
      simp only [handling, afterLast_alarm isAlarm, afterLast_eq_self (rightly name isAlarm)]
  | quicksight => exact handling_quickSight isService named
  | budgets => exact handling_budgets isService named
  | ce => exact handling_ce isService named
  | wafv2 => exact handling_wafv2 isService named
  | cognitoIdp => exact handling_cognitoIdp isService named

/-- Where the ARN is misread, the handler acts on something else. -/
theorem handling_of_misread {target : Target} (named : targetOf arn = some target)
    (misread : Misread arn) :
    ∃ found, handling arn.service arn.text = .acts found ∧ found ≠ target ∧
      found.outcome = .deleted ∧ ¬target.PartOf found := by
  cases isService : arn.service with
  | iam =>
      simp only [Misread, isService] at misread
      simp only [targetOf, isService] at named
      rcases misread with ⟨path, isRole, inPath⟩ | ⟨path, isPolicy, contains⟩ |
        ⟨path, isProfile, inPath⟩
      · rw [Option.mem_def.mp isRole] at named
        cases named
        refine ⟨.iamRole path, iamHandling_role isRole, ?_, rfl, id⟩
        intro same
        rw [Target.iamRole.injEq] at same
        rw [same] at inPath
        exact not_mem_afterLast inPath
      · have notRole : arn.ofType "role" = none := ofType_other isPolicy (by decide) (by decide)
        rw [notRole, Option.mem_def.mp isPolicy] at named
        cases named
        rcases iamHandling_of_contains (contains_text_of_rest isPolicy contains) with ⟨name, found⟩
        exact ⟨.iamRole name, found, nofun, rfl, id⟩
      · have notRole : arn.ofType "role" = none := ofType_other isProfile (by decide) (by decide)
        have notPolicy : arn.ofType "policy" = none :=
          ofType_other isProfile (by decide) (by decide)
        rw [notRole, notPolicy, Option.mem_def.mp isProfile] at named
        cases named
        rcases iamHandling_profile_path isProfile with ⟨_, found, rfl | ⟨name, rfl⟩ | rfl⟩
        · refine ⟨_, found, ?_, rfl, id⟩
          intro same
          rw [Target.instanceProfile.injEq] at same
          rw [same] at inPath
          exact not_mem_afterLast inPath
        · exact ⟨_, found, nofun, rfl, id⟩
        · exact ⟨_, found, nofun, rfl, id⟩
  | cloudwatch =>
      simp only [Misread, isService] at misread
      simp only [targetOf, isService, Option.map_eq_some_iff] at named
      rcases misread with ⟨name, isAlarm, inName⟩
      rcases named with ⟨_, isAlarm', rfl⟩
      cases isAlarm.symm.trans isAlarm'
      refine ⟨.alarm (afterLast colon name), ?_, ?_, rfl, id⟩
      · simp only [handling, afterLast_alarm isAlarm]
      · intro same
        rw [Target.alarm.injEq] at same
        rw [← same] at inName
        exact not_mem_afterLast inName
  | _ =>
      simp only [Misread, isService] at misread

theorem wafv2Handling_eq_rejects :
    wafv2Handling arn.text = .rejects ↔ ∀ acl, wafv2ParseArn arn.text ≠ .ok acl := by
  unfold wafv2Handling
  cases wafv2ParseArn arn.text with
  | error text => simp
  | ok acl =>
      by_cases isGlobal : acl.scope = str "CLOUDFRONT"
      · simp [isGlobal]
      · simp [isGlobal, field_text]

theorem quickSightHandling_eq_rejects :
    quickSightHandling arn.text = .rejects ↔
      ¬str "dataset/" <+: beforeFirst colon arn.resource ∧
        ¬str "datasource/" <+: beforeFirst colon arn.resource := by
  have segment : (arn.text.splitOn colon)[5]? = some (beforeFirst colon arn.resource) := by
    rw [field_text]
    simp only [List.getElem?_cons_succ, ← List.head?_eq_getElem?]
    exact head?_splitOn
  simp only [quickSightHandling, segment, Option.getD_some, field_text, List.getElem?_cons_succ,
    List.getElem?_cons_zero, ← List.isPrefixOf_iff_prefix]
  split
  · next isDataSet => simp [isDataSet]
  · next notDataSet =>
      split
      · next isDataSource => simp [isDataSource]
      · next notDataSource => simp [notDataSet, notDataSource]

/-- The handler raises at once exactly on the refused ARNs. -/
theorem handling_eq_rejects : handling arn.service arn.text = .rejects ↔ Refused arn := by
  cases isService : arn.service with
  | route53 =>
      simp only [handling, Refused, isService, ← splitOnce_eq_none]
      cases splitOnce (str ":hostedzone/") arn.text <;> simp
  | ec2 =>
      simp only [handling, Refused, isService]
      cases ec2TargetOf (ec2TypeAndId arn.text).1 (ec2TypeAndId arn.text).2 <;> simp
  | ecs =>
      simp only [handling, ecsHandling, Refused, isService, ← splitOnce_eq_none]
      cases splitOnce (str ":cluster/") arn.text with
      | some parts => simp
      | none =>
          cases splitOnce (str ":service/") arn.text with
          | some parts => simp
          | none => cases splitOnce (str ":task-definition/") arn.text <;> simp
  | glue =>
      simp only [handling, glueHandling, Refused, isService, ← splitOnce_eq_none]
      cases splitOnce (str ":database/") arn.text with
      | some parts => simp
      | none => cases splitOnce (str ":table/") arn.text <;> simp
  | quicksight =>
      simp only [Refused, isService]
      exact quickSightHandling_eq_rejects
  | wafv2 =>
      simp only [Refused, isService]
      exact wafv2Handling_eq_rejects
  | cognitoIdp =>
      simp only [handling, Refused, isService, ← splitOnce_eq_none, field_text]
      cases splitOnce (str ":userpool/") arn.text <;> simp
  | budgets =>
      simp only [handling, Refused, isService, field_text]
      cases splitOnce (str ":budget/") arn.text <;> simp
  | kms =>
      simp only [handling, Refused, isService]
      cases splitOnce (str ":alias/") arn.text <;> simp
  | iam =>
      simp only [handling, iamHandling, Refused, isService]
      cases splitOnce (str ":role/") arn.text with
      | some parts => simp
      | none =>
          cases splitOnce (str ":policy/") arn.text with
          | some parts => simp
          | none => cases splitOnce (str ":instance-profile/") arn.text <;> simp
  | elasticloadbalancing =>
      simp only [handling, elbHandling, Refused, isService]
      split_ifs <;> simp
  | athena =>
      simp only [handling, Refused, isService]
      cases splitOnce (str ":workgroup/") arn.text <;> simp
  | ce =>
      simp only [handling, Refused, isService]
      split_ifs <;> simp
  | _ => simp [handling, Refused, isService]

end Readings

end Sweep
