import TelemetryPlatform.Terragrunt.BucketGuard

/-!
# Distinct names for distinct units

The state bucket of a unit is named after its namespace, and the namespace is made of
six fields. A field loses its words on the way: S3 knows no underscores and no capital
letters, so that `Athena_logs` and `athena-logs` are the same part of a name, and a
dash between two words of a field is the dash between two fields. Only a long name has
a digest of the namespace that still tells the fields apart.

`Collide` says of two tuples of fields that their names are the same, by their words and
their canonical fields, and `separated_iff` that nothing else makes them the same. The
length of the names is never a problem.
-/

namespace Terragrunt

open Python

/-- A letter, a digit, a dash or an underscore. -/
def IsFieldChr (c : Chr) : Prop :=
  (0x30 ≤ c.code ∧ c.code ≤ 0x39) ∨ (0x41 ≤ c.code ∧ c.code ≤ 0x5a) ∨
    (0x61 ≤ c.code ∧ c.code ≤ 0x7a) ∨ c = dash ∨ c = underscore

instance (c : Chr) : Decidable (IsFieldChr c) := inferInstanceAs (Decidable (_ ∨ _))

namespace Identity

variable (identity : Identity)

/-- The unit of the identity that is no singleton of its environment. -/
def leaf : Leaf :=
  ⟨identity.productFamily, identity.region, identity.environmentName, false,
    identity.environmentInstance, identity.service, identity.serviceInstance⟩

/-- The fields that are joined to the namespace. -/
def fields : List Str :=
  [identity.productFamily, identity.regionClean, identity.environmentName,
    identity.environmentInstance, identity.service, identity.serviceInstance]

/-- The fields as they stand between the dashes of the namespace. -/
def canonicalFields : List Str := identity.fields.map fun field => replaceChr field dash underscore

/-- The words of the fields: their parts between dashes and underscores, in lower case. -/
def words : List Str :=
  identity.fields.flatMap fun field => (lower (flatten field)).splitOn dash

/-- The name is too long for S3 without a digest. -/
def TooLong : Prop := maxBucketNameLength < identity.bucketNameRaw.length

instance : Decidable identity.TooLong := inferInstanceAs (Decidable (_ < _))

/-- The fields have characters of names only. -/
def Plain : Prop :=
  ∀ field ∈ [identity.productFamily, identity.region, identity.environmentName,
    identity.environmentInstance, identity.service, identity.serviceInstance],
    ∀ c ∈ field, IsFieldChr c

end Identity

section Words

theorem splitOn_joinDash {fields : List Str} (nonempty : fields ≠ []) :
    (joinDash fields).splitOn dash = fields.flatMap fun field => field.splitOn dash := by
  induction fields with
  | nil => exact absurd rfl nonempty
  | cons first rest ih =>
      cases rest with
      | nil => simp
      | cons second others =>
          rw [joinDash_cons_cons, List.splitOn_append_cons_self, ih (by simp)]
          rfl

/-- Texts are the same when their parts between the dashes are. -/
theorem splitOn_dash_inj {left right : Str} :
    left.splitOn dash = right.splitOn dash ↔ left = right := by
  constructor
  · intro same
    have joined := congrArg (List.intercalate [dash]) same
    rwa [List.intercalate_splitOn, List.intercalate_splitOn] at joined
  · rintro rfl
    rfl

variable {left right identity : Identity}

theorem lower_joinDash (fields : List Str) :
    lower (joinDash fields) = joinDash (fields.map lower) := by
  induction fields with
  | nil => rfl
  | cons first rest ih =>
      cases rest with
      | nil => simp
      | cons second others =>
          rw [List.map_cons] at ih ⊢
          rw [List.map_cons, joinDash_cons_cons, joinDash_cons_cons, ← ih, lower_append]
          rfl

theorem splitOn_namespaceDns : (lower identity.namespaceDns).splitOn dash = identity.words := by
  have dns := namespaceDns_eq identity.leaf
  change identity.namespaceDns = joinDash (identity.fields.map flatten) at dns
  rw [dns, lower_joinDash, splitOn_joinDash (by simp [Identity.fields]), List.map_map,
    List.flatMap_map]
  rfl

/-- The flattened namespaces are the same when the words of the fields are. -/
theorem lower_namespaceDns_inj :
    lower left.namespaceDns = lower right.namespaceDns ↔ left.words = right.words := by
  rw [← splitOn_dash_inj, splitOn_namespaceDns, splitOn_namespaceDns]

theorem dash_not_mem_canonical {field : Str} (fieldMem : field ∈ identity.canonicalFields) :
    dash ∉ field := by
  rcases List.mem_map.mp fieldMem with ⟨plain, _, rfl⟩
  intro inField
  rcases List.mem_map.mp inField with ⟨c, _, same⟩
  split at same
  · cases same
  · next other => exact other same

/-- The namespaces are the same when their fields are. -/
theorem namespace_inj :
    left.namespace = right.namespace ↔ left.canonicalFields = right.canonicalFields := by
  have split (identity : Identity) :
      identity.namespace.splitOn dash = identity.canonicalFields := by
    apply List.splitOn_intercalate
    · exact fun field fieldMem => dash_not_mem_canonical fieldMem
    · exact List.cons_ne_nil _ _
  rw [← splitOn_dash_inj, split, split]

end Words

section Names

variable (md5 : Md5)

/-- A digest is written in hexadecimal digits with small letters. -/
def Md5.Hexadecimal : Prop :=
  ∀ bytes, ∀ c ∈ md5.hexdigest bytes,
    (0x30 ≤ c.code ∧ c.code ≤ 0x39) ∨ (0x61 ≤ c.code ∧ c.code ≤ 0x66)

namespace Identity

variable (identity : Identity)

/-- The eight characters of the digest in a name that was shortened. -/
def digest : Str :=
  match encode identity.namespace with
  | .ok bytes => (md5.hexdigest bytes).take 8
  | .error _ => []

/-- The words of a name that was shortened. -/
def shortenedWords : List Str :=
  (lower (identity.namespaceDns.take 45) ++ dash :: identity.digest md5).splitOn dash

end Identity

/-- Two tuples of fields get one name. -/
def Collide (left right : Identity) : Prop :=
  if left.TooLong then
    if right.TooLong then left.canonicalFields = right.canonicalFields
    else right.words = left.shortenedWords md5
  else
    if right.TooLong then left.words = right.shortenedWords md5
    else left.words = right.words

variable {md5} {identity left right : Identity}

theorem isScalar_of_isFieldChr {c : Chr} (plain : IsFieldChr c) : c.isScalar = true := by
  cases c with
  | char scalar => rfl
  | surrogate unit =>
      simp only [IsFieldChr, Chr.code, dash, underscore, reduceCtorEq, or_false] at plain
      omega

theorem encodable_joinDash {fields : List Str} (each : ∀ field ∈ fields, Encodable field) :
    Encodable (joinDash fields) := by
  induction fields with
  | nil => exact encodable_nil
  | cons first rest ih =>
      cases rest with
      | nil => simpa using each
      | cons second others =>
          rw [joinDash_cons_cons, encodable_append, encodable_cons]
          refine ⟨each first List.mem_cons_self, rfl, ih ?_⟩
          exact fun field fieldMem => each field (List.mem_cons_of_mem _ fieldMem)

theorem Identity.Plain.encodable (plain : identity.Plain) : Encodable identity.namespace := by
  have fieldsPlain : ∀ field ∈ identity.fields, ∀ c ∈ field, c.isScalar = true := by
    intro field fieldMem c cMem
    apply isScalar_of_isFieldChr
    simp only [Identity.fields, List.mem_cons, List.not_mem_nil, or_false] at fieldMem
    rcases fieldMem with rfl | rfl | rfl | rfl | rfl | rfl
    · exact plain _ (by simp) c cMem
    · exact plain identity.region (by simp) c (List.mem_filter.mp cMem).1
    · exact plain _ (by simp) c cMem
    · exact plain _ (by simp) c cMem
    · exact plain _ (by simp) c cMem
    · exact plain _ (by simp) c cMem
  apply encodable_joinDash
  intro field fieldMem
  rcases List.mem_map.mp fieldMem with ⟨source, sourceMem, rfl⟩
  intro c cMem
  rcases List.mem_map.mp cMem with ⟨d, dMem, rfl⟩
  split
  · rfl
  · exact fieldsPlain source sourceMem d dMem

/-- Lower-casing and flattening leave a digest as it is. -/
theorem lower_flatten_digest (hexadecimal : md5.Hexadecimal) (identity : Identity) :
    lower (flatten (identity.digest md5)) = identity.digest md5 := by
  have hex : ∀ c ∈ identity.digest md5,
      (0x30 ≤ c.code ∧ c.code ≤ 0x39) ∨ (0x61 ≤ c.code ∧ c.code ≤ 0x66) := by
    intro c cMem
    unfold Identity.digest at cMem
    split at cMem
    · exact hexadecimal _ c (List.mem_of_mem_take cMem)
    · cases cMem
  rw [lower, flatten, replaceChr, List.map_map]
  refine (List.map_congr_left fun c cMem => ?_).trans (List.map_id _)
  have range := hex c cMem
  have other : c ≠ underscore := by
    rintro rfl
    revert range
    decide
  rw [Function.comp_apply, if_neg other, lowerChr, if_neg (by omega)]
  rfl

theorem tooLong_iff : identity.TooLong ↔ 55 < identity.namespaceDns.length := by
  have raw : identity.bucketNameRaw.length = identity.namespaceDns.length + 8 := by
    rw [Identity.bucketNameRaw, List.length_append]
    rfl
  rw [Identity.TooLong, raw, maxBucketNameLength]
  omega

theorem finalBucketName_tooLong (plain : identity.Plain) (hexadecimal : md5.Hexadecimal)
    (tooLong : identity.TooLong) :
    identity.finalBucketName md5 =
      some (lower (identity.namespaceDns.take 45) ++ dash :: identity.digest md5 ++
        tfstateSuffix) := by
  rcases encode_eq_ok plain.encodable with ⟨bytes, encoded⟩
  have digest := lower_flatten_digest hexadecimal identity
  have digest_eq : identity.digest md5 = (md5.hexdigest bytes).take 8 := by
    rw [Identity.digest, encoded]
  have front : flatten (identity.namespaceDns.take 45) = identity.namespaceDns.take 45 := by
    rw [flatten, replaceChr, List.map_take]
    exact congrArg (List.take 45) (flatten_flatten identity.namespace)
  have long : identity.bucketNameRaw.length > maxBucketNameLength := tooLong
  rw [Identity.finalBucketName, Identity.bucketNameShortened, if_pos long, encoded]
  dsimp only
  rw [Option.map_some, ← digest_eq, replaceChr_append, replaceChr_append, replaceChr_append,
    lower_append, lower_append, lower_append]
  change some (lower (flatten _) ++ [dash] ++ lower (flatten _) ++ tfstateSuffix) = _
  rw [front, digest, List.append_assoc _ [dash]]
  rfl

theorem finalBucketName_fits (fits : ¬identity.TooLong) : identity.finalBucketName md5 =
    some (lower identity.namespaceDns ++ tfstateSuffix) := by
  rw [tooLong_iff] at fits
  refine (finalBucketName_short md5 ?_ : identity.leaf.identity.finalBucketName md5 = _)
  change identity.namespaceDns.length + 8 ≤ 63
  omega

/-- The names are the same exactly when the fields collide. -/
theorem finalBucketName_inj (leftPlain : left.Plain) (rightPlain : right.Plain)
    (hexadecimal : md5.Hexadecimal)
    (injective : left.digest md5 = right.digest md5 → left.namespace = right.namespace) :
    left.finalBucketName md5 = right.finalBucketName md5 ↔ Collide md5 left right := by
  unfold Collide
  split
  · next leftLong =>
      rw [finalBucketName_tooLong leftPlain hexadecimal leftLong]
      split
      · next rightLong =>
          rw [finalBucketName_tooLong rightPlain hexadecimal rightLong, Option.some.injEq,
            List.append_cancel_right_eq, ← namespace_inj]
          rw [tooLong_iff] at leftLong rightLong
          constructor
          · intro same
            have parts := List.append_inj same (by
              simp only [length_lower, List.length_take]
              omega)
            exact injective (List.cons.inj parts.2).2
          · intro same
            simp only [Identity.namespaceDns, Identity.digest, same]
      · next rightShort =>
          rw [finalBucketName_fits rightShort, Option.some.injEq, List.append_cancel_right_eq,
            ← splitOn_namespaceDns, Identity.shortenedWords, splitOn_dash_inj]
          exact eq_comm
  · next leftShort =>
      rw [finalBucketName_fits leftShort]
      split
      · next rightLong =>
          rw [finalBucketName_tooLong rightPlain hexadecimal rightLong, Option.some.injEq,
            List.append_cancel_right_eq, ← splitOn_namespaceDns, Identity.shortenedWords,
            splitOn_dash_inj]
      · next rightShort =>
          rw [finalBucketName_fits rightShort, Option.some.injEq, List.append_cancel_right_eq,
            lower_namespaceDns_inj]

theorem exists_finalBucketName (plain : identity.Plain) (hexadecimal : md5.Hexadecimal) :
    ∃ name, identity.finalBucketName md5 = some name ∧ name.length ≤ maxBucketNameLength := by
  have named : ∃ name, identity.finalBucketName md5 = some name := by
    by_cases tooLong : identity.TooLong
    · exact ⟨_, finalBucketName_tooLong plain hexadecimal tooLong⟩
    · exact ⟨_, finalBucketName_fits tooLong⟩
  rcases named with ⟨name, named⟩
  have leafNamed : identity.leaf.identity.finalBucketName md5 = some name := named
  exact ⟨name, named, finalBucketName_length md5 leafNamed⟩

/--
For all fields of letters, digits, dashes and underscores, and a digest that tells the two
namespaces apart: the names have at most 63 characters, and distinct tuples of fields have distinct
names exactly when they do not collide by their words.
-/
theorem separated_iff (leftPlain : left.Plain) (rightPlain : right.Plain)
    (hexadecimal : md5.Hexadecimal)
    (injective : left.digest md5 = right.digest md5 → left.namespace = right.namespace) :
    (∃ leftName rightName, left.finalBucketName md5 = some leftName ∧
      right.finalBucketName md5 = some rightName ∧ leftName.length ≤ maxBucketNameLength ∧
      rightName.length ≤ maxBucketNameLength ∧ (left ≠ right → leftName ≠ rightName)) ↔
      (left ≠ right → ¬Collide md5 left right) := by
  have same := finalBucketName_inj leftPlain rightPlain hexadecimal injective
  rcases exists_finalBucketName leftPlain hexadecimal with ⟨leftName, leftNamed, leftLength⟩
  rcases exists_finalBucketName rightPlain hexadecimal with ⟨rightName, rightNamed, rightLength⟩
  rw [leftNamed, rightNamed, Option.some.injEq] at same
  constructor
  · rintro ⟨_, _, leftNamed', rightNamed', _, _, separated⟩ distinct
    cases leftNamed.symm.trans leftNamed'
    cases rightNamed.symm.trans rightNamed'
    exact mt same.mpr (separated distinct)
  · intro apart
    exact ⟨leftName, rightName, leftNamed, rightNamed, leftLength, rightLength,
      fun distinct => mt same.mp (apart distinct)⟩

end Names

namespace Sample

/-- A service of two words, and one whose instance has the second of them. -/
def twoWords : Identity :=
  ⟨str "telemetry", str "us-east-1", str "qa", str "000", str "athena-logs", str "000"⟩

def oneWord : Identity :=
  { twoWords with service := str "athena", serviceInstance := str "logs-000" }

def glue : Identity := { twoWords with service := str "glue" }

/-- The digests of the three namespaces. -/
def digests : List (Bytes × Str) :=
  [(asciiBytes "telemetry-useast1-qa-000-athena_logs-000", str "667417b86e595b930a1432fe39546c63"),
    (asciiBytes "telemetry-useast1-qa-000-athena-logs_000", str "90b650f451c44b95748e38713ab4b333"),
    (asciiBytes "telemetry-useast1-qa-000-glue-000", str "83369335ca3c9815e3d3a441ba3c0cba")]
where
  asciiBytes (text : String) : Bytes := text.toList.map fun c => c.toNat.toUInt8

def zeros : Str := List.replicate 32 (.char '0')

def digestOf (bytes : Bytes) : Str :=
  ((digests.find? fun entry => entry.1 = bytes).map Prod.snd).getD zeros

theorem digestOf_mem (bytes : Bytes) : digestOf bytes ∈ zeros :: digests.map Prod.snd := by
  unfold digestOf
  cases found : digests.find? fun entry => entry.1 = bytes with
  | none => exact List.mem_cons_self
  | some entry =>
      have entryMem := List.mem_of_find?_eq_some found
      exact List.mem_cons_of_mem _ (List.mem_map_of_mem entryMem)

def md5 : Md5 where
  hexdigest := digestOf
  length_hexdigest bytes := by
    have each : ∀ digest ∈ zeros :: digests.map Prod.snd, digest.length = 32 := by decide +kernel
    exact each _ (digestOf_mem bytes)

theorem hexadecimal : md5.Hexadecimal := by
  have each : ∀ digest ∈ zeros :: digests.map Prod.snd, ∀ c ∈ digest,
      (0x30 ≤ c.code ∧ c.code ≤ 0x39) ∨ (0x61 ≤ c.code ∧ c.code ≤ 0x66) := by
    decide +kernel
  exact fun bytes => each _ (digestOf_mem bytes)

theorem twoWords_plain : twoWords.Plain := by
  unfold Identity.Plain
  decide +kernel

theorem oneWord_plain : oneWord.Plain := by
  unfold Identity.Plain
  decide +kernel

theorem glue_plain : glue.Plain := by
  unfold Identity.Plain
  decide +kernel

end Sample

/-- Two services are told apart. -/
theorem separated_glue : ∃ leftName rightName,
    Sample.twoWords.finalBucketName Sample.md5 = some leftName ∧
      Sample.glue.finalBucketName Sample.md5 = some rightName ∧
      leftName.length ≤ maxBucketNameLength ∧ rightName.length ≤ maxBucketNameLength ∧
      (Sample.twoWords ≠ Sample.glue → leftName ≠ rightName) := by
  have distinct : Sample.twoWords.digest Sample.md5 ≠ Sample.glue.digest Sample.md5 := by
    decide +kernel
  apply (separated_iff Sample.twoWords_plain Sample.glue_plain Sample.hexadecimal
    fun same => absurd same distinct).mpr
  intro _
  unfold Collide
  decide +kernel

/-- A dash within a field is the dash between two fields. -/
theorem not_separated_words : Sample.twoWords.Plain ∧ Sample.oneWord.Plain ∧
    (Sample.twoWords.digest Sample.md5 ≠ Sample.oneWord.digest Sample.md5) ∧
    ¬∃ leftName rightName, Sample.twoWords.finalBucketName Sample.md5 = some leftName ∧
      Sample.oneWord.finalBucketName Sample.md5 = some rightName ∧
      leftName.length ≤ maxBucketNameLength ∧ rightName.length ≤ maxBucketNameLength ∧
      (Sample.twoWords ≠ Sample.oneWord → leftName ≠ rightName) := by
  refine ⟨Sample.twoWords_plain, Sample.oneWord_plain, by decide +kernel, ?_⟩
  rintro ⟨leftName, rightName, leftNamed, rightNamed, _, _, separated⟩
  have distinct : Sample.twoWords ≠ Sample.oneWord := by
    intro same
    have services := congrArg Identity.service same
    revert services
    decide
  have same : Sample.twoWords.finalBucketName Sample.md5 =
      Sample.oneWord.finalBucketName Sample.md5 := by
    decide +kernel
  rw [leftNamed, rightNamed, Option.some.injEq] at same
  exact separated distinct same

end Terragrunt
