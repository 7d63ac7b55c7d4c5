import Mathlib.Data.List.Lex
import Mathlib.Data.List.Sort
import TelemetryPlatform.Library.Grouping
import TelemetryPlatform.Terragrunt.Layers

/-!
# The guard of the state bucket names

`scripts/tg_bucket_name_unique.py` derives a bucket name for every unit of the live
tree and refuses a tree in which two names are the same or one is too long. The
names are meant to be those of `root.hcl`. They are not: the guard puts an account
id in front, keeps the dashes of the region and the `_singletons` directory, and
shortens at another length. `Coincides` is the equation between a unit's own
namespace and its account id under which the two names are the same all the same.
-/

namespace Terragrunt

open Python

variable (digits : DigitClass) (md5 : Md5) (tree : FileTree) (root : Path)

section Guard

def accountIdLength : Nat := 12
def namespacePrefixLength : Nat := 28
def hashSuffixLength : Nat := 8

inductive BucketNameError where
  | collision (text : Str)
  | tooLong (text : Str)

def BucketNameError.text : BucketNameError → Str
  | .collision text => text
  | .tooLong text => text

/-- `aws_account_id\s*=\s*"(\d{12})"` at the start of a text. -/
def matchAccountId (text : Str) : Option Str := do
  let afterName ← text.dropPrefix? (str "aws_account_id")
  let afterEquals ← (afterName.dropWhile isSpace).dropPrefix? (str "=")
  let value ← (afterEquals.dropWhile isSpace).dropPrefix? (str "\"")
  let accountId := value.take accountIdLength
  let _ ← (value.drop accountIdLength).dropPrefix? (str "\"")
  if accountId.length = accountIdLength ∧ accountId.all digits.holds then some accountId else none

/-- `ACCOUNT_ID_RE.search`. -/
def searchAccountId (text : Str) : Option Str := text.tails.findSome? (matchAccountId digits)

def findAccountIdInAncestors (file : Path) : Option Str :=
  (selfAndAncestors file.dropLast).findSome? fun dir =>
    (tree.read? (dir ++ [str "account.hcl"])).bind (searchAccountId digits)

/-- The names of the directories of a unit below the root, without a leading `live`. -/
def deriveNamespaceFromPath (file : Path) : Str :=
  let parts := file.dropLast.drop root.length
  let parts := if parts.head? = some (str "live") then parts.tail else parts
  replaceChr (joinDash parts) underscore dash

def shortenBucketName (accountId space rawName : Str) : Except Exc Str := do
  if rawName.length ≤ maxBucketNameLength then
    return rawName
  let bytes ← encode space
  return lower (accountId ++ [dash] ++ (replaceChr space underscore dash).take
    namespacePrefixLength ++ [dash] ++ (md5.hexdigest bytes).take hashSuffixLength ++ tfstateSuffix)

/-- The account id of the guard's name: the one an ancestor declares as a literal, or zeros. -/
def guardAccountId (file : Path) : Str :=
  (findAccountIdInAncestors digits tree file).getD (str "000000000000")

def guardBucketName (file : Path) : Except Exc Str :=
  let accountId := guardAccountId digits tree file
  let space := deriveNamespaceFromPath root file
  shortenBucketName md5 accountId space (accountId ++ [dash] ++ space ++ tfstateSuffix)

/-- The order of paths by their names, code point by code point. -/
def pathLe (left right : Path) : Prop := left.map (·.map Chr.code) ≤ right.map (·.map Chr.code)

instance : DecidableRel pathLe := fun _ _ => inferInstanceAs (Decidable (_ ≤ _))

/-- The unit files of the tree. -/
def unitFiles : List Path := (tree.rglob root terragruntFile).insertionSort pathLe

def collectBucketNames : Except Exc (List (Path × Str)) :=
  ((unitFiles tree root).filter fun file => str "_envcommon" ∉ file).mapM fun file => do
    return (file, ← guardBucketName digits md5 tree root file)

def tooLongText (name : Str) : Str :=
  str "ERROR: Derived state bucket name exceeds the S3 63-char limit (" ++
    (Runtime.intText name.length).map .char ++ str " chars): '" ++ name ++
    str ("'\n  The bucket name shortening (B21) must produce a name within the limit.\n" ++
      "  Remedy: verify the namespace derivation in the root terragrunt.hcl and\n" ++
      "  ensure shorten_bucket_name is applied before use.")

def collisionText (name : Str) (first second : Nat) : Str :=
  str "ERROR: State bucket name collision detected: '" ++ name ++ str "'\n  Two units (indices " ++
    (Runtime.intText first).map .char ++ str " and " ++ (Runtime.intText second).map .char ++
    str (") derive the same bucket name.\n" ++
      "  The B21 hash-suffix scheme must be applied to ensure uniqueness.\n" ++
      "  Remedy: verify the namespace derivation ensures distinct names for each unit.")

/-- The loop over the names with the indices of those seen. -/
def checkCollisions (seen : List (Str × Nat)) (i : Nat) : List Str → Except BucketNameError Unit
  | [] => .ok ()
  | name :: rest =>
      match dictGet? seen name with
      | some first => .error (.collision (collisionText name first i))
      | none => checkCollisions (dictSet seen name i) (i + 1) rest

def assertBucketNamesUnique (names : List Str) : Except BucketNameError Unit := do
  match names.find? fun name => name.length > maxBucketNameLength with
  | some name => .error (.tooLong (tooLongText name))
  | none => checkCollisions [] 0 names

def runBucketNameGuard : Except Exc (List Str) := do
  let collected ← collectBucketNames digits md5 tree root
  match assertBucketNamesUnique (collected.map Prod.snd) with
  | .ok () => return []
  | .error error => return [error.text]

end Guard

section Verdict

theorem checkCollisions_eq_ok {seen : List (Str × Nat)} {i : Nat} {names : List Str} :
    checkCollisions seen i names = .ok () ↔
      names.Nodup ∧ ∀ name ∈ names, name ∉ seen.map Prod.fst := by
  induction names generalizing seen i with
  | nil => simp [checkCollisions]
  | cons name rest ih =>
      rw [checkCollisions]
      cases found : dictGet? seen name with
      | some first =>
          have present : name ∈ seen.map Prod.fst :=
            dictGet?_isSome.mp (by rw [found]; rfl)
          simp only [reduceCtorEq, false_iff, not_and]
          intro _ fresh
          exact fresh name List.mem_cons_self present
      | none =>
          have fresh : name ∉ seen.map Prod.fst := by
            rw [← dictGet?_isSome, found]
            simp
          simp only [ih, mem_keys_dictSet, not_or, List.nodup_cons, List.forall_mem_cons]
          constructor
          · rintro ⟨nodup, others⟩
            exact ⟨⟨fun again => (others name again).2 rfl, nodup⟩, fresh,
              fun other otherMem => (others other otherMem).1⟩
          · rintro ⟨⟨absent, nodup⟩, _, others⟩
            refine ⟨nodup, fun other otherMem => ⟨others other otherMem, ?_⟩⟩
            rintro rfl
            exact absent otherMem

theorem assertBucketNamesUnique_eq_ok {names : List Str} :
    assertBucketNamesUnique names = .ok () ↔
      names.Nodup ∧ ∀ name ∈ names, name.length ≤ maxBucketNameLength := by
  rw [assertBucketNamesUnique]
  cases found : names.find? fun name => name.length > maxBucketNameLength with
  | some name =>
      have long := List.find?_some found
      have nameMem := List.mem_of_find?_eq_some found
      simp only [reduceCtorEq, false_iff, not_and]
      intro _ short
      have := short name nameMem
      simp only [decide_eq_true_eq] at long
      omega
  | none =>
      have short := List.find?_eq_none.mp found
      simp only [checkCollisions_eq_ok]
      simp only [decide_eq_true_eq, not_lt] at short
      exact ⟨fun h => ⟨h.1, short⟩, fun h => ⟨h.1, by simp⟩⟩

end Verdict

/-- A field with dashes for its underscores. -/
abbrev flatten (field : Str) : Str := replaceChr field underscore dash

section Names

theorem joinDash_cons_cons (first second : Str) (rest : List Str) :
    joinDash (first :: second :: rest) = first ++ dash :: joinDash (second :: rest) := by
  simp [joinDash]

@[simp]
theorem joinDash_singleton (field : Str) : joinDash [field] = field := by simp [joinDash]

theorem flatten_joinDash (fields : List Str) : flatten (joinDash fields) =
    joinDash (fields.map flatten) := by
  induction fields with
  | nil => rfl
  | cons first rest ih =>
      cases rest with
      | nil => simp
      | cons second others =>
          rw [List.map_cons] at ih ⊢
          rw [List.map_cons, joinDash_cons_cons, joinDash_cons_cons, ← ih, flatten,
            replaceChr_append]
          rfl

/-- The dashes a field is given underscores for come back in the flattened namespace. -/
theorem flatten_underscores (field : Str) :
    flatten (replaceChr field dash underscore) = flatten field := by
  rw [flatten, replaceChr, replaceChr, List.map_map]
  apply List.map_congr_left
  intro c _
  by_cases isDash : c = dash
  · rw [isDash]
    rfl
  · simp [isDash]

theorem flatten_flatten (text : Str) : flatten (flatten text) = flatten text := by
  rw [flatten, flatten, replaceChr, replaceChr, List.map_map]
  apply List.map_congr_left
  intro c _
  by_cases isUnderscore : c = underscore
  · rw [isUnderscore]
    rfl
  · simp [isUnderscore]

variable (leaf : Leaf)

theorem namespaceDns_eq : leaf.identity.namespaceDns =
    joinDash ([leaf.product, leaf.identity.regionClean, leaf.environment,
      leaf.environmentInstance, leaf.service, leaf.serviceInstance].map flatten) := by
  rw [Identity.namespaceDns, Identity.namespace]
  change flatten (joinDash _) = _
  rw [flatten_joinDash, List.map_map]
  apply congrArg joinDash
  apply List.map_congr_left
  intro field _
  exact flatten_underscores field

theorem deriveNamespaceFromPath_file (root : Path) :
    deriveNamespaceFromPath root (leaf.file root) = joinDash (leaf.names.map flatten) := by
  rw [deriveNamespaceFromPath, Leaf.file, List.dropLast_concat, leaf.dir_eq, List.drop_left,
    ← flatten_joinDash]
  rfl

end Names
section Comparison

/-- The namespace of a unit is the guard's shortened name without its last part. -/
def Coincides (leaf : Leaf) : Prop :=
  ∃ bytes, encode (deriveNamespaceFromPath root (leaf.file root)) = .ok bytes ∧
    lower leaf.identity.namespaceDns =
      lower (guardAccountId digits tree (leaf.file root) ++ [dash] ++
        (deriveNamespaceFromPath root (leaf.file root)).take namespacePrefixLength ++ [dash] ++
        (md5.hexdigest bytes).take hashSuffixLength)

theorem matchAccountId_spec {text accountId : Str}
    (found : matchAccountId digits text = some accountId) :
    accountId.length = accountIdLength ∧ ∀ c ∈ accountId, digits.holds c = true := by
  simp only [matchAccountId, Option.bind_eq_bind, Option.bind_eq_some_iff] at found
  rcases found with ⟨_, _, _, _, value, _, _, _, checked⟩
  split at checked
  · next fits =>
      cases checked
      exact ⟨fits.1, List.all_eq_true.mp fits.2⟩
  · cases checked

theorem guardAccountId_spec (file : Path) :
    (guardAccountId digits tree file).length = accountIdLength ∧
      ∀ c ∈ guardAccountId digits tree file, digits.holds c = true := by
  rw [guardAccountId]
  cases found : findAccountIdInAncestors digits tree file with
  | none =>
      refine ⟨rfl, ?_⟩
      intro c cMem
      have isZero : c = .char '0' := by simpa [str] using cMem
      rw [isZero, digits.ascii _ (by decide)]
      decide
  | some accountId =>
      rcases List.exists_of_findSome?_eq_some found with ⟨dir, _, inDir⟩
      rcases Option.bind_eq_some_iff.mp inDir with ⟨content, _, inContent⟩
      rcases List.exists_of_findSome?_eq_some inContent with ⟨tail, _, inTail⟩
      exact matchAccountId_spec digits inTail

/-- The guard's name is longer than the name of `root.hcl` when neither is shortened. -/
theorem length_namespaceDns_le (leaf : Leaf) :
    leaf.identity.namespaceDns.length ≤
      (deriveNamespaceFromPath root (leaf.file root)).length := by
  have cleaned : leaf.identity.regionClean.length ≤ leaf.region.length :=
    List.length_filter_le ..
  rw [namespaceDns_eq, deriveNamespaceFromPath_file]
  cases single : leaf.singleton <;>
    simp [Leaf.names, single, joinDash_cons_cons, flatten, replaceChr] <;> omega

theorem shortenBucketName_short {accountId space rawName : Str}
    (short : rawName.length ≤ maxBucketNameLength) :
    shortenBucketName md5 accountId space rawName = .ok rawName := by
  rw [shortenBucketName, if_pos short]
  rfl

theorem shortenBucketName_long {accountId space rawName name : Str}
    (long : maxBucketNameLength < rawName.length) :
    shortenBucketName md5 accountId space rawName = .ok name ↔
      ∃ bytes, encode space = .ok bytes ∧
        name = lower (accountId ++ [dash] ++ (flatten space).take namespacePrefixLength ++ [dash] ++
          (md5.hexdigest bytes).take hashSuffixLength ++ tfstateSuffix) := by
  rw [shortenBucketName, if_neg (by omega)]
  constructor
  · intro shortened
    rcases bind_eq_ok.mp shortened with ⟨bytes, encoded, last⟩
    cases last
    exact ⟨bytes, encoded, rfl⟩
  · rintro ⟨bytes, encoded, rfl⟩
    change (encode space >>= fun _ => _) = _
    rw [encoded]
    rfl

theorem lower_append_tfstateSuffix (text : Str) :
    lower (text ++ tfstateSuffix) = lower text ++ tfstateSuffix := by
  rw [lower_append]
  rfl

/-- A short name of `root.hcl` is the namespace with its suffix. -/
theorem finalBucketName_short {leaf : Leaf}
    (short : leaf.identity.namespaceDns.length + 8 ≤ maxBucketNameLength) :
    leaf.identity.finalBucketName md5 =
      some (lower leaf.identity.namespaceDns ++ tfstateSuffix) := by
  have raw : leaf.identity.bucketNameRaw.length = leaf.identity.namespaceDns.length + 8 := by
    rw [Identity.bucketNameRaw, List.length_append]
    rfl
  have same : replaceChr leaf.identity.bucketNameRaw underscore dash =
      leaf.identity.bucketNameRaw := by
    rw [Identity.bucketNameRaw, replaceChr_append]
    exact congrArg (· ++ tfstateSuffix) (flatten_flatten leaf.identity.namespace)
  rw [Identity.finalBucketName, Identity.bucketNameShortened, if_neg (by omega), Option.map_some,
    same, Identity.bucketNameRaw, lower_append_tfstateSuffix]

/-- A shortened name of `root.hcl` has 62 characters. -/
theorem finalBucketName_long {leaf : Leaf} {name : Str}
    (long : maxBucketNameLength < leaf.identity.namespaceDns.length + 8)
    (named : leaf.identity.finalBucketName md5 = some name) : name.length = 62 := by
  have raw : leaf.identity.bucketNameRaw.length = leaf.identity.namespaceDns.length + 8 := by
    rw [Identity.bucketNameRaw, List.length_append]
    rfl
  rw [Identity.finalBucketName, Identity.bucketNameShortened, if_pos (by omega)] at named
  cases encoded : encode leaf.identity.namespace with
  | error error => simp [encoded] at named
  | ok bytes =>
      simp only [encoded, Option.map_some, Option.some.injEq] at named
      have front : min 45 leaf.identity.namespaceDns.length = 45 := by
        unfold maxBucketNameLength at long
        omega
      rw [← named, length_lower, replaceChr, List.length_map]
      simp [md5.length_hexdigest, front, tfstateSuffix, str]

theorem finalBucketName_length {leaf : Leaf} {name : Str}
    (named : leaf.identity.finalBucketName md5 = some name) :
    name.length ≤ maxBucketNameLength := by
  by_cases short : leaf.identity.namespaceDns.length + 8 ≤ maxBucketNameLength
  · rw [finalBucketName_short md5 short] at named
    cases named
    rw [List.length_append, length_lower]
    exact short
  · rw [finalBucketName_long md5 (by omega) named]
    decide

/-- The names the guard and `root.hcl` give a unit are the same only by coincidence. -/
theorem guardBucketName_eq_iff (leaf : Leaf) :
    (∃ name, guardBucketName digits md5 tree root (leaf.file root) = .ok name ∧
      leaf.identity.finalBucketName md5 = some name) ↔ Coincides digits md5 tree root leaf := by
  have shorter := length_namespaceDns_le root leaf
  have flat : flatten (deriveNamespaceFromPath root (leaf.file root)) =
      deriveNamespaceFromPath root (leaf.file root) := flatten_flatten _
  have idLength := (guardAccountId_spec digits tree (leaf.file root)).1
  unfold Coincides guardBucketName
  dsimp only
  generalize deriveNamespaceFromPath root (leaf.file root) = space at *
  generalize guardAccountId digits tree (leaf.file root) = accountId at *
  have raw : (accountId ++ [dash] ++ space ++ tfstateSuffix).length = space.length + 21 := by
    simp only [List.length_append, idLength, List.length_singleton]
    change 12 + 1 + space.length + 8 = _
    omega
  have hashed : ∀ bytes, 42 < space.length → (accountId ++ [dash] ++
      space.take namespacePrefixLength ++ [dash] ++
        (md5.hexdigest bytes).take hashSuffixLength).length = 50 := by
    intro bytes long
    simp only [List.length_append, idLength, List.length_singleton, List.length_take,
      md5.length_hexdigest]
    change 12 + 1 + min 28 space.length + 1 + 8 = 50
    omega
  constructor
  · rintro ⟨name, guarded, named⟩
    by_cases short : space.length ≤ 42
    · rw [shortenBucketName_short md5 (by rw [raw]; unfold maxBucketNameLength; omega)] at guarded
      cases guarded
      rw [finalBucketName_short md5 (by unfold maxBucketNameLength; omega)] at named
      have lengths := congrArg List.length (Option.some.inj named)
      rw [raw, List.length_append, length_lower] at lengths
      change _ + 8 = _ at lengths
      omega
    · rw [shortenBucketName_long md5 (by rw [raw]; unfold maxBucketNameLength; omega)] at guarded
      rcases guarded with ⟨bytes, encoded, rfl⟩
      refine ⟨bytes, encoded, ?_⟩
      rw [flat, lower_append_tfstateSuffix] at named
      by_cases fits : leaf.identity.namespaceDns.length + 8 ≤ maxBucketNameLength
      · rw [finalBucketName_short md5 fits, Option.some.injEq] at named
        exact List.append_cancel_right named
      · have lengths := finalBucketName_long md5 (by omega) named
        rw [List.length_append, length_lower, hashed bytes (by omega)] at lengths
        change 50 + 8 = 62 at lengths
        omega
  · rintro ⟨bytes, encoded, same⟩
    have dnsLength := congrArg List.length same
    rw [length_lower, length_lower] at dnsLength
    by_cases short : space.length ≤ 42
    · simp only [List.length_append, idLength, List.length_singleton, List.length_take,
        md5.length_hexdigest] at dnsLength
      change _ = 12 + 1 + min 28 space.length + 1 + 8 at dnsLength
      omega
    · rw [hashed bytes (by omega)] at dnsLength
      refine ⟨_, (shortenBucketName_long md5 ?_).mpr ⟨bytes, encoded, rfl⟩, ?_⟩
      · rw [raw]
        unfold maxBucketNameLength
        omega
      · rw [finalBucketName_short md5 (by rw [dnsLength]; decide), same, flat,
          lower_append_tfstateSuffix]

end Comparison
section Letters

variable {digits md5 tree root} {leaf : Leaf}

/-- A region directory of AWS starts with a letter. -/
def Leaf.RegionStartsWithLetter (leaf : Leaf) : Prop :=
  ∃ c rest, leaf.region = c :: rest ∧ 0x61 ≤ c.code ∧ c.code ≤ 0x7a

/-- Both namespaces of a unit start with its product, a dash and the letter of its region. -/
theorem lower_namespaces_eq (root : Path) {c : Chr} {rest : Str}
    (region : leaf.region = c :: rest) (lowest : 0x61 ≤ c.code) (highest : c.code ≤ 0x7a)
    (solid : ∀ name ∈ leaf.names, name ≠ []) :
    ∃ tail other, lower leaf.identity.namespaceDns =
        lower (flatten leaf.product) ++ dash :: c :: tail ∧ 8 ≤ tail.length ∧
      lower (deriveNamespaceFromPath root (leaf.file root)) =
        lower (flatten leaf.product) ++ dash :: c :: other := by
  have notDash : c ≠ dash := fun isDash => by
    rw [isDash] at lowest
    exact absurd lowest (by decide)
  have notUnderscore : c ≠ underscore := fun isUnderscore => by
    rw [isUnderscore] at lowest
    exact absurd lowest (by decide)
  have same : lowerChr c = c := by
    rw [lowerChr, if_neg (by omega)]
  have clean : leaf.identity.regionClean = c :: rest.filter (· ≠ dash) := by
    change leaf.region.filter (· ≠ dash) = _
    rw [region, List.filter_cons_of_pos (by simpa using notDash)]
  have long (name : Str) (nameMem : name ∈ leaf.names) : 1 ≤ name.length :=
    List.length_pos_of_ne_nil (solid name nameMem)
  have environment := long leaf.environment (by simp [Leaf.names])
  have environmentInstance := long leaf.environmentInstance (by simp [Leaf.names])
  have service := long leaf.service (by simp [Leaf.names])
  have serviceInstance := long leaf.serviceInstance (by simp [Leaf.names])
  have head (more : Str) : flatten (c :: more) = c :: flatten more := by
    simp [flatten, replaceChr, notUnderscore]
  have lowered (front back : Str) :
      lower (front ++ dash :: c :: back) = lower front ++ dash :: c :: lower back := by
    rw [lower_append]
    change _ ++ lowerChr dash :: lowerChr c :: _ = _
    rw [same]
    rfl
  rw [namespaceDns_eq, deriveNamespaceFromPath_file]
  refine ⟨lower (flatten (rest.filter (· ≠ dash)) ++ dash :: joinDash ([leaf.environment,
    leaf.environmentInstance, leaf.service, leaf.serviceInstance].map flatten)),
    lower (flatten rest ++ dash :: joinDash ((leaf.names.drop 2).map flatten)), ?_, ?_, ?_⟩
  · rw [← lowered, clean]
    simp only [List.map_cons, joinDash_cons_cons, head, List.cons_append]
  · simp [joinDash_cons_cons, flatten, replaceChr]
    omega
  · rw [← lowered]
    cases single : leaf.singleton <;>
      simp [Leaf.names, single, joinDash_cons_cons, region, head]

theorem not_coincides (region : leaf.RegionStartsWithLetter)
    (solid : ∀ name ∈ leaf.names, name ≠ []) : ¬Coincides digits md5 tree root leaf := by
  rintro ⟨bytes, _, same⟩
  rcases region with ⟨c, rest, region, lowest, highest⟩
  rcases lower_namespaces_eq root region lowest highest solid with
    ⟨tail, other, dns, tailLength, space⟩
  have shorter := length_namespaceDns_le root leaf
  rcases guardAccountId_spec digits tree (leaf.file root) with ⟨idLength, idDigits⟩
  generalize deriveNamespaceFromPath root (leaf.file root) = text at *
  generalize guardAccountId digits tree (leaf.file root) = accountId at *
  have lowerId : lower accountId = accountId := by
    rw [lower, List.map_congr_left fun c cMem => digits.lowerChr_of_holds (idDigits c cMem)]
    exact List.map_id' accountId
  -- the account id and its dash, repeated, up to the letter of the region
  have repeats : lower (flatten leaf.product) ++ dash :: c :: tail =
      (accountId ++ [dash]) ++
        (lower (flatten leaf.product) ++ dash :: c :: other).take namespacePrefixLength ++
          dash :: lower ((md5.hexdigest bytes).take hashSuffixLength) := by
    rw [← dns, ← space, same, lower_append, lower_append, lower_append, lower_append, lowerId,
      List.append_assoc _ (lower [dash]), ← lower_take]
    rfl
  have lengths := congrArg List.length dns
  have spaceLength := congrArg List.length space
  have total := congrArg List.length repeats
  simp only [length_lower, List.length_append, List.length_cons, List.length_take, idLength,
    md5.length_hexdigest, List.length_nil, accountIdLength, namespacePrefixLength,
    hashSuffixLength] at lengths spaceLength total
  have found : (lower (flatten leaf.product) ++ dash :: c :: tail)[(flatten leaf.product).length +
      1]? = some c := by
    rw [List.getElem?_append_right (by rw [length_lower]; omega), length_lower,
      Nat.add_sub_cancel_left]
    rfl
  have partLength : (accountId ++ [dash]).length = 13 := by
    rw [List.length_append, idLength]
    rfl
  have ownLength := length_lower (flatten leaf.product)
  rcases lt_trichotomy ((flatten leaf.product).length + 1) 41 with before | at41 | after
  · have each : ∀ item ∈ accountId ++ [dash], digits.holds item = true ∨ item = dash := by
      simp only [List.mem_append, List.mem_singleton]
      rintro item (inId | isDash)
      · exact .inl (idDigits item inId)
      · exact .inr isDash
    have repeated : digits.holds c = true ∨ c = dash :=
      holds_of_selfPrefixed each (by omega) repeats (by omega)
        (by unfold namespacePrefixLength; omega) found
    rcases repeated with isDigit | isDash
    · rw [digits.not_holds_of_letter lowest highest] at isDigit
      cases isDigit
    · rw [isDash] at lowest
      exact absurd lowest (by decide)
  · -- the letter would be the dash before the digest
    have frontLength : (accountId ++ [dash] ++ (lower (flatten leaf.product) ++
        dash :: c :: other).take namespacePrefixLength).length = 41 := by
      rw [List.length_append, partLength, List.length_take, ← space, length_lower]
      unfold namespacePrefixLength
      omega
    rw [at41, repeats, List.getElem?_append_right (le_of_eq frontLength), frontLength] at found
    cases found
    exact absurd lowest (by decide)
  · omega

end Letters

section Soundness

/-- Every unit file of the tree is the file of a unit with its layers in place. -/
def AtRequiredDepth : Prop :=
  ∀ file ∈ unitFiles tree root, ∃ leaf : Leaf, leaf.AtDepth root tree ∧ leaf.file root = file

/-- A tree the guard finds no error in has distinct bucket names of at most 63 characters, and the
guard's name of each unit is the one `root.hcl` gives it. -/
structure GuardSound : Prop where
  distinct : runBucketNameGuard digits md5 tree root = .ok [] →
    ((unitFiles tree root).filterMap fun file => finalBucketName tree file.dropLast md5).Nodup ∧
      ∀ file ∈ unitFiles tree root, ∀ name ∈ finalBucketName tree file.dropLast md5,
        name.length ≤ maxBucketNameLength
  agrees : ∀ file ∈ unitFiles tree root, ∃ collected name,
    collectBucketNames digits md5 tree root = .ok collected ∧ (file, name) ∈ collected ∧
      finalBucketName tree file.dropLast md5 = some name

variable {digits md5 tree root}

theorem dropLast_file (leaf : Leaf) : (leaf.file root).dropLast = leaf.dir root :=
  List.dropLast_concat ..

theorem collected_spec {collected : List (Path × Str)}
    (collects : collectBucketNames digits md5 tree root = .ok collected) :
    List.Forall₂ (fun file entry => entry.1 = file ∧
      guardBucketName digits md5 tree root file = .ok entry.2)
      ((unitFiles tree root).filter fun file => str "_envcommon" ∉ file) collected := by
  refine (forall₂_of_mapM collects).imp ?_
  intro file entry made
  rcases bind_eq_ok.mp made with ⟨name, named, last⟩
  cases last
  exact ⟨rfl, named⟩

theorem runBucketNameGuard_eq_nil {collected : List (Path × Str)}
    (collects : collectBucketNames digits md5 tree root = .ok collected)
    (passed : runBucketNameGuard digits md5 tree root = .ok []) :
    assertBucketNamesUnique (collected.map Prod.snd) = .ok () := by
  rw [runBucketNameGuard, collects] at passed
  change (match assertBucketNamesUnique (collected.map Prod.snd) with
    | .ok () => _
    | .error _ => _) = _ at passed
  cases asserted : assertBucketNamesUnique (collected.map Prod.snd) with
  | ok nothing => rfl
  | error error =>
      rw [asserted] at passed
      cases passed

/-- When each unit's names coincide, the guard's list holds the names of `root.hcl`. -/
theorem filterMap_finalBucketName {collected : List (Path × Str)} {files : List Path}
    (each : List.Forall₂ (fun file entry => entry.1 = file ∧
      guardBucketName digits md5 tree root file = .ok entry.2) files collected)
    (agree : ∀ file ∈ files, ∃ name, guardBucketName digits md5 tree root file = .ok name ∧
      finalBucketName tree file.dropLast md5 = some name) :
    files.filterMap (fun file => finalBucketName tree file.dropLast md5) =
      collected.map Prod.snd := by
  induction each with
  | nil => rfl
  | cons first others ih =>
      rcases agree _ List.mem_cons_self with ⟨name, guarded, named⟩
      rw [first.2] at guarded
      cases guarded
      rw [List.filterMap_cons, named, List.map_cons, ih fun file fileMem =>
        agree file (List.mem_cons_of_mem _ fileMem)]

theorem guardSound_iff_coincides (placed : AtRequiredDepth tree root) :
    GuardSound digits md5 tree root ↔
      ∀ leaf : Leaf, leaf.AtDepth root tree → leaf.file root ∈ unitFiles tree root →
        str "_envcommon" ∉ leaf.file root ∧ Coincides digits md5 tree root leaf := by
  constructor
  · intro sound leaf atDepth fileMem
    rcases sound.agrees _ fileMem with ⟨collected, name, collects, entryMem, named⟩
    rcases exists_of_mem_forall₂ (collected_spec collects) entryMem with
      ⟨file, inTree, rfl, guarded⟩
    rw [dropLast_file, atDepth.finalBucketName_eq] at named
    have notShared := (List.mem_filter.mp inTree).2
    exact ⟨of_decide_eq_true notShared,
      (guardBucketName_eq_iff digits md5 tree root leaf).mp ⟨name, guarded, named⟩⟩
  · intro coincide
    have agree : ∀ file ∈ unitFiles tree root, ∃ name,
        guardBucketName digits md5 tree root file = .ok name ∧
          finalBucketName tree file.dropLast md5 = some name := by
      intro file fileMem
      rcases placed file fileMem with ⟨leaf, atDepth, rfl⟩
      rcases (guardBucketName_eq_iff digits md5 tree root leaf).mpr
        (coincide leaf atDepth fileMem).2 with ⟨name, guarded, named⟩
      refine ⟨name, guarded, ?_⟩
      rw [dropLast_file, atDepth.finalBucketName_eq, named]
    have whole : ((unitFiles tree root).filter fun file => str "_envcommon" ∉ file) =
        unitFiles tree root := by
      rw [List.filter_eq_self]
      intro file fileMem
      rcases placed file fileMem with ⟨leaf, atDepth, rfl⟩
      exact decide_eq_true (coincide leaf atDepth fileMem).1
    have collects : ∃ collected, collectBucketNames digits md5 tree root = .ok collected := by
      refine exists_mapM_eq_ok.mpr ?_
      intro file fileMem
      rw [whole] at fileMem
      rcases agree file fileMem with ⟨name, guarded, _⟩
      exact ⟨(file, name), bind_eq_ok.mpr ⟨name, guarded, rfl⟩⟩
    rcases collects with ⟨collected, collects⟩
    have each := collected_spec collects
    rw [whole] at each
    refine ⟨?_, ?_⟩
    · intro passed
      have unique := assertBucketNamesUnique_eq_ok.mp (runBucketNameGuard_eq_nil collects passed)
      refine ⟨?_, ?_⟩
      · rw [filterMap_finalBucketName each agree]
        exact unique.1
      · intro file fileMem name named
        rcases placed file fileMem with ⟨leaf, atDepth, rfl⟩
        rw [dropLast_file, atDepth.finalBucketName_eq] at named
        exact finalBucketName_length md5 named
    · intro file fileMem
      rcases agree file fileMem with ⟨name, guarded, named⟩
      rcases exists_of_mem_forall₂ each.flip fileMem with ⟨entry, entryMem, rfl, guarded'⟩
      rw [guarded] at guarded'
      cases guarded'
      exact ⟨collected, _, collects, entryMem, named⟩

/-- Of a live tree with units, the guard is never right when the regions have the names of AWS:
what `root.hcl` computes is another name for every unit. -/
theorem guardSound_iff_of_regions (placed : AtRequiredDepth tree root)
    (regions : ∀ leaf : Leaf, leaf.file root ∈ unitFiles tree root → leaf.RegionStartsWithLetter) :
    GuardSound digits md5 tree root ↔ unitFiles tree root = [] := by
  rw [guardSound_iff_coincides placed]
  constructor
  · intro coincide
    rw [List.eq_nil_iff_forall_not_mem]
    intro file fileMem
    rcases placed file fileMem with ⟨leaf, atDepth, rfl⟩
    exact not_coincides (regions leaf fileMem) atDepth.solid (coincide leaf atDepth fileMem).2
  · intro none leaf _ fileMem
    rw [none] at fileMem
    cases fileMem

/-- The guard says nothing about the names `root.hcl` gives the units of a tree, and right names
come about only by coincidence: never for a unit of a region with a name of AWS. -/
theorem bucketNameGuard_sound_iff (placed : AtRequiredDepth tree root) :
    (GuardSound digits md5 tree root ↔
      ∀ leaf : Leaf, leaf.AtDepth root tree → leaf.file root ∈ unitFiles tree root →
        str "_envcommon" ∉ leaf.file root ∧ Coincides digits md5 tree root leaf) ∧
      ((∀ leaf : Leaf, leaf.file root ∈ unitFiles tree root → leaf.RegionStartsWithLetter) →
        (GuardSound digits md5 tree root ↔ unitFiles tree root = [])) :=
  ⟨guardSound_iff_coincides placed, guardSound_iff_of_regions placed⟩

end Soundness

section Sample

/-- Two services of an environment whose names differ in the case of a letter. -/
def Sample.upper : Leaf :=
  ⟨str "telemetry", str "us-east-1", str "qa", false, str "000", str "Athena", str "000"⟩

def Sample.lower : Leaf := { Sample.upper with service := str "athena" }

def Sample.top : Path := [str "terragrunt"]

/-- The layer files of two units that share the layers above their services. -/
def Sample.liveTree : FileTree where
  files :=
    (Sample.upper.productDir Sample.top ++ [str "product.hcl"], []) ::
      (Sample.upper.regionDir Sample.top ++ [str "region.hcl"], []) ::
      (Sample.upper.environmentDir Sample.top ++ [str "environment.hcl"], []) ::
      (Sample.upper.environmentDir Sample.top ++ [str "account.hcl"],
        str "locals \x7b aws_account_id = local._envs[local._env].account_id \x7d") ::
      (Sample.upper.environmentInstanceDir Sample.top ++ [str "environment_instance.hcl"], []) ::
      [Sample.upper, Sample.lower].flatMap fun leaf =>
        [(leaf.serviceDir Sample.top ++ [str "service.hcl"], []),
          (leaf.dir Sample.top ++ [str "service_instance.hcl"], []),
          (leaf.file Sample.top, [])]
  nodup := by decide +kernel

/-- A digest, which the names of the sample are too short for. -/
def Sample.digest : Md5 := ⟨fun _ => List.replicate 32 (.char '0'), fun _ => List.length_replicate⟩

theorem Sample.unitFiles_eq : unitFiles Sample.liveTree Sample.top =
    [Sample.upper.file Sample.top, Sample.lower.file Sample.top] := by decide +kernel

theorem Sample.upper_atDepth : Sample.upper.AtDepth Sample.top Sample.liveTree where
  solid := by decide +kernel
  product := by decide +kernel
  region := by decide +kernel
  environment := by decide +kernel
  environmentInstance := by decide +kernel
  service := by decide +kernel
  serviceInstance := by decide +kernel

theorem Sample.lower_atDepth : Sample.lower.AtDepth Sample.top Sample.liveTree where
  solid := by decide +kernel
  product := by decide +kernel
  region := by decide +kernel
  environment := by decide +kernel
  environmentInstance := by decide +kernel
  service := by decide +kernel
  serviceInstance := by decide +kernel

theorem Sample.placed : AtRequiredDepth Sample.liveTree Sample.top := by
  intro file fileMem
  rw [Sample.unitFiles_eq, List.mem_pair] at fileMem
  rcases fileMem with rfl | rfl
  · exact ⟨Sample.upper, Sample.upper_atDepth, rfl⟩
  · exact ⟨Sample.lower, Sample.lower_atDepth, rfl⟩

theorem Sample.regions : ∀ leaf : Leaf, leaf.file Sample.top ∈
    unitFiles Sample.liveTree Sample.top → leaf.RegionStartsWithLetter := by
  intro leaf fileMem
  rw [Sample.unitFiles_eq, List.mem_pair] at fileMem
  have region : (leaf.file Sample.top)[3]? = some (str "us-east-1") := by
    rcases fileMem with same | same
    · rw [same]
      rfl
    · rw [same]
      rfl
  have own : (leaf.file Sample.top)[3]? = some leaf.region := by
    simp [Leaf.file, Leaf.dir_eq, Leaf.names, Sample.top]
  rw [own, Option.some.injEq] at region
  exact ⟨.char 'u', str "s-east-1", region, by decide, by decide⟩

theorem bucketNameGuard_sound_iff_sample :
    ¬GuardSound DigitClass.latin Sample.digest Sample.liveTree Sample.top := by
  intro sound
  have none := ((bucketNameGuard_sound_iff Sample.placed).2 Sample.regions).mp sound
  rw [Sample.unitFiles_eq] at none
  cases none

/-- The guard passes the two services, whose state is kept in one bucket. -/
theorem bucketNameGuard_passes_collision :
    runBucketNameGuard DigitClass.latin Sample.digest Sample.liveTree Sample.top = .ok [] ∧
      (unitFiles Sample.liveTree Sample.top).map
          (fun file => finalBucketName Sample.liveTree file.dropLast Sample.digest) =
        [some (str "telemetry-useast1-qa-000-athena-000-tfstate"),
          some (str "telemetry-useast1-qa-000-athena-000-tfstate")] ∧
      ¬GuardSound DigitClass.latin Sample.digest Sample.liveTree Sample.top := by
  have passes : runBucketNameGuard DigitClass.latin Sample.digest Sample.liveTree Sample.top =
      .ok [] := by
    have result : (runBucketNameGuard DigitClass.latin Sample.digest Sample.liveTree
        Sample.top).toOption = some [] := by decide +kernel
    cases ran : runBucketNameGuard DigitClass.latin Sample.digest Sample.liveTree Sample.top with
    | ok errors =>
        rw [ran] at result
        exact congrArg _ (Option.some.inj result)
    | error error =>
        rw [ran] at result
        cases result
  refine ⟨passes, by decide +kernel, ?_⟩
  intro sound
  have distinct := (sound.distinct passes).1
  revert distinct
  decide +kernel

end Sample

end Terragrunt
