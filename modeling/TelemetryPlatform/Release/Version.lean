import Mathlib.Data.Prod.Lex
import Mathlib.Order.Lattice
import TelemetryPlatform.Library.Glob
import TelemetryPlatform.Library.Numeral

/-!
# The version of a release

`calculate_next_version` of `scripts/calculate_version.py` reads the versions of
the tags that a glob built from the tag prefix matches, takes the largest and raises
it. The checks on the pull request's title are left out.

The glob and `int` accept more than the tags the script writes, so that the next
version can depend on tags that are no versions.
-/

namespace Release

open Python

section Source

inductive BumpType where
  | major
  | minor
  | patch
  deriving DecidableEq

/-- The triple `(major, minor, patch)`. -/
@[ext]
structure Version where
  major : Int
  minor : Int
  patch : Int
  deriving DecidableEq

/-- The order of the triples. -/
def Version.triple (version : Version) : Int ×ₗ Int ×ₗ Int :=
  toLex (version.major, toLex (version.minor, version.patch))

theorem Version.triple_injective : Function.Injective Version.triple := by
  intro first second same
  simp only [Version.triple, EmbeddingLike.apply_eq_iff_eq, Prod.mk.injEq] at same
  exact Version.ext same.1 same.2.1 same.2.2

instance : LinearOrder Version := LinearOrder.lift' Version.triple Version.triple_injective

structure VersionResult where
  nextVersion : Str
  fullTag : Str
  tagPrefix : Str
  bump : BumpType
  isInitial : Bool
  deriving DecidableEq

/-- The `ValueError`s of the module, and those of `str`. -/
inductive VersionError where
  | emptyModulePath
  | emptyConfigTagPrefix
  | unsupportedScope (scope : Str)
  | unparsedLatest (latest tagPrefix : Str)
  | collision (fullTag nextVersion tagPrefix : Str)
  | builtin (exc : Exc)

/-- The text of an error, with `repr` for the strings it quotes. -/
def VersionError.message (rt : Runtime) : VersionError → Str
  | .emptyModulePath =>
      str "ERROR: module_path must be non-empty when scope='module'.\n" ++
        str "Ensure the scope-detection step emits a non-empty module_path."
  | .emptyConfigTagPrefix =>
      str "ERROR: config_tag_prefix must be non-empty when scope='config'.\n" ++
        str "Ensure monorepo-config.json contains a 'config_tag_prefix' key."
  | .unsupportedScope scope =>
      str "ERROR: Unsupported scope " ++ rt.reprStr scope ++
        str " for tag prefix derivation.\nSupported scopes: 'module', 'config'. " ++
        str "scope='terragrunt' produces no module tag."
  | .unparsedLatest latest tagPrefix =>
      str "ERROR: Could not parse latest semver " ++ rt.reprStr latest ++ str " for prefix " ++
        rt.reprStr tagPrefix ++ str ".\nEnsure existing tags follow the <x.y.z> semver format."
  | .collision fullTag nextVersion tagPrefix =>
      str "ERROR: Computed tag " ++ rt.reprStr fullTag ++
        str " already exists in the repository.\nVersion " ++ nextVersion ++
        str " has already been released for prefix " ++ rt.reprStr tagPrefix ++
        str ".\nEnsure the bump type derives a genuinely new version."
  | .builtin (.valueError text) => text
  | .builtin _ => []

def buildTagPrefix (scope modulePath configTagPrefix : Str) : Except VersionError Str :=
  if scope = str "module" then
    if modulePath = [] then .error .emptyModulePath else .ok (modulePath ++ str "/v")
  else if scope = str "config" then
    if configTagPrefix = [] then .error .emptyConfigTagPrefix
    else .ok (configTagPrefix ++ str "/v")
  else .error (.unsupportedScope scope)

variable (digits : DecimalTable)

/-- `_parse_semver`. -/
def parseSemver (semverStr : Str) : Option Version :=
  match semverStr.splitOn (.char '.') with
  | [major, minor, patch] => do
      let major ← intOf digits major
      let minor ← intOf digits minor
      let patch ← intOf digits patch
      return ⟨major, minor, patch⟩
  | _ => none

/-- The f-string of a version. -/
def formatVersion (version : Version) : Except Exc Str := do
  let major ← strInt version.major
  let minor ← strInt version.minor
  let patch ← strInt version.patch
  return major ++ str "." ++ minor ++ str "." ++ patch

def findLatestVersion (tags : List Str) (tagPrefix : Str) : Except Exc (Option Str) :=
  let globPattern := tagPrefix ++ str "[0-9]*"
  let matching := tags.filter fun tag => fnmatch tag globPattern
  if matching = [] then .ok none
  else
    let versions := matching.filterMap fun tag => parseSemver digits (tag.drop tagPrefix.length)
    match versions.max? with
    | none => .ok none
    | some latest => (formatVersion latest).map some

/-- `_apply_bump`. -/
def applyBump (version : Version) : BumpType → Version
  | .major => ⟨version.major + 1, 0, 0⟩
  | .minor => ⟨version.major, version.minor + 1, 0⟩
  | .patch => ⟨version.major, version.minor, version.patch + 1⟩

def calculateNextVersion (existingTags : List Str) (tagPrefix : Str) (bump : BumpType) :
    Except VersionError VersionResult := do
  let latest ← (findLatestVersion digits existingTags tagPrefix).mapError .builtin
  let current ← match latest with
    | none => .ok ⟨0, 0, 0⟩
    | some text =>
        match parseSemver digits text with
        | none => .error (.unparsedLatest text tagPrefix)
        | some parsed => .ok parsed
  let nextVersion ← (formatVersion (applyBump current bump)).mapError .builtin
  let fullTag := tagPrefix ++ nextVersion
  if fullTag ∈ existingTags then .error (.collision fullTag nextVersion tagPrefix)
  else .ok ⟨nextVersion, fullTag, tagPrefix, bump, latest.isNone⟩

end Source

section Versions

/-- A version of non-negative integers. -/
def Version.Natural (version : Version) : Prop :=
  0 ≤ version.major ∧ 0 ≤ version.minor ∧ 0 ≤ version.patch

/-- `x.y.z` with the numerals of its integers. -/
def Version.text (version : Version) : Str :=
  numeral version.major ++ str "." ++ numeral version.minor ++ str "." ++ numeral version.patch

/-- The tag is the prefix and a version of non-negative integers. -/
def OfForm (tagPrefix tag : Str) : Prop :=
  ∃ version : Version, version.Natural ∧ tag = tagPrefix ++ version.text

variable (digits : DecimalTable) in
/-- The version that the script reads from a tag, when the glob matches it. -/
def readVersion (tagPrefix tag : Str) : Option Version :=
  if fnmatch tag (tagPrefix ++ str "[0-9]*") then
    parseSemver digits (tag.drop tagPrefix.length)
  else none

/-- The components of a version that a bump keeps or raises. -/
def Version.kept (version : Version) : BumpType → Version
  | .major => ⟨version.major, 0, 0⟩
  | .minor => ⟨version.major, version.minor, 0⟩
  | .patch => version

/-- The component that a bump raises. -/
def Version.raised (version : Version) : BumpType → Int
  | .major => version.major
  | .minor => version.minor
  | .patch => version.patch

end Versions

section Order

variable {v w : Version} {bump : BumpType}

theorem Version.lt_iff : v < w ↔ v.major < w.major ∨
    v.major = w.major ∧ (v.minor < w.minor ∨ v.minor = w.minor ∧ v.patch < w.patch) := by
  change v.triple < w.triple ↔ _
  simp only [Version.triple, Prod.Lex.toLex_lt_toLex]

theorem Version.le_iff : v ≤ w ↔ v.major < w.major ∨
    v.major = w.major ∧ (v.minor < w.minor ∨ v.minor = w.minor ∧ v.patch ≤ w.patch) := by
  change v.triple ≤ w.triple ↔ _
  simp only [Version.triple, Prod.Lex.toLex_le_toLex]

theorem Version.kept_le_kept (le : v ≤ w) : v.kept bump ≤ w.kept bump := by
  cases bump with
  | major =>
      simp only [Version.kept, Version.le_iff, true_and] at le ⊢
      omega
  | minor =>
      simp only [Version.kept, Version.le_iff] at le ⊢
      omega
  | patch => exact le

/-- The bumped version is the next one after those that agree in the kept components. -/
theorem Version.lt_applyBump_iff (natural : v.Natural) :
    v < applyBump w bump ↔ v.kept bump ≤ w.kept bump := by
  rcases natural with ⟨major, minor, patch⟩
  cases bump with
  | major =>
      simp only [applyBump, Version.kept, Version.lt_iff, Version.le_iff, true_and]
      omega
  | minor =>
      simp only [applyBump, Version.kept, Version.lt_iff, Version.le_iff]
      omega
  | patch =>
      simp only [applyBump, Version.kept, Version.lt_iff, Version.le_iff]
      omega

theorem Version.applyBump_eq_iff : applyBump v bump = applyBump w bump ↔
    v.kept bump = w.kept bump := by
  cases bump with
  | major => simp [applyBump, Version.kept]
  | minor => simp [applyBump, Version.kept]
  | patch => simp [applyBump, Version.kept, Version.ext_iff]

theorem Version.natural_applyBump (natural : v.Natural) : (applyBump v bump).Natural := by
  rcases natural with ⟨major, minor, patch⟩
  cases bump with
  | major => exact ⟨by simp only [applyBump]; omega, Int.le_refl 0, Int.le_refl 0⟩
  | minor => exact ⟨major, by simp only [applyBump]; omega, Int.le_refl 0⟩
  | patch => exact ⟨major, minor, by simp only [applyBump]; omega⟩

end Order

section Reading

variable {digits : DecimalTable} {tags : List Str} {tagPrefix tag : Str} {version : Version}

/-- Whether `int` reads and `str` writes the components. -/
def Version.IsShort (version : Version) : Prop :=
  Short version.major ∧ Short version.minor ∧ Short version.patch

theorem not_mem_numeral (value : Int) : Chr.char '.' ∉ numeral value := by
  intro dot
  rcases mem_numeral dot with isMinus | ⟨digit, isDigit, isDot⟩
  · exact absurd isMinus (by decide)
  · cases isDot
    exact absurd isDigit (by decide)

theorem splitOn_text (version : Version) : version.text.splitOn (.char '.') =
    [numeral version.major, numeral version.minor, numeral version.patch] := by
  have split : version.text = numeral version.major ++ .char '.' ::
      (numeral version.minor ++ .char '.' :: numeral version.patch) := by
    simp [Version.text, str]
  rw [split, List.splitOn_append_cons_self_of_not_mem (not_mem_numeral _),
    List.splitOn_append_cons_self_of_not_mem (not_mem_numeral _),
    List.splitOn_eq_singleton (not_mem_numeral _)]

variable (digits) in
theorem parseSemver_text (short : version.IsShort) :
    parseSemver digits version.text = some version := by
  simp [parseSemver, splitOn_text, intOf_numeral, short.1, short.2.1, short.2.2]

/-- A version of the form is read as itself or not at all. -/
theorem parseSemver_text_eq_some {read : Version}
    (parsed : parseSemver digits version.text = some read) : read = version := by
  simp only [parseSemver, splitOn_text, intOf_numeral, Option.bind_eq_bind, Option.bind_eq_some_iff,
    Option.pure_def, Option.some.injEq, Option.ite_none_right_eq_some] at parsed
  rcases parsed with ⟨major, ⟨-, rfl⟩, minor, ⟨-, rfl⟩, patch, ⟨-, rfl⟩, rfl⟩
  rfl

theorem short_of_parseSemver {text : Str} (parsed : parseSemver digits text = some version) :
    version.IsShort := by
  simp only [parseSemver] at parsed
  split at parsed
  · simp only [Option.bind_eq_bind, Option.bind_eq_some_iff, Option.pure_def,
      Option.some.injEq] at parsed
    rcases parsed with ⟨major, isMajor, minor, isMinor, patch, isPatch, rfl⟩
    exact ⟨short_of_intOf isMajor, short_of_intOf isMinor, short_of_intOf isPatch⟩
  · cases parsed

theorem formatVersion_eq_ok {text : Str} :
    formatVersion version = .ok text ↔ version.IsShort ∧ text = version.text := by
  simp only [formatVersion, strInt, bind_eq_ok, Version.IsShort, Version.text]
  by_cases major : Short version.major
  · by_cases minor : Short version.minor
    · by_cases patch : Short version.patch
      · simp [major, minor, patch, eq_comm, pure, Except.pure]
      · simp [major, minor, patch]
    · simp [major, minor]
  · simp [major]

theorem Version.text_injective : Function.Injective Version.text := by
  intro v w same
  have parts := splitOn_text v
  rw [same, splitOn_text] at parts
  simp only [List.cons.injEq, and_true] at parts
  exact Version.ext (numeral_injective parts.1.symm) (numeral_injective parts.2.1.symm)
    (numeral_injective parts.2.2.symm)

theorem short_of_readVersion (read : readVersion digits tagPrefix tag = some version) :
    version.IsShort := by
  simp only [readVersion] at read
  split at read
  · exact short_of_parseSemver read
  · cases read

/-- The largest version that is read from a tag. -/
def latest? (digits : DecimalTable) (tags : List Str) (tagPrefix : Str) : Option Version :=
  (tags.filterMap (readVersion digits tagPrefix)).max?

theorem findLatestVersion_eq : findLatestVersion digits tags tagPrefix =
    .ok ((latest? digits tags tagPrefix).map Version.text) := by
  have reads : tags.filterMap (readVersion digits tagPrefix) =
      (tags.filter fun tag => fnmatch tag (tagPrefix ++ str "[0-9]*")).filterMap
        fun tag => parseSemver digits (tag.drop tagPrefix.length) := by
    rw [List.filterMap_filter]
    rfl
  simp only [findLatestVersion, latest?, reads]
  split
  · next none => rw [none]; rfl
  · split
    · next none => rw [none]; rfl
    · next latest isLatest =>
        rw [← reads] at isLatest
        rcases List.mem_filterMap.mp (List.max?_mem isLatest) with ⟨tag, -, read⟩
        have written := formatVersion_eq_ok.mpr ⟨short_of_readVersion read, rfl⟩
        rw [← reads, isLatest, written]
        rfl

/-- The version of the prefix after the ones that are read. -/
def nextVersion (digits : DecimalTable) (tags : List Str) (tagPrefix : Str) (bump : BumpType) :
    Version :=
  applyBump ((latest? digits tags tagPrefix).getD ⟨0, 0, 0⟩) bump

/-- The end of `calculate_next_version`. -/
def tagNext (existingTags : List Str) (tagPrefix : Str) (bump : BumpType) (next : Version)
    (isInitial : Bool) : Except VersionError VersionResult := do
  let nextVersion ← (formatVersion next).mapError .builtin
  let fullTag := tagPrefix ++ nextVersion
  if fullTag ∈ existingTags then .error (.collision fullTag nextVersion tagPrefix)
  else .ok ⟨nextVersion, fullTag, tagPrefix, bump, isInitial⟩

variable (digits tags tagPrefix) in
/-- The largest version is written and read back as it is. -/
theorem calculateNextVersion_eq (bump : BumpType) :
    calculateNextVersion digits tags tagPrefix bump =
      tagNext tags tagPrefix bump (nextVersion digits tags tagPrefix bump)
        (latest? digits tags tagPrefix).isNone := by
  rw [calculateNextVersion, findLatestVersion_eq, nextVersion]
  cases isLatest : latest? digits tags tagPrefix with
  | none => rfl
  | some latest =>
      rcases List.mem_filterMap.mp (List.max?_mem isLatest) with ⟨tag, -, read⟩
      have parsed := parseSemver_text digits (short_of_readVersion read)
      simp only [Option.map_some, Except.mapError, ok_bind, parsed]
      rfl

theorem formatVersion_eq_error (long : ¬version.IsShort) :
    ∃ exc, formatVersion version = .error exc := by
  cases written : formatVersion version with
  | error exc => exact ⟨exc, rfl⟩
  | ok text => exact absurd (formatVersion_eq_ok.mp written).1 long

theorem tagNext_eq_ok {bump : BumpType} {isInitial : Bool} {result : VersionResult} :
    tagNext tags tagPrefix bump version isInitial = .ok result ↔
      version.IsShort ∧ tagPrefix ++ version.text ∉ tags ∧
        result = ⟨version.text, tagPrefix ++ version.text, tagPrefix, bump, isInitial⟩ := by
  by_cases short : version.IsShort
  · have written := formatVersion_eq_ok.mpr ⟨short, rfl⟩
    simp only [tagNext, written, Except.mapError, ok_bind, short, true_and]
    split
    · next taken => simp [taken]
    · next free => simp [free, eq_comm]
  · rcases formatVersion_eq_error short with ⟨exc, failed⟩
    simp [tagNext, failed, Except.mapError, error_bind, short]

/-- Only the tag of the next version matters for the end. -/
theorem tagNext_congr {others : List Str} {bump : BumpType} {isInitial : Bool}
    (same : tagPrefix ++ version.text ∈ others ↔ tagPrefix ++ version.text ∈ tags) :
    tagNext others tagPrefix bump version isInitial =
      tagNext tags tagPrefix bump version isInitial := by
  by_cases short : version.IsShort
  · have written := formatVersion_eq_ok.mpr ⟨short, rfl⟩
    simp only [tagNext, written, Except.mapError, ok_bind, same]
  · rcases formatVersion_eq_error short with ⟨exc, failed⟩
    simp only [tagNext, failed, Except.mapError, error_bind]

theorem latest?_eq_none : latest? digits tags tagPrefix = none ↔
    ∀ tag ∈ tags, readVersion digits tagPrefix tag = none := by
  rw [latest?, List.max?_eq_none_iff, List.filterMap_eq_nil_iff]

theorem latest?_eq_some : latest? digits tags tagPrefix = some version ↔
    (∃ tag ∈ tags, readVersion digits tagPrefix tag = some version) ∧
      ∀ tag ∈ tags, ∀ other, readVersion digits tagPrefix tag = some other → other ≤ version := by
  rw [latest?, List.max?_eq_some_iff, List.mem_filterMap]
  apply and_congr_right
  rintro -
  constructor
  · intro largest tag tagMem other read
    exact largest other (List.mem_filterMap.mpr ⟨tag, tagMem, read⟩)
  · intro largest other otherMem
    rcases List.mem_filterMap.mp otherMem with ⟨tag, tagMem, read⟩
    exact largest tag tagMem other read

/-- A tag of the form is read as its version or not at all. -/
theorem readVersion_text {read : Version}
    (isRead : readVersion digits tagPrefix (tagPrefix ++ version.text) = some read) :
    read = version := by
  rw [readVersion, List.drop_left] at isRead
  split at isRead
  · exact parseSemver_text_eq_some isRead
  · cases isRead

/-- Tags of a plain prefix are read when their numerals are not too long. -/
theorem readVersion_of_plain (plain : ∀ c ∈ tagPrefix, IsPlain c) (natural : version.Natural)
    (short : version.IsShort) :
    readVersion digits tagPrefix (tagPrefix ++ version.text) = some version := by
  have matched : fnmatch (tagPrefix ++ version.text) (tagPrefix ++ str "[0-9]*") = true := by
    rw [fnmatch_digit plain]
    have whole := isWholePart_toDigits version.major.natAbs
    rcases whole.exists_cons with ⟨c, rest, digitsEq, isDigit⟩
    have major : numeral version.major = .char c :: rest.map .char := by
      rcases numeral_cases version.major with ⟨-, written⟩ | ⟨negative, -⟩
      · rw [written, digitsEq, List.map_cons]
      · have zero : version.major = 0 := by
          have nonnegative := natural.1
          omega
        rw [zero] at digitsEq ⊢
        cases digitsEq
        rfl
    refine ⟨.char c, rest.map .char ++ str "." ++ numeral version.minor ++ str "." ++
      numeral version.patch, ?_, isDigit.1, isDigit.2⟩
    rw [Version.text, major]
    simp
  rw [readVersion, if_pos matched, List.drop_left, parseSemver_text digits short]

end Reading

end Release
