import TelemetryPlatform.Release.Version

/-!
# What a release relies on

The next version is larger than every version released before and does not depend
on tags that are no versions, `Derives`. `derives_iff` says for which tags this is
so, and `Releases.increasing` what it means for the releases of a module.
-/

namespace Release

open Python

section Specification

variable (digits : DecimalTable)

/-- What a release relies on when it asks for the next version. -/
structure Derives (existingTags : List Str) (tagPrefix : Str) (bump : BumpType) : Prop where
  result : ∃ result next, calculateNextVersion digits existingTags tagPrefix bump = .ok result ∧
    next.Natural ∧ result.nextVersion = next.text ∧ result.fullTag = tagPrefix ++ next.text ∧
      result.fullTag ∉ existingTags ∧
        ∀ version : Version, version.Natural → tagPrefix ++ version.text ∈ existingTags →
          version < next
  independent : ∀ tags, (∀ tag ∈ tags, tag ∈ existingTags) →
    (∀ tag ∈ existingTags, OfForm tagPrefix tag → tag ∈ tags) →
      calculateNextVersion digits tags tagPrefix bump =
        calculateNextVersion digits existingTags tagPrefix bump

/-- A version of the prefix whose tag the script reads as that version. -/
structure Visible (existingTags : List Str) (tagPrefix : Str) (version : Version) : Prop where
  natural : version.Natural
  tagged : tagPrefix ++ version.text ∈ existingTags
  read : readVersion digits tagPrefix (tagPrefix ++ version.text) = some version

/-- No tag but those of versions is read as a larger version, and no larger version is missed. -/
structure Regular (existingTags : List Str) (tagPrefix : Str) (bump : BumpType) : Prop where
  strays : ∀ tag ∈ existingTags, ¬OfForm tagPrefix tag →
    ∀ version, readVersion digits tagPrefix tag = some version →
      ∃ larger, Visible digits existingTags tagPrefix larger ∧
        version.kept bump ≤ larger.kept bump
  missed : ∀ version : Version, version.Natural → tagPrefix ++ version.text ∈ existingTags →
    version.kept bump = ⟨0, 0, 0⟩ ∨
      ∃ larger, Visible digits existingTags tagPrefix larger ∧
        version.kept bump ≤ larger.kept bump
  room : ∀ version, Visible digits existingTags tagPrefix version →
    ¬Short (version.raised bump + 1) →
      ∃ larger, Visible digits existingTags tagPrefix larger ∧
        version.kept bump < larger.kept bump

/-- The releases of a prefix, the last one first, after which the repository has these tags. Other
tags may be pushed at any time. -/
inductive Releases (tagPrefix : Str) : List Str → List VersionResult → Prop where
  | start (tags : List Str) : Releases tagPrefix tags []
  | pushed {tags more : List Str} {results : List VersionResult}
      (earlier : Releases tagPrefix tags results) (kept : ∀ tag ∈ tags, tag ∈ more) :
      Releases tagPrefix more results
  | released {tags : List Str} {results : List VersionResult} {bump : BumpType}
      {result : VersionResult} (earlier : Releases tagPrefix tags results)
      (regular : Regular digits tags tagPrefix bump)
      (returned : calculateNextVersion digits tags tagPrefix bump = .ok result) :
      Releases tagPrefix (result.fullTag :: tags) (result :: results)

end Specification


section Bumps

variable {v w : Version} {bump : BumpType}

theorem Version.zero_le_kept (natural : v.Natural) : ⟨0, 0, 0⟩ ≤ v.kept bump := by
  rcases natural with ⟨major, minor, patch⟩
  cases bump with
  | major =>
      simp only [Version.kept, Version.le_iff, true_and]
      omega
  | minor =>
      simp only [Version.kept, Version.le_iff]
      omega
  | patch =>
      simp only [Version.kept, Version.le_iff]
      omega

theorem Version.kept_zero : (⟨0, 0, 0⟩ : Version).kept bump = ⟨0, 0, 0⟩ := by
  cases bump <;> rfl

theorem Version.short_applyBump (short : v.IsShort) (room : Short (v.raised bump + 1)) :
    (applyBump v bump).IsShort := by
  rcases short with ⟨major, minor, patch⟩
  have zero : Short 0 := by decide
  cases bump with
  | major => exact ⟨room, zero, zero⟩
  | minor => exact ⟨major, room, zero⟩
  | patch => exact ⟨major, minor, room⟩

theorem Version.short_raised (short : (applyBump v bump).IsShort) : Short (v.raised bump + 1) := by
  rcases short with ⟨major, minor, patch⟩
  cases bump with
  | major => exact major
  | minor => exact minor
  | patch => exact patch

end Bumps

section Regularity

variable {digits : DecimalTable} {tags others : List Str} {tagPrefix : Str} {bump : BumpType}
  {version latest : Version}

theorem Visible.le_latest (visible : Visible digits tags tagPrefix version)
    (isLatest : latest? digits tags tagPrefix = some latest) :
    version.kept bump ≤ latest.kept bump :=
  Version.kept_le_kept ((latest?_eq_some.mp isLatest).2 _ visible.tagged _ visible.read)

/-- The largest version that is read agrees with one of the form in what the bump keeps. -/
theorem Regular.exists_visible (regular : Regular digits tags tagPrefix bump)
    (isLatest : latest? digits tags tagPrefix = some latest) :
    ∃ largest, Visible digits tags tagPrefix largest ∧
      latest.kept bump = largest.kept bump := by
  rcases (latest?_eq_some.mp isLatest).1 with ⟨tag, tagMem, read⟩
  by_cases form : OfForm tagPrefix tag
  · rcases form with ⟨version, natural, rfl⟩
    have same := readVersion_text read
    subst same
    exact ⟨latest, ⟨natural, tagMem, read⟩, rfl⟩
  · rcases regular.strays tag tagMem form latest read with ⟨larger, visible, le⟩
    exact ⟨larger, visible, le_antisymm le (visible.le_latest isLatest)⟩

theorem Regular.latest?_eq_none (regular : Regular digits tags tagPrefix bump) :
    latest? digits tags tagPrefix = none ↔ ∀ version, ¬Visible digits tags tagPrefix version := by
  constructor
  · intro isNone version visible
    have unread := Release.latest?_eq_none.mp isNone _ visible.tagged
    rw [visible.read] at unread
    cases unread
  · intro absent
    cases isLatest : latest? digits tags tagPrefix with
    | none => rfl
    | some latest =>
        rcases regular.exists_visible isLatest with ⟨largest, visible, -⟩
        exact absurd visible (absent largest)

/-- The version that is raised: of the form, as large as every other, and with room. -/
structure IsBase (digits : DecimalTable) (tags : List Str) (tagPrefix : Str) (bump : BumpType)
    (base : Version) : Prop where
  natural : base.Natural
  next : nextVersion digits tags tagPrefix bump = applyBump base bump
  short : (applyBump base bump).IsShort
  largest : ∀ version : Version, version.Natural → tagPrefix ++ version.text ∈ tags →
    version.kept bump ≤ base.kept bump

theorem Regular.exists_isBase (regular : Regular digits tags tagPrefix bump) :
    ∃ base, IsBase digits tags tagPrefix bump base := by
  cases isLatest : latest? digits tags tagPrefix with
  | none =>
      have absent := regular.latest?_eq_none.mp isLatest
      refine ⟨⟨0, 0, 0⟩, ⟨by decide, by decide, by decide⟩, ?_, ?_, ?_⟩
      · rw [nextVersion, isLatest]
        rfl
      · apply Version.short_applyBump
        · exact ⟨by decide, by decide, by decide⟩
        · cases bump <;> decide
      · intro version natural tagged
        rcases regular.missed version natural tagged with zero | ⟨larger, visible, -⟩
        · rw [zero, Version.kept_zero]
        · exact absurd visible (absent larger)
  | some latest =>
      rcases regular.exists_visible isLatest with ⟨largest, visible, same⟩
      have bound (version : Version) (visible : Visible digits tags tagPrefix version) :
          version.kept bump ≤ largest.kept bump := by
        rw [← same]
        exact visible.le_latest isLatest
      refine ⟨largest, visible.natural, ?_, ?_, ?_⟩
      · rw [nextVersion, isLatest]
        exact Version.applyBump_eq_iff.mpr same
      · apply Version.short_applyBump (short_of_readVersion visible.read)
        by_contra noRoom
        rcases regular.room largest visible noRoom with ⟨larger, isVisible, lt⟩
        exact absurd (bound larger isVisible) (not_le.mpr lt)
      · intro version natural tagged
        rcases regular.missed version natural tagged with zero | ⟨larger, isVisible, le⟩
        · rw [zero]
          exact Version.zero_le_kept visible.natural
        · exact le.trans (bound larger isVisible)

/-- What a call returns when its tags are regular. -/
theorem Regular.calculate (regular : Regular digits tags tagPrefix bump) :
    ∃ result next, calculateNextVersion digits tags tagPrefix bump = .ok result ∧
      next.Natural ∧ result.nextVersion = next.text ∧ result.fullTag = tagPrefix ++ next.text ∧
        result.fullTag ∉ tags ∧
          ∀ version : Version, version.Natural → tagPrefix ++ version.text ∈ tags →
            version < next := by
  rcases regular.exists_isBase with ⟨base, natural, next, short, largest⟩
  have larger : ∀ version : Version, version.Natural → tagPrefix ++ version.text ∈ tags →
      version < applyBump base bump := by
    intro version versionNatural tagged
    exact (Version.lt_applyBump_iff versionNatural).mpr (largest version versionNatural tagged)
  have nextNatural : (applyBump base bump).Natural := Version.natural_applyBump natural
  have fresh : tagPrefix ++ (applyBump base bump).text ∉ tags := by
    intro tagged
    exact lt_irrefl _ (larger _ nextNatural tagged)
  have returned := calculateNextVersion_eq digits tags tagPrefix bump
  rw [next, tagNext_eq_ok.mpr ⟨short, fresh, rfl⟩] at returned
  exact ⟨_, _, returned, nextNatural, rfl, rfl, fresh, larger⟩

/-- Without tags that are not of the form, the same versions are of the form and read. -/
theorem visible_congr (within : ∀ tag ∈ others, tag ∈ tags)
    (form : ∀ tag ∈ tags, OfForm tagPrefix tag → tag ∈ others) :
    Visible digits others tagPrefix version ↔ Visible digits tags tagPrefix version := by
  constructor
  · rintro ⟨natural, tagged, read⟩
    exact ⟨natural, within _ tagged, read⟩
  · rintro ⟨natural, tagged, read⟩
    exact ⟨natural, form _ tagged ⟨version, natural, rfl⟩, read⟩

theorem Regular.subset (regular : Regular digits tags tagPrefix bump)
    (within : ∀ tag ∈ others, tag ∈ tags)
    (form : ∀ tag ∈ tags, OfForm tagPrefix tag → tag ∈ others) :
    Regular digits others tagPrefix bump := by
  have same {version : Version} : Visible digits others tagPrefix version ↔
      Visible digits tags tagPrefix version := visible_congr within form
  refine ⟨?_, ?_, ?_⟩
  · intro tag tagMem stray version read
    rcases regular.strays tag (within tag tagMem) stray version read with ⟨larger, visible, le⟩
    exact ⟨larger, same.mpr visible, le⟩
  · intro version natural tagged
    rcases regular.missed version natural (within _ tagged) with zero | ⟨larger, visible, le⟩
    · exact Or.inl zero
    · exact Or.inr ⟨larger, same.mpr visible, le⟩
  · intro version visible noRoom
    rcases regular.room version (same.mp visible) noRoom with ⟨larger, isVisible, lt⟩
    exact ⟨larger, same.mpr isVisible, lt⟩

/-- Tags that are not of the form do not matter for a call whose tags are regular. -/
theorem Regular.independent (regular : Regular digits tags tagPrefix bump)
    (within : ∀ tag ∈ others, tag ∈ tags)
    (form : ∀ tag ∈ tags, OfForm tagPrefix tag → tag ∈ others) :
    calculateNextVersion digits others tagPrefix bump =
      calculateNextVersion digits tags tagPrefix bump := by
  have regular' := regular.subset within form
  have same {version : Version} : Visible digits others tagPrefix version ↔
      Visible digits tags tagPrefix version := visible_congr within form
  have initial : (latest? digits others tagPrefix).isNone =
      (latest? digits tags tagPrefix).isNone := by
    rw [Bool.eq_iff_iff, Option.isNone_iff_eq_none, Option.isNone_iff_eq_none,
      regular.latest?_eq_none, regular'.latest?_eq_none]
    exact forall_congr' fun version => not_congr same
  have next : nextVersion digits others tagPrefix bump =
      nextVersion digits tags tagPrefix bump := by
    rw [nextVersion, nextVersion, Version.applyBump_eq_iff]
    cases isLatest : latest? digits tags tagPrefix with
    | none =>
        rw [isLatest, Option.isNone_none, Option.isNone_iff_eq_none] at initial
        rw [initial]
    | some latest =>
        cases isLatest' : latest? digits others tagPrefix with
        | none =>
            rw [isLatest, isLatest'] at initial
            cases initial
        | some latest' =>
            rcases regular.exists_visible isLatest with ⟨v, visible, vEq⟩
            rcases regular'.exists_visible isLatest' with ⟨w, visible', wEq⟩
            apply le_antisymm
            · rw [Option.getD_some, wEq]
              exact (same.mp visible').le_latest isLatest
            · rw [Option.getD_some, Option.getD_some, vEq]
              exact (same.mpr visible).le_latest isLatest'
  rw [calculateNextVersion_eq, calculateNextVersion_eq, next, initial]
  apply tagNext_congr
  rcases regular.exists_isBase with ⟨base, natural, isNext, -, -⟩
  rw [isNext]
  constructor
  · exact within _
  · intro tagged
    exact form _ tagged ⟨_, Version.natural_applyBump natural, rfl⟩

theorem Regular.derives (regular : Regular digits tags tagPrefix bump) :
    Derives digits tags tagPrefix bump :=
  ⟨regular.calculate, fun _ => regular.independent⟩

/-- A call that a release can rely on raises what the tags of the form alone say. -/
theorem Derives.agree (derives : Derives digits tags tagPrefix bump) :
    ∃ next : Version, next.IsShort ∧
      (∀ version : Version, version.Natural → tagPrefix ++ version.text ∈ tags → version < next) ∧
        (latest? digits tags tagPrefix = none ∧ next = applyBump ⟨0, 0, 0⟩ bump ∨
          ∃ latest largest, latest? digits tags tagPrefix = some latest ∧
            Visible digits tags tagPrefix largest ∧ latest.kept bump = largest.kept bump ∧
              next = applyBump largest bump) := by
  classical
  rcases derives.result with ⟨result, next, returned, natural, text, -, -, larger⟩
  let own := tags.filter fun tag => decide (OfForm tagPrefix tag)
  have alone := derives.independent own (fun tag tagMem => (List.mem_filter.mp tagMem).1)
    (fun tag tagMem form => List.mem_filter.mpr ⟨tagMem, decide_eq_true form⟩)
  rw [returned, calculateNextVersion_eq, tagNext_eq_ok] at alone
  rw [calculateNextVersion_eq, tagNext_eq_ok] at returned
  rcases returned with ⟨short, -, isResult⟩
  rcases alone with ⟨-, -, isResult'⟩
  rw [isResult] at text
  have isNext := Version.text_injective text
  rw [isResult, VersionResult.mk.injEq] at isResult'
  rcases isResult' with ⟨texts, -, -, -, initial⟩
  have nexts := Version.text_injective texts
  rw [isNext] at short nexts
  refine ⟨next, short, larger, ?_⟩
  cases isLatest : latest? digits tags tagPrefix with
  | none =>
      refine Or.inl ⟨rfl, ?_⟩
      rw [← isNext, nextVersion, isLatest]
      rfl
  | some latest =>
      cases isLargest : latest? digits own tagPrefix with
      | none =>
          rw [isLatest, isLargest] at initial
          cases initial
      | some largest =>
          rcases (latest?_eq_some.mp isLargest).1 with ⟨tag, tagMem, read⟩
          rcases List.mem_filter.mp tagMem with ⟨tagged, form⟩
          rcases of_decide_eq_true form with ⟨version, versionNatural, rfl⟩
          have same := readVersion_text read
          subst same
          rw [nextVersion, isLargest, Option.getD_some] at nexts
          refine Or.inr ⟨latest, largest, rfl, ⟨versionNatural, tagged, read⟩, ?_, nexts⟩
          rw [nextVersion, isLatest, Option.getD_some, nexts] at isNext
          exact Version.applyBump_eq_iff.mp isNext

theorem Derives.regular (derives : Derives digits tags tagPrefix bump) :
    Regular digits tags tagPrefix bump := by
  rcases derives.agree with ⟨next, short, larger, isLatest | ⟨latest, largest, isLatest, visible,
    same, isNext⟩⟩
  · rcases isLatest with ⟨isNone, isNext⟩
    have unread := latest?_eq_none.mp isNone
    refine ⟨?_, ?_, ?_⟩
    · intro tag tagMem _ version read
      rw [unread tag tagMem] at read
      cases read
    · intro version natural tagged
      have lt := larger version natural tagged
      rw [isNext, Version.lt_applyBump_iff natural, Version.kept_zero] at lt
      exact Or.inl (le_antisymm lt (Version.zero_le_kept natural))
    · intro version visible
      have read := visible.read
      rw [unread _ visible.tagged] at read
      cases read
  · have bound (version : Version) (natural : version.Natural)
        (tagged : tagPrefix ++ version.text ∈ tags) : version.kept bump ≤ largest.kept bump := by
      have lt := larger version natural tagged
      rwa [isNext, Version.lt_applyBump_iff natural] at lt
    refine ⟨?_, ?_, ?_⟩
    · intro tag tagMem _ version read
      refine ⟨largest, visible, ?_⟩
      rw [← same]
      exact Version.kept_le_kept ((latest?_eq_some.mp isLatest).2 tag tagMem version read)
    · intro version natural tagged
      exact Or.inr ⟨largest, visible, bound version natural tagged⟩
    · intro version isVisible noRoom
      refine ⟨largest, visible, ?_⟩
      apply lt_of_le_of_ne (bound version isVisible.natural isVisible.tagged)
      intro equal
      rw [isNext, ← Version.applyBump_eq_iff.mpr equal] at short
      exact noRoom (Version.short_raised short)

end Regularity

section Runs

variable {digits : DecimalTable} {tags : List Str} {results : List VersionResult}
  {versions : List Version} {result : VersionResult} {version : Version} {bump : BumpType}
  {tagPrefix : Str}

/-- The results, the last one first, are the releases of ever larger versions under tags of their
own, which are in the repository. -/
structure Increases (tagPrefix : Str) (tags : List Str) (results : List VersionResult)
    (versions : List Version) : Prop where
  natural : ∀ version ∈ versions, version.Natural
  texts : results.map VersionResult.nextVersion = versions.map Version.text
  fullTags : results.map VersionResult.fullTag = versions.map fun version =>
    tagPrefix ++ version.text
  increasing : versions.Pairwise (· > ·)
  distinct : (results.map VersionResult.fullTag).Nodup
  tagged : ∀ result ∈ results, result.fullTag ∈ tags

theorem Increases.tagged_text (increases : Increases tagPrefix tags results versions)
    (versionMem : version ∈ versions) : tagPrefix ++ version.text ∈ tags := by
  have tagMem := List.mem_map_of_mem (f := fun version =>
      tagPrefix ++ Version.text version) versionMem
  rw [← increases.fullTags] at tagMem
  rcases List.mem_map.mp tagMem with ⟨result, resultMem, same⟩
  rw [← same]
  exact increases.tagged result resultMem

/-- A release whose tags are regular is the next one. -/
theorem Increases.release (increases : Increases tagPrefix tags results versions)
    (regular : Regular digits tags tagPrefix bump)
    (returned : calculateNextVersion digits tags tagPrefix bump = .ok result) :
    ∃ next, Increases tagPrefix (result.fullTag :: tags) (result :: results)
      (next :: versions) := by
  rcases regular.calculate with ⟨result', next, returned', natural, text, fullTag, fresh, larger⟩
  rw [returned, Except.ok.injEq] at returned'
  subst returned'
  refine ⟨next, ?_, ?_, ?_, ?_, ?_, ?_⟩
  · rw [List.forall_mem_cons]
    exact ⟨natural, increases.natural⟩
  · rw [List.map_cons, List.map_cons, text, increases.texts]
  · rw [List.map_cons, List.map_cons, fullTag, increases.fullTags]
  · rw [List.pairwise_cons]
    refine ⟨?_, increases.increasing⟩
    intro version versionMem
    apply larger version (increases.natural version versionMem)
    exact increases.tagged_text versionMem
  · rw [List.map_cons, List.nodup_cons]
    refine ⟨?_, increases.distinct⟩
    intro repeated
    rcases List.mem_map.mp repeated with ⟨earlier, earlierMem, same⟩
    rw [← same] at fresh
    exact fresh (increases.tagged earlier earlierMem)
  · intro earlier earlierMem
    rcases List.mem_cons.mp earlierMem with rfl | earlierMem
    · exact List.mem_cons_self
    · exact List.mem_cons_of_mem _ (increases.tagged earlier earlierMem)

/-- The versions of a module's releases strictly increase and no tag repeats. -/
theorem Releases.increases (releases : Releases digits tagPrefix tags results) :
    ∃ versions, Increases tagPrefix tags results versions := by
  induction releases with
  | start tags => exact ⟨[], nofun, rfl, rfl, List.Pairwise.nil, List.nodup_nil, nofun⟩
  | pushed earlier kept ih =>
      rcases ih with ⟨versions, increases⟩
      refine ⟨versions, increases.natural, increases.texts, increases.fullTags,
        increases.increasing, increases.distinct, ?_⟩
      intro result resultMem
      exact kept _ (increases.tagged result resultMem)
  | released earlier regular returned ih =>
      rcases ih with ⟨versions, increases⟩
      rcases increases.release regular returned with ⟨next, increases⟩
      exact ⟨next :: versions, increases⟩

/-- A release can rely on the next version exactly when the tags are regular. Over releases for
which they are, the versions increase, no tag repeats and there is no collision. -/
theorem derives_iff {scope modulePath configTagPrefix : Str}
    (_built : buildTagPrefix scope modulePath configTagPrefix = .ok tagPrefix) :
    (∀ tags bump, Derives digits tags tagPrefix bump ↔ Regular digits tags tagPrefix bump) ∧
      ∀ tags results, Releases digits tagPrefix tags results →
        (∃ versions, Increases tagPrefix tags results versions) ∧
          ∀ bump, Regular digits tags tagPrefix bump →
            ∃ result, calculateNextVersion digits tags tagPrefix bump = .ok result := by
  refine ⟨fun tags bump => ⟨Derives.regular, Regular.derives⟩, ?_⟩
  intro tags results releases
  refine ⟨releases.increases, ?_⟩
  intro bump regular
  rcases regular.calculate with ⟨result, -, returned, -⟩
  exact ⟨result, returned⟩

/-- The tags of a plain prefix are regular when no others are read and none is too long. -/
theorem regular_of_plain (plain : ∀ c ∈ tagPrefix, IsPlain c)
    (unread : ∀ tag ∈ tags, ¬OfForm tagPrefix tag → readVersion digits tagPrefix tag = none)
    (short : ∀ version : Version, version.Natural → tagPrefix ++ version.text ∈ tags →
      version.IsShort ∧ Short (version.raised bump + 1)) :
    Regular digits tags tagPrefix bump := by
  refine ⟨?_, ?_, ?_⟩
  · intro tag tagMem stray version read
    rw [unread tag tagMem stray] at read
    cases read
  · intro version natural tagged
    have read : readVersion digits tagPrefix (tagPrefix ++ version.text) = some version :=
      readVersion_of_plain plain natural (short version natural tagged).1
    exact Or.inr ⟨version, ⟨natural, tagged, read⟩, le_refl _⟩
  · intro version visible noRoom
    exact absurd (short version visible.natural visible.tagged).2 noRoom

end Runs

section Sample

/-- The tag prefix of a module. -/
def kmsKeyPrefix : Str := str "providers/aws/primitives/kms-key/v"

theorem plain_kmsKeyPrefix : ∀ c ∈ kmsKeyPrefix, IsPlain c := by decide

/-- The tags of another module do not matter for the next version. -/
theorem derives_kmsKey :
    Derives DecimalTable.latin [kmsKeyPrefix ++ str "0.1.0", str "monorepo-config/v7.0.0"]
      kmsKeyPrefix .minor := by
  have built : buildTagPrefix (str "module") (str "providers/aws/primitives/kms-key")
      (str "monorepo-config") = .ok kmsKeyPrefix := rfl
  have written : (⟨0, 1, 0⟩ : Version).text = str "0.1.0" := by decide
  have apart (rest : Str) : kmsKeyPrefix ++ rest ≠ str "monorepo-config/v7.0.0" := by
    intro same
    cases congrArg List.head? same
  apply ((derives_iff built).1 _ _).mpr
  apply regular_of_plain plain_kmsKeyPrefix
  · intro tag tagMem stray
    rcases List.mem_pair.mp tagMem with rfl | rfl
    · exact absurd ⟨⟨0, 1, 0⟩, ⟨by decide, by decide, by decide⟩, by rw [written]⟩ stray
    · apply if_neg
      rw [fnmatch_digit plain_kmsKeyPrefix]
      rintro ⟨c, rest, same, -⟩
      exact apart _ same.symm
  · intro version natural tagged
    rcases List.mem_pair.mp tagged with same | same
    · rw [List.append_cancel_left_eq, ← written] at same
      rw [Version.text_injective same]
      exact ⟨⟨by decide, by decide, by decide⟩, by decide⟩
    · exact absurd same (apart _)

/-- `int` reads a tag that is no version, and the first release becomes `10.0.1`. -/
theorem not_derives_underscore :
    ¬Derives DecimalTable.latin [kmsKeyPrefix ++ str "1_0.0.0"] kmsKeyPrefix .patch := by
  intro derives
  have stray : ¬OfForm kmsKeyPrefix (kmsKeyPrefix ++ str "1_0.0.0") := by
    rintro ⟨version, -, same⟩
    rw [List.append_cancel_left_eq] at same
    have major := congrArg List.head? (splitOn_text version)
    rw [← same] at major
    have underscore : Chr.char '_' ∈ numeral version.major := by
      rw [← Option.some.inj major]
      decide
    rcases mem_numeral underscore with isMinus | ⟨digit, isDigit, isUnderscore⟩
    · exact absurd isMinus (by decide)
    · cases isUnderscore
      exact absurd isDigit (by decide)
  have read : readVersion DecimalTable.latin kmsKeyPrefix (kmsKeyPrefix ++ str "1_0.0.0") =
      some ⟨10, 0, 0⟩ := by
    rw [readVersion, if_pos, List.drop_left]
    · decide
    · rw [fnmatch_digit plain_kmsKeyPrefix]
      exact ⟨.char '1', str "_0.0.0", by decide, by decide, by decide⟩
  rcases derives.regular.strays _ (List.mem_singleton_self _) stray _ read
    with ⟨larger, visible, -⟩
  apply stray
  rw [← List.mem_singleton.mp visible.tagged]
  exact ⟨larger, visible.natural, rfl⟩

end Sample

end Release
