import TelemetryPlatform.Deploy.Skips

/-!
# What the detector writes, the other scripts read

`build_include_dir_flags` of `scripts/detect_terragrunt_units.py` writes the scope that
the filters and the partition take apart and put together again. `Handed` follows the
string through any number of these steps. `roundTrip_lossless_iff` says when nothing is lost on
the way: the reader takes the text up to the next white space for the path, so every
path that has none arrives, and one that has some arrives cut off.
-/

namespace Deploy

open Python Interaction

/-- The directory of a unit as a string; a `pathlib` path is never the empty string. -/
structure UnitDir where
  text : Str
  nonempty : text ≠ []

/-- `build_include_dir_flags`. -/
def buildIncludeDirFlags (unitDirs : List UnitDir) : Except Str (List Str) :=
  if unitDirs = [] then
    .error (str ("ERROR: No Terragrunt unit directories found for the changed files.\n" ++
      "  An empty unit scope would result in a no-op apply, which is rejected (D3).\n" ++
      "  Remedy: verify that the changed files belong to a Terragrunt unit directory\n" ++
      "  (a directory containing a terragrunt.hcl file)."))
  else .ok (unitDirs.flatMap fun unitDir => [queueIncludeDirToken, unitDir.text])

/--
The string carries the selected units: the detector wrote it, or the partition or a
filter returned and put the units it selected together again.
-/
inductive Handed (rt : Runtime) (unitDirs : List UnitDir) : List Str → Str → Prop where
  | detected {flags : List Str} (built : buildIncludeDirFlags unitDirs = .ok flags) :
      Handed rt unitDirs (unitDirs.map UnitDir.text) (joinSpace flags)
  | partitioned {files : ConfigFiles} {selected : List Str} {text mode : Str} {onDemand : Bool}
      {rows : List Row} {row : Row} (handed : Handed rt unitDirs selected text)
      (returned : partition rt files text mode onDemand = .ok rows) (rowMem : row ∈ rows) :
      Handed rt unitDirs (selected.filter (resolvesTo rt files row.accountId)) row.includeDirFlags
  | deployable {files : ConfigFiles} {selected kept : List Str} {skipped : List (Str × Str)}
      {text : Str} {onDemand : Bool} (handed : Handed rt unitDirs selected text)
      (returned : partitionByCiDeploy rt files text onDemand = .ok (kept, skipped))
      (nonempty : kept ≠ []) : Handed rt unitDirs kept (reassembleFlags kept)
  | stateful {selected units kept skipped : List Str} {text regionName : Str}
      {log : List (Event FilterCall (FilterCall.Reply rt))}
      (handed : Handed rt unitDirs selected text) (extracted : extractAllUnitPaths text = .ok units)
      (returned : (partitionByStateExistence rt regionName units).Runs log (.ok (kept, skipped)))
      (nonempty : kept ≠ []) : Handed rt unitDirs kept (reassembleFlags kept)

/-- Every string is read back as the units it carries, and each step accounts for all of them. -/
structure Lossless (rt : Runtime) (unitDirs : List UnitDir) : Prop where
  readsBack : ∀ {selected text}, Handed rt unitDirs selected text →
    extractAllUnitPaths text = .ok selected ∧ selected.Sublist (unitDirs.map UnitDir.text)
  partitioned : ∀ {files selected text mode onDemand rows}, Handed rt unitDirs selected text →
    partition rt files text mode onDemand = .ok rows →
      (rows.flatMap fun row => findIncludeDirs row.includeDirFlags).Perm selected
  deployable : ∀ {files selected text onDemand kept skipped}, Handed rt unitDirs selected text →
    partitionByCiDeploy rt files text onDemand = .ok (kept, skipped) →
      (kept ++ skipped.map Prod.fst).Perm selected
  stateful : ∀ {selected text units regionName log kept skipped},
    Handed rt unitDirs selected text → extractAllUnitPaths text = .ok units →
      (partitionByStateExistence rt regionName units).Runs log (.ok (kept, skipped)) →
        (kept ++ skipped).Perm selected

theorem extractAllUnitPaths_of_renders {units : List Str} {text : Str}
    (renders : Renders units text) (nonempty : units ≠ []) :
    extractAllUnitPaths text = .ok units := by
  rw [extractAllUnitPaths, findIncludeDirs_of_renders renders, if_neg nonempty]

theorem findIncludeDirs_of_extract {units : List Str} {text : Str}
    (extracted : extractAllUnitPaths text = .ok units) : findIncludeDirs text = units :=
  (extractAllUnitPaths_eq_ok extracted).symm

section Steps

variable {rt : Runtime} {unitDirs : List UnitDir}

/-- The detector writes the string that the other scripts write too. -/
theorem joinSpace_buildIncludeDirFlags {flags : List Str}
    (built : buildIncludeDirFlags unitDirs = .ok flags) :
    joinSpace flags = reassembleFlags (unitDirs.map UnitDir.text) ∧ unitDirs ≠ [] := by
  rw [buildIncludeDirFlags] at built
  split at built
  · cases built
  · next nonempty =>
      cases built
      rw [reassembleFlags, List.flatMap_map]
      exact ⟨rfl, nonempty⟩

/-- A row of the partition has units. -/
theorem row_inhabited {files : ConfigFiles} {flags mode : Str} {onDemand : Bool}
    {rows : List Row} {row : Row}
    (returned : partition rt files flags mode onDemand = .ok rows) (rowMem : row ∈ rows) :
    ∃ unit ∈ findIncludeDirs flags, resolvesTo rt files row.accountId unit = true := by
  rcases partition_eq_ok returned with ⟨_, rfl⟩ |
    ⟨envAccounts, domains, accounts, owner, groups, envLoaded, domainsLoaded, _, looped, made⟩
  · cases rowMem
  · rcases placed_of_foldlM looped with ⟨pairs, units_pairs, placed, grouped⟩
    rcases exists_of_mem_forall₂ (forall₂_of_mapM made) rowMem with ⟨accountId, keyMem, rowMade⟩
    rw [(List.mergeSort_perm _ _).mem_iff, grouped.keys] at keyMem
    rcases List.mem_map.mp keyMem with ⟨pair, pairMem, rfl⟩
    rcases placed pair pairMem with ⟨region, found⟩
    refine ⟨pair.2, ?_, ?_⟩
    · rw [← units_pairs]
      exact List.mem_map_of_mem pairMem
    · simp [resolvesTo, resolveUnit, envLoaded, domainsLoaded, found, bind, Except.bind,
        (rowOf_eq_ok rowMade).1]

/-- A filter by state sorts the units it was given. -/
theorem state_sorted {regionName : Str} {units kept skipped : List Str}
    {log : List (Event FilterCall (FilterCall.Reply rt))}
    (ran : (partitionByStateExistence rt regionName units).Runs log (.ok (kept, skipped))) :
    kept.Sublist units ∧ (kept ++ skipped).Perm units := by
  rcases pieces_of_partition ran with ⟨_, impossible⟩ | ⟨pieces, rfl, _, _, same⟩
  · cases impossible
  · rcases Prod.mk.inj (Except.ok.inj same) with ⟨rfl, rfl⟩
    refine ⟨List.filter_sublist.map _, ?_⟩
    rw [keptUnits, skippedUnits, ← List.map_append]
    exact (List.filter_append_perm _ pieces).map _

/-- What a step hands on is read back, when what it was given is. -/
theorem readsBack_of_handed (solid : ∀ unitDir ∈ unitDirs, ∀ c ∈ unitDir.text, isSpace c = false)
    {selected : List Str} {text : Str} (handed : Handed rt unitDirs selected text) :
    extractAllUnitPaths text = .ok selected ∧ selected.Sublist (unitDirs.map UnitDir.text) := by
  have isUnitPath : ∀ unit ∈ unitDirs.map UnitDir.text, IsUnitPath unit := by
    intro unit unitMem
    rcases List.mem_map.mp unitMem with ⟨unitDir, unitDirMem, rfl⟩
    exact ⟨unitDir.nonempty, solid unitDir unitDirMem⟩
  have reassembled {kept : List Str} (sublist : kept.Sublist (unitDirs.map UnitDir.text))
      (nonempty : kept ≠ []) : extractAllUnitPaths (reassembleFlags kept) = .ok kept := by
    apply extractAllUnitPaths_of_renders _ nonempty
    apply renders_reassembleFlags
    intro unit unitMem
    exact isUnitPath unit (sublist.subset unitMem)
  induction handed with
  | detected built =>
      rcases joinSpace_buildIncludeDirFlags built with ⟨text_eq, nonempty⟩
      rw [text_eq]
      refine ⟨reassembled (.refl _) ?_, .refl _⟩
      rw [ne_eq, List.map_eq_nil_iff]
      exact nonempty
  | @partitioned files selected text mode onDemand rows row handed returned rowMem ih =>
      have cover := exactCover_of_partition (findIncludeDirs_of_extract ih.1) returned
      refine ⟨?_, List.filter_sublist.trans ih.2⟩
      rcases row_inhabited returned rowMem with ⟨unit, unitMem, resolves⟩
      rw [findIncludeDirs_of_extract ih.1] at unitMem
      have filterMem : unit ∈ selected.filter (resolvesTo rt files row.accountId) :=
        List.mem_filter.mpr ⟨unitMem, resolves⟩
      rw [extractAllUnitPaths, cover.ordered row rowMem, if_neg (List.ne_nil_of_mem filterMem)]
  | deployable handed returned nonempty ih =>
      rcases sorted_of_partitionByCiDeploy returned with ⟨_, _, _, _, _, _, sorted⟩
      rw [findIncludeDirs_of_extract ih.1] at sorted
      have sublist := sorted.kept.trans ih.2
      exact ⟨reassembled sublist nonempty, sublist⟩
  | stateful handed extracted returned nonempty ih =>
      rw [ih.1] at extracted
      cases extracted
      have sublist := (state_sorted returned).1.trans ih.2
      exact ⟨reassembled sublist nonempty, sublist⟩

end Steps

/--
For every non-empty list of unit directories: the strings between the detector and the
apply carry the units without loss exactly when no directory has white space in its path.
-/
theorem roundTrip_lossless_iff (rt : Runtime) (unitDirs : List UnitDir) (nonempty : unitDirs ≠ []) :
    Lossless rt unitDirs ↔ ∀ unitDir ∈ unitDirs, ∀ c ∈ unitDir.text, isSpace c = false := by
  constructor
  · intro lossless unitDir unitDirMem
    have built : buildIncludeDirFlags unitDirs =
        .ok (unitDirs.flatMap fun unitDir => [queueIncludeDirToken, unitDir.text]) := by
      rw [buildIncludeDirFlags, if_neg nonempty]
    have readsBack := (lossless.readsBack (.detected built)).1
    have found := isUnitPath_of_findIncludeDirs
      (joinSpace (unitDirs.flatMap fun unitDir => [queueIncludeDirToken, unitDir.text]))
    rw [findIncludeDirs_of_extract readsBack] at found
    exact (found unitDir.text (List.mem_map_of_mem unitDirMem)).2
  · intro solid
    constructor
    · exact fun handed => readsBack_of_handed solid handed
    · intro files selected text mode onDemand rows handed returned
      have readsBack := (readsBack_of_handed solid handed).1
      exact (exactCover_of_partition (findIncludeDirs_of_extract readsBack) returned).covers
    · intro files selected text onDemand kept skipped handed returned
      have readsBack := (readsBack_of_handed solid handed).1
      rcases sorted_of_partitionByCiDeploy returned with ⟨_, _, _, _, _, _, sorted⟩
      rw [findIncludeDirs_of_extract readsBack] at sorted
      exact sorted.covers
    · intro selected text units regionName log kept skipped handed extracted returned
      rw [(readsBack_of_handed solid handed).1] at extracted
      cases extracted
      exact (state_sorted returned).2

namespace Sample

def unitDir : UnitDir := ⟨unit, by decide⟩

def spacedDir : UnitDir := ⟨str "live/telemetry/us-east-1/sandbox/000/data lake", by decide⟩

end Sample

theorem lossless_unit : Lossless Runtime.whole [Sample.unitDir] :=
  (roundTrip_lossless_iff Runtime.whole [Sample.unitDir] (by simp)).mpr (by decide +kernel)

/-- A path is cut at its white space. -/
theorem not_lossless_spaced : ¬Lossless Runtime.whole [Sample.spacedDir] := by
  intro lossless
  have readsBack := (lossless.readsBack (.detected rfl)).1
  have cut : (extractAllUnitPaths (joinSpace [queueIncludeDirToken,
      Sample.spacedDir.text])).toOption =
        some [str "live/telemetry/us-east-1/sandbox/000/data"] := by
    decide +kernel
  change extractAllUnitPaths (joinSpace [queueIncludeDirToken, Sample.spacedDir.text]) = _
    at readsBack
  rw [readsBack] at cut
  revert cut
  decide

end Deploy
