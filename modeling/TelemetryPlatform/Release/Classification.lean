import TelemetryPlatform.Release.Scope

/-!
# The scope of a change and the places of its files

A file's place in the tree gives it a class, `InClass`. The loop of `detect_scope`
takes it for a file of that class, except that it takes a file directly under a
module root for the directory of a module. `detectScope_classifies_iff` says for
which changes the answer is the one the places give.
-/

namespace Release

open Python

section Specification

/-- Neither string is a prefix of the other. -/
def PrefixDisjoint (first second : Str) : Prop := ¬first <+: second ∧ ¬second <+: first

instance : Std.Symm PrefixDisjoint where
  symm _ _ apart := ⟨apart.2, apart.1⟩

/-- The roots that `detect_scope` is configured with. -/
structure Roots (moduleRoots : List Str) (terragruntRoot : Str) : Prop where
  slash : ∀ root ∈ moduleRoots, str "/" <:+ root
  disjoint : moduleRoots.Pairwise PrefixDisjoint
  apart : ∀ root ∈ moduleRoots, PrefixDisjoint terragruntRoot root

/-- The file lies in the directory `leaf` under a module root. -/
structure Nested (moduleRoots : List Str) (file root leaf : Str) : Prop where
  listed : root ∈ moduleRoots
  nonempty : leaf ≠ []
  plain : .char '/' ∉ leaf
  within : root ++ leaf ++ str "/" <+: file

/-- The file lies directly under a module root, under the name `leaf`. -/
structure Direct (moduleRoots : List Str) (file root leaf : Str) : Prop where
  listed : root ∈ moduleRoots
  nonempty : leaf ≠ []
  plain : .char '/' ∉ leaf
  file : file = root ++ leaf

/-- The classes of files. -/
inductive FileClass where
  | terragrunt
  | module (directory : Str)
  | config

/-- The class that a file's place in the tree gives it. -/
def InClass (moduleRoots : List Str) (terragruntRoot file : Str) : FileClass → Prop
  | .terragrunt => terragruntRoot <+: file
  | .module directory => ∃ root leaf, Nested moduleRoots file root leaf ∧ directory = root ++ leaf
  | .config => ¬terragruntRoot <+: file ∧ ∀ root leaf, ¬Nested moduleRoots file root leaf

/-- What the release lane relies on when it asks for the scope of a change. -/
structure Classifies (changedFiles moduleRoots : List Str) (terragruntRoot : Str) : Prop where
  invariant : ∀ changedFiles', (∀ file, ¬Ignored terragruntRoot file →
    (file ∈ changedFiles' ↔ file ∈ changedFiles)) →
      detectScope changedFiles' moduleRoots terragruntRoot =
        detectScope changedFiles moduleRoots terragruntRoot
  valid : (detectScope changedFiles moduleRoots terragruntRoot).valid = true ↔
    ∃ cls, ∀ file ∈ changedFiles, ¬Ignored terragruntRoot file →
      InClass moduleRoots terragruntRoot file cls
  modulePath : (detectScope changedFiles moduleRoots terragruntRoot).scope = .module →
    ∃ path, (detectScope changedFiles moduleRoots terragruntRoot).modulePath = some path ∧
      ∀ file ∈ changedFiles, ¬Ignored terragruntRoot file → path ++ str "/" <+: file
  direct : ∀ file ∈ changedFiles, ∀ root leaf, Direct moduleRoots file root leaf →
    (detectScope [file] moduleRoots terragruntRoot).scope = .config

/-- No changed file lies directly under a module root, nor all of them under one with two
slashes. -/
structure Unambiguous (changedFiles moduleRoots : List Str) (terragruntRoot : Str) : Prop where
  noDirect : ∀ file ∈ changedFiles, ∀ root leaf, ¬Direct moduleRoots file root leaf
  noSlashes : ∀ root leaf, (∃ file ∈ changedFiles, ¬Ignored terragruntRoot file) →
    (∀ file ∈ changedFiles, ¬Ignored terragruntRoot file → Nested moduleRoots file root leaf) →
      ¬str "//" <:+ root

end Specification

section Places

variable {moduleRoots files : List Str} {terragruntRoot file root leaf : Str}

/-- The path that `_find_module_path` makes of a root and the next component. -/
def modulePathOf (root leaf : Str) : Str := rstripSlash root ++ str "/" ++ leaf

theorem Roots.eq_of_prefix (roots : Roots moduleRoots terragruntRoot) {other : Str}
    (rootMem : root ∈ moduleRoots) (otherMem : other ∈ moduleRoots) (within : root <+: other) :
    root = other := by
  by_contra different
  exact (roots.disjoint.forall rootMem otherMem different).1 within

/-- A file has at most one module root. -/
theorem Roots.eq_of_prefixes (roots : Roots moduleRoots terragruntRoot) {other : Str}
    (rootMem : root ∈ moduleRoots) (otherMem : other ∈ moduleRoots) (rootPrefix : root <+: file)
    (otherPrefix : other <+: file) : root = other := by
  rcases List.prefix_or_prefix_of_prefix rootPrefix otherPrefix with within | within
  · exact roots.eq_of_prefix rootMem otherMem within
  · exact (roots.eq_of_prefix otherMem rootMem within).symm

theorem Roots.not_terragrunt (roots : Roots moduleRoots terragruntRoot)
    (rootMem : root ∈ moduleRoots) (rootPrefix : root <+: file) : ¬terragruntRoot <+: file := by
  intro treePrefix
  rcases List.prefix_or_prefix_of_prefix rootPrefix treePrefix with within | within
  · exact (roots.apart root rootMem).2 within
  · exact (roots.apart root rootMem).1 within

/-- The loop matches a file with its module root. -/
theorem Roots.find?_eq (roots : Roots moduleRoots terragruntRoot) (rootMem : root ∈ moduleRoots)
    (rootPrefix : root <+: file) :
    (moduleRoots.find? fun root => root.isPrefixOf file) = some root := by
  cases matched : moduleRoots.find? fun root => root.isPrefixOf file with
  | none =>
      have absent := List.find?_eq_none.mp matched root rootMem
      simp [rootPrefix] at absent
  | some other =>
      have otherPrefix := List.find?_some matched
      rw [List.isPrefixOf_iff_prefix] at otherPrefix
      rw [roots.eq_of_prefixes (List.mem_of_find?_eq_some matched) rootMem otherPrefix rootPrefix]

theorem Nested.rootWithin (nested : Nested moduleRoots file root leaf) : root <+: file := by
  apply List.IsPrefix.trans _ nested.within
  rw [List.append_assoc]
  exact List.prefix_append root _

theorem Direct.rootWithin (direct : Direct moduleRoots file root leaf) : root <+: file := by
  rw [direct.file]
  exact List.prefix_append root leaf

/-- The next component after the root is taken for a module, whether it is a directory or not. -/
theorem findModulePath_eq_some {path : Str} (rootMem : root ∈ moduleRoots)
    (rootPrefix : root <+: file) :
    findModulePath file root = some path ↔
      ∃ leaf, (Nested moduleRoots file root leaf ∨ Direct moduleRoots file root leaf) ∧
        path = modulePathOf root leaf := by
  rcases rootPrefix with ⟨remainder, rfl⟩
  simp only [findModulePath, List.drop_left]
  constructor
  · intro found
    split at found
    · cases found
    · next nonempty =>
        cases found
        have plain : .char '/' ∉ beforeFirst (.char '/') remainder := not_mem_beforeFirst
        refine ⟨beforeFirst (.char '/') remainder, ?_, rfl⟩
        rcases beforeFirst_cases (.char '/') remainder with whole | ⟨rest, split⟩
        · exact Or.inr ⟨rootMem, nonempty, plain, by rw [← whole]⟩
        · refine Or.inl ⟨rootMem, nonempty, plain, ⟨rest, ?_⟩⟩
          conv_rhs => rw [split]
          simp [str]
  · rintro ⟨leaf, nested | direct, rfl⟩
    · rcases nested.within with ⟨rest, split⟩
      have remainder_eq : remainder = leaf ++ .char '/' :: rest := by
        simpa [str] using split.symm
      rw [remainder_eq, beforeFirst_append nested.plain, if_neg nested.nonempty]
      rfl
    · have remainder_eq : remainder = leaf := List.append_cancel_left direct.file
      rw [remainder_eq, beforeFirst_eq_self direct.plain, if_neg direct.nonempty]
      rfl

/-- The loop takes a file for one of a module when something follows a module root in its path. -/
theorem seen_eq_module_iff (roots : Roots moduleRoots terragruntRoot) {path : Str} :
    seen moduleRoots terragruntRoot file = .module path ↔
      ∃ root leaf, (Nested moduleRoots file root leaf ∨ Direct moduleRoots file root leaf) ∧
        path = modulePathOf root leaf := by
  constructor
  · intro isModule
    simp only [seen] at isModule
    split_ifs at isModule
    cases matched : moduleRoots.find? fun root => root.isPrefixOf file with
    | none => simp [matched] at isModule
    | some root =>
        have rootMem := List.mem_of_find?_eq_some matched
        have rootPrefix := List.find?_some matched
        rw [List.isPrefixOf_iff_prefix] at rootPrefix
        cases found : findModulePath file root with
        | none => simp [matched, found] at isModule
        | some other =>
            simp only [matched, found, Seen.module.injEq] at isModule
            subst isModule
            rcases (findModulePath_eq_some rootMem rootPrefix).mp found with ⟨leaf, place, same⟩
            exact ⟨root, leaf, place, same⟩
  · rintro ⟨root, leaf, place, rfl⟩
    have rootPrefix : root <+: file := by
      rcases place with nested | direct
      · exact nested.rootWithin
      · exact direct.rootWithin
    have rootMem : root ∈ moduleRoots := by
      rcases place with nested | direct
      · exact nested.listed
      · exact direct.listed
    have outside := roots.not_terragrunt rootMem rootPrefix
    have found := (findModulePath_eq_some rootMem rootPrefix).mpr ⟨leaf, place, rfl⟩
    simp [seen, outside, roots.find?_eq rootMem rootPrefix, found]

/-- A root is its stripped form and slashes. -/
theorem exists_slashes (root : Str) :
    ∃ n, root = rstripSlash root ++ List.replicate n (.char '/') := by
  have slashes : ∀ c ∈ root.rtakeWhile (fun c => decide (c = .char '/')), c = .char '/' := by
    intro c cMem
    simpa using List.mem_rtakeWhile_imp cMem
  refine ⟨(root.rtakeWhile fun c => decide (c = .char '/')).length, ?_⟩
  rw [← List.eq_replicate_iff.mpr ⟨rfl, slashes⟩]
  exact List.rdropWhile_append_rtakeWhile.symm

theorem rstripSlash_concat (base : Str) : rstripSlash (base ++ str "/") = rstripSlash base :=
  List.rdropWhile_concat_pos _ _ _ (by decide)

/-- Different roots are different without their slashes. -/
theorem Roots.rstripSlash_inj (roots : Roots moduleRoots terragruntRoot) {other : Str}
    (rootMem : root ∈ moduleRoots) (otherMem : other ∈ moduleRoots)
    (same : rstripSlash root = rstripSlash other) : root = other := by
  rcases exists_slashes root with ⟨n, rootEq⟩
  rcases exists_slashes other with ⟨m, otherEq⟩
  rw [← same] at otherEq
  have within {short long : Nat} (le : short ≤ long) :
      rstripSlash root ++ List.replicate short (.char '/') <+:
        rstripSlash root ++ List.replicate long (.char '/') := by
    apply (List.prefix_append_right_inj _).mpr
    refine ⟨List.replicate (long - short) (.char '/'), ?_⟩
    rw [List.replicate_append_replicate]
    congr 1
    omega
  rcases Nat.le_total n m with le | le
  · apply roots.eq_of_prefix rootMem otherMem
    rw [rootEq, otherEq]
    exact within le
  · symm
    apply roots.eq_of_prefix otherMem rootMem
    rw [rootEq, otherEq]
    exact within le

/-- A module path determines the root and the directory under it. -/
theorem Roots.modulePathOf_inj (roots : Roots moduleRoots terragruntRoot) {other otherLeaf : Str}
    (rootMem : root ∈ moduleRoots) (otherMem : other ∈ moduleRoots) (plain : .char '/' ∉ leaf)
    (otherPlain : .char '/' ∉ otherLeaf) (same : modulePathOf root leaf = modulePathOf other
      otherLeaf) :
    root = other ∧ leaf = otherLeaf := by
  have leaves : leaf = otherLeaf := by
    have last (front leaf : Str) (plain : .char '/' ∉ leaf) :
        afterLast (.char '/') (front ++ str "/" ++ leaf) = leaf := by
      have split : front ++ str "/" ++ leaf = front ++ .char '/' :: leaf := by simp [str]
      rw [split, afterLast_append, afterLast_eq_self plain]
    have ends := congrArg (afterLast (.char '/')) same
    simpa only [modulePathOf, last _ _ plain, last _ _ otherPlain] using ends
  subst leaves
  simp only [modulePathOf, List.append_cancel_right_eq] at same
  exact ⟨roots.rstripSlash_inj rootMem otherMem same, rfl⟩

/-- The directories of files under module roots are told apart by root and name. -/
theorem Roots.directory_inj (roots : Roots moduleRoots terragruntRoot) {other otherLeaf : Str}
    (rootMem : root ∈ moduleRoots) (otherMem : other ∈ moduleRoots)
    (same : root ++ leaf = other ++ otherLeaf) : root = other ∧ leaf = otherLeaf := by
  have roots_eq : root = other := by
    apply roots.eq_of_prefixes rootMem otherMem (List.prefix_append root leaf)
    rw [same]
    exact List.prefix_append other otherLeaf
  subst roots_eq
  exact ⟨rfl, List.append_cancel_left same⟩

/-- The module path leads to the file unless the root ends in two slashes. -/
theorem modulePathOf_within_iff (nested : Nested moduleRoots file root leaf)
    (slash : str "/" <:+ root) :
    modulePathOf root leaf ++ str "/" <+: file ↔ ¬str "//" <:+ root := by
  rcases slash with ⟨base, rfl⟩
  rcases nested.within with ⟨rest, split⟩
  constructor
  · rintro ⟨other, otherSplit⟩ ⟨front, doubled⟩
    have base_eq : base = front ++ str "/" := by
      apply (List.append_left_inj (str "/")).mp
      rw [← doubled, List.append_assoc]
      rfl
    rcases exists_slashes front with ⟨n, frontEq⟩
    rcases List.exists_cons_of_ne_nil nested.nonempty with ⟨c, tail, leafEq⟩
    have notSlash : c ≠ .char '/' := by
      rintro rfl
      exact nested.plain (by simp [leafEq])
    -- behind the stripped root comes the leaf in the module path and a slash in the file
    rw [modulePathOf, base_eq, rstripSlash_concat, rstripSlash_concat, ← split,
      base_eq] at otherSplit
    conv_rhs at otherSplit => rw [frontEq]
    have shift (rest : Str) : List.replicate n (.char '/') ++ .char '/' :: rest =
        .char '/' :: (List.replicate n (.char '/') ++ rest) := by
      rw [List.append_cons, ← List.replicate_succ', List.replicate_succ, List.cons_append]
    have behind : leaf ++ str "/" ++ other =
        List.replicate n (.char '/') ++ str "/" ++ (leaf ++ str "/" ++ rest) := by
      simpa [str, shift] using otherSplit
    have heads := congrArg List.head? behind
    cases n with
    | zero => simp [str, leafEq, notSlash] at heads
    | succ n => simp [leafEq, notSlash, List.replicate_succ] at heads
  · intro single
    have stripped : rstripSlash (base ++ str "/") = base := by
      rw [rstripSlash_concat, rstripSlash, List.rdropWhile_eq_self_iff]
      intro nonempty isSlash
      apply single
      rw [decide_eq_true_eq] at isSlash
      refine ⟨base.dropLast, ?_⟩
      conv_rhs => rw [← List.dropLast_append_getLast nonempty, isSlash, List.append_assoc]
      rfl
    rw [modulePathOf, stripped]
    exact nested.within

end Places

section Classes

variable {files moduleRoots : List Str} {terragruntRoot file root leaf : Str}

variable (moduleRoots) in
theorem seen_eq_terragrunt_iff (solid : ¬Ignored terragruntRoot file) :
    seen moduleRoots terragruntRoot file = .terragrunt ↔ terragruntRoot <+: file := by
  constructor
  · intro isTerragrunt
    simp only [seen] at isTerragrunt
    split_ifs at isTerragrunt with tree documentation
    · exact List.isPrefixOf_iff_prefix.mp tree
    · split at isTerragrunt
      · split at isTerragrunt <;> cases isTerragrunt
      · cases isTerragrunt
  · intro tree
    have code : ¬str ".md" <:+ file := fun documentation => solid ⟨tree, documentation⟩
    simp [seen, tree, code]

/-- Without files directly under module roots, the loop finds the files of no class. -/
theorem seen_eq_config_iff (roots : Roots moduleRoots terragruntRoot)
    (noDirect : ∀ root leaf, ¬Direct moduleRoots file root leaf) :
    seen moduleRoots terragruntRoot file = .config ↔
      InClass moduleRoots terragruntRoot file .config := by
  constructor
  · intro isConfig
    have solid : ¬Ignored terragruntRoot file := by
      rw [← seen_eq_ignored_iff moduleRoots, isConfig]
      exact nofun
    refine ⟨?_, ?_⟩
    · rw [← seen_eq_terragrunt_iff moduleRoots solid, isConfig]
      exact nofun
    · intro root leaf nested
      have isModule := (seen_eq_module_iff roots).mpr ⟨root, leaf, Or.inl nested, rfl⟩
      cases isConfig.symm.trans isModule
  · rintro ⟨outside, noModule⟩
    have solid : ¬Ignored terragruntRoot file := fun ignored => outside ignored.1
    cases kind : seen moduleRoots terragruntRoot file with
    | ignored => exact absurd ((seen_eq_ignored_iff moduleRoots).mp kind) solid
    | terragrunt => exact absurd ((seen_eq_terragrunt_iff moduleRoots solid).mp kind) outside
    | module path =>
        rcases (seen_eq_module_iff roots).mp kind with ⟨root, leaf, nested | direct, -⟩
        · exact absurd nested (noModule root leaf)
        · exact absurd direct (noDirect root leaf)
    | config => rfl

/-- The loop takes the files for the same when they are of one class. -/
theorem seen_agree_iff (roots : Roots moduleRoots terragruntRoot)
    (noDirect : ∀ file ∈ files, ∀ root leaf, ¬Direct moduleRoots file root leaf) :
    (∃ kind, ∀ file ∈ files, ¬Ignored terragruntRoot file →
        seen moduleRoots terragruntRoot file = kind) ↔
      ∃ cls, ∀ file ∈ files, ¬Ignored terragruntRoot file →
        InClass moduleRoots terragruntRoot file cls := by
  have nested_of {file path : Str} (fileMem : file ∈ files)
      (isModule : seen moduleRoots terragruntRoot file = .module path) :
      ∃ root leaf, Nested moduleRoots file root leaf ∧ path = modulePathOf root leaf := by
    rcases (seen_eq_module_iff roots).mp isModule with ⟨root, leaf, nested | direct, same⟩
    · exact ⟨root, leaf, nested, same⟩
    · exact absurd direct (noDirect file fileMem root leaf)
  by_cases any : ∃ file ∈ files, ¬Ignored terragruntRoot file
  · rcases any with ⟨first, firstMem, firstSolid⟩
    constructor
    · rintro ⟨kind, each⟩
      have firstKind := each first firstMem firstSolid
      cases kind with
      | ignored => exact absurd ((seen_eq_ignored_iff moduleRoots).mp firstKind) firstSolid
      | terragrunt =>
          refine ⟨.terragrunt, ?_⟩
          intro file fileMem solid
          exact (seen_eq_terragrunt_iff moduleRoots solid).mp (each file fileMem solid)
      | module path =>
          rcases nested_of firstMem firstKind with ⟨root, leaf, nested, rfl⟩
          refine ⟨.module (root ++ leaf), ?_⟩
          intro file fileMem solid
          rcases nested_of fileMem (each file fileMem solid) with ⟨root', leaf', nested', same⟩
          rcases roots.modulePathOf_inj nested.listed nested'.listed nested.plain nested'.plain same
            with ⟨rfl, rfl⟩
          exact ⟨root, leaf, nested', rfl⟩
      | config =>
          refine ⟨.config, ?_⟩
          intro file fileMem solid
          exact (seen_eq_config_iff roots (noDirect file fileMem)).mp (each file fileMem solid)
    · rintro ⟨cls, each⟩
      cases cls with
      | terragrunt =>
          refine ⟨.terragrunt, ?_⟩
          intro file fileMem solid
          exact (seen_eq_terragrunt_iff moduleRoots solid).mpr (each file fileMem solid)
      | module directory =>
          rcases each first firstMem firstSolid with ⟨root, leaf, nested, rfl⟩
          refine ⟨.module (modulePathOf root leaf), ?_⟩
          intro file fileMem solid
          rcases each file fileMem solid with ⟨root', leaf', nested', same⟩
          rcases roots.directory_inj nested.listed nested'.listed same with ⟨rfl, rfl⟩
          exact (seen_eq_module_iff roots).mpr ⟨root, leaf, Or.inl nested', rfl⟩
      | config =>
          refine ⟨.config, ?_⟩
          intro file fileMem solid
          exact (seen_eq_config_iff roots (noDirect file fileMem)).mpr (each file fileMem solid)
  · constructor
    · rintro -
      exact ⟨.config, fun file fileMem solid => absurd ⟨file, fileMem, solid⟩ any⟩
    · rintro -
      exact ⟨.config, fun file fileMem solid => absurd ⟨file, fileMem, solid⟩ any⟩

theorem exists_modulePath
    (isModule : (detectScope files moduleRoots terragruntRoot).scope = .module) :
    ∃ path, (detectScope files moduleRoots terragruntRoot).modulePath = some path := by
  rw [detectScope_eq] at isModule ⊢
  rcases scope_decideScope isModule with ⟨one, -, -, first⟩
  rcases List.length_eq_one_iff.mp one with ⟨entry, same⟩
  rw [first, same]
  exact ⟨entry.1, rfl⟩

/-- A change that names one file directly under a module root has the scope of a module. -/
theorem Direct.scope (direct : Direct moduleRoots file root leaf)
    (roots : Roots moduleRoots terragruntRoot) :
    (detectScope [file] moduleRoots terragruntRoot).scope = .module := by
  have outside := roots.not_terragrunt direct.listed direct.rootWithin
  have solid : ¬Ignored terragruntRoot file := fun ignored => outside ignored.1
  have isModule := (seen_eq_module_iff roots).mpr ⟨root, leaf, Or.inr direct, rfl⟩
  have all : ∀ other ∈ [file], ¬Ignored terragruntRoot other →
      seen moduleRoots terragruntRoot other = .module (modulePathOf root leaf) := by
    intro other otherMem _
    rw [List.mem_singleton.mp otherMem]
    exact isModule
  exact (module_detectScope.mpr ⟨⟨file, List.mem_singleton_self file, solid⟩, all⟩).1

/-- The scope of a change is what its files' places say exactly when no file lies directly under a
module root and the module path leads to the files. -/
theorem detectScope_classifies_iff (roots : Roots moduleRoots terragruntRoot) :
    Classifies files moduleRoots terragruntRoot ↔
      Unambiguous files moduleRoots terragruntRoot := by
  constructor
  · intro classifies
    have noDirect : ∀ file ∈ files, ∀ root leaf, ¬Direct moduleRoots file root leaf := by
      intro file fileMem root leaf direct
      have isConfig := classifies.direct file fileMem root leaf direct
      rw [direct.scope roots] at isConfig
      cases isConfig
    refine ⟨noDirect, ?_⟩
    rintro root leaf ⟨first, firstMem, firstSolid⟩ each
    have all (file : Str) (fileMem : file ∈ files) (solid : ¬Ignored terragruntRoot file) :
        seen moduleRoots terragruntRoot file = .module (modulePathOf root leaf) :=
      (seen_eq_module_iff roots).mpr ⟨root, leaf, Or.inl (each file fileMem solid), rfl⟩
    have answer := module_detectScope.mpr ⟨⟨first, firstMem, firstSolid⟩, all⟩
    rcases classifies.modulePath answer.1 with ⟨path, isPath, within⟩
    rw [answer.2, Option.some.injEq] at isPath
    subst isPath
    have nested := each first firstMem firstSolid
    exact (modulePathOf_within_iff nested (roots.slash root nested.listed)).mp
      (within first firstMem firstSolid)
  · rintro ⟨noDirect, noSlashes⟩
    refine ⟨fun _ => detectScope_congr, ?_, ?_, ?_⟩
    · rw [valid_detectScope]
      exact seen_agree_iff roots noDirect
    · intro isModule
      rcases exists_modulePath isModule with ⟨path, isPath⟩
      refine ⟨path, isPath, ?_⟩
      rcases module_detectScope.mp ⟨isModule, isPath⟩ with ⟨any, all⟩
      intro file fileMem solid
      have place (file : Str) (fileMem : file ∈ files) (solid : ¬Ignored terragruntRoot file) :
          ∃ root leaf, Nested moduleRoots file root leaf ∧ path = modulePathOf root leaf := by
        rcases (seen_eq_module_iff roots).mp (all file fileMem solid)
          with ⟨root, leaf, nested | direct, same⟩
        · exact ⟨root, leaf, nested, same⟩
        · exact absurd direct (noDirect file fileMem root leaf)
      rcases place file fileMem solid with ⟨root, leaf, nested, rfl⟩
      apply (modulePathOf_within_iff nested (roots.slash root nested.listed)).mpr
      apply noSlashes root leaf any
      intro other otherMem otherSolid
      rcases place other otherMem otherSolid with ⟨root', leaf', nested', same⟩
      rcases roots.modulePathOf_inj nested.listed nested'.listed nested.plain nested'.plain same
        with ⟨rfl, rfl⟩
      exact nested'
    · intro file fileMem root leaf direct
      exact absurd direct (noDirect file fileMem root leaf)

/-- One of the configured module roots. -/
def primitivesRoot : Str := str "providers/aws/primitives/"

/-- The configured terragrunt root. -/
def terragruntTree : Str := str "terragrunt/"

theorem roots_primitives : Roots [primitivesRoot] terragruntTree := by
  refine ⟨?_, List.pairwise_singleton _ _, ?_⟩
  · intro root rootMem
    rw [List.mem_singleton.mp rootMem]
    decide
  · intro root rootMem
    rw [List.mem_singleton.mp rootMem]
    exact ⟨by decide, by decide⟩

/-- Changes to one module and documentation in the terragrunt tree are classified. -/
theorem classifies_kmsKey :
    Classifies [str "providers/aws/primitives/kms-key/main.tf", str "terragrunt/README.md"]
      [primitivesRoot] terragruntTree := by
  apply (detectScope_classifies_iff roots_primitives).mpr
  refine ⟨?_, ?_⟩
  · rintro file fileMem root leaf ⟨rootMem, -, plain, same⟩
    rw [List.mem_singleton.mp rootMem] at same
    apply plain
    rcases List.mem_pair.mp fileMem with rfl | rfl
    · have leafEq := congrArg (List.drop primitivesRoot.length) same
      rw [List.drop_left] at leafEq
      rw [← leafEq]
      decide
    · have heads := congrArg List.head? same
      simp [primitivesRoot, str] at heads
  · rintro root leaf - each
    have nested := each _ (List.mem_cons_self ..) fun ignored => absurd ignored.1 (by decide)
    rw [List.mem_singleton.mp nested.listed]
    decide

/-- Documentation directly under a module root has the scope of a module. -/
theorem not_classifies_primitivesReadme :
    ¬Classifies [str "providers/aws/primitives/README.md"] [primitivesRoot] terragruntTree := by
  intro classifies
  have direct : Direct [primitivesRoot] (str "providers/aws/primitives/README.md") primitivesRoot
      (str "README.md") := ⟨List.mem_singleton_self _, by decide, by decide, by decide⟩
  have isConfig := classifies.direct _ (List.mem_singleton_self _) _ _ direct
  rw [direct.scope roots_primitives] at isConfig
  cases isConfig

end Classes

end Release
