import Mathlib.Data.List.DropRight
import Mathlib.Data.List.Pairwise
import TelemetryPlatform.Deploy.Partition
import TelemetryPlatform.Library.Tally
import TelemetryPlatform.Library.Text

/-!
# The scope of a change

`detect_scope` of `scripts/detect_scope.py` sorts the changed files into one of
three kinds, those of a module directory, those of the terragrunt tree and all
others, and accepts a change whose files are all of one kind. Reading the
configuration and the command line are left out.

The answer depends on the set of kinds that the loop sees, not on how often or in
which order it sees them.
-/

namespace Release

open Python
open Deploy (strLe strLe_trans strLe_total strLe_antisymm)

/-- The constants `SCOPE_*`. -/
inductive Scope where
  | module
  | terragrunt
  | config
  | multiModule
  | mixed
  deriving DecidableEq

/-- The dictionary `detect_scope` returns. -/
structure ScopeResult where
  scope : Scope
  modulePath : Option Str
  modules : List Str
  valid : Bool
  violations : List Str
  deriving DecidableEq

section Source

/-- `text.rstrip("/")`. -/
def rstripSlash (text : Str) : Str := text.rdropWhile fun c => decide (c = .char '/')

/-- `_find_module_path`. -/
def findModulePath (filePath moduleRoot : Str) : Option Str :=
  let remainder := filePath.drop moduleRoot.length
  let leaf := beforeFirst (.char '/') remainder
  if leaf = [] then none
  else some (rstripSlash moduleRoot ++ str "/" ++ leaf)

/-- The files found so far, by kind. -/
structure Found where
  terragruntFiles : List Str
  moduleFiles : List (Str × List Str)
  configFiles : List Str

/-- The body of the loop over the changed files. -/
def classifyFile (moduleRoots : List Str) (terragruntRoot : Str) (found : Found)
    (filePath : Str) : Found :=
  if terragruntRoot.isPrefixOf filePath then
    -- documentation under the terragrunt tree is no deployable unit
    if (str ".md").isSuffixOf filePath then found
    else { found with terragruntFiles := found.terragruntFiles ++ [filePath] }
  else
    match moduleRoots.find? fun root => root.isPrefixOf filePath with
    | some matchedRoot =>
        match findModulePath filePath matchedRoot with
        | none => { found with configFiles := found.configFiles ++ [filePath] }
        | some modulePath =>
            { found with moduleFiles := dictAppend found.moduleFiles modulePath filePath }
    | none => { found with configFiles := found.configFiles ++ [filePath] }

def accepted (scope : Scope) (modulePath : Option Str) : ScopeResult :=
  ⟨scope, modulePath, [], true, []⟩

def rejected (scope : Scope) (violation : Str) : ScopeResult :=
  ⟨scope, none, [], false, [violation]⟩

/-- The decision table. -/
def decideScope (found : Found) : ScopeResult :=
  let numModules := found.moduleFiles.length
  let hasTerragrunt := decide (found.terragruntFiles.length > 0)
  let hasConfig := decide (found.configFiles.length > 0)
  let names := (str ", ").intercalate ((found.moduleFiles.map Prod.fst).mergeSort strLe)
  let closing := str ". A PR must touch exactly one scope (AC-15)."
  if numModules ≥ 2 then
    rejected .multiModule (str "ERROR: PR spans " ++ (Runtime.intText numModules).map .char ++
      str " module scopes: " ++ names ++ closing)
  else if numModules ≥ 1 ∧ (hasTerragrunt || hasConfig) then
    let touched := [str "module (" ++ names ++ str ")"] ++
      (if hasTerragrunt then [str "terragrunt"] else []) ++
      (if hasConfig then [str "config"] else [])
    rejected .mixed (str "ERROR: PR spans mixed scopes: " ++ (str "; ").intercalate touched ++
      closing)
  else if hasTerragrunt && hasConfig then
    rejected .mixed (str "ERROR: PR spans mixed scopes: terragrunt and config" ++ closing)
  else if numModules = 1 ∧ !hasTerragrunt ∧ !hasConfig then
    accepted .module ((found.moduleFiles.map Prod.fst).head?)
  else if hasTerragrunt ∧ !hasConfig ∧ numModules = 0 then
    accepted .terragrunt none
  else
    accepted .config none

def detectScope (changedFiles moduleRoots : List Str) (terragruntRoot : Str) : ScopeResult :=
  if changedFiles = [] then accepted .config none
  else decideScope (changedFiles.foldl (classifyFile moduleRoots terragruntRoot) ⟨[], [], []⟩)

end Source

section Loop

variable {moduleRoots : List Str} {terragruntRoot : Str}

/-- What the loop takes a file for. -/
inductive Seen where
  | ignored
  | terragrunt
  | module (modulePath : Str)
  | config

def seen (moduleRoots : List Str) (terragruntRoot file : Str) : Seen :=
  if terragruntRoot.isPrefixOf file then
    if (str ".md").isSuffixOf file then .ignored else .terragrunt
  else
    match moduleRoots.find? fun root => root.isPrefixOf file with
    | some matchedRoot =>
        match findModulePath file matchedRoot with
        | none => .config
        | some modulePath => .module modulePath
    | none => .config

theorem classifyFile_eq (found : Found) (file : Str) :
    classifyFile moduleRoots terragruntRoot found file =
      match seen moduleRoots terragruntRoot file with
      | .ignored => found
      | .terragrunt => { found with terragruntFiles := found.terragruntFiles ++ [file] }
      | .module modulePath =>
          { found with moduleFiles := dictAppend found.moduleFiles modulePath file }
      | .config => { found with configFiles := found.configFiles ++ [file] } := by
  simp only [classifyFile, seen]
  by_cases tree : terragruntRoot.isPrefixOf file = true
  · by_cases documentation : (str ".md").isSuffixOf file = true
    · simp [tree, documentation]
    · simp [tree, documentation]
  · simp only [tree, Bool.false_eq_true, if_false]
    cases moduleRoots.find? fun root => root.isPrefixOf file with
    | none => rfl
    | some root => cases pathFound : findModulePath file root <;> simp only [pathFound]

/-- What the loop has found after these files. -/
structure Collected (moduleRoots : List Str) (terragruntRoot : Str) (files : List Str)
    (found : Found) : Prop where
  terragrunt : 0 < found.terragruntFiles.length ↔
    ∃ file ∈ files, seen moduleRoots terragruntRoot file = .terragrunt
  config : 0 < found.configFiles.length ↔
    ∃ file ∈ files, seen moduleRoots terragruntRoot file = .config
  nodup : (found.moduleFiles.map Prod.fst).Nodup
  modules : ∀ path, path ∈ found.moduleFiles.map Prod.fst ↔
    ∃ file ∈ files, seen moduleRoots terragruntRoot file = .module path

theorem Collected.nil : Collected moduleRoots terragruntRoot [] ⟨[], [], []⟩ :=
  ⟨by simp, by simp, List.nodup_nil, by simp⟩

theorem Collected.append {files : List Str} {found : Found}
    (collected : Collected moduleRoots terragruntRoot files found) (file : Str) :
    Collected moduleRoots terragruntRoot (files ++ [file])
      (classifyFile moduleRoots terragruntRoot found file) := by
  rcases collected with ⟨terragrunt, config, nodup, modules⟩
  rw [classifyFile_eq]
  cases kind : seen moduleRoots terragruntRoot file with
  | ignored =>
      refine ⟨?_, ?_, nodup, ?_⟩
      · simp [terragrunt, kind, or_and_right, exists_or]
      · simp [config, kind, or_and_right, exists_or]
      · simp [modules, kind, or_and_right, exists_or]
  | terragrunt =>
      refine ⟨?_, ?_, nodup, ?_⟩
      · simp [kind, or_and_right, exists_or]
      · simp [config, kind, or_and_right, exists_or]
      · simp [modules, kind, or_and_right, exists_or]
  | module path =>
      refine ⟨?_, ?_, nodup_keys_dictSet nodup, ?_⟩
      · simp [terragrunt, kind, or_and_right, exists_or]
      · simp [config, kind, or_and_right, exists_or]
      · intro other
        simp only [dictAppend]
        rw [mem_keys_dictSet, modules]
        simp [kind, or_and_right, exists_or, or_comm, eq_comm]
  | config =>
      refine ⟨?_, ?_, nodup, ?_⟩
      · simp [terragrunt, kind, or_and_right, exists_or]
      · simp [kind, or_and_right, exists_or]
      · simp [modules, kind, or_and_right, exists_or]

variable (moduleRoots terragruntRoot) in
theorem collected_foldl (files : List Str) :
    Collected moduleRoots terragruntRoot files
      (files.foldl (classifyFile moduleRoots terragruntRoot) ⟨[], [], []⟩) := by
  induction files using List.reverseRecOn with
  | nil => exact Collected.nil
  | append_singleton files file ih =>
      rw [List.foldl_append]
      exact ih.append file

/-- The empty change is decided like any other. -/
theorem detectScope_eq (files : List Str) :
    detectScope files moduleRoots terragruntRoot =
      decideScope (files.foldl (classifyFile moduleRoots terragruntRoot) ⟨[], [], []⟩) := by
  rw [detectScope]
  split
  · next empty =>
      rw [empty]
      rfl
  · rfl

end Loop

section Decision

/-- The decision depends on which kinds of files were found and on the set of modules. -/
theorem decideScope_congr {found found' : Found}
    (terragrunt : 0 < found'.terragruntFiles.length ↔ 0 < found.terragruntFiles.length)
    (config : 0 < found'.configFiles.length ↔ 0 < found.configFiles.length)
    (modules : (found'.moduleFiles.map Prod.fst).Perm (found.moduleFiles.map Prod.fst)) :
    decideScope found' = decideScope found := by
  have sorted : (found'.moduleFiles.map Prod.fst).mergeSort strLe =
      (found.moduleFiles.map Prod.fst).mergeSort strLe :=
    mergeSort_eq_of_perm strLe_trans strLe_total (fun _ _ _ _ => strLe_antisymm) modules
  have number : found'.moduleFiles.length = found.moduleFiles.length := by
    simpa using modules.length_eq
  have first : found.moduleFiles.length = 1 →
      (found'.moduleFiles.map Prod.fst).head? = (found.moduleFiles.map Prod.fst).head? := by
    intro one
    rcases List.length_eq_one_iff.mp one with ⟨entry, same⟩
    rw [same, List.map_singleton, List.perm_singleton] at modules
    rw [modules, same, List.map_singleton]
  simp only [decideScope, gt_iff_lt, terragrunt, config, sorted, number]
  by_cases one : found.moduleFiles.length = 1
  · rw [first one]
  · simp [one]

/-- A change is accepted when only one kind of files was found. -/
theorem valid_decideScope (found : Found) :
    (decideScope found).valid = true ↔
      found.moduleFiles.length ≤ 1 ∧
        ¬(found.moduleFiles.length = 1 ∧
          (0 < found.terragruntFiles.length ∨ 0 < found.configFiles.length)) ∧
        ¬(0 < found.terragruntFiles.length ∧ 0 < found.configFiles.length) := by
  by_cases terragrunt : 0 < found.terragruntFiles.length
  · by_cases config : 0 < found.configFiles.length
    · simp only [decideScope, gt_iff_lt, terragrunt, config]
      split_ifs <;> simp_all [rejected]
    · simp only [decideScope, gt_iff_lt, terragrunt, config]
      split_ifs <;> simp_all [accepted, rejected] <;> omega
  · by_cases config : 0 < found.configFiles.length
    · simp only [decideScope, gt_iff_lt, terragrunt, config]
      split_ifs <;> simp_all [accepted, rejected] <;> omega
    · simp only [decideScope, gt_iff_lt, terragrunt, config]
      split_ifs <;> simp_all [accepted, rejected]
      all_goals omega

/-- The scope of a change is a module when the files of one module were found and no others. -/
theorem scope_decideScope {found : Found} (isModule : (decideScope found).scope = .module) :
    found.moduleFiles.length = 1 ∧ ¬0 < found.terragruntFiles.length ∧
      ¬0 < found.configFiles.length ∧
        (decideScope found).modulePath = (found.moduleFiles.map Prod.fst).head? := by
  simp only [decideScope] at isModule ⊢
  split_ifs at isModule ⊢ <;> simp_all [accepted, rejected]

theorem scope_decideScope_of_one {found : Found} (one : found.moduleFiles.length = 1)
    (terragrunt : ¬0 < found.terragruntFiles.length) (config : ¬0 < found.configFiles.length) :
    (decideScope found).scope = .module := by
  simp [decideScope, one, terragrunt, config, accepted]

end Decision

section Change

variable {moduleRoots files : List Str} {terragruntRoot file : Str}

/-- Documentation under the terragrunt tree. -/
def Ignored (terragruntRoot file : Str) : Prop := terragruntRoot <+: file ∧ str ".md" <:+ file

variable (moduleRoots) in
theorem seen_eq_ignored_iff :
    seen moduleRoots terragruntRoot file = .ignored ↔ Ignored terragruntRoot file := by
  simp only [seen, Ignored, List.isPrefixOf_iff_prefix, List.isSuffixOf_iff_suffix]
  split_ifs with tree documentation
  · simp [tree, documentation]
  · simp [documentation]
  · split
    · split <;> simp [tree]
    · simp [tree]

/-- Order, repetitions and documentation in the terragrunt tree do not matter. -/
theorem detectScope_congr {files' : List Str}
    (same : ∀ file, ¬Ignored terragruntRoot file → (file ∈ files' ↔ file ∈ files)) :
    detectScope files' moduleRoots terragruntRoot =
      detectScope files moduleRoots terragruntRoot := by
  have kinds (kind : Seen) (solid : kind ≠ .ignored) :
      (∃ file ∈ files', seen moduleRoots terragruntRoot file = kind) ↔
        ∃ file ∈ files, seen moduleRoots terragruntRoot file = kind := by
    apply exists_congr
    intro file
    apply and_congr_left
    intro isKind
    apply same
    rw [← seen_eq_ignored_iff moduleRoots, isKind]
    exact solid
  have found := collected_foldl moduleRoots terragruntRoot files
  have found' := collected_foldl moduleRoots terragruntRoot files'
  rw [detectScope_eq, detectScope_eq]
  apply decideScope_congr
  · rw [found.terragrunt, found'.terragrunt, kinds .terragrunt nofun]
  · rw [found.config, found'.config, kinds .config nofun]
  · rw [List.perm_ext_iff_of_nodup found'.nodup found.nodup]
    intro path
    rw [found.modules, found'.modules, kinds (.module path) nofun]

theorem eq_singleton {keys : List Str} {key : Str} (distinct : keys.Nodup) (keyMem : key ∈ keys)
    (only : ∀ other ∈ keys, other = key) : keys = [key] := by
  apply List.perm_singleton.mp
  rw [List.perm_ext_iff_of_nodup distinct (List.nodup_singleton key)]
  intro other
  rw [List.mem_singleton]
  constructor
  · exact only other
  · rintro rfl
    exact keyMem

theorem Collected.length_modules {found : Found}
    (collected : Collected moduleRoots terragruntRoot files found) {path : Str}
    (few : found.moduleFiles.length ≤ 1) (fileMem : file ∈ files)
    (isModule : seen moduleRoots terragruntRoot file = .module path) :
    found.moduleFiles.map Prod.fst = [path] := by
  have pathMem := (collected.modules path).mpr ⟨file, fileMem, isModule⟩
  rw [← List.length_map Prod.fst] at few
  cases keys : found.moduleFiles.map Prod.fst with
  | nil => simp [keys] at pathMem
  | cons first rest =>
      simp only [keys, List.length_cons] at few
      have alone : rest = [] := List.length_eq_zero_iff.mp (by omega)
      rw [keys, alone, List.mem_singleton] at pathMem
      rw [alone, pathMem]

/-- The loop takes any two files of an accepted change for the same. -/
theorem Collected.agree {found : Found}
    (collected : Collected moduleRoots terragruntRoot files found)
    (valid : (decideScope found).valid = true) {first second : Str} (firstMem : first ∈ files)
    (secondMem : second ∈ files) (firstSolid : ¬Ignored terragruntRoot first)
    (secondSolid : ¬Ignored terragruntRoot second) :
    seen moduleRoots terragruntRoot first = seen moduleRoots terragruntRoot second := by
  rw [← seen_eq_ignored_iff moduleRoots] at firstSolid secondSolid
  rw [valid_decideScope, collected.terragrunt, collected.config] at valid
  rcases valid with ⟨few, alone, apart⟩
  have one {file path : Str} (fileMem : file ∈ files)
      (isModule : seen moduleRoots terragruntRoot file = .module path) :
      found.moduleFiles.length = 1 := by
    have keys := collected.length_modules few fileMem isModule
    simpa using congrArg List.length keys
  cases firstKind : seen moduleRoots terragruntRoot first with
  | ignored => exact absurd firstKind firstSolid
  | terragrunt =>
      cases secondKind : seen moduleRoots terragruntRoot second with
      | ignored => exact absurd secondKind secondSolid
      | terragrunt => rfl
      | module path =>
          exact absurd ⟨one secondMem secondKind, Or.inl ⟨first, firstMem, firstKind⟩⟩ alone
      | config => exact absurd ⟨⟨first, firstMem, firstKind⟩, ⟨second, secondMem, secondKind⟩⟩ apart
  | module path =>
      cases secondKind : seen moduleRoots terragruntRoot second with
      | ignored => exact absurd secondKind secondSolid
      | terragrunt =>
          exact absurd ⟨one firstMem firstKind, Or.inl ⟨second, secondMem, secondKind⟩⟩ alone
      | module other =>
          have keys := collected.length_modules few firstMem firstKind
          rw [collected.length_modules few secondMem secondKind, List.singleton_inj] at keys
          rw [keys]
      | config =>
          exact absurd ⟨one firstMem firstKind, Or.inr ⟨second, secondMem, secondKind⟩⟩ alone
  | config =>
      cases secondKind : seen moduleRoots terragruntRoot second with
      | ignored => exact absurd secondKind secondSolid
      | terragrunt =>
          exact absurd ⟨⟨second, secondMem, secondKind⟩, ⟨first, firstMem, firstKind⟩⟩ apart
      | module path =>
          exact absurd ⟨one secondMem secondKind, Or.inr ⟨first, firstMem, firstKind⟩⟩ alone
      | config => rfl

/-- A change is accepted when the loop takes all files for the same. -/
theorem valid_detectScope :
    (detectScope files moduleRoots terragruntRoot).valid = true ↔
      ∃ kind, ∀ file ∈ files, ¬Ignored terragruntRoot file →
        seen moduleRoots terragruntRoot file = kind := by
  have found := collected_foldl moduleRoots terragruntRoot files
  rw [detectScope_eq]
  generalize files.foldl (classifyFile moduleRoots terragruntRoot) ⟨[], [], []⟩ = state at found
  constructor
  · intro valid
    by_cases any : ∃ file ∈ files, ¬Ignored terragruntRoot file
    · rcases any with ⟨first, firstMem, firstSolid⟩
      refine ⟨seen moduleRoots terragruntRoot first, ?_⟩
      intro file fileMem solid
      exact found.agree valid fileMem firstMem solid firstSolid
    · refine ⟨.config, ?_⟩
      intro file fileMem solid
      exact absurd ⟨file, fileMem, solid⟩ any
  · rintro ⟨kind, each⟩
    have only {file : Str} {other : Seen} (fileMem : file ∈ files)
        (isOther : seen moduleRoots terragruntRoot file = other) (solid : other ≠ .ignored) :
        other = kind := by
      rw [← isOther]
      apply each file fileMem
      rw [← seen_eq_ignored_iff moduleRoots, isOther]
      exact solid
    have few : state.moduleFiles.length ≤ 1 := by
      have each (path : Str) (pathMem : path ∈ state.moduleFiles.map Prod.fst) :
          Seen.module path = kind := by
        rcases (found.modules path).mp pathMem with ⟨file, fileMem, isModule⟩
        exact only fileMem isModule nofun
      rw [← List.length_map Prod.fst]
      by_cases empty : state.moduleFiles.map Prod.fst = []
      · simp [empty]
      · rcases List.exists_mem_of_ne_nil _ empty with ⟨path, pathMem⟩
        have alone := eq_singleton found.nodup pathMem fun other otherMem =>
          Seen.module.inj ((each other otherMem).trans (each path pathMem).symm)
        simp [alone]
    rw [valid_decideScope, found.terragrunt, found.config]
    refine ⟨few, ?_, ?_⟩
    · rintro ⟨one, others⟩
      rw [← List.length_map Prod.fst, List.length_eq_one_iff] at one
      rcases one with ⟨path, keys⟩
      rcases (found.modules path).mp (by simp [keys]) with ⟨file, fileMem, isModule⟩
      have kindEq := only fileMem isModule nofun
      rcases others with ⟨other, otherMem, isOther⟩ | ⟨other, otherMem, isOther⟩
      · cases (only otherMem isOther nofun).trans kindEq.symm
      · cases (only otherMem isOther nofun).trans kindEq.symm
    · rintro ⟨⟨first, firstMem, isFirst⟩, ⟨second, secondMem, isSecond⟩⟩
      cases (only firstMem isFirst nofun).trans (only secondMem isSecond nofun).symm

/-- A change has the scope of a module exactly when the loop takes all files for files of it. -/
theorem module_detectScope {path : Str} :
    ((detectScope files moduleRoots terragruntRoot).scope = .module ∧
        (detectScope files moduleRoots terragruntRoot).modulePath = some path) ↔
      (∃ file ∈ files, ¬Ignored terragruntRoot file) ∧
        ∀ file ∈ files, ¬Ignored terragruntRoot file →
          seen moduleRoots terragruntRoot file = .module path := by
  have found := collected_foldl moduleRoots terragruntRoot files
  rw [detectScope_eq]
  generalize files.foldl (classifyFile moduleRoots terragruntRoot) ⟨[], [], []⟩ = state at found
  constructor
  · rintro ⟨isModule, isPath⟩
    rcases scope_decideScope isModule with ⟨one, terragrunt, config, first⟩
    rw [← List.length_map Prod.fst, List.length_eq_one_iff] at one
    rcases one with ⟨only, keys⟩
    rw [isPath, keys, List.head?_cons, Option.some.injEq] at first
    subst first
    rcases (found.modules path).mp (by simp [keys]) with ⟨file, fileMem, fileKind⟩
    refine ⟨⟨file, fileMem, ?_⟩, ?_⟩
    · rw [← seen_eq_ignored_iff moduleRoots, fileKind]
      exact nofun
    · intro other otherMem solid
      cases kind : seen moduleRoots terragruntRoot other with
      | ignored => exact absurd ((seen_eq_ignored_iff moduleRoots).mp kind) solid
      | terragrunt => exact absurd (found.terragrunt.mpr ⟨other, otherMem, kind⟩) terragrunt
      | module otherPath =>
          have listed := (found.modules otherPath).mpr ⟨other, otherMem, kind⟩
          rw [keys, List.mem_singleton] at listed
          rw [listed]
      | config => exact absurd (found.config.mpr ⟨other, otherMem, kind⟩) config
  · rintro ⟨⟨file, fileMem, solid⟩, each⟩
    have noOther {other : Str} {kind : Seen} (otherMem : other ∈ files)
        (isKind : seen moduleRoots terragruntRoot other = kind) (notIgnored : kind ≠ .ignored) :
        kind = .module path := by
      rw [← isKind]
      apply each other otherMem
      rw [← seen_eq_ignored_iff moduleRoots, isKind]
      exact notIgnored
    have keys : state.moduleFiles.map Prod.fst = [path] := by
      cases isKind : seen moduleRoots terragruntRoot file with
      | ignored => exact absurd ((seen_eq_ignored_iff moduleRoots).mp isKind) solid
      | terragrunt => cases noOther fileMem isKind nofun
      | config => cases noOther fileMem isKind nofun
      | module filePath =>
          have own := noOther fileMem isKind nofun
          rw [own] at isKind
          apply eq_singleton found.nodup ((found.modules path).mpr ⟨file, fileMem, isKind⟩)
          intro other listed
          rcases (found.modules other).mp listed with ⟨otherFile, otherMem, otherKind⟩
          exact Seen.module.inj (noOther otherMem otherKind nofun)
    have one : state.moduleFiles.length = 1 := by
      simpa using congrArg List.length keys
    have isModule : (decideScope state).scope = .module := by
      apply scope_decideScope_of_one one
      · intro some
        rcases found.terragrunt.mp some with ⟨other, otherMem, kind⟩
        cases noOther otherMem kind nofun
      · intro some
        rcases found.config.mp some with ⟨other, otherMem, kind⟩
        cases noOther otherMem kind nofun
    refine ⟨isModule, ?_⟩
    rw [(scope_decideScope isModule).2.2.2, keys]
    rfl

end Change

end Release
