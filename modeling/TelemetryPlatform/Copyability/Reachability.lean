import TelemetryPlatform.Copyability.ConfigPaths

/-!
# The closure is closed

The instances of a live tree as a graph, whose edges are the instance-relative
`config_path`s. `_service_instance_closure` computes what a leaf reaches in it, and the
copies of that have among themselves the edges the originals have.
-/

namespace Copyability

open Python

section Prefixes

/-- A prefix begins with the way up. -/
theorem exists_of_mem_prefixes {text relPrefix : Str}
    (prefixMem : relPrefix ∈ configPathPrefixes text) : ∃ more, relPrefix = str "../" ++ more := by
  rcases mem_configPathPrefixes.mp prefixMem with ⟨_, _, _, _, _, _, _, more, rfl, _⟩
  exact ⟨more, rfl⟩

theorem ofText_prefix {text relPrefix : Str} (prefixMem : relPrefix ∈ configPathPrefixes text) :
    ∃ rest, PosixPath.ofText relPrefix = ⟨false, up :: rest⟩ := by
  rcases exists_of_mem_prefixes prefixMem with ⟨more, rfl⟩
  have split : (str "../" ++ more).splitOn (.char '/') = str ".." :: more.splitOn (.char '/') := by
    have front : ∀ c ∈ str "..", (c == Chr.char '/') = false := by decide
    exact List.splitOnP_append_cons_of_forall_mem front (.char '/') rfl more
  refine ⟨(more.splitOn (.char '/')).filterMap part?, ?_⟩
  unfold PosixPath.ofText
  rw [split]
  rfl

end Prefixes

section Graph

variable (tree : LiveTree)

/-- Where a prefix leads from an instance. -/
def follow (instance_ : List Part) (relPrefix : Str) : List Part :=
  ((PosixPath.ofText relPrefix).parts ++ instance_.head?.toList).foldl
    (PosixPath.collapse true) instance_

/-- An instance refers to another. -/
def Refers (instance_ dependency : List Part) : Prop :=
  ∃ text, tree.files (terragruntHcl :: instance_) = some text ∧
    ∃ relPrefix ∈ configPathPrefixes text, dependency = follow instance_ relPrefix

/-- An instance is a directory with a `terragrunt.hcl`. -/
def IsUnit (dir : List Part) : Prop :=
  dir ∈ tree.dirs ∧ (tree.files (terragruntHcl :: dir)).isSome = true

/-- An instance is reached from another by the `config_path`s. -/
def Reaches : List Part → List Part → Prop :=
  Relation.ReflTransGen (Refers tree)

end Graph

section Named

variable {tree : LiveTree} {name : Part} {unit : PosixPath} {text relPrefix : Str}

theorem resolve_child (tree : LiveTree) (path : PosixPath) (proper : name ≠ up) :
    tree.resolve (path.child name) = name :: tree.resolve path := PosixPath.place_child path proper

theorem resolve_of_name (tree : LiveTree) (proper : name ≠ up) (named : unit.name = some name) :
    tree.resolve unit = name :: tree.resolve unit.parent := by
  have split := resolve_child tree unit.parent proper
  rwa [← PosixPath.eq_child_of_name named] at split

/-- A copy is beside its source. -/
theorem resolve_destination (tree : LiveTree) {destName : Part} (proper : name ≠ up)
    (destProper : destName ≠ up) (named : unit.name = some name) :
    tree.resolve (destination destName unit) = destName :: (tree.resolve unit).tail := by
  rw [resolve_of_name tree proper named, List.tail_cons]
  exact resolve_child tree unit.parent destProper

/-- The parts of a dependency's path before it is normalized. -/
theorem dependencyDir_eq (named : unit.name = some name) {rest : List Part}
    (relative : PosixPath.ofText relPrefix = ⟨false, up :: rest⟩) :
    dependencyDir unit relPrefix =
      ((⟨unit.absolute, unit.parent.parts ++ name :: up :: rest⟩ : PosixPath).child
        name).normpath := by
  have split := PosixPath.eq_child_of_name named
  unfold dependencyDir
  rw [relative, named]
  congr 1
  rw [split]
  simp [PosixPath.join, PosixPath.child, PosixPath.parent]

theorem name_dependencyDir (proper : name ≠ up) (named : unit.name = some name)
    (prefixMem : relPrefix ∈ configPathPrefixes text) :
    (dependencyDir unit relPrefix).name = some name := by
  rcases ofText_prefix prefixMem with ⟨rest, relative⟩
  rw [dependencyDir_eq named relative]
  exact PosixPath.name_normpath proper (PosixPath.name_child _ name)

/-- A dependency is reached from the directory of the unit, by the rest of the prefix. -/
theorem resolve_dependencyDir_eq (tree : LiveTree) (proper : name ≠ up)
    (named : unit.name = some name) {rest : List Part}
    (relative : PosixPath.ofText relPrefix = ⟨false, up :: rest⟩) :
    tree.resolve (dependencyDir unit relPrefix) =
      name :: rest.foldl (PosixPath.collapse true) (tree.resolve unit.parent) := by
  rw [dependencyDir_eq named relative, LiveTree.resolve, PosixPath.place_normpath,
    PosixPath.place_child _ proper]
  unfold PosixPath.place
  rw [PosixPath.foldl_collapse_up proper, List.foldl_append]
  rfl

/-- A dependency is where its prefix leads from the place of the unit. -/
theorem resolve_dependencyDir (tree : LiveTree) (proper : name ≠ up)
    (named : unit.name = some name) (prefixMem : relPrefix ∈ configPathPrefixes text) :
    tree.resolve (dependencyDir unit relPrefix) = follow (tree.resolve unit) relPrefix := by
  rcases ofText_prefix prefixMem with ⟨rest, relative⟩
  rw [resolve_dependencyDir_eq tree proper named relative, resolve_of_name tree proper named]
  unfold follow
  rw [relative, List.head?_cons, Option.toList_some, PosixPath.foldl_collapse_concat proper,
    List.foldl_cons, PosixPath.collapse_up proper]

/-- The dependency of a copy is beside the dependency of its source. -/
theorem resolve_dependencyDir_destination (tree : LiveTree) {destName : Part}
    (proper : name ≠ up) (destProper : destName ≠ up) (named : unit.name = some name)
    (prefixMem : relPrefix ∈ configPathPrefixes text) :
    tree.resolve (dependencyDir (destination destName unit) relPrefix) =
      destName :: (tree.resolve (dependencyDir unit relPrefix)).tail := by
  rcases ofText_prefix prefixMem with ⟨rest, relative⟩
  have copyNamed : (destination destName unit).name = some destName :=
    PosixPath.name_child unit.parent destName
  rw [resolve_dependencyDir_eq tree destProper copyNamed relative,
    resolve_dependencyDir_eq tree proper named relative, List.tail_cons]
  unfold destination
  rw [PosixPath.parent_child]

end Named

section Closure

variable {tree : LiveTree} {name : Part} {leaf : PosixPath}

/-- The file of a unit is in its directory. -/
theorem resolve_terragruntHcl (tree : LiveTree) (unit : PosixPath) :
    tree.resolve (unit.child terragruntHcl) = terragruntHcl :: tree.resolve unit :=
  resolve_child tree unit (by decide)

/-- The references of a unit. -/
theorem instanceDependencyDirs_ok {unit : PosixPath} {deps : List PosixPath}
    (found : instanceDependencyDirs tree unit = .ok deps) :
    ∃ text, tree.files (terragruntHcl :: tree.resolve unit) = some text ∧
      ∀ dep, dep ∈ deps ↔
        ∃ relPrefix ∈ configPathPrefixes text, dep = dependencyDir unit relPrefix := by
  rw [instanceDependencyDirs, LiveTree.read?, resolve_terragruntHcl] at found
  cases content : tree.files (terragruntHcl :: tree.resolve unit) with
  | none =>
      rw [content] at found
      cases found
  | some text =>
      rw [content] at found
      cases found
      refine ⟨text, rfl, ?_⟩
      intro dep
      rw [List.mem_mergeSort, List.mem_dedup, List.mem_map]
      simp only [eq_comm]

theorem instanceDependencyDirs_error {unit : PosixPath} {error : CopyabilityError}
    (failed : instanceDependencyDirs tree unit = .error error) :
    tree.files (terragruntHcl :: tree.resolve unit) = none := by
  rw [instanceDependencyDirs, LiveTree.read?, resolve_terragruntHcl] at failed
  cases content : tree.files (terragruntHcl :: tree.resolve unit) with
  | none => rfl
  | some text =>
      rw [content] at failed
      cases failed

/-- The search reads the graph of the instances with one name. -/
theorem closureSearch_represents (tree : LiveTree) (proper : name ≠ up) :
    Worklist.Represents (closureSearch tree) (Refers tree) (IsUnit tree)
      (fun unit => unit.name = some name) tree.dirs where
  expanded := by
    intro unit deps named found
    rcases instanceDependencyDirs_ok found with ⟨text, content, members⟩
    refine ⟨⟨?_, ?_⟩, ?_, ?_⟩
    · exact tree.parents (terragruntHcl :: tree.resolve unit) (Option.isSome_of_eq_some content)
    · exact Option.isSome_of_eq_some content
    · intro dep depMem
      rcases (members dep).mp depMem with ⟨relPrefix, prefixMem, rfl⟩
      exact name_dependencyDir proper named prefixMem
    · intro place
      constructor
      · rintro ⟨own, ownContent, relPrefix, prefixMem, rfl⟩
        have same : own = text := Option.some.inj (ownContent.symm.trans content)
        subst same
        apply List.mem_map.mpr
        exact ⟨dependencyDir unit relPrefix, (members _).mpr ⟨relPrefix, prefixMem, rfl⟩,
          resolve_dependencyDir tree proper named prefixMem⟩
      · intro placeMem
        rcases List.mem_map.mp placeMem with ⟨dep, depMem, rfl⟩
        rcases (members dep).mp depMem with ⟨relPrefix, prefixMem, rfl⟩
        exact ⟨text, content, relPrefix, prefixMem,
          resolve_dependencyDir tree proper named prefixMem⟩
  failed := by
    intro unit error named failed isUnit
    have missing := instanceDependencyDirs_error failed
    have present := isUnit.2
    rw [show (closureSearch tree).key unit = tree.resolve unit from rfl, missing] at present
    cases present
  entered := by
    intro current dep entered
    change requireDir tree current dep = .ok () at entered
    unfold requireDir at entered
    split_ifs at entered with isDir
    exact isDir
  refused := by
    intro current dep error refused isUnit
    change requireDir tree current dep = .error error at refused
    unfold requireDir at refused
    split_ifs at refused with isDir
    exact isDir isUnit.1

/-- What the closure of a leaf promises to those who copy it. -/
structure ClosedUnderCopy (tree : LiveTree) (leaf : PosixPath) (destName : Part)
    (result : Except CopyabilityError (List PosixPath)) : Prop where
  raises : (∃ error, result = .error error) ↔
    ∃ place, Reaches tree (tree.resolve leaf) place ∧ ¬IsUnit tree place
  reached : ∀ closure, result = .ok closure → closure.head? = some leaf ∧
    (closure.map tree.resolve).Nodup ∧
    ∀ place, place ∈ closure.map tree.resolve ↔ Reaches tree (tree.resolve leaf) place
  apart : ∀ closure, result = .ok closure → ∀ unit ∈ closure, ∀ other ∈ closure,
    tree.resolve (destination destName unit) = tree.resolve (destination destName other) →
      unit = other
  closed : ∀ closure, result = .ok closure → ∀ unit ∈ closure,
    ∃ text, tree.read? (unit.child terragruntHcl) = some text ∧
      ∀ relPrefix ∈ configPathPrefixes text, ∃ member ∈ closure,
        tree.resolve (dependencyDir unit relPrefix) = tree.resolve member ∧
        tree.resolve (dependencyDir (destination destName unit) relPrefix) =
          tree.resolve (destination destName member)

/-- What the search has found is closed under copying. -/
theorem closedUnderCopy_of_complete {destName : Part} (proper : name ≠ up)
    (destProper : destName ≠ up) {result : Except CopyabilityError (List PosixPath)}
    (complete : Worklist.Complete (closureSearch tree) (Refers tree) (IsUnit tree)
      (fun unit => unit.name = some name) leaf result) :
    ClosedUnderCopy tree leaf destName result where
  raises := by
    constructor
    · rintro ⟨error, failed⟩
      exact complete.failed error failed
    · rintro ⟨place, reached, hollow⟩
      cases result with
      | error error => exact ⟨error, rfl⟩
      | ok closure =>
          rcases complete.found closure rfl with ⟨_, _, _, solid, members⟩
          rcases List.mem_map.mp ((members place).mpr reached) with ⟨unit, unitMem, rfl⟩
          exact absurd (solid unit unitMem) hollow
  reached := by
    intro closure found
    rcases complete.found closure found with ⟨first, distinct, _, _, members⟩
    exact ⟨first, distinct, members⟩
  apart := by
    intro closure found unit unitMem other otherMem same
    rcases complete.found closure found with ⟨_, distinct, named, _, _⟩
    apply List.inj_on_of_nodup_map distinct unitMem otherMem
    rw [resolve_destination tree proper destProper (named unit unitMem),
      resolve_destination tree proper destProper (named other otherMem)] at same
    have sameParent := (List.cons.inj same).2
    change tree.resolve unit = tree.resolve other
    rw [resolve_of_name tree proper (named unit unitMem),
      resolve_of_name tree proper (named other otherMem)] at sameParent ⊢
    rw [List.tail_cons, List.tail_cons] at sameParent
    rw [sameParent]
  closed := by
    intro closure found unit unitMem
    rcases complete.found closure found with ⟨_, _, named, solid, members⟩
    have unitNamed := named unit unitMem
    rcases Option.isSome_iff_exists.mp (solid unit unitMem).2 with ⟨text, content⟩
    refine ⟨text, (congrArg tree.files (resolve_terragruntHcl tree unit)).trans content, ?_⟩
    intro relPrefix prefixMem
    have place := resolve_dependencyDir tree proper unitNamed prefixMem
    have unitReached := (members _).mp (List.mem_map_of_mem unitMem)
    have reached : Reaches tree (tree.resolve leaf) (tree.resolve (dependencyDir unit relPrefix)) :=
      unitReached.tail ⟨text, content, relPrefix, prefixMem, place⟩
    rcases List.mem_map.mp ((members _).mpr reached) with ⟨member, memberMem, same⟩
    refine ⟨member, memberMem, same.symm, ?_⟩
    rw [resolve_dependencyDir_destination tree proper destProper unitNamed prefixMem,
      resolve_destination tree proper destProper (named member memberMem), ← same]
    rfl

/-- The closure of a leaf is found within one turn for each directory, the copies are its members,
and it is closed under copying. -/
theorem serviceInstanceClosure_closed (tree : LiveTree) {leaf : PosixPath} {name destName : Part}
    (named : leaf.name = some name) (proper : name ≠ up) (destProper : destName ≠ up)
    {fuel : Nat} (enough : tree.dirs.card + 1 ≤ fuel) :
    ∃ result, serviceInstanceClosure tree fuel leaf = some result ∧
      dependencyClosureCopies tree fuel .serviceInstance leaf destName =
        some (result.map fun closure =>
          closure.tail.map fun dep => (dep, destination destName dep)) ∧
      ClosedUnderCopy tree leaf destName result := by
  rcases Worklist.searchFrom_complete (closureSearch_represents tree proper) named enough with
    ⟨result, found, complete⟩
  refine ⟨result, found, ?_, closedUnderCopy_of_complete proper destProper complete⟩
  rw [dependencyClosureCopies, serviceInstanceClosure, found]
  rfl

end Closure

namespace Sample

/-- The tree of some units and their texts. -/
def treeOf (units : List (List Part × Str)) : LiveTree where
  cwd := []
  dirs := (units.map Prod.fst).toFinset
  files file :=
    match file with
    | hcl :: dir => if hcl = terragruntHcl then units.lookup dir else none
    | [] => none
  parents := by
    intro file isFile
    rcases file with _ | ⟨hcl, dir⟩
    · cases isFile
    · dsimp only at isFile
      split_ifs at isFile
      · rcases Option.isSome_iff_exists.mp isFile with ⟨text, found⟩
        rw [List.lookup_eq_some_iff] at found
        rcases found with ⟨before, after, rfl, _⟩
        simp
      · cases isFile

theorem isPart_live : IsPart (str "live") := by decide
theorem isPart_zero : IsPart (str "000") := by decide
theorem isPart_copied : IsPart (str "cpytst-001") := by decide

def live : Part := ⟨str "live", isPart_live⟩
def app : Part := ⟨str "app", by decide⟩
def lake : Part := ⟨str "lake", by decide⟩
def zero : Part := ⟨str "000", isPart_zero⟩
def copied : Part := ⟨str "cpytst-001", isPart_copied⟩

def refersTo (relPrefix : String) : Str :=
  str "config_path = \"" ++ str relPrefix ++ str "/$\x7blocal.svc_instance\x7d\"\n"

/-- Two units that refer to each other. -/
def tree : LiveTree := treeOf [([zero, app, live], refersTo "../../lake"),
  ([zero, lake, live], refersTo "../../app")]

def leaf : PosixPath := ⟨true, [live, app, zero]⟩
def other : PosixPath := ⟨true, [live, lake, zero]⟩

end Sample

/-- The closure of a leaf that its own dependency refers back to. -/
theorem serviceInstanceClosure_cycle :
    serviceInstanceClosure Sample.tree 3 Sample.leaf = some (.ok [Sample.leaf, Sample.other]) ∧
      ClosedUnderCopy Sample.tree Sample.leaf Sample.copied
        (.ok [Sample.leaf, Sample.other]) := by
  have named : Sample.leaf.name = some Sample.zero := rfl
  have destProper : Sample.copied ≠ up := by decide
  have enough : Sample.tree.dirs.card + 1 ≤ 3 := by decide
  have evaluated : serviceInstanceClosure Sample.tree 3 Sample.leaf =
      some (.ok [Sample.leaf, Sample.other]) := by decide +kernel
  rcases serviceInstanceClosure_closed Sample.tree named (by decide) destProper enough with
    ⟨result, found, -, closed⟩
  rw [evaluated] at found
  cases found
  exact ⟨evaluated, closed⟩

end Copyability
