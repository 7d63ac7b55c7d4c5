import TelemetryPlatform.Deploy.Partition
import TelemetryPlatform.Library.Hcl
import TelemetryPlatform.Library.PosixPath
import TelemetryPlatform.Library.Worklist

/-!
# The dependency closure of a service instance

The part of `scripts/tg_copyability_test.py` that finds what is copied together with a
service instance: the instances its `config_path`s refer to, and those theirs refer to,
are copied to the same new name each beside itself.

The live tree has no symbolic links, and its `terragrunt.hcl` files are text. A file
whose directory is looked up by a path is looked up where the path leads, which for the
source of a copy is a directory that exists.
-/

namespace Copyability

open Python

/-- The live tree, as the process sees it: directories and files by their names from the inside
to the root. -/
structure LiveTree where
  cwd : List Part
  dirs : Finset (List Part)
  files : List Part → Option Str
  parents : ∀ file, (files file).isSome = true → file.tail ∈ dirs

namespace LiveTree

variable (tree : LiveTree)

/-- `path.resolve()`. -/
def resolve (path : PosixPath) : List Part := path.place tree.cwd

/-- The text of a path that is a file. -/
def read? (path : PosixPath) : Option Str := tree.files (tree.resolve path)

/-- `path.is_dir()`. -/
def IsDir (path : PosixPath) : Prop := tree.resolve path ∈ tree.dirs

instance (path : PosixPath) : Decidable (tree.IsDir path) :=
  inferInstanceAs (Decidable (tree.resolve path ∈ tree.dirs))

end LiveTree

inductive Level where
  | region
  | account
  | envClass
  | envIndex
  | serviceInstance
deriving DecidableEq

section Segments

def envClassSegment : Str := str "prod"
def bootstrapSegment : Part := ⟨str "bootstrap", by decide⟩
def bootstrapRoleSuffix : Str := str "_role"
def terragruntHcl : Part := ⟨str "terragrunt.hcl", by decide⟩

/-- `f"{name}{_BOOTSTRAP_ROLE_SUFFIX}"`, which is no dot whatever the name. -/
def bootstrapRole (name : Part) : Part :=
  ⟨name.val ++ bootstrapRoleSuffix, by
    have plain : Chr.char '/' ∉ bootstrapRoleSuffix := by decide
    refine ⟨by simp [bootstrapRoleSuffix, str], ?_, ?_⟩
    · intro same
      have length := congrArg List.length same
      simp [bootstrapRoleSuffix, str] at length
    · rw [List.mem_append]
      exact not_or.mpr ⟨name.2.2.2, plain⟩⟩

end Segments

/-- `_INSTANCE_CONFIG_PATH_PATTERN`. The least repetition of `[^"$]+?` before a dollar is also the
greatest. -/
def instanceConfigPathPattern : Pattern :=
  .sequence [.word (str "config_path"), .spaces, .word (str "="), .spaces, .word [quote],
    .group 1 (.seq (.oneOrMore (.word (str "../")))
      (.oneOrMore (.one fun c => c ≠ quote && c ≠ .char '$'))),
    .word (str "/$\x7blocal.svc_instance\x7d\"")]

/-- The prefixes of the instance-relative paths of a text. -/
def configPathPrefixes (text : Str) : List Str :=
  (instanceConfigPathPattern.finditer text).filterMap fun found => found.group 1

/-- The directory a prefix leads to from a unit: `normpath(unit / rel_prefix / unit.name)`. -/
def dependencyDir (unit : PosixPath) (relPrefix : Str) : PosixPath :=
  ((unit.join (.ofText relPrefix)).join ⟨false, unit.name.toList⟩).normpath

/-- The order of paths: part by part. -/
def partsLe : List Part → List Part → Bool
  | [], _ => true
  | _ :: _, [] => false
  | left :: lefts, right :: rights =>
      if left = right then partsLe lefts rights else Deploy.strLe left.val right.val

/-- The text of a `CopyabilityError`. -/
abbrev CopyabilityError := Str

/-- `_instance_dependency_dirs`. -/
def instanceDependencyDirs (tree : LiveTree) (unit : PosixPath) :
    Except CopyabilityError (List PosixPath) :=
  let hcl := unit.child terragruntHcl
  match tree.read? hcl with
  | none =>
      .error (str "ERROR: cannot resolve dependency closure -- '" ++ hcl.text ++
        str ("' does not exist. The service-instance unit must contain a terragrunt.hcl."))
  | some text =>
      .ok ((((configPathPrefixes text).map (dependencyDir unit)).dedup).mergeSort
        fun left right => partsLe left.parts right.parts)

/-- What the search does before it takes up a dependency of a unit. -/
def requireDir (tree : LiveTree) (current depDir : PosixPath) : Except CopyabilityError Unit :=
  if tree.IsDir depDir then .ok ()
  else
    .error (str "ERROR: dependency closure incomplete -- '" ++
      (current.name.map Subtype.val).getD [] ++ str "' references dependency instance '" ++
      depDir.text ++ str ("', but that directory does not exist. The source live tree violates " ++
        "the spec B24 contract (every dependency config_path must resolve to an existing " ++
        "directory). Fix the source tree before testing copyability."))

def closureSearch (tree : LiveTree) : Worklist.Search PosixPath (List Part) CopyabilityError where
  key := tree.resolve
  expand := instanceDependencyDirs tree
  enter := requireDir tree

/-- `_service_instance_closure`; `fuel` bounds the turns of its loop over the queue. -/
def serviceInstanceClosure (tree : LiveTree) (fuel : Nat) (leaf : PosixPath) :
    Option (Except CopyabilityError (List PosixPath)) :=
  Worklist.searchFrom (closureSearch tree) fuel leaf

/-- Where a copy of an instance goes. -/
def destination (destName : Part) (dep : PosixPath) : PosixPath := dep.parent.child destName

/-- `_dependency_closure_copies`. -/
def dependencyClosureCopies (tree : LiveTree) (fuel : Nat) (level : Level) (source : PosixPath)
    (destName : Part) : Option (Except CopyabilityError (List (PosixPath × PosixPath))) :=
  match level with
  | .envClass =>
      let bootstrapDir := source.parent.child bootstrapSegment
      let srcRole := bootstrapDir.child (bootstrapRole ⟨envClassSegment, by decide⟩)
      let dstRole := bootstrapDir.child (bootstrapRole destName)
      some (.ok [(srcRole, dstRole)])
  | .serviceInstance =>
      (serviceInstanceClosure tree fuel source).map fun result => result.map fun closure =>
        closure.tail.map fun dep => (dep, destination destName dep)
  | _ => some (.ok [])

end Copyability
