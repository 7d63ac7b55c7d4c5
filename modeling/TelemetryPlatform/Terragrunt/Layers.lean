import TelemetryPlatform.Library.FileTree
import TelemetryPlatform.Library.Text

/-!
# The layers of the live tree

`terragrunt/root.hcl`: the six fields of a unit's namespace, each the name of the
directory its layer file is found in, and the name of the state bucket that is made
of them. A layer file holds `basename(get_terragrunt_dir())`, so that its value is
the name of its own directory.

The functions on strings are those of HCL on ASCII text, where a character is one
code point. S3 accepts no other bucket name.
-/

namespace Terragrunt

open Python

def dash : Chr := .char '-'
def underscore : Chr := .char '_'

/-- The MD5 digest of a text's bytes, in hexadecimal digits. -/
structure Md5 where
  hexdigest : Bytes → Str
  length_hexdigest : ∀ bytes, (hexdigest bytes).length = 32

/-- The longest name of an S3 bucket. -/
def maxBucketNameLength : Nat := 63

def terragruntFile : Str := str "terragrunt.hcl"
def tfstateSuffix : Str := str "-tfstate"

/-- `"-".join(fields)`. -/
def joinDash (fields : List Str) : Str := List.intercalate [dash] fields

section RootHcl

/-- The identity of a unit, which `root.hcl` reads from the layer files. -/
structure Identity where
  productFamily : Str
  region : Str
  environmentName : Str
  environmentInstance : Str
  service : Str
  serviceInstance : Str

namespace Identity

variable (identity : Identity)

def regionClean : Str := identity.region.filter (· ≠ dash)

def «namespace» : Str :=
  joinDash ([identity.productFamily, identity.regionClean, identity.environmentName,
    identity.environmentInstance, identity.service, identity.serviceInstance].map
      fun field => replaceChr field dash underscore)

def namespaceDns : Str := replaceChr identity.namespace underscore dash

def bucketNameRaw : Str := identity.namespaceDns ++ tfstateSuffix

/-- The evaluation aborts on a namespace that is no text, which has no digest. -/
def bucketNameShortened (md5 : Md5) : Option Str :=
  if identity.bucketNameRaw.length > maxBucketNameLength then
    match encode identity.namespace with
    | .ok bytes =>
        some (identity.namespaceDns.take 45 ++ [dash] ++ (md5.hexdigest bytes).take 8 ++
          tfstateSuffix)
    | .error _ => none
  else some identity.bucketNameRaw

def finalBucketName (md5 : Md5) : Option Str :=
  (identity.bucketNameShortened md5).map fun name => lower (replaceChr name underscore dash)

end Identity

variable (tree : FileTree) (unit : Path)

/-- The value of a layer file of a unit, which the evaluation of `root.hcl` aborts without. -/
def layer (file : Str) : Option Str := (tree.findInParentFolders unit file).map basename

/-- `service_instance.hcl` is read from the directory of the unit itself. -/
def serviceInstanceLayer : Option Str :=
  if tree.Exists (unit ++ [str "service_instance.hcl"]) then some (basename unit) else none

def readIdentity : Option Identity := do
  let productFamily ← layer tree unit (str "product.hcl")
  let region ← layer tree unit (str "region.hcl")
  let environmentName ← layer tree unit (str "environment.hcl")
  let environmentInstance ← layer tree unit (str "environment_instance.hcl")
  let service ← layer tree unit (str "service.hcl")
  let serviceInstance ← serviceInstanceLayer tree unit
  return ⟨productFamily, region, environmentName, environmentInstance, service, serviceInstance⟩

/-- `local.final_bucket_name` of a unit. -/
def finalBucketName (md5 : Md5) : Option Str := do
  (← readIdentity tree unit).finalBucketName md5

end RootHcl

section Depth

/-- The directories of a unit of the live tree: one for each field of its namespace, with one
more between the environment and its instance when the unit is a singleton of the environment. A
bootstrap unit is one whose environment is `bootstrap` and whose instance is a role. -/
structure Leaf where
  product : Str
  region : Str
  environment : Str
  singleton : Bool
  environmentInstance : Str
  service : Str
  serviceInstance : Str
  deriving DecidableEq

namespace Leaf

variable (leaf : Leaf) (root : Path)

def productDir : Path := root ++ [str "live"] ++ [leaf.product]
def regionDir : Path := leaf.productDir root ++ [leaf.region]
def environmentDir : Path := leaf.regionDir root ++ [leaf.environment]
def environmentInstanceDir : Path :=
  (if leaf.singleton then leaf.environmentDir root ++ [str "_singletons"]
    else leaf.environmentDir root) ++ [leaf.environmentInstance]
def serviceDir : Path := leaf.environmentInstanceDir root ++ [leaf.service]
def dir : Path := leaf.serviceDir root ++ [leaf.serviceInstance]

def file : Path := leaf.dir root ++ [terragruntFile]

/-- The names of the directories below `live`. -/
def names : List Str :=
  [leaf.product, leaf.region, leaf.environment] ++
    (if leaf.singleton then [str "_singletons"] else []) ++
      [leaf.environmentInstance, leaf.service, leaf.serviceInstance]

def identity : Identity :=
  ⟨leaf.product, leaf.region, leaf.environment, leaf.environmentInstance, leaf.service,
    leaf.serviceInstance⟩

/-- Each layer file of a unit is found in the directory of its own layer. -/
structure AtDepth (tree : FileTree) : Prop where
  solid : ∀ name ∈ leaf.names, name ≠ []
  product : tree.findInParentFolders (leaf.dir root) (str "product.hcl") =
    some (leaf.productDir root)
  region : tree.findInParentFolders (leaf.dir root) (str "region.hcl") =
    some (leaf.regionDir root)
  environment : tree.findInParentFolders (leaf.dir root) (str "environment.hcl") =
    some (leaf.environmentDir root)
  environmentInstance : tree.findInParentFolders (leaf.dir root) (str "environment_instance.hcl") =
    some (leaf.environmentInstanceDir root)
  service : tree.findInParentFolders (leaf.dir root) (str "service.hcl") =
    some (leaf.serviceDir root)
  serviceInstance : tree.Exists (leaf.dir root ++ [str "service_instance.hcl"])

variable {leaf root}

theorem dir_eq : leaf.dir root = root ++ str "live" :: leaf.names := by
  cases single : leaf.singleton <;>
    simp [dir, serviceDir, environmentInstanceDir, environmentDir, regionDir, productDir, names,
      single]

theorem AtDepth.identity_eq {tree : FileTree} (atDepth : leaf.AtDepth root tree) :
    readIdentity tree (leaf.dir root) = some leaf.identity := by
  simp only [readIdentity, layer, serviceInstanceLayer, atDepth.product, atDepth.region,
    atDepth.environment, atDepth.environmentInstance, atDepth.service, atDepth.serviceInstance,
    Option.map_some, if_true, Option.bind_eq_bind, Option.bind_some]
  simp only [productDir, regionDir, environmentDir, environmentInstanceDir, serviceDir, dir,
    basename_concat]
  rfl

theorem AtDepth.finalBucketName_eq {tree : FileTree} (atDepth : leaf.AtDepth root tree)
    (md5 : Md5) :
    finalBucketName tree (leaf.dir root) md5 = leaf.identity.finalBucketName md5 := by
  rw [finalBucketName, atDepth.identity_eq]
  rfl

end Leaf

end Depth

end Terragrunt
