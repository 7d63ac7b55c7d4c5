import TelemetryPlatform.Copyability.CommonRows
import TelemetryPlatform.Library.Rollback

/-!
# Copying and seeding a scope

`_copy_and_seed_scope` of `scripts/tg_copyability_test.py`: it patches the zone id,
copies directories and seeds rows, hands over to the test, and cleans up.

The live tree is a tree of directories and files, whose places are the names from the
inside to the root. A copy may fail at any point, and then has made some part of its
destination and of the directories above it. The test may raise, and leaves the tree
and the files as it found them.
-/

namespace Copyability

open Python Rollback

section Trees

abbrev Place := List Part

theorem cons_not_suffix (name : Part) (dir : Place) : ¬name :: dir <:+ dir := fun inside => by
  have longer := inside.length_le
  rw [List.length_cons] at longer
  omega

inductive Node where
  | dir
  | file (content : Bytes)
deriving DecidableEq

/-- What is at each place. -/
@[ext]
structure Tree where
  node : Place → Option Node
  rooted : ∀ name dir, (node (name :: dir)).isSome = true → node dir = some .dir

namespace Tree

variable (tree : Tree)

/-- The tree without a place and what is below it. -/
def clear (dst : Place) : Tree where
  node place := if dst <:+ place then none else tree.node place
  rooted := by
    intro name dir present
    split_ifs at present with below
    · cases present
    · rw [if_neg fun inside => below (inside.trans (List.suffix_cons name dir))]
      exact tree.rooted name dir present

/-- The tree with a copy of a directory at a place, and with the directories above it. -/
def copied (src dst : Place) : Tree where
  node place :=
    if dst <:+ place then tree.node (place.take (place.length - dst.length) ++ src)
    else if place <:+ dst then some .dir
    else tree.node place
  rooted := by
    intro name dir present
    by_cases below : dst <:+ name :: dir
    · rw [if_pos below] at present
      rcases List.suffix_cons_iff.mp below with rfl | deeper
      · rw [if_neg (cons_not_suffix name dir), if_pos (List.suffix_cons name dir)]
      · rcases deeper with ⟨rest, rfl⟩
        have front (names : List Part) :
            (names ++ dst).take ((names ++ dst).length - dst.length) = names := by simp
        rw [← List.cons_append, front] at present
        rw [if_pos (List.suffix_append rest dst), front]
        exact tree.rooted name (rest ++ src) present
    · have beside : ¬dst <:+ dir := fun inside => below (inside.trans (List.suffix_cons name dir))
      rw [if_neg below] at present
      rw [if_neg beside]
      by_cases above : dir <:+ dst
      · rw [if_pos above]
      · have apart : ¬name :: dir <:+ dst := fun inside =>
          above ((List.suffix_cons name dir).trans inside)
        rw [if_neg apart] at present
        rw [if_neg above]
        exact tree.rooted name dir present

/-- The source is a directory, the destination is missing, and no file stands above it. -/
def Ready (src dst : Place) : Prop :=
  tree.node src = some .dir ∧ tree.node dst = none ∧
    ∀ above ∈ dst.tails, tree.node above = none ∨ tree.node above = some .dir

instance (src dst : Place) : Decidable (tree.Ready src dst) := by
  unfold Ready
  infer_instance

/-- `shutil.rmtree`. -/
def rmtree (dst : Place) : Except CopyExc Unit × Tree :=
  match tree.node dst with
  | some .dir => (.ok (), tree.clear dst)
  | _ => (.error .osError, tree)

end Tree

/-- Apart from the destination, a tree differs from another by directories above it at most. -/
def Within (tree left : Tree) (dst : Place) : Prop :=
  ∀ place, ¬dst <:+ place → left.node place = tree.node place ∨
    tree.node place = none ∧ place <:+ dst ∧ left.node place = some .dir

/-- What goes wrong in a run: the copies that fail, with the tree each leaves, and the test. -/
structure Faults where
  copy : Tree → Place → Place → Option Tree
  within : ∀ tree src dst left, copy tree src dst = some left → Within tree left dst
  body : Option CopyExc

/-- `shutil.copytree`. -/
def copytree (faults : Faults) (src dst : Place) (tree : Tree) : Except CopyExc Unit × Tree :=
  match faults.copy tree src dst with
  | some left => (.error .osError, left)
  | none =>
      if tree.Ready src dst then (.ok (), tree.copied src dst)
      else (.error .osError, tree)

/-- A turn of the loop over the copies. -/
def copyScope (faults : Faults) (copy : Place × Place) (tree : Tree) : Except CopyExc Unit × Tree :=
  if (tree.node copy.2).isSome then
    match tree.rmtree copy.2 with
    | (.ok _, cleared) => copytree faults copy.1 copy.2 cleared
    | (.error error, same) => (.error error, same)
  else copytree faults copy.1 copy.2 tree

/-- A turn of the loop that removes the copies. -/
def removeCopy (copy : Place × Place) (tree : Tree) : Except CopyExc Unit × Tree :=
  if (tree.node copy.2).isSome then tree.rmtree copy.2 else (.ok (), tree)

end Trees

section Scopes

variable {rt : Runtime}

/-- A turn of the loop over the seeds. -/
def seedStep (spec : SeedSpec rt) (common : Common rt) : Except CopyExc Unit × Common rt :=
  match seedCommonRow spec common with
  | .ok seeded => (.ok (), seeded)
  | .error error => (.error error, common)

/-- A turn of the loop that restores the rows, in which a `CopyabilityError` is suppressed. -/
def restoreStep (spec : SeedSpec rt) (common : Common rt) : Except CopyExc Unit × Common rt :=
  match restoreCommonRow spec common with
  | .ok restored => (.ok (), restored)
  | .error (.copyabilityError _) => (.ok (), common)
  | .error error => (.error error, common)

variable (rt) in
/-- The live tree and the files of `common/`. -/
@[ext]
structure Scope where
  live : Tree
  common : Common rt

/-- The `finally` of `_copy_and_seed_scope`. -/
def cleanUp (accountsJson : PosixPath) (originalZoneId : Str) (seeded : List (SeedSpec rt))
    (copied : List (Place × Place)) (outcome : Except CopyExc Unit) (s : Scope rt) :
    Except CopyExc Unit × Scope rt :=
  match restoreDnsOwnerZoneId accountsJson originalZoneId s.common with
  | .error error => (.error error, s)
  | .ok common =>
      match rollback restoreStep seeded.reverse common with
      | (.error error, common) => (.error error, ⟨s.live, common⟩)
      | (.ok _, common) =>
          match rollback removeCopy copied.reverse s.live with
          | (.error error, live) => (.error error, ⟨live, common⟩)
          | (.ok _, live) => (outcome, ⟨live, common⟩)

/-- `_copy_and_seed_scope`. -/
def copyAndSeedScope (faults : Faults) (source destination : Place)
    (seedSpecs : List (SeedSpec rt)) (accountsJson : PosixPath)
    (extraCopies : Option (List (Place × Place))) (s : Scope rt) :
    Except CopyExc Unit × Scope rt :=
  let allCopies := (source, destination) :: extraCopies.getD []
  match patchDnsOwnerZoneId accountsJson s.common with
  | (.error error, common) => (.error error, ⟨s.live, common⟩)
  | (.ok originalZoneId, common) =>
      let (copying, live, copied) := perform (copyScope faults) allCopies [] s.live
      let (seeding, common, seeded) :=
        match copying with
        | .ok _ => perform seedStep seedSpecs [] common
        | .error error => (.error error, common, [])
      let outcome :=
        match seeding, faults.body with
        | .ok _, some error => .error error
        | _, _ => seeding
      cleanUp accountsJson originalZoneId seeded copied outcome ⟨live, common⟩

end Scopes

end Copyability
