import Mathlib.Data.List.Infix
import TelemetryPlatform.Library.Python

/-!
# File trees

The text files below a directory, by their paths, and the search for a file in a
directory and in those above it. A path is the list of its names, from the top.
-/

namespace Python

abbrev Path := List Str

structure FileTree where
  files : List (Path × Str)
  nodup : (files.map Prod.fst).Nodup

namespace FileTree

variable (tree : FileTree)

def read? (path : Path) : Option Str := dictGet? tree.files path

def Exists (path : Path) : Prop := path ∈ tree.files.map Prod.fst

instance (path : Path) : Decidable (tree.Exists path) :=
  inferInstanceAs (Decidable (path ∈ tree.files.map Prod.fst))

/-- The paths of the files with a name that are below a directory, `dir.rglob(name)`. -/
def rglob (dir : Path) (name : Str) : List Path :=
  (tree.files.map Prod.fst).filter fun path => dir.isPrefixOf path.dropLast &&
    path.getLast? = some name

end FileTree

/-- A directory and those above it, the nearest first. -/
def selfAndAncestors (dir : Path) : List Path := dir.inits.reverse

/-- The directories above a directory, the nearest first. -/
def ancestors (dir : Path) : List Path := (selfAndAncestors dir).tail

/-- The last name of a path. -/
def basename (path : Path) : Str := path.getLastD []

/-- The nearest directory above one that holds a file with a name. -/
def FileTree.findInParentFolders (tree : FileTree) (dir : Path) (name : Str) : Option Path :=
  (ancestors dir).find? fun above => tree.Exists (above ++ [name])

@[simp]
theorem selfAndAncestors_concat (dir : Path) (name : Str) :
    selfAndAncestors (dir ++ [name]) = (dir ++ [name]) :: selfAndAncestors dir := by
  simp [selfAndAncestors, List.inits_append]

@[simp]
theorem ancestors_concat (dir : Path) (name : Str) :
    ancestors (dir ++ [name]) = selfAndAncestors dir := by
  rw [ancestors, selfAndAncestors_concat, List.tail_cons]

@[simp]
theorem basename_concat (dir : Path) (name : Str) : basename (dir ++ [name]) = name := by
  simp [basename]

end Python
