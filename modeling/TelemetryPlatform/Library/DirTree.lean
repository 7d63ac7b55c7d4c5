import TelemetryPlatform.Library.Dict
import TelemetryPlatform.Library.Glob
import TelemetryPlatform.Library.PosixPath

/-!
# Trees of directories

A tree of directories and files without symbolic links. A place in it is given by the
names from the inside to the root.

`glob` is `pathlib.Path.glob` for a relative pattern that is taken apart: `..` leads
upwards, `**` to all that is below, a part with a star, a question mark or a bracket to the
children that match it, and any other part to the child of that name. Without `**`, what
it lists are the places of the names that stand for the parts of the pattern.
-/

namespace Python

section Trees

/-- What is at a place of a tree. -/
inductive Entry (α : Type) where
  | dir
  | file (content : α)
deriving DecidableEq

variable {α : Type}

def Entry.isDir : Entry α → Bool
  | .dir => true
  | .file _ => false

structure DirTree (α : Type) where
  entries : List (List Part × Entry α)
  once : (entries.map Prod.fst).Nodup
  rooted : ([], .dir) ∈ entries
  parents : ∀ entry ∈ entries, (entry.1.tail, .dir) ∈ entries
  proper : ∀ entry ∈ entries, up ∉ entry.1

namespace DirTree

variable (tree : DirTree α)

def places : List (List Part) := tree.entries.map Prod.fst

def entry? (place : List Part) : Option (Entry α) := dictGet? tree.entries place

/-- `path.exists()`. -/
def Exists (place : List Part) : Prop := (tree.entry? place).isSome = true

instance (place : List Part) : Decidable (tree.Exists place) := inferInstanceAs (Decidable (_ = _))

/-- `path.is_dir()`. -/
def IsDir (place : List Part) : Prop := (tree.entry? place).any Entry.isDir = true

instance (place : List Part) : Decidable (tree.IsDir place) := inferInstanceAs (Decidable (_ = _))

/-- The names in a directory. -/
def children (dir : List Part) : List Part :=
  tree.places.filterMap fun place =>
    match place with
    | [] => none
    | name :: parent => if parent = dir then some name else none

/-- `path.rglob(name)`, for a name that is no pattern. -/
def rglob (dir : List Part) (name : Part) : List (List Part) :=
  tree.places.filter fun place => place.head? = some name && dir.isSuffixOf place.tail

end DirTree

end Trees

section Patterns

variable {α : Type} (tree : DirTree α)

/-- `glob.has_magic(text)`. -/
def hasMagic (text : Str) : Bool := text.any fun c => decide (¬IsPlain c)

/-- The part `**`. -/
def anyDepth : Part := ⟨str "**", by decide⟩

/-- What a part of a pattern selects from a directory. -/
def DirTree.select (dir : List Part) (part : Part) : List (List Part) :=
  if part = up then [dir.tail]
  else if part = anyDepth then tree.places.filter (dir.isSuffixOf ·)
  else if hasMagic part.val then
    ((tree.children dir).filter fun name => fnmatch name.val part.val).map (· :: dir)
  else if tree.Exists (part :: dir) then [part :: dir]
  else []

/-- What a pattern matches from a place on. -/
def DirTree.glob : List Part → List Part → List (List Part)
  | [], place => [place]
  | part :: parts, place =>
      if tree.IsDir place then (tree.select place part).flatMap (glob parts) else []

end Patterns

section Places

variable {α : Type} {tree : DirTree α} {place dir : List Part} {name part : Part}

theorem DirTree.exists_iff : tree.Exists place ↔ place ∈ tree.places := dictGet?_isSome

theorem DirTree.exists_of_isDir (isDir : tree.IsDir place) : tree.Exists place := by
  rw [IsDir] at isDir
  rw [Exists]
  cases found : tree.entry? place with
  | none =>
      rw [found] at isDir
      cases isDir
  | some entry => rfl

theorem DirTree.proper_of_exists (found : tree.Exists place) : up ∉ place := by
  rcases List.mem_map.mp (exists_iff.mp found) with ⟨entry, entryMem, rfl⟩
  exact tree.proper entry entryMem

theorem DirTree.mem_children : name ∈ tree.children dir ↔ tree.Exists (name :: dir) := by
  rw [children, List.mem_filterMap, exists_iff]
  constructor
  · rintro ⟨found, foundMem, isName⟩
    rcases found with _ | ⟨other, parent⟩
    · cases isName
    · by_cases same : parent = dir
      · simp only [if_pos same, Option.some.injEq] at isName
        rw [← isName, ← same]
        exact foundMem
      · simp only [if_neg same] at isName
        cases isName
  · intro found
    exact ⟨name :: dir, found, if_pos rfl⟩

/-- The way up from a directory. -/
theorem DirTree.collapse_up (isDir : tree.IsDir dir) :
    PosixPath.collapse true dir up = dir.tail := by
  rcases dir with _ | ⟨last, dir⟩
  · exact PosixPath.collapse_up_root
  · apply PosixPath.collapse_up
    rintro rfl
    exact proper_of_exists (exists_of_isDir isDir) List.mem_cons_self

/-- A name that a part of a pattern may stand for. -/
def StandsFor (part name : Part) : Prop :=
  if hasMagic part.val then name ≠ up ∧ fnmatch name.val part.val = true else name = part

/-- A part that is not `**` selects the place of a name that it stands for. -/
theorem DirTree.exists_of_mem_select (isDir : tree.IsDir dir) (single : part ≠ anyDepth)
    (selected : place ∈ tree.select dir part) :
    ∃ name, StandsFor part name ∧ place = PosixPath.collapse true dir name := by
  unfold select at selected
  split_ifs at selected with isUp isMagic found
  · refine ⟨up, ?_, ?_⟩
    · rw [isUp, StandsFor, if_neg (by decide)]
    · rw [List.mem_singleton.mp selected, collapse_up isDir]
  · rcases List.mem_map.mp selected with ⟨name, nameMem, rfl⟩
    rcases List.mem_filter.mp nameMem with ⟨isChild, isMatch⟩
    have isName : name ≠ up := by
      rintro rfl
      exact proper_of_exists (mem_children.mp isChild) List.mem_cons_self
    refine ⟨name, ?_, (PosixPath.collapse_name isName).symm⟩
    rw [StandsFor, if_pos isMagic]
    exact ⟨isName, isMatch⟩
  · refine ⟨part, ?_, ?_⟩
    · rw [StandsFor, if_neg isMagic]
    · rw [List.mem_singleton.mp selected]
      exact (PosixPath.collapse_name isUp).symm
  · cases selected

/-- What a pattern without `**` matches is where the names for its parts lead. -/
theorem DirTree.exists_of_mem_glob {parts : List Part} (single : anyDepth ∉ parts)
    (matched : place ∈ tree.glob parts dir) :
    ∃ names, List.Forall₂ StandsFor parts names ∧
      place = names.foldl (PosixPath.collapse true) dir := by
  induction parts generalizing dir with
  | nil => exact ⟨[], .nil, List.mem_singleton.mp matched⟩
  | cons part parts ih =>
      rw [List.mem_cons, not_or] at single
      rw [glob] at matched
      split_ifs at matched with isDir
      · rcases List.mem_flatMap.mp matched with ⟨between, selected, later⟩
        rcases exists_of_mem_select isDir (Ne.symm single.1) selected with ⟨name, stands, rfl⟩
        rcases ih single.2 later with ⟨names, standFor, rfl⟩
        exact ⟨name :: names, .cons stands standFor, rfl⟩
      · cases matched

end Places

end Python
