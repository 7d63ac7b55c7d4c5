import TelemetryPlatform.Library.Text

/-!
# Paths

The paths of `pathlib` on a POSIX system, and `os.path.normpath`. A part of a path is
neither empty nor a dot and has no slash in it, so that a path that is taken apart or
put together again is the same path.

`place` is where a path leads in a tree without symbolic links, as the names from the
inside to the root.
-/

namespace Python

/-- A text that can stand between two slashes of a path. -/
def IsPart (text : Str) : Prop := text ≠ [] ∧ text ≠ str "." ∧ .char '/' ∉ text

instance (text : Str) : Decidable (IsPart text) :=
  inferInstanceAs (Decidable (text ≠ [] ∧ text ≠ str "." ∧ .char '/' ∉ text))

abbrev Part := {text : Str // IsPart text}

/-- The part `..`. -/
def up : Part := ⟨str "..", by decide⟩

def part? (text : Str) : Option Part := if isPart : IsPart text then some ⟨text, isPart⟩ else none

/-- A `pathlib.PosixPath`. -/
structure PosixPath where
  absolute : Bool
  parts : List Part
deriving DecidableEq

namespace PosixPath

/-- `pathlib.PosixPath(text)`. -/
def ofText (text : Str) : PosixPath where
  absolute := text.head? = some (.char '/')
  parts := (text.splitOn (.char '/')).filterMap part?

/-- `str(path)`. -/
def text (path : PosixPath) : Str :=
  if path.absolute then str "/" ++ (str "/").intercalate (path.parts.map Subtype.val)
  else if path.parts = [] then str "."
  else (str "/").intercalate (path.parts.map Subtype.val)

/-- `path / other`. -/
def join (path other : PosixPath) : PosixPath :=
  if other.absolute then other else { path with parts := path.parts ++ other.parts }

/-- `path / name`. -/
def child (path : PosixPath) (name : Part) : PosixPath :=
  { path with parts := path.parts ++ [name] }

/-- `path.name`; nothing where Python has the empty text. -/
def name (path : PosixPath) : Option Part := path.parts.getLast?

/-- `path.parent`. -/
def parent (path : PosixPath) : PosixPath := { path with parts := path.parts.dropLast }

/-- One turn of the loop of `os.path.normpath`, over the components so far from the last one. -/
def collapse (absolute : Bool) (comps : List Part) (comp : Part) : List Part :=
  if comp ≠ up then comp :: comps
  else
    match comps with
    | [] => if absolute then [] else [comp]
    | last :: rest => if last = up then comp :: comps else rest

/-- `os.path.normpath(path)`. -/
def normpath (path : PosixPath) : PosixPath :=
  { path with parts := (path.parts.foldl (collapse path.absolute) []).reverse }

/-- Where a path leads from a directory. -/
def place (cwd : List Part) (path : PosixPath) : List Part :=
  path.parts.foldl (collapse true) (if path.absolute then [] else cwd)

variable {path : PosixPath} {cwd : List Part}

section Collapse

variable {absolute : Bool} {comps base parts rest : List Part} {name last : Part}

theorem collapse_name (proper : name ≠ up) : collapse absolute comps name = name :: comps := by
  unfold collapse
  rw [if_pos proper]

theorem collapse_up (proper : last ≠ up) : collapse absolute (last :: comps) up = comps := by
  simp [collapse, proper]

theorem collapse_up_up : collapse absolute (up :: comps) up = up :: up :: comps := by
  simp [collapse]

theorem collapse_up_root : collapse true [] up = [] := by
  simp [collapse]

theorem collapse_up_relative : collapse false [] up = [up] := by
  simp [collapse]

theorem foldl_collapse_concat (proper : name ≠ up) :
    (parts ++ [name]).foldl (collapse absolute) base =
      name :: parts.foldl (collapse absolute) base := by
  rw [List.foldl_append, List.foldl_cons, List.foldl_nil, collapse_name proper]

/-- A name and the way up from it lead nowhere else. -/
theorem foldl_collapse_up (proper : name ≠ up) :
    (parts ++ name :: up :: rest).foldl (collapse absolute) base =
      (parts ++ rest).foldl (collapse absolute) base := by
  simp only [List.foldl_append, List.foldl_cons]
  rw [collapse_name proper, collapse_up proper]

/-- What was collapsed leads where it led. -/
theorem foldl_collapse_collapsed (rooted : absolute = true → base = []) (parts : List Part) :
    (parts.foldl (collapse absolute) []).reverse.foldl (collapse true) base =
      parts.foldl (collapse true) base := by
  induction parts using List.reverseRecOn with
  | nil => rfl
  | append_singleton parts comp ih =>
      rw [List.foldl_append, List.foldl_append, List.foldl_cons, List.foldl_nil, List.foldl_cons,
        List.foldl_nil, ← ih]
      generalize parts.foldl (collapse absolute) [] = comps
      have appended : (comp :: comps).reverse.foldl (collapse true) base =
          collapse true (comps.reverse.foldl (collapse true) base) comp := by
        rw [List.reverse_cons, List.foldl_append]
        rfl
      by_cases proper : comp ≠ up
      · rw [collapse_name proper]
        exact appended
      · rw [not_not] at proper
        subst proper
        rcases comps with _ | ⟨last, rest⟩
        · cases absolute with
          | true =>
              rw [rooted rfl, collapse_up_root]
              exact collapse_up_root.symm
          | false =>
              rw [collapse_up_relative]
              exact appended
        · by_cases ascending : last = up
          · rw [ascending, collapse_up_up, ← ascending]
            rw [ascending] at appended ⊢
            exact appended
          · rw [collapse_up ascending, List.reverse_cons, foldl_collapse_concat ascending,
              collapse_up ascending]

end Collapse

@[simp]
theorem place_normpath (cwd : List Part) (path : PosixPath) :
    path.normpath.place cwd = path.place cwd := by
  apply foldl_collapse_collapsed
  intro rooted
  exact if_pos rooted

theorem place_child (path : PosixPath) {name : Part} (proper : name ≠ up) :
    (path.child name).place cwd = name :: path.place cwd := foldl_collapse_concat proper

theorem eq_child_of_name {name : Part} (named : path.name = some name) :
    path = path.parent.child name := by
  have split := List.dropLast_append_getLast? name named
  unfold child parent
  dsimp only
  rw [split]

theorem name_child (path : PosixPath) (name : Part) : (path.child name).name = some name :=
  List.getLast?_concat

theorem parent_child (path : PosixPath) (name : Part) : (path.child name).parent = path := by
  simp [child, parent]

theorem name_normpath {name : Part} (proper : name ≠ up) (named : path.name = some name) :
    path.normpath.name = some name := by
  rw [eq_child_of_name named]
  unfold normpath PosixPath.name child
  dsimp only
  rw [foldl_collapse_concat proper, List.reverse_cons]
  exact List.getLast?_concat

end PosixPath

end Python
