import Mathlib.Data.List.TakeWhile
import TelemetryPlatform.Deploy.Partition

/-!
# Scopes as strings

A scope of units travels between the scripts as one string, which each of them
takes apart and puts together again. `Renders` is the reading of such a string: the
units in order, each after its flag, with any white space around them. Taking a
string apart finds the units it renders, and what `reassembleFlags` writes renders
the units it was given, so nothing is lost on the way.
-/

namespace Deploy

open Python

/-- A path without white space. -/
def IsUnitPath (path : Str) : Prop := path ≠ [] ∧ ∀ c ∈ path, isSpace c = false

def IsGap (gap : Str) : Prop := ∀ c ∈ gap, isSpace c = true

/-- The text lists the unit paths, each behind its own flag. -/
inductive Renders : List Str → Str → Prop where
  | nil {gap : Str} (isGap : IsGap gap) : Renders [] gap
  | cons {lead gap path rest : Str} {paths : List Str} (leadGap : IsGap lead)
      (isGap : IsGap gap) (gapNonempty : gap ≠ []) (isUnitPath : IsUnitPath path)
      (apart : ∀ c ∈ rest.head?, isSpace c = true) (others : Renders paths rest) :
      Renders (path :: paths) (lead ++ (queueIncludeDirToken ++ (gap ++ (path ++ rest))))

theorem findIncludeDirs_cons {c : Chr} {rest : Str} :
    findIncludeDirs (c :: rest) =
      match matchIncludeDir (c :: rest) with
      | some (path, after) => path :: findIncludeDirs after
      | none => findIncludeDirs rest := by
  rw [findIncludeDirs]
  split
  · next found => rw [found]
  · next found => rw [found]

/-- No match starts at a white space. -/
theorem findIncludeDirs_space {c : Chr} {rest : Str} (space : isSpace c = true) :
    findIncludeDirs (c :: rest) = findIncludeDirs rest := by
  have noMatch : matchIncludeDir (c :: rest) = none := by
    rw [matchIncludeDir]
    split
    · next gap after dropped =>
        rcases List.dropPrefix?_eq_some_iff.mp dropped with ⟨token, split, same⟩
        rw [eq_of_beq same] at split
        have first := (List.cons.inj split).1
        rw [first] at space
        exact absurd space (by decide)
    · rfl
  rw [findIncludeDirs_cons, noMatch]

theorem findIncludeDirs_gap {gap : Str} (isGap : IsGap gap) (rest : Str) :
    findIncludeDirs (gap ++ rest) = findIncludeDirs rest := by
  induction gap with
  | nil => rfl
  | cons c gap ih =>
      rw [List.cons_append, findIncludeDirs_space (isGap c List.mem_cons_self)]
      exact ih fun d dMem => isGap d (List.mem_cons_of_mem _ dMem)

theorem matchIncludeDir_eq {gap path rest : Str} (isGap : IsGap gap) (gapNonempty : gap ≠ [])
    (isUnitPath : IsUnitPath path) (apart : ∀ c ∈ rest.head?, isSpace c = true) :
    matchIncludeDir (queueIncludeDirToken ++ (gap ++ (path ++ rest))) = some (path, rest) := by
  cases gap with
  | nil => exact absurd rfl gapNonempty
  | cons g gap =>
      have dropped : (queueIncludeDirToken ++ (g :: gap ++ (path ++ rest))).dropPrefix?
          queueIncludeDirToken = some (g :: gap ++ (path ++ rest)) :=
        List.dropPrefix?_append_of_beq _ (by simp)
      have solid : ∀ c ∈ path, isSolid c = true := by
        intro c cMem
        simp [isSolid, isUnitPath.2 c cMem]
      have pathStarts : (path ++ rest).dropWhile isSpace = path ++ rest := by
        cases path with
        | nil => exact absurd rfl isUnitPath.1
        | cons c path => simp [isUnitPath.2 c List.mem_cons_self]
      have skipped : (gap ++ (path ++ rest)).dropWhile isSpace = path ++ rest := by
        rw [List.dropWhile_append_of_pos fun c cMem => isGap c (List.mem_cons_of_mem _ cMem)]
        exact pathStarts
      have restStops : rest.takeWhile isSolid = [] ∧ rest.dropWhile isSolid = rest := by
        cases rest with
        | nil => exact ⟨rfl, rfl⟩
        | cons c rest =>
            have space : isSpace c = true := apart c rfl
            simp [isSolid, space]
      have taken : (path ++ rest).takeWhile isSolid = path := by
        rw [List.takeWhile_append_of_pos solid, restStops.1, List.append_nil]
      have left : (path ++ rest).dropWhile isSolid = rest := by
        rw [List.dropWhile_append_of_pos solid, restStops.2]
      have space : isSpace g = true := isGap g List.mem_cons_self
      rw [matchIncludeDir, dropped]
      simp only [List.cons_append, skipped, taken, left, space, isUnitPath.1, ne_eq,
        not_false_eq_true, and_self, if_true]

/-- Taking a scope apart finds the units it renders. -/
theorem findIncludeDirs_of_renders {paths : List Str} {text : Str}
    (renders : Renders paths text) : findIncludeDirs text = paths := by
  induction renders with
  | @nil gap isGap =>
      have skipped := findIncludeDirs_gap isGap []
      rw [List.append_nil] at skipped
      rw [skipped, findIncludeDirs]
  | @cons lead gap path rest paths leadGap isGap gapNonempty isUnitPath apart others ih =>
      rw [findIncludeDirs_gap leadGap]
      have found := matchIncludeDir_eq isGap gapNonempty isUnitPath apart
      have starts : ∃ c more, queueIncludeDirToken ++ (gap ++ (path ++ rest)) = c :: more :=
        ⟨_, _, rfl⟩
      rcases starts with ⟨c, more, text_eq⟩
      rw [text_eq] at found ⊢
      rw [findIncludeDirs_cons, found]
      simp only [ih]

theorem Renders.space {paths : List Str} {text : Str} {c : Chr} (renders : Renders paths text)
    (space : isSpace c = true) : Renders paths (c :: text) := by
  have extend {gap : Str} (isGap : IsGap gap) : IsGap (c :: gap) := by
    intro d dMem
    rcases List.mem_cons.mp dMem with rfl | dMem
    · exact space
    · exact isGap d dMem
  cases renders with
  | nil isGap => exact .nil (extend isGap)
  | @cons lead gap path rest paths leadGap isGap gapNonempty isUnitPath apart others =>
      exact Renders.cons (extend leadGap) isGap gapNonempty isUnitPath apart others

theorem Renders.isUnitPath {paths : List Str} {text : Str} (renders : Renders paths text) :
    ∀ path ∈ paths, IsUnitPath path := by
  induction renders with
  | nil => simp
  | cons leadGap isGap gapNonempty isUnitPath apart others ih =>
      exact List.forall_mem_cons.mpr ⟨isUnitPath, ih⟩

theorem isSpace_blank : isSpace (.char ' ') = true := by decide

/-- Whatever the text, a path that is found in it has no white space. -/
theorem isUnitPath_of_findIncludeDirs (text : Str) :
    ∀ path ∈ findIncludeDirs text, IsUnitPath path := by
  fun_induction findIncludeDirs text with
  | case1 => simp
  | case2 c rest path after found ih =>
      refine List.forall_mem_cons.mpr ⟨?_, ih⟩
      simp only [matchIncludeDir] at found
      split at found
      · split at found
        · next matched =>
            cases found
            refine ⟨matched.2, ?_⟩
            intro d dMem
            simpa [isSolid] using List.mem_takeWhile_imp dMem
        · cases found
      · cases found
  | case3 c rest found ih => exact ih

/-- What is put together again renders the units it was made of. -/
theorem renders_reassembleFlags {paths : List Str} (unitPaths : ∀ path ∈ paths, IsUnitPath path) :
    Renders paths (reassembleFlags paths) := by
  have blank : IsGap (str " ") := by
    intro c cMem
    rw [List.mem_singleton.mp cMem]
    exact isSpace_blank
  induction paths with
  | nil => exact .nil (by simp [reassembleFlags, joinSpace, IsGap])
  | cons path paths ih =>
      rcases List.forall_mem_cons.mp unitPaths with ⟨isUnitPath, others⟩
      cases paths with
      | nil =>
          have noGap : IsGap [] := by simp [IsGap]
          have single := Renders.cons noGap blank (by decide) isUnitPath (by simp) (.nil noGap)
          simpa [reassembleFlags, joinSpace, List.intercalate] using single
      | cons next paths =>
          have noGap : IsGap [] := by simp [IsGap]
          have step := Renders.cons noGap blank (by decide) isUnitPath (by simp [isSpace_blank])
            ((ih others).space isSpace_blank)
          simpa [reassembleFlags, joinSpace, List.intercalate, str] using step

/-- Only white space strips to nothing. -/
theorem isGap_of_strip {text : Str} (stripped : strip text = []) : IsGap text := by
  rw [strip, List.reverse_eq_nil_iff, List.dropWhile_eq_nil_iff] at stripped
  have empty : text.dropWhile isSpace = [] := by
    have head := List.head?_dropWhile_not isSpace text
    cases left : text.dropWhile isSpace with
    | nil => rfl
    | cons c rest =>
        have space : isSpace c = true := stripped c (by simp [left])
        simp [left, space] at head
  exact List.dropWhile_eq_nil_iff.mp empty

theorem extractAllUnitPaths_eq_ok {flags : Str} {units : List Str}
    (extracted : extractAllUnitPaths flags = .ok units) : units = findIncludeDirs flags := by
  simp only [extractAllUnitPaths] at extracted
  split at extracted
  · cases extracted
  · cases extracted
    rfl

end Deploy
