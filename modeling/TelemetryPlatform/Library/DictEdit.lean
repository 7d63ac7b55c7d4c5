import TelemetryPlatform.Library.Grouping

/-!
# Edits of a dictionary that are taken back

A key that is added and deleted again, and a key that is set to what it was, leave the
dictionary as it was, the order of its keys included. Setting a key that is there does
not interfere with the keys beside it.
-/

namespace Python

variable {κ ν : Type} [DecidableEq κ]

/-- `del d[key]`, for a key that is there. -/
def dictDel (entries : List (κ × ν)) (key : κ) : List (κ × ν) :=
  match entries with
  | [] => []
  | entry :: rest => if entry.1 = key then rest else entry :: dictDel rest key

variable {entries : List (κ × ν)} {key other : κ} {value new : ν}

/-- A key that was added is deleted. -/
theorem dictDel_dictSet (absent : dictGet? entries key = none) :
    dictDel (dictSet entries key value) key = entries := by
  induction entries with
  | nil => simp [dictSet, dictDel]
  | cons entry rest ih =>
      rw [dictGet?] at absent
      split_ifs at absent with here
      rw [dictSet, if_neg here, dictDel, if_neg here, ih absent]

/-- A key is set to the value it has. -/
theorem dictSet_same (found : dictGet? entries key = some value) :
    dictSet entries key value = entries := by
  induction entries with
  | nil => cases found
  | cons entry rest ih =>
      rw [dictGet?] at found
      rw [dictSet]
      split_ifs at found ⊢ with here
      · rw [← Option.some.inj found, ← here]
      · rw [ih found]

@[simp]
theorem dictSet_dictSet :
    dictSet (dictSet entries key value) key new = dictSet entries key new := by
  induction entries with
  | nil => simp [dictSet]
  | cons entry rest ih =>
      by_cases here : entry.1 = key
      · simp [dictSet, here]
      · simp [dictSet, here, ih]

/-- The order in which two keys are set does not matter when one of them is there. -/
theorem dictSet_comm (different : key ≠ other) (present : (dictGet? entries key).isSome) :
    dictSet (dictSet entries key value) other new =
      dictSet (dictSet entries other new) key value := by
  induction entries with
  | nil => cases present
  | cons entry rest ih =>
      rw [dictGet?] at present
      by_cases here : entry.1 = key
      · have there : entry.1 ≠ other := fun same => different (here.symm.trans same)
        simp [dictSet, here, different]
      · rw [if_neg here] at present
        by_cases there : entry.1 = other
        · simp [dictSet, there, different.symm]
        · simp [dictSet, here, there, ih present]

end Python
