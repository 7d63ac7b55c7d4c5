import Mathlib.Data.List.Nodup
import Mathlib.Data.List.Forall2
import Mathlib.Data.List.Perm.Basic
import TelemetryPlatform.Library.Python

/-!
# Grouping by key

A loop that appends each value to the list its key has in a dictionary groups the
values: the keys of the dictionary are distinct, and each of them holds its own
values in the order they came in. `Grouped` says so for the pairs that have been
added, `Grouped.append` is the step of the loop, and `Grouped.perm` puts the
groups together again.

Loops that may raise are followed by an invariant over the items done so far.
-/

namespace Python

section Loops

variable {ε α β σ : Type}

/-- What every iteration of a loop preserves holds when the loop ends. -/
theorem foldlM_invariant {step : σ → α → Except ε σ} (inv : List α → σ → Prop)
    (preserved : ∀ done state item next, inv done state → step state item = .ok next →
      inv (done ++ [item]) next)
    {done items : List α} {state final : σ} (holds : inv done state)
    (looped : items.foldlM step state = .ok final) : inv (done ++ items) final := by
  induction items generalizing done state with
  | nil =>
      cases looped
      simpa using holds
  | cons item items ih =>
      rw [List.foldlM_cons] at looped
      cases stepped : step state item with
      | error error => simp [stepped, bind, Except.bind] at looped
      | ok next =>
          simp only [stepped, bind, Except.bind] at looped
          have rest := ih (preserved done state item next holds stepped) looped
          simpa using rest

/-- The results of a loop stand in the order of its items. -/
theorem forall₂_of_mapM {f : α → Except ε β} {items : List α} {results : List β}
    (looped : items.mapM f = .ok results) :
    List.Forall₂ (fun item result => f item = .ok result) items results := by
  induction items generalizing results with
  | nil =>
      cases looped
      exact .nil
  | cons item items ih =>
      simp only [List.mapM_cons, bind, Except.bind, pure, Except.pure] at looped
      cases first : f item with
      | error error => simp [first] at looped
      | ok result =>
          cases others : items.mapM f with
          | error error => simp [first, others] at looped
          | ok rest =>
              simp only [first, others, Except.ok.injEq] at looped
              subst looped
              exact .cons first (ih others)

theorem map_eq_map_of_forall₂ {γ : Type} {related : α → β → Prop} {items : List α}
    {results : List β} {left : β → γ} {right : α → γ}
    (each : List.Forall₂ related items results)
    (same : ∀ item result, related item result → left result = right item) :
    results.map left = items.map right := by
  induction each with
  | nil => rfl
  | cons first others ih => rw [List.map_cons, List.map_cons, same _ _ first, ih]

theorem exists_of_mem_forall₂ {related : α → β → Prop} {items : List α} {results : List β}
    {result : β} (each : List.Forall₂ related items results) (resultMem : result ∈ results) :
    ∃ item ∈ items, related item result := by
  induction each with
  | nil => cases resultMem
  | cons first others ih =>
      rcases List.mem_cons.mp resultMem with rfl | later
      · exact ⟨_, List.mem_cons_self, first⟩
      · rcases ih later with ⟨item, itemMem, found⟩
        exact ⟨item, List.mem_cons_of_mem _ itemMem, found⟩

/-- A loop whose step returns at each of its items in every state returns. -/
theorem exists_foldlM_ok {step : σ → α → Except ε σ} {items : List α}
    (returns : ∀ item ∈ items, ∀ state, ∃ next, step state item = .ok next) (state : σ) :
    ∃ final, items.foldlM step state = .ok final := by
  induction items generalizing state with
  | nil => exact ⟨state, rfl⟩
  | cons item items ih =>
      rw [List.forall_mem_cons] at returns
      rcases returns.1 state with ⟨next, stepped⟩
      rcases ih returns.2 next with ⟨final, looped⟩
      refine ⟨final, ?_⟩
      rw [List.foldlM_cons, stepped]
      exact looped

end Loops

section Dictionaries

variable {κ ν : Type} [DecidableEq κ]

theorem dictGet?_dictSet {entries : List (κ × ν)} {key other : κ} {value : ν} :
    dictGet? (dictSet entries key value) other =
      if key = other then some value else dictGet? entries other := by
  induction entries with
  | nil => simp [dictSet, dictGet?]
  | cons entry rest ih =>
      by_cases here : entry.1 = key
      · by_cases same : key = other
        · simp [dictSet, dictGet?, here, same]
        · simp [dictSet, dictGet?, here, same]
      · by_cases first : entry.1 = other
        · have different : key ≠ other := fun same => here (first.trans same.symm)
          simp [dictSet, dictGet?, first, different, different.symm]
        · simp [dictSet, dictGet?, here, first, ih]

theorem dictGet?_isSome {entries : List (κ × ν)} {key : κ} :
    (dictGet? entries key).isSome ↔ key ∈ entries.map Prod.fst := by
  induction entries with
  | nil => simp [dictGet?]
  | cons entry rest ih =>
      by_cases here : entry.1 = key
      · simp [dictGet?, here]
      · have there : ¬key = entry.1 := fun same => here same.symm
        simp only [dictGet?, here, if_false, ih, List.map_cons, List.mem_cons, there, false_or]

theorem keys_dictSet {entries : List (κ × ν)} {key : κ} {value : ν} :
    (dictSet entries key value).map Prod.fst =
      if key ∈ entries.map Prod.fst then entries.map Prod.fst
      else entries.map Prod.fst ++ [key] := by
  induction entries with
  | nil => simp [dictSet]
  | cons entry rest ih =>
      by_cases here : entry.1 = key
      · simp [dictSet, here]
      · have there : ¬key = entry.1 := fun same => here same.symm
        simp only [dictSet, here, if_false, List.map_cons, ih, List.mem_cons, there, false_or]
        split <;> simp

theorem nodup_keys_dictSet {entries : List (κ × ν)} {key : κ} {value : ν}
    (nodup : (entries.map Prod.fst).Nodup) :
    ((dictSet entries key value).map Prod.fst).Nodup := by
  rw [keys_dictSet]
  split
  · exact nodup
  · next absent =>
      rw [List.nodup_append]
      refine ⟨nodup, List.nodup_singleton key, ?_⟩
      intro other otherMem last lastMem same
      rw [List.mem_singleton.mp lastMem] at same
      exact absent (same ▸ otherMem)

theorem mem_keys_dictSet {entries : List (κ × ν)} {key other : κ} {value : ν} :
    other ∈ (dictSet entries key value).map Prod.fst ↔
      other ∈ entries.map Prod.fst ∨ other = key := by
  rw [keys_dictSet]
  split
  · next present =>
      constructor
      · exact Or.inl
      · rintro (old | rfl)
        · exact old
        · exact present
  · simp

theorem dictSet_of_not_mem {entries : List (κ × ν)} {key : κ} {value : ν}
    (fresh : key ∉ entries.map Prod.fst) : dictSet entries key value = entries ++
    [(key, value)] := by
  induction entries with
  | nil => rfl
  | cons entry rest ih =>
      simp only [List.map_cons, List.mem_cons, not_or] at fresh
      have different : ¬entry.1 = key := fun same => fresh.1 same.symm
      simp [dictSet, different, ih fresh.2]

theorem mem_of_mem_dictSet {entries : List (κ × ν)} {key : κ} {value : ν} {entry : κ × ν}
    (entryMem : entry ∈ dictSet entries key value) : entry = (key, value) ∨ entry ∈ entries := by
  induction entries with
  | nil => simpa [dictSet] using entryMem
  | cons first rest ih =>
      by_cases here : first.1 = key
      · simp only [dictSet, here, if_true, List.mem_cons] at entryMem
        rcases entryMem with rfl | entryMem
        · exact Or.inl rfl
        · exact Or.inr (by simp [entryMem])
      · simp only [dictSet, here, if_false, List.mem_cons] at entryMem
        rcases entryMem with rfl | entryMem
        · exact Or.inr (by simp)
        · rcases ih entryMem with same | old
          · exact Or.inl same
          · exact Or.inr (by simp [old])

end Dictionaries

section Groups

variable {κ α : Type} [DecidableEq κ]

/-- `d.setdefault(key, []).append(item)`. -/
def dictAppend (groups : List (κ × List α)) (key : κ) (item : α) : List (κ × List α) :=
  dictSet groups key ((dictGet? groups key).getD [] ++ [item])

/-- The values of a key among pairs of a key and a value. -/
def valuesAt (pairs : List (κ × α)) (key : κ) : List α :=
  (pairs.filter fun pair => pair.1 = key).map Prod.snd

/-- A dictionary of lists that holds the values of the pairs under their keys. -/
structure Grouped (pairs : List (κ × α)) (groups : List (κ × List α)) : Prop where
  nodup : (groups.map Prod.fst).Nodup
  keys : ∀ key, key ∈ groups.map Prod.fst ↔ key ∈ pairs.map Prod.fst
  values : ∀ key, (dictGet? groups key).getD [] = valuesAt pairs key

theorem Grouped.nil : Grouped ([] : List (κ × α)) [] :=
  ⟨List.nodup_nil, fun _ => Iff.rfl, fun _ => rfl⟩

theorem Grouped.append {pairs : List (κ × α)} {groups : List (κ × List α)}
    (grouped : Grouped pairs groups) (key : κ) (item : α) :
    Grouped (pairs ++ [(key, item)]) (dictAppend groups key item) where
  nodup := nodup_keys_dictSet grouped.nodup
  keys := by
    intro other
    rw [dictAppend, mem_keys_dictSet, grouped.keys]
    simp
  values := by
    intro other
    rw [dictAppend, dictGet?_dictSet, grouped.values]
    by_cases same : key = other
    · subst same
      simp [valuesAt]
    · simp [same, valuesAt, grouped.values]

/-- The values of distinct keys that cover all pairs are the values of the pairs. -/
theorem flatMap_valuesAt_perm {keys : List κ} {pairs : List (κ × α)} (nodup : keys.Nodup)
    (covers : ∀ pair ∈ pairs, pair.1 ∈ keys) :
    (keys.flatMap (valuesAt pairs)).Perm (pairs.map Prod.snd) := by
  induction keys generalizing pairs with
  | nil =>
      cases pairs with
      | nil => exact .refl _
      | cons pair pairs => exact absurd (covers pair List.mem_cons_self) List.not_mem_nil
  | cons key keys ih =>
      have different : key ∉ keys := (List.nodup_cons.mp nodup).1
      have covered : ∀ pair ∈ pairs.filter fun pair => !decide (pair.1 = key), pair.1 ∈ keys := by
        intro pair pairMem
        rcases List.mem_filter.mp pairMem with ⟨pairMem, apart⟩
        rcases List.mem_cons.mp (covers pair pairMem) with same | found
        · simp [same] at apart
        · exact found
      have others := ih (List.nodup_cons.mp nodup).2 covered
      have same : keys.flatMap (valuesAt (pairs.filter fun pair => !decide (pair.1 = key))) =
          keys.flatMap (valuesAt pairs) := by
        apply List.flatMap_congr
        intro other otherMem
        simp only [valuesAt, List.filter_filter]
        congr 1
        apply List.filter_congr
        intro pair _
        by_cases here : pair.1 = other
        · have apart : other ≠ key := fun equal => different (equal ▸ otherMem)
          simp [here, apart]
        · simp [here]
      rw [same] at others
      rw [List.flatMap_cons]
      have split := (List.filter_append_perm (fun pair : κ × α => decide (pair.1 = key))
        pairs).map Prod.snd
      rw [List.map_append] at split
      exact (others.append_left _).trans split

end Groups

end Python
