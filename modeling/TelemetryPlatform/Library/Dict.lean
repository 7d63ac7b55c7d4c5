import Mathlib.Data.List.Induction
import Mathlib.Data.List.Perm.Subperm
import Mathlib.Logic.Relation
import TelemetryPlatform.Library.Grouping

/-!
# Dictionaries as sequences of writes

A dictionary that is filled by assignments holds the last value written under
each key, one that is filled by `setdefault` the first. Nothing that was written
is lost exactly when the keys are distinct, and a value survives the writes of
others when none of them writes something else under its key.
-/

namespace Python

variable {κ ν : Type} [DecidableEq κ]

section Lookup

theorem mem_of_dictGet? {entries : List (κ × ν)} {key : κ} {value : ν}
    (found : dictGet? entries key = some value) : (key, value) ∈ entries := by
  induction entries with
  | nil => cases found
  | cons entry rest ih =>
      by_cases here : entry.1 = key
      · simp only [dictGet?, here, if_true, Option.some.injEq] at found
        simp [← here, ← found]
      · simp only [dictGet?, here, if_false] at found
        exact List.mem_cons_of_mem _ (ih found)

/-- In a dictionary, what is found under a key is its one entry. -/
theorem dictGet?_eq_some_iff {entries : List (κ × ν)} (nodup : (entries.map Prod.fst).Nodup)
    {key : κ} {value : ν} : dictGet? entries key = some value ↔ (key, value) ∈ entries := by
  constructor
  · exact mem_of_dictGet?
  · intro entryMem
    induction entries with
    | nil => cases entryMem
    | cons entry rest ih =>
        rw [List.map_cons, List.nodup_cons] at nodup
        rcases List.mem_cons.mp entryMem with rfl | later
        · simp [dictGet?]
        · have different : ¬entry.1 = key := by
            intro same
            apply nodup.1
            rw [same]
            exact List.mem_map_of_mem later
          simp only [dictGet?, different, if_false, ih nodup.2 later]

theorem dictGet?_append {first second : List (κ × ν)} {key : κ} :
    dictGet? (first ++ second) key = (dictGet? first key).or (dictGet? second key) := by
  induction first with
  | nil => simp [dictGet?]
  | cons entry rest ih =>
      by_cases here : entry.1 = key
      · simp [dictGet?, here]
      · simp [dictGet?, here, ih]

theorem dictGet?_eq_none_iff {entries : List (κ × ν)} {key : κ} :
    dictGet? entries key = none ↔ key ∉ entries.map Prod.fst := by
  rw [← dictGet?_isSome, Option.isSome_iff_ne_none, not_not]

omit [DecidableEq κ] in
theorem nodup_keys_of_subperm {pairs entries : List (κ × ν)} (within : pairs.Subperm entries)
    (nodup : (entries.map Prod.fst).Nodup) : (pairs.map Prod.fst).Nodup := by
  rcases within with ⟨middle, same, sublist⟩
  exact (same.map Prod.fst).nodup_iff.mp ((sublist.map Prod.fst).nodup nodup)

/-- Pairs have entries of their own in a dictionary when their keys are distinct and it maps them
so. -/
theorem subperm_entries_iff {pairs entries : List (κ × ν)}
    (nodup : (entries.map Prod.fst).Nodup) :
    pairs.Subperm entries ↔
      (pairs.map Prod.fst).Nodup ∧ ∀ pair ∈ pairs, dictGet? entries pair.1 = some pair.2 := by
  constructor
  · intro within
    refine ⟨nodup_keys_of_subperm within nodup, ?_⟩
    intro pair pairMem
    exact (dictGet?_eq_some_iff nodup).mpr (within.subset pairMem)
  · rintro ⟨distinct, mapped⟩
    apply List.subperm_of_subset distinct.of_map
    intro pair pairMem
    exact mem_of_dictGet? (mapped pair pairMem)

/-- Setting a key leaves the entries of the others as they were. -/
theorem filter_dictSet (entries : List (κ × ν)) (key : κ) (value : ν) :
    (dictSet entries key value).filter (fun entry => entry.1 ≠ key) =
      entries.filter fun entry => entry.1 ≠ key := by
  induction entries with
  | nil => simp [dictSet]
  | cons entry rest ih =>
      by_cases here : entry.1 = key
      · simp [dictSet, here]
      · simp only [dictSet, here, if_false, ne_eq, not_false_eq_true, decide_true,
          List.filter_cons_of_pos, List.cons.injEq, true_and]
        simpa using ih

end Lookup

section Writes

/-- `d[key] = value` for each pair. -/
def dictWrites (entries writes : List (κ × ν)) : List (κ × ν) :=
  writes.foldl (fun entries write => dictSet entries write.1 write.2) entries

theorem dictWrites_append (entries first second : List (κ × ν)) :
    dictWrites entries (first ++ second) = dictWrites (dictWrites entries first) second :=
  List.foldl_append

theorem nodup_keys_dictWrites {entries : List (κ × ν)} (nodup : (entries.map Prod.fst).Nodup)
    (writes : List (κ × ν)) : ((dictWrites entries writes).map Prod.fst).Nodup := by
  induction writes generalizing entries with
  | nil => exact nodup
  | cons write writes ih => exact ih (nodup_keys_dictSet nodup)

theorem nodup_keys_dictWrites_nil (writes : List (κ × ν)) :
    ((dictWrites [] writes).map Prod.fst).Nodup :=
  nodup_keys_dictWrites (by simp) writes

theorem mem_of_mem_dictWrites {entries writes : List (κ × ν)} {entry : κ × ν}
    (entryMem : entry ∈ dictWrites entries writes) : entry ∈ entries ∨ entry ∈ writes := by
  induction writes generalizing entries with
  | nil => exact Or.inl entryMem
  | cons write writes ih =>
      rcases ih entryMem with old | later
      · rcases mem_of_mem_dictSet old with rfl | old
        · exact Or.inr List.mem_cons_self
        · exact Or.inl old
      · exact Or.inr (List.mem_cons_of_mem _ later)

theorem mem_writes_of_mem_dictWrites {writes : List (κ × ν)} {entry : κ × ν}
    (entryMem : entry ∈ dictWrites [] writes) : entry ∈ writes := by
  rcases mem_of_mem_dictWrites entryMem with none | found
  · cases none
  · exact found

/-- The last write of a key is found. -/
theorem dictGet?_dictWrites (entries writes : List (κ × ν)) (key : κ) :
    dictGet? (dictWrites entries writes) key =
      (dictGet? writes.reverse key).or (dictGet? entries key) := by
  induction writes generalizing entries with
  | nil => simp [dictWrites, dictGet?]
  | cons write writes ih =>
      have step := ih (dictSet entries write.1 write.2)
      simp only [dictWrites, List.foldl_cons] at step ⊢
      rw [step, List.reverse_cons, dictGet?_append, dictGet?_dictSet, Option.or_assoc]
      by_cases same : write.1 = key
      · simp [dictGet?, same]
      · simp [dictGet?, same]

/-- The entries that writes leave are the last ones under their keys. -/
theorem mem_dictWrites_nil {writes : List (κ × ν)} {entry : κ × ν} :
    entry ∈ dictWrites [] writes ↔ dictGet? writes.reverse entry.1 = some entry.2 := by
  rw [← dictGet?_eq_some_iff (nodup_keys_dictWrites_nil writes), dictGet?_dictWrites]
  simp [dictGet?]

/-- Writes under new and distinct keys are added at the end. -/
theorem dictWrites_of_nodup {entries writes : List (κ × ν)}
    (nodup : ((entries ++ writes).map Prod.fst).Nodup) :
    dictWrites entries writes = entries ++ writes := by
  induction writes generalizing entries with
  | nil => simp [dictWrites]
  | cons write writes ih =>
      have fresh : write.1 ∉ entries.map Prod.fst := by
        rw [List.map_append, List.nodup_append] at nodup
        intro present
        exact nodup.2.2 write.1 present write.1 (by simp) rfl
      have rest : dictWrites (entries ++ [write]) writes = entries ++ [write] ++ writes :=
        ih (by simpa using nodup)
      simp only [dictWrites, List.foldl_cons] at rest ⊢
      rw [dictSet_of_not_mem fresh, rest, List.append_assoc]
      rfl

/-- No write is lost exactly when the keys are distinct. -/
theorem subperm_dictWrites_iff {writes : List (κ × ν)} :
    writes.Subperm (dictWrites [] writes) ↔ (writes.map Prod.fst).Nodup := by
  constructor
  · intro within
    exact nodup_keys_of_subperm within (nodup_keys_dictWrites_nil writes)
  · intro distinct
    rw [dictWrites_of_nodup (by simpa using distinct), List.nil_append]

/-- Writes survive later ones exactly when their keys are distinct and no later one changes them. -/
theorem subperm_dictWrites_append_iff {writes later : List (κ × ν)}
    (laterDistinct : (later.map Prod.fst).Nodup) :
    writes.Subperm (dictWrites [] (writes ++ later)) ↔ (writes.map Prod.fst).Nodup ∧
      ∀ write ∈ writes, ∀ other ∈ later, write.1 = other.1 → write.2 = other.2 := by
  have laterReversed : (later.reverse.map Prod.fst).Nodup := by
    rw [List.map_reverse]
    exact List.nodup_reverse.mpr laterDistinct
  rw [subperm_entries_iff (nodup_keys_dictWrites_nil _)]
  apply and_congr_right
  intro distinct
  have reversed : (writes.reverse.map Prod.fst).Nodup := by
    rw [List.map_reverse]
    exact List.nodup_reverse.mpr distinct
  apply forall₂_congr
  intro write writeMem
  have own : dictGet? writes.reverse write.1 = some write.2 :=
    (dictGet?_eq_some_iff reversed).mpr (List.mem_reverse.mpr writeMem)
  rw [dictGet?_dictWrites, List.reverse_append, dictGet?_append, own]
  cases found : dictGet? later.reverse write.1 with
  | none =>
      simp only [Option.none_or, Option.some_or, true_iff]
      intro other otherMem same
      rw [dictGet?_eq_none_iff] at found
      exfalso
      apply found
      rw [same, List.map_reverse]
      exact List.mem_reverse.mpr (List.mem_map_of_mem otherMem)
  | some value =>
      have last := List.mem_reverse.mp (mem_of_dictGet? found)
      simp only [Option.some_or, Option.some.injEq]
      constructor
      · intro same other otherMem sameKey
        have otherFound : dictGet? later.reverse write.1 = some other.2 :=
          (dictGet?_eq_some_iff laterReversed).mpr
            (List.mem_reverse.mpr (sameKey ▸ otherMem))
        rw [found, Option.some.injEq] at otherFound
        rw [← same, otherFound]
      · intro agrees
        exact (agrees _ last rfl).symm

/-- What is written last under distinct keys is found. -/
theorem dictGet?_dictWrites_append {writes later : List (κ × ν)}
    (laterDistinct : (later.map Prod.fst).Nodup) {write : κ × ν} (writeMem : write ∈ later) :
    dictGet? (dictWrites [] (writes ++ later)) write.1 = some write.2 := by
  have reversed : (later.reverse.map Prod.fst).Nodup := by
    rw [List.map_reverse]
    exact List.nodup_reverse.mpr laterDistinct
  have found : dictGet? later.reverse write.1 = some write.2 :=
    (dictGet?_eq_some_iff reversed).mpr (List.mem_reverse.mpr writeMem)
  simp [dictGet?_dictWrites, dictGet?_append, found]

/-- Writes in the middle change nothing exactly when they write what stands there. -/
theorem dictWrites_middle_iff {writes middle later : List (κ × ν)}
    (distinct : ((middle ++ later).map Prod.fst).Nodup) :
    (∀ key, dictGet? (dictWrites [] (writes ++ (middle ++ later))) key =
        dictGet? (dictWrites [] (writes ++ later)) key) ↔
      ∀ write ∈ middle, dictGet? writes.reverse write.1 = some write.2 := by
  rw [List.map_append, List.nodup_append] at distinct
  rcases distinct with ⟨middleDistinct, _, apart⟩
  have reversed : (middle.reverse.map Prod.fst).Nodup := by
    rw [List.map_reverse]
    exact List.nodup_reverse.mpr middleDistinct
  simp only [dictGet?_dictWrites, List.reverse_append, dictGet?_append, dictGet?, Option.or_none]
  constructor
  · intro unchanged write writeMem
    have ownKey : dictGet? middle.reverse write.1 = some write.2 :=
      (dictGet?_eq_some_iff reversed).mpr (List.mem_reverse.mpr writeMem)
    have notLater : dictGet? later.reverse write.1 = none := by
      rw [dictGet?_eq_none_iff, List.map_reverse, List.mem_reverse]
      intro present
      exact apart _ (List.mem_map_of_mem writeMem) _ present rfl
    have here := unchanged write.1
    simp only [notLater, ownKey, Option.none_or, Option.some_or] at here
    exact here.symm
  · intro stands key
    cases middleFound : dictGet? middle.reverse key with
    | none => simp
    | some value =>
        have own := stands (key, value) (List.mem_reverse.mp (mem_of_dictGet? middleFound))
        simp only at own
        simp [own]

end Writes

section Defaults

/-- `d.setdefault(key, value)` for each pair. -/
def dictDefaults (declared : List (κ × ν)) : List (κ × ν) :=
  declared.foldl (fun entries pair => dictSetDefault entries pair.1 pair.2) []

theorem dictDefaults_concat (declared : List (κ × ν)) (pair : κ × ν) :
    dictDefaults (declared ++ [pair]) = dictSetDefault (dictDefaults declared) pair.1 pair.2 := by
  simp [dictDefaults]

/-- The keys in the order of their first declarations. -/
def firstKeys (declared : List (κ × ν)) : List κ :=
  (declared.map Prod.fst).eraseDups

/-- The first value declared for a key is found. -/
theorem dictGet?_dictDefaults (declared : List (κ × ν)) (key : κ) :
    dictGet? (dictDefaults declared) key = dictGet? declared key := by
  induction declared using List.reverseRecOn with
  | nil => rfl
  | append_singleton declared pair ih =>
      rw [dictDefaults_concat, dictSetDefault, dictGet?_append]
      split
      · next present =>
          rw [ih]
          by_cases same : pair.1 = key
          · subst same
            rw [ih] at present
            rcases Option.isSome_iff_exists.mp present with ⟨value, found⟩
            simp [found]
          · simp [dictGet?, same]
      · next absent =>
          rw [dictGet?_dictSet]
          by_cases same : pair.1 = key
          · subst same
            rw [Option.not_isSome_iff_eq_none, ih] at absent
            simp [absent, dictGet?]
          · simp [dictGet?, same, ih]

/-- The keys stand in the order of their first declarations. -/
theorem keys_dictDefaults (declared : List (κ × ν)) :
    (dictDefaults declared).map Prod.fst = (declared.map Prod.fst).eraseDups := by
  induction declared using List.reverseRecOn with
  | nil => rfl
  | append_singleton declared pair ih =>
      rw [dictDefaults_concat, dictSetDefault, List.map_append, List.eraseDups_append]
      have found : (dictGet? (dictDefaults declared) pair.1).isSome ↔
          pair.1 ∈ declared.map Prod.fst := by
        rw [dictGet?_dictDefaults, dictGet?_isSome]
      by_cases present : pair.1 ∈ declared.map Prod.fst
      · rw [if_pos (found.mpr present), ih]
        simp only [List.map_cons, List.map_nil, List.removeAll, List.filter_cons]
        simp [List.mem_map.mp present]
      · rw [if_neg (mt found.mp present), keys_dictSet, if_neg]
        · rw [ih]
          simp only [List.map_cons, List.map_nil, List.removeAll, List.filter_cons]
          have absent : (!(declared.map Prod.fst).elem pair.1) = true := by
            simpa using present
          rw [if_pos absent]
          rfl
        · rw [ih, List.mem_eraseDups]
          exact present

theorem nodup_keys_dictDefaults (declared : List (κ × ν)) :
    ((dictDefaults declared).map Prod.fst).Nodup := by
  induction declared using List.reverseRecOn with
  | nil => exact List.nodup_nil
  | append_singleton declared pair ih =>
      rw [dictDefaults_concat, dictSetDefault]
      split
      · exact ih
      · exact nodup_keys_dictSet ih

theorem mem_dictDefaults {declared : List (κ × ν)} {pair : κ × ν} :
    pair ∈ dictDefaults declared ↔ dictGet? declared pair.1 = some pair.2 := by
  rw [← dictGet?_dictDefaults, dictGet?_eq_some_iff (nodup_keys_dictDefaults declared)]

/-- The second list has one more declaration, of a key declared before it. -/
inductive DeclaredAgain : List (κ × ν) → List (κ × ν) → Prop
  | intro (before after : List (κ × ν)) (pair : κ × ν) (declared : pair.1 ∈ before.map Prod.fst) :
      DeclaredAgain (before ++ after) (before ++ pair :: after)

/-- The lists differ in declarations of keys that were declared before. -/
def Redeclared : List (κ × ν) → List (κ × ν) → Prop :=
  Relation.EqvGen DeclaredAgain

omit [DecidableEq κ] in
/-- Declarations of keys that were declared before can be added at the end. -/
theorem redeclared_append {declared : List (κ × ν)} (again : List (κ × ν))
    (before : ∀ pair ∈ again, pair.1 ∈ declared.map Prod.fst) :
    Redeclared declared (declared ++ again) := by
  induction again using List.reverseRecOn with
  | nil =>
      rw [List.append_nil]
      exact Relation.EqvGen.refl declared
  | append_singleton again pair ih =>
      have earlier := ih fun other otherMem => before other (List.mem_append_left _ otherMem)
      apply earlier.trans
      apply Relation.EqvGen.rel
      have present : pair.1 ∈ (declared ++ again).map Prod.fst := by
        rw [List.map_append]
        exact List.mem_append_left _ (before pair (by simp))
      have step := DeclaredAgain.intro (declared ++ again) [] pair present
      simpa using step

theorem DeclaredAgain.dictDefaults_eq {first second : List (κ × ν)}
    (again : DeclaredAgain first second) : dictDefaults first = dictDefaults second := by
  rcases again with ⟨before, after, pair, declared⟩
  have present : (dictGet? (dictDefaults before) pair.1).isSome := by
    rw [dictGet?_dictDefaults, dictGet?_isSome]
    exact declared
  have unchanged : dictDefaults (before ++ [pair]) = dictDefaults before := by
    rw [dictDefaults_concat, dictSetDefault, if_pos present]
  have split : before ++ pair :: after = before ++ [pair] ++ after := by simp
  rw [split]
  simp only [dictDefaults, List.foldl_append] at unchanged ⊢
  rw [unchanged]

/-- Declaring a key again changes nothing. -/
theorem Redeclared.dictDefaults_eq {first second : List (κ × ν)}
    (redeclared : Redeclared first second) : dictDefaults first = dictDefaults second := by
  induction redeclared with
  | rel _ _ again => exact again.dictDefaults_eq
  | refl _ => rfl
  | symm _ _ _ ih => exact ih.symm
  | trans _ _ _ _ _ firstEq secondEq => exact firstEq.trans secondEq

end Defaults

end Python
