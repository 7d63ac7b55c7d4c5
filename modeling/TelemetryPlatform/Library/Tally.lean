import Mathlib.Algebra.BigOperators.Group.List.Basic
import Mathlib.Algebra.Order.Group.Defs
import Mathlib.Data.List.MinMax
import Mathlib.Data.List.Sort
import TelemetryPlatform.Library.Dict

/-!
# Aggregates of a list and of its parts

A list that is cut into parts has the sums of the parts added up, the counts by key
of the parts put together, and the smallest of the smallest elements of the parts.
The last is lost where a placeholder stands for an empty part and is taken for
missing: `least_partLeasts_iff` says when.
-/

namespace Python

section Sorting

variable {α : Type} {le : α → α → Bool}

/-- Sorting forgets the order of a list whose elements it can tell apart. -/
theorem mergeSort_eq_of_perm {first second : List α}
    (trans : ∀ a b c, le a b = true → le b c = true → le a c = true)
    (total : ∀ a b, (le a b || le b a) = true)
    (antisymm : ∀ a b, a ∈ first → b ∈ first → le a b = true → le b a = true → a = b)
    (same : first.Perm second) : first.mergeSort le = second.mergeSort le := by
  apply List.Perm.eq_of_pairwise
  · intro a b aMem bMem ab ba
    have bMem' := same.mem_iff.mpr ((List.mergeSort_perm second le).mem_iff.mp bMem)
    exact antisymm a b ((List.mergeSort_perm first le).mem_iff.mp aMem) bMem' ab ba
  · exact List.pairwise_mergeSort trans total first
  · exact List.pairwise_mergeSort trans total second
  · exact (List.mergeSort_perm _ _).trans (same.trans (List.mergeSort_perm _ _).symm)

/-- What sorting by a key needs to know about its order. -/
structure SortsKeys {κ : Type} (le : κ → κ → Bool) : Prop where
  trans : ∀ a b c, le a b = true → le b c = true → le a c = true
  total : ∀ a b, (le a b || le b a) = true
  antisymm : ∀ a b, le a b = true → le b a = true → a = b

theorem sortsKeys_le {κ : Type} [LinearOrder κ] :
    SortsKeys fun first second : κ => decide (first ≤ second) := by
  refine ⟨?_, ?_, ?_⟩
  · intro a b c ab bc
    rw [decide_eq_true_eq] at ab bc ⊢
    exact le_trans ab bc
  · intro a b
    rw [Bool.or_eq_true, decide_eq_true_eq, decide_eq_true_eq]
    exact le_total a b
  · intro a b ab ba
    rw [decide_eq_true_eq] at ab ba
    exact le_antisymm ab ba

/-- Distinct keys are sorted into one order. -/
theorem SortsKeys.mergeSort_eq {κ : Type} {le : κ → κ → Bool} (sorts : SortsKeys le)
    {first second : List κ} (nodup : first.Nodup) (nodup' : second.Nodup)
    (same : ∀ key, key ∈ first ↔ key ∈ second) : first.mergeSort le = second.mergeSort le := by
  apply mergeSort_eq_of_perm sorts.trans sorts.total
  · exact fun a b _ _ => sorts.antisymm a b
  · exact (List.perm_ext_iff_of_nodup nodup nodup').mpr same

end Sorting

section Sums

variable {α M : Type} [AddCommMonoid M]

/-- What adds up over two lists adds up over the parts of one. -/
theorem sum_map_parts {measure : List α → M} (zero : measure [] = 0)
    (add : ∀ first second, measure (first ++ second) = measure first + measure second)
    (parts : List (List α)) : (parts.map measure).sum = measure parts.flatten := by
  induction parts with
  | nil => rw [List.map_nil, List.sum_nil, List.flatten_nil, zero]
  | cons part parts ih => rw [List.map_cons, List.sum_cons, List.flatten_cons, add, ih]

end Sums

section Tallies

variable {κ ν : Type} [DecidableEq κ]

theorem valuesAt_append (first second : List (κ × ν)) (key : κ) :
    valuesAt (first ++ second) key = valuesAt first key ++ valuesAt second key := by
  rw [valuesAt, List.filter_append, List.map_append]
  rfl

theorem valuesAt_flatten (parts : List (List (κ × ν))) (key : κ) :
    valuesAt parts.flatten key = (parts.map fun part => valuesAt part key).flatten := by
  induction parts with
  | nil => rfl
  | cons part parts ih =>
      rw [List.flatten_cons, valuesAt_append, ih, List.map_cons, List.flatten_cons]

theorem valuesAt_eq_nil_iff {pairs : List (κ × ν)} {key : κ} :
    valuesAt pairs key = [] ↔ key ∉ pairs.map Prod.fst := by
  simp only [valuesAt, List.map_eq_nil_iff, List.filter_eq_nil_iff, decide_eq_true_eq,
    List.mem_map, not_exists, not_and]

omit [DecidableEq κ] in
theorem mem_keys_flatten {parts : List (List (κ × ν))} {key : κ} :
    key ∈ parts.flatten.map Prod.fst ↔ ∃ part ∈ parts, key ∈ part.map Prod.fst := by
  rw [List.map_flatten, List.mem_flatten]
  constructor
  · rintro ⟨keys, keysMem, keyMem⟩
    rcases List.mem_map.mp keysMem with ⟨part, partMem, rfl⟩
    exact ⟨part, partMem, keyMem⟩
  · rintro ⟨part, partMem, keyMem⟩
    exact ⟨_, List.mem_map_of_mem partMem, keyMem⟩

theorem valuesAt_perm {first second : List (κ × ν)} (same : first.Perm second) (key : κ) :
    (valuesAt first key).Perm (valuesAt second key) :=
  (same.filter _).map Prod.snd

theorem valuesAt_map {α : Type} (f : ν → α) (pairs : List (κ × ν)) (key : κ) :
    valuesAt (pairs.map fun pair => (pair.1, f pair.2)) key = (valuesAt pairs key).map f := by
  rw [valuesAt, valuesAt, List.filter_map, List.map_map, List.map_map]
  rfl

/-- A dictionary has at most one value under a key. -/
theorem valuesAt_eq_toList {entries : List (κ × ν)} (nodup : (entries.map Prod.fst).Nodup)
    (key : κ) : valuesAt entries key = (dictGet? entries key).toList := by
  induction entries with
  | nil => rfl
  | cons entry rest ih =>
      rw [List.map_cons, List.nodup_cons] at nodup
      by_cases here : entry.1 = key
      · have others : valuesAt rest key = [] := by
          rw [valuesAt_eq_nil_iff, ← here]
          exact nodup.1
        rw [valuesAt] at others
        simp [valuesAt, dictGet?, here, others]
      · have others := ih nodup.2
        rw [valuesAt] at others
        simp [valuesAt, dictGet?, here, others]

variable [AddCommMonoid ν]

omit [AddCommMonoid ν] in
/-- Setting a key changes a sum over the values by what is found under the key. -/
theorem sum_dictSet {M : Type} [AddCommMonoid M] (measure : ν → M) (entries : List (κ × ν))
    (key : κ) (value : ν) :
    ((dictSet entries key value).map fun entry => measure entry.2).sum +
        ((dictGet? entries key).map measure).getD 0 =
      (entries.map fun entry => measure entry.2).sum + measure value := by
  induction entries with
  | nil => simp [dictSet, dictGet?]
  | cons entry rest ih =>
      by_cases here : entry.1 = key
      · simp only [dictSet, dictGet?, here, if_true, List.map_cons, List.sum_cons,
          Option.map_some, Option.getD_some]
        rw [add_right_comm, add_comm (measure value), add_right_comm]
      · simp only [dictSet, dictGet?, here, if_false, List.map_cons, List.sum_cons]
        rw [add_assoc, ih, add_assoc]

/-- `counts[key] = counts.get(key, 0) + value`. -/
def dictAdd (counts : List (κ × ν)) (key : κ) (value : ν) : List (κ × ν) :=
  dictSet counts key ((dictGet? counts key).getD 0 + value)

/-- The sums of the values of each key. -/
def tally (pairs : List (κ × ν)) : List (κ × ν) :=
  pairs.foldl (fun counts pair => dictAdd counts pair.1 pair.2) []

theorem tally_concat (pairs : List (κ × ν)) (key : κ) (value : ν) :
    tally (pairs ++ [(key, value)]) = dictAdd (tally pairs) key value := by
  rw [tally, List.foldl_append]
  rfl

theorem nodup_keys_tally (pairs : List (κ × ν)) : ((tally pairs).map Prod.fst).Nodup := by
  induction pairs using List.reverseRecOn with
  | nil => exact List.nodup_nil
  | append_singleton pairs pair ih =>
      rw [tally_concat]
      exact nodup_keys_dictSet ih

theorem dictGet?_tally (pairs : List (κ × ν)) (key : κ) :
    dictGet? (tally pairs) key =
      if key ∈ pairs.map Prod.fst then some (valuesAt pairs key).sum else none := by
  induction pairs using List.reverseRecOn with
  | nil => rfl
  | append_singleton pairs pair ih =>
      rw [tally_concat, dictAdd, dictGet?_dictSet, valuesAt_append, List.sum_append]
      by_cases same : pair.1 = key
      · subst same
        have before : (dictGet? (tally pairs) pair.1).getD 0 = (valuesAt pairs pair.1).sum := by
          rw [ih]
          split
          · rfl
          · next absent =>
              rw [valuesAt_eq_nil_iff.mpr absent]
              rfl
        simp [before, valuesAt]
      · have none : valuesAt [pair] key = [] := by simp [valuesAt, same]
        have keys : key ∈ pairs.map Prod.fst ↔ key ∈ (pairs ++ [pair]).map Prod.fst := by
          rw [List.map_append, List.mem_append, List.map_singleton, List.mem_singleton]
          exact (or_iff_left fun equal => same equal.symm).symm
        rw [if_neg same, ih, none, List.sum_nil, add_zero]
        exact if_congr keys rfl rfl

theorem mem_keys_tally {pairs : List (κ × ν)} {key : κ} :
    key ∈ (tally pairs).map Prod.fst ↔ key ∈ pairs.map Prod.fst := by
  rw [← dictGet?_isSome, dictGet?_tally]
  split
  · next present => exact iff_of_true rfl present
  · next absent => exact iff_of_false nofun absent

theorem sum_valuesAt_tally (pairs : List (κ × ν)) (key : κ) :
    (valuesAt (tally pairs) key).sum = (valuesAt pairs key).sum := by
  rw [valuesAt_eq_toList (nodup_keys_tally pairs), dictGet?_tally]
  split
  · simp
  · next absent =>
      rw [valuesAt_eq_nil_iff.mpr absent]
      rfl

/-- A tally has the sum of all values. -/
theorem sum_values_tally {ν : Type} [AddCancelCommMonoid ν] (pairs : List (κ × ν)) :
    ((tally pairs).map Prod.snd).sum = (pairs.map Prod.snd).sum := by
  induction pairs using List.reverseRecOn with
  | nil => rfl
  | append_singleton pairs pair ih =>
      have changed := sum_dictSet (fun value : ν => value) (tally pairs) pair.1
        ((dictGet? (tally pairs) pair.1).getD 0 + pair.2)
      rw [Option.map_id', add_left_comm, add_comm, add_left_cancel_iff] at changed
      rw [tally_concat, dictAdd, List.map_append, List.sum_append, ← ih]
      simpa [add_comm] using changed

/-- A tally depends on the keys and the sums of their values. -/
theorem tally_perm_of {first second : List (κ × ν)}
    (keys : ∀ key, key ∈ first.map Prod.fst ↔ key ∈ second.map Prod.fst)
    (sums : ∀ key, (valuesAt first key).sum = (valuesAt second key).sum) :
    (tally first).Perm (tally second) := by
  rw [List.perm_ext_iff_of_nodup (nodup_keys_tally first).of_map (nodup_keys_tally second).of_map]
  rintro ⟨key, value⟩
  rw [← dictGet?_eq_some_iff (nodup_keys_tally first), dictGet?_tally,
    ← dictGet?_eq_some_iff (nodup_keys_tally second), dictGet?_tally]
  simp only [keys, sums]

end Tallies

section SortedTallies

variable {κ ν : Type} [DecidableEq κ] [AddCommMonoid ν] {le : κ → κ → Bool}

/-- `dict(sorted(counts.items()))`; the keys are distinct. -/
def sortedByKey (le : κ → κ → Bool) (counts : List (κ × ν)) : List (κ × ν) :=
  counts.mergeSort fun first second => le first.1 second.1

theorem SortsKeys.sorted_tally_eq (sorts : SortsKeys le) {first second : List (κ × ν)}
    (keys : ∀ key, key ∈ first.map Prod.fst ↔ key ∈ second.map Prod.fst)
    (sums : ∀ key, (valuesAt first key).sum = (valuesAt second key).sum) :
    sortedByKey le (tally first) = sortedByKey le (tally second) := by
  apply mergeSort_eq_of_perm
  · exact fun a b c => sorts.trans a.1 b.1 c.1
  · exact fun a b => sorts.total a.1 b.1
  · intro a b aMem bMem ab ba
    have same := sorts.antisymm a.1 b.1 ab ba
    have found := (dictGet?_eq_some_iff (nodup_keys_tally first)).mpr aMem
    have found' := (dictGet?_eq_some_iff (nodup_keys_tally first)).mpr bMem
    rw [same, found', Option.some.injEq] at found
    exact Prod.ext same found.symm
  · exact tally_perm_of keys sums

theorem SortsKeys.sorted_tally_perm (sorts : SortsKeys le) {first second : List (κ × ν)}
    (same : first.Perm second) :
    sortedByKey le (tally first) = sortedByKey le (tally second) := by
  apply sorts.sorted_tally_eq
  · exact fun key => (same.map Prod.fst).mem_iff
  · exact fun key => (valuesAt_perm same key).sum_eq

/-- The tallies of the parts, put together, are the tally of the list. -/
theorem SortsKeys.sorted_tally_flatten (sorts : SortsKeys le) (parts : List (List (κ × ν))) :
    sortedByKey le (tally (parts.map fun part => sortedByKey le (tally part)).flatten) =
      sortedByKey le (tally parts.flatten) := by
  have sorted (part : List (κ × ν)) : (sortedByKey le (tally part)).Perm (tally part) :=
    List.mergeSort_perm _ _
  apply sorts.sorted_tally_eq
  · intro key
    have keys (part : List (κ × ν)) : key ∈ (sortedByKey le (tally part)).map Prod.fst ↔
        key ∈ part.map Prod.fst := by
      rw [((sorted part).map Prod.fst).mem_iff, mem_keys_tally]
    rw [mem_keys_flatten, mem_keys_flatten]
    constructor
    · rintro ⟨sortedPart, sortedMem, keyMem⟩
      rcases List.mem_map.mp sortedMem with ⟨part, partMem, rfl⟩
      exact ⟨part, partMem, (keys part).mp keyMem⟩
    · rintro ⟨part, partMem, keyMem⟩
      exact ⟨_, List.mem_map_of_mem partMem, (keys part).mpr keyMem⟩
  · intro key
    rw [valuesAt_flatten, valuesAt_flatten, List.sum_flatten, List.sum_flatten, List.map_map,
      List.map_map, List.map_map]
    congr 1
    apply List.map_congr_left
    intro part _
    simp only [Function.comp_apply]
    rw [(valuesAt_perm (sorted part) key).sum_eq, sum_valuesAt_tally]

end SortedTallies

section Groupings

variable {κ α β : Type} [DecidableEq κ]

/-- The values of the pairs under their keys. -/
def grouping (pairs : List (κ × α)) : List (κ × List α) :=
  pairs.foldl (fun groups pair => dictAppend groups pair.1 pair.2) []

theorem grouping_concat (pairs : List (κ × α)) (key : κ) (item : α) :
    grouping (pairs ++ [(key, item)]) = dictAppend (grouping pairs) key item := by
  rw [grouping, List.foldl_append]
  rfl

theorem grouped_grouping (pairs : List (κ × α)) : Grouped pairs (grouping pairs) := by
  induction pairs using List.reverseRecOn with
  | nil => exact Grouped.nil
  | append_singleton pairs pair ih =>
      rw [grouping_concat]
      exact ih.append pair.1 pair.2

/-- What adds up over two lists adds up over the groups. -/
theorem sum_grouping {M : Type} [AddCancelCommMonoid M] {measure : List α → M}
    (zero : measure [] = 0)
    (add : ∀ first second, measure (first ++ second) = measure first + measure second)
    (pairs : List (κ × α)) :
    ((grouping pairs).map fun group => measure group.2).sum = measure (pairs.map Prod.snd) := by
  induction pairs using List.reverseRecOn with
  | nil => exact zero.symm
  | append_singleton pairs pair ih =>
      have changed := sum_dictSet measure (grouping pairs) pair.1
        ((dictGet? (grouping pairs) pair.1).getD [] ++ [pair.2])
      have found : ((dictGet? (grouping pairs) pair.1).map measure).getD 0 =
          measure ((dictGet? (grouping pairs) pair.1).getD []) := by
        cases dictGet? (grouping pairs) pair.1 with
        | none => exact zero.symm
        | some items => rfl
      rw [found, ih, add, add_left_comm, add_comm, add_left_cancel_iff, ← add] at changed
      rw [grouping_concat, dictAppend, List.map_append, List.map_singleton]
      exact changed

theorem dictGet?_map {entries : List (κ × α)} {key : κ} (f : α → β) :
    dictGet? (entries.map fun entry => (entry.1, f entry.2))
        key = (dictGet? entries key).map f := by
  induction entries with
  | nil => rfl
  | cons entry rest ih =>
      by_cases here : entry.1 = key
      · simp [dictGet?, here]
      · simp [dictGet?, here, ih]

theorem dictSet_map {entries : List (κ × α)} {key : κ} {value : α} (f : α → β) :
    dictSet (entries.map fun entry => (entry.1, f entry.2)) key (f value) =
      (dictSet entries key value).map fun entry => (entry.1, f entry.2) := by
  induction entries with
  | nil => rfl
  | cons entry rest ih =>
      by_cases here : entry.1 = key
      · simp [dictSet, here]
      · simp [dictSet, here, ih]

/-- A loop that keeps a running result for each key computes the results of the groups. -/
theorem dictSet_step {f : List α → β} {step : β → α → β}
    (append : ∀ items item, f (items ++ [item]) = step (f items) item)
    (groups : List (κ × List α)) (key : κ) (item : α) :
    dictSet (groups.map fun group => (group.1, f group.2)) key
        (step ((dictGet? (groups.map fun group => (group.1, f group.2)) key).getD (f [])) item) =
      (dictAppend groups key item).map fun group => (group.1, f group.2) := by
  have found : ((dictGet? groups key).map f).getD (f []) = f ((dictGet? groups key).getD []) := by
    cases dictGet? groups key with
    | none => rfl
    | some items => rfl
  rw [dictGet?_map, found, ← append, dictSet_map, dictAppend]

end Groupings

section Extremes

variable {α β : Type}

theorem min?_concat [Min α] (elements : List α) (element : α) :
    (elements ++ [element]).min? = match elements.min? with
      | none => some element
      | some smallest => some (min smallest element) := by
  cases elements with
  | nil => rfl
  | cons first elements =>
      rw [List.cons_append, List.min?_cons', List.min?_cons', List.foldl_append]
      rfl

theorem max?_concat [Max α] (elements : List α) (element : α) :
    (elements ++ [element]).max? = match elements.max? with
      | none => some element
      | some largest => some (max largest element) := by
  cases elements with
  | nil => rfl
  | cons first elements =>
      rw [List.cons_append, List.max?_cons', List.max?_cons', List.foldl_append]
      rfl

/-- A function that keeps the smaller of two elements keeps the smallest of many. -/
theorem min?_map [Min α] [Min β] {f : α → β} (keeps : ∀ a b, f (min a b) = min (f a) (f b))
    (elements : List α) : (elements.map f).min? = elements.min?.map f := by
  cases elements with
  | nil => rfl
  | cons first elements =>
      have folded : elements.foldl (fun a b => min a (f b)) (f first) =
          f (elements.foldl min first) :=
        List.foldl_hom f fun a b => (keeps a b).symm
      rw [List.map_cons, List.min?_cons', List.min?_cons', List.foldl_map, folded,
        Option.map_some]

theorem max?_map [Max α] [Max β] {f : α → β} (keeps : ∀ a b, f (max a b) = max (f a) (f b))
    (elements : List α) : (elements.map f).max? = elements.max?.map f := by
  cases elements with
  | nil => rfl
  | cons first elements =>
      have folded : elements.foldl (fun a b => max a (f b)) (f first) =
          f (elements.foldl max first) :=
        List.foldl_hom f fun a b => (keeps a b).symm
      rw [List.map_cons, List.max?_cons', List.max?_cons', List.foldl_map, folded,
        Option.map_some]

variable [LinearOrder α]

theorem min?_perm {first second : List α} (same : first.Perm second) :
    first.min? = second.min? := by
  cases smallest : second.min? with
  | none =>
      rw [List.min?_eq_none_iff] at smallest ⊢
      rw [smallest] at same
      exact same.eq_nil
  | some element =>
      rw [List.min?_eq_some_iff] at smallest ⊢
      refine ⟨same.mem_iff.mpr smallest.1, ?_⟩
      intro other otherMem
      exact smallest.2 other (same.mem_iff.mp otherMem)

theorem max?_perm {first second : List α} (same : first.Perm second) :
    first.max? = second.max? :=
  min?_perm (α := αᵒᵈ) same

/-- The smallest element of a list, or a placeholder. -/
def least (zero : α) (elements : List α) : α := elements.min?.getD zero

variable (zero : α) {elements : List α} {parts : List (List α)}

theorem least_mem (nonempty : elements ≠ []) : least zero elements ∈ elements := by
  cases smallest : elements.min? with
  | none => exact absurd (List.min?_eq_none_iff.mp smallest) nonempty
  | some element =>
      rw [least, smallest]
      exact List.min?_mem smallest

theorem least_le {element : α} (elementMem : element ∈ elements) :
    least zero elements ≤ element := by
  cases smallest : elements.min? with
  | none =>
      rw [List.min?_eq_none_iff.mp smallest] at elementMem
      cases elementMem
  | some other =>
      rw [least, smallest]
      exact (List.min?_eq_some_iff.mp smallest).2 element elementMem

theorem least_perm {first second : List α} (same : first.Perm second) :
    least zero first = least zero second := by
  rw [least, least, min?_perm same]

variable {zero}

theorem least_eq_of {element : α} (elementMem : element ∈ elements)
    (smallest : ∀ other ∈ elements, element ≤ other) : least zero elements = element :=
  le_antisymm (least_le zero elementMem) (smallest _
    (least_mem zero (List.ne_nil_of_mem elementMem)))

/-- The smallest elements of the parts, where those that are the placeholder count as missing. -/
def partLeasts (zero : α) (parts : List (List α)) : List α :=
  (parts.map (least zero)).filter fun element => element ≠ zero

theorem mem_partLeasts {element : α} (elementMem : element ∈ partLeasts zero parts) :
    element ∈ parts.flatten ∧ element ≠ zero := by
  rcases List.mem_filter.mp elementMem with ⟨elementMem, different⟩
  rcases List.mem_map.mp elementMem with ⟨part, partMem, rfl⟩
  have nonzero : least zero part ≠ zero := of_decide_eq_true different
  have nonempty : part ≠ [] := by
    rintro rfl
    exact nonzero rfl
  exact ⟨List.mem_flatten.mpr ⟨part, partMem, least_mem zero nonempty⟩, nonzero⟩

/-- The smallest element of all parts is the smallest of theirs unless it is the placeholder. -/
theorem least_partLeasts (nonzero : least zero parts.flatten ≠ zero) :
    least zero (partLeasts zero parts) = least zero parts.flatten := by
  have nonempty : parts.flatten ≠ [] := by
    intro empty
    rw [empty] at nonzero
    exact nonzero rfl
  rcases List.mem_flatten.mp (least_mem zero nonempty) with ⟨part, partMem, leastMem⟩
  have own : least zero part = least zero parts.flatten := by
    apply least_eq_of leastMem
    intro other otherMem
    exact least_le zero (List.mem_flatten.mpr ⟨part, partMem, otherMem⟩)
  apply least_eq_of
  · apply List.mem_filter.mpr
    refine ⟨List.mem_map.mpr ⟨part, partMem, own⟩, decide_eq_true nonzero⟩
  · intro other otherMem
    exact least_le zero (mem_partLeasts otherMem).1

/-- The parts' smallest elements have the smallest of all, unless the placeholder is the smallest
element of some parts and not of others. -/
theorem least_partLeasts_iff : least zero (partLeasts zero parts) = least zero parts.flatten ↔
    (∃ element ∈ parts.flatten, element < zero) ∨ zero ∉ parts.flatten ∨
      ∀ part ∈ parts, part ≠ [] → zero ∈ part := by
  by_cases nonzero : least zero parts.flatten ≠ zero
  · apply iff_of_true (least_partLeasts nonzero)
    by_contra none
    simp only [not_or, not_exists, not_and, not_lt, not_not] at none
    apply nonzero
    exact least_eq_of none.2.1 none.1
  · rw [not_not] at nonzero
    have noSmaller : ¬∃ element ∈ parts.flatten, element < zero := by
      rintro ⟨element, elementMem, smaller⟩
      have le := least_le zero elementMem
      rw [nonzero] at le
      exact absurd smaller (not_lt.mpr le)
    rw [nonzero, or_iff_right noSmaller]
    constructor
    · intro isZero
      have empty : partLeasts zero parts = [] := by
        by_contra nonempty
        exact (mem_partLeasts (least_mem zero nonempty)).2 isZero
      refine Or.inr ?_
      intro part partMem nonempty
      have absent := List.filter_eq_nil_iff.mp empty _ (List.mem_map_of_mem partMem)
      rw [decide_eq_true_eq, not_not] at absent
      rw [← absent]
      exact least_mem zero nonempty
    · intro zeros
      have empty : partLeasts zero parts = [] := by
        rw [partLeasts, List.filter_eq_nil_iff]
        intro element elementMem
        rcases List.mem_map.mp elementMem with ⟨part, partMem, rfl⟩
        rw [decide_eq_true_eq, not_not]
        by_cases nonempty : part = []
        · rw [nonempty]
          rfl
        · have within {element : α} (elementMem : element ∈ part) : element ∈ parts.flatten :=
            List.mem_flatten.mpr ⟨part, partMem, elementMem⟩
          rcases zeros with absent | each
          · have elementMem := within (least_mem zero nonempty)
            have leastMem := least_mem zero (List.ne_nil_of_mem elementMem)
            rw [nonzero] at leastMem
            exact absurd leastMem absent
          · apply least_eq_of (each part partMem nonempty)
            intro other otherMem
            exact not_lt.mp fun smaller => noSmaller ⟨other, within otherMem, smaller⟩
      rw [empty]
      rfl

/-- A scale that fixes the placeholder scales the smallest of the parts' smallest elements. -/
theorem least_scaled (parts : List (List α)) {f : α → α} (mono : StrictMono f)
    (fixed : f zero = zero) :
    least zero ((parts.map fun part => f (least zero part)).filter fun element => element ≠ zero) =
      f (least zero (partLeasts zero parts)) := by
  have nonzero : ((fun element => decide (element ≠ zero)) ∘ f) =
      fun element => decide (element ≠ zero) := by
    funext element
    rw [Function.comp_apply, decide_eq_decide]
    refine not_congr ⟨?_, ?_⟩
    · intro equal
      rw [← fixed] at equal
      exact mono.injective equal
    · rintro rfl
      exact fixed
  have scaled : ((parts.map fun part => f (least zero part)).filter fun element => element ≠ zero) =
      (partLeasts zero parts).map f := by
    have split : (parts.map fun part => f (least zero part)) = (parts.map (least zero)).map f := by
      rw [List.map_map]
      rfl
    rw [split, List.filter_map, nonzero, partLeasts]
  rw [scaled]
  by_cases empty : partLeasts zero parts = []
  · rw [empty]
    exact fixed.symm
  · apply least_eq_of
    · exact List.mem_map_of_mem (least_mem zero empty)
    · intro other otherMem
      rcases List.mem_map.mp otherMem with ⟨element, elementMem, rfl⟩
      exact mono.monotone (least_le zero elementMem)

end Extremes

end Python
