import Mathlib.Data.List.Chain

/-!
# Greedy packing

Items are packed in their order into blocks, and a block takes the next item as long
as it then still fits. A block starts with one item whether or not that item fits.
`Packed` says which blocks these are without saying how they are found; there is only
one packing (`Packed.unique`), and a loop that keeps one open block finds it
(`Packed.grow`, `Packed.start`).
-/

namespace Packing

variable {α : Type} {fits : List α → Prop} {items : List α} {blocks : List (List α)}

/-- The blocks are the items, each grew while it fitted and stopped when it did not. -/
structure Packed (fits : List α → Prop) (items : List α) (blocks : List (List α)) : Prop where
  flatten : blocks.flatten = items
  nonempty : ∀ block ∈ blocks, block ≠ []
  grown : ∀ block ∈ blocks, ∀ front item, front ≠ [] → front ++ [item] <+: block →
    fits (front ++ [item])
  full : blocks.IsChain fun block next => ∀ first ∈ next.head?, ¬fits (block ++ [first])

theorem Packed.nil : Packed fits [] ([] : List (List α)) :=
  ⟨rfl, nofun, nofun, .nil⟩

theorem Packed.singleton (item : α) : Packed fits [item] [[item]] := by
  refine ⟨rfl, by simp, ?_, .singleton _⟩
  intro block blockMem front last nonempty isPrefix
  rw [List.mem_singleton.mp blockMem] at isPrefix
  have short := isPrefix.length_le
  have long := List.length_pos_iff.mpr nonempty
  simp only [List.length_append, List.length_singleton] at short
  omega

/-- The open block takes an item that fits. -/
theorem Packed.grow {current : List α} {item : α}
    (packed : Packed fits items (blocks ++ [current])) (fitting : fits (current ++ [item])) :
    Packed fits (items ++ [item]) (blocks ++ [current ++ [item]]) := by
  rcases packed with ⟨rfl, nonempty, grown, full⟩
  simp only [List.forall_mem_append, List.forall_mem_singleton] at nonempty grown
  rw [List.isChain_append] at full
  refine ⟨by simp, ?_, ?_, ?_⟩
  · simp only [List.forall_mem_append, List.forall_mem_singleton]
    exact ⟨nonempty.1, by simp⟩
  · simp only [List.forall_mem_append, List.forall_mem_singleton]
    refine ⟨grown.1, ?_⟩
    intro front last frontNonempty isPrefix
    rcases List.prefix_concat_iff.mp isPrefix with whole | inside
    · rw [whole]
      exact fitting
    · exact grown.2 front last frontNonempty inside
  · rw [List.isChain_append]
    refine ⟨full.1, .singleton _, ?_⟩
    intro block blockLast next nextFirst
    rw [List.head?_cons, Option.mem_some_iff] at nextFirst
    have before := full.2.2 block blockLast current (by simp)
    rw [← nextFirst]
    intro first firstMem
    apply before
    cases current with
    | nil => exact absurd rfl nonempty.2
    | cons head rest => exact firstMem

/-- An item that does not fit starts the next block. -/
theorem Packed.start {current : List α} {item : α}
    (packed : Packed fits items (blocks ++ [current])) (overflows : ¬fits (current ++ [item])) :
    Packed fits (items ++ [item]) (blocks ++ [current] ++ [[item]]) := by
  have single : Packed fits [item] [[item]] := Packed.singleton item
  refine ⟨?_, ?_, ?_, ?_⟩
  · rw [List.flatten_append, packed.flatten]
    rfl
  · rw [List.forall_mem_append]
    exact ⟨packed.nonempty, single.nonempty⟩
  · rw [List.forall_mem_append]
    exact ⟨packed.grown, single.grown⟩
  · rw [List.isChain_append]
    refine ⟨packed.full, single.full, ?_⟩
    intro block blockLast next nextFirst first firstMem
    rw [List.getLast?_append_of_ne_nil _ (by simp), List.getLast?_singleton,
      Option.mem_some_iff] at blockLast
    rw [List.head?_cons, Option.mem_some_iff] at nextFirst
    rw [← nextFirst, List.head?_cons, Option.mem_some_iff] at firstMem
    rw [← blockLast, ← firstMem]
    exact overflows

/-- A block with at least two items fits. -/
theorem Packed.fits_of_two {block : List α} (packed : Packed fits items blocks)
    (blockMem : block ∈ blocks) (two : 2 ≤ block.length) : fits block := by
  rcases List.eq_nil_or_concat block with rfl | ⟨front, item, rfl⟩
  · simp at two
  · rw [List.concat_eq_append] at blockMem two ⊢
    apply packed.grown _ blockMem front item
    · rintro rfl
      simp at two
    · exact List.prefix_refl _

/-- A first block ends where another packing's first block ends, or later. -/
theorem Packed.head_length {block other : List α} {rest : List (List α)}
    (packed : Packed fits items (block :: blocks)) (packed' : Packed fits items (other :: rest)) :
    other.length ≤ block.length := by
  by_contra longer
  have same : block ++ blocks.flatten = other ++ rest.flatten := by
    simpa using packed.flatten.trans packed'.flatten.symm
  have isPrefix : block <+: other := by
    apply List.prefix_of_prefix_length_le (List.prefix_append block blocks.flatten)
    · rw [same]
      exact List.prefix_append _ _
    · omega
  rcases isPrefix with ⟨tail, rfl⟩
  cases tail with
  | nil => simp at longer
  | cons item tail =>
      rw [List.append_assoc, List.append_cancel_left_eq] at same
      have fitting : fits (block ++ [item]) := by
        apply packed'.grown _ List.mem_cons_self
        · exact packed.nonempty _ List.mem_cons_self
        · exact ⟨tail, by simp⟩
      have next : ∃ after blocks', blocks = (item :: after) :: blocks' := by
        cases blocks with
        | nil => cases same
        | cons next blocks =>
            cases next with
            | nil => exact absurd rfl (packed.nonempty [] (by simp))
            | cons first after =>
                rw [List.flatten_cons, List.cons_append, List.cons_append, List.cons.injEq] at same
                exact ⟨after, blocks, by rw [same.1]⟩
      rcases next with ⟨after, blocks', rfl⟩
      exact (List.isChain_cons_cons.mp packed.full).1 item rfl fitting

theorem Packed.tail {block : List α} (packed : Packed fits items (block :: blocks)) :
    Packed fits blocks.flatten blocks where
  flatten := rfl
  nonempty := fun other otherMem => packed.nonempty other (List.mem_cons_of_mem _ otherMem)
  grown := fun other otherMem => packed.grown other (List.mem_cons_of_mem _ otherMem)
  full := packed.full.tail

theorem Packed.eq_nil_iff (packed : Packed fits items blocks) : blocks = [] ↔ items = [] := by
  constructor
  · rintro rfl
    exact packed.flatten.symm
  · rintro rfl
    cases blocks with
    | nil => rfl
    | cons block blocks =>
        have empty := packed.flatten
        rw [List.flatten_cons, List.append_eq_nil_iff] at empty
        exact absurd empty.1 (packed.nonempty block List.mem_cons_self)

/-- Items are packed in one way. -/
theorem Packed.unique {blocks' : List (List α)} (packed : Packed fits items blocks)
    (packed' : Packed fits items blocks') : blocks = blocks' := by
  induction blocks generalizing items blocks' with
  | nil => exact (packed'.eq_nil_iff.mpr (packed.eq_nil_iff.mp rfl)).symm
  | cons block blocks ih =>
      cases blocks' with
      | nil => exact packed.eq_nil_iff.mpr (packed'.eq_nil_iff.mp rfl)
      | cons block' blocks' =>
          have same : block ++ blocks.flatten = block' ++ blocks'.flatten := by
            simpa using packed.flatten.trans packed'.flatten.symm
          have lengths := Nat.le_antisymm (packed'.head_length packed) (packed.head_length packed')
          rcases List.append_inj same lengths with ⟨rfl, flattens⟩
          have others := packed'.tail
          rw [← flattens] at others
          rw [ih packed.tail others]

end Packing
