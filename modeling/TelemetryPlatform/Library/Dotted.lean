import Mathlib.Order.BoundedOrder.Basic
import Mathlib.Order.Lattice

/-!
# Versions and tuples

A version is a list of components, and the components it does not have are the
least ones. Tuples are compared as words are, where a tuple comes before each
of its extensions. The two orders differ where a tuple is extended by least
components only.
-/

namespace Dotted

section Tuples

variable {α : Type} [LT α]

/-- `left <= right` for tuples. -/
def TupleLe : List α → List α → Prop
  | [], _ => True
  | _ :: _, [] => False
  | a :: left, b :: right => a < b ∨ a = b ∧ TupleLe left right

instance decidableTupleLe [DecidableEq α] [DecidableLT α] (left right : List α) :
    Decidable (TupleLe left right) :=
  match left, right with
  | [], _ => .isTrue trivial
  | _ :: _, [] => .isFalse not_false
  | a :: left, b :: right =>
      have := decidableTupleLe left right
      inferInstanceAs (Decidable (a < b ∨ a = b ∧ TupleLe left right))

/-- A map that keeps the order of the components keeps that of the tuples. -/
theorem tupleLe_map {β : Type} [LT β] {f : α → β} (mono : ∀ a b, f a < f b ↔ a < b)
    (inj : ∀ a b, f a = f b ↔ a = b) {left right : List α} :
    TupleLe (left.map f) (right.map f) ↔ TupleLe left right := by
  induction left generalizing right with
  | nil => exact Iff.rfl
  | cons a left ih =>
      cases right with
      | nil => exact Iff.rfl
      | cons b right => simp only [List.map_cons, TupleLe, mono, inj, ih]

end Tuples

section Orders

variable {α : Type} [LinearOrder α] [OrderBot α]

/-- The component at a place of a version. -/
def component (version : List α) (place : Nat) : α := version.getD place ⊥

/-- Two versions agree, or the first is less at the first place where they differ. -/
def AtMost (version other : List α) : Prop :=
  (∀ place, component version place = component other place) ∨
    ∃ place, component version place < component other place ∧
      ∀ earlier < place, component version earlier = component other earlier

/-- A version that goes on where another ends, with nothing but least components. -/
def Padded (version other : List α) : Prop :=
  ∃ padding, padding ≠ [] ∧ version = other ++ padding ∧ ∀ c ∈ padding, c = ⊥

variable {version other : List α} {a b : α}

theorem atMost_step {first second : List α} (front front' : α)
    (starts : component first 0 = front) (starts' : component second 0 = front') :
    AtMost first second ↔ front < front' ∨ front = front' ∧ AtMost first.tail second.tail := by
  have tail (version : List α) (place : Nat) :
      component version.tail place = component version (place + 1) := by
    cases version <;> simp [component]
  subst starts starts'
  simp only [AtMost, tail]
  constructor
  · rintro (same | ⟨place, less, same⟩)
    · exact .inr ⟨same 0, .inl fun place => same (place + 1)⟩
    · cases place with
      | zero => exact .inl less
      | succ place =>
          refine .inr ⟨same 0 (Nat.zero_lt_succ place), .inr ⟨place, less, ?_⟩⟩
          intro earlier before
          exact same (earlier + 1) (Nat.succ_lt_succ before)
  · rintro (less | ⟨front, same | ⟨place, less, same⟩⟩)
    · exact .inr ⟨0, less, by simp⟩
    · left
      intro place
      cases place with
      | zero => exact front
      | succ place => exact same place
    · refine .inr ⟨place + 1, less, ?_⟩
      intro earlier before
      cases earlier with
      | zero => exact front
      | succ earlier => exact same earlier (Nat.lt_of_succ_lt_succ before)

theorem atMost_cons : AtMost (a :: version) (b :: other) ↔ a < b ∨ a = b ∧ AtMost version other :=
  atMost_step a b rfl rfl

theorem atMost_cons_nil : AtMost (a :: version) [] ↔ a = ⊥ ∧ AtMost version [] := by
  rw [atMost_step a ⊥ rfl rfl]
  simp

theorem nil_atMost : AtMost [] version := by
  induction version with
  | nil => exact .inl fun _ => rfl
  | cons b version ih =>
      rw [atMost_step ⊥ b rfl rfl]
      rcases (bot_le : ⊥ ≤ b).lt_or_eq with less | same
      · exact .inl less
      · exact .inr ⟨same, ih⟩

theorem padded_cons : Padded (a :: version) (b :: other) ↔ a = b ∧ Padded version other := by
  constructor
  · rintro ⟨padding, some, same, least⟩
    rw [List.cons_append, List.cons.injEq] at same
    exact ⟨same.1, padding, some, same.2, least⟩
  · rintro ⟨rfl, padding, some, rfl, least⟩
    exact ⟨padding, some, rfl, least⟩

theorem not_nil_padded : ¬Padded [] version := by
  rintro ⟨padding, some, nothing, -⟩
  exact some (List.append_eq_nil_iff.mp nothing.symm).2

theorem padded_nil : Padded (a :: version) [] ↔ AtMost (a :: version) [] := by
  have each : AtMost version [] ↔ ∀ c ∈ version, c = ⊥ := by
    induction version with
    | nil => simp [nil_atMost]
    | cons c version ih => rw [atMost_cons_nil, ih, List.forall_mem_cons]
  constructor
  · rintro ⟨padding, -, same, least⟩
    rw [List.nil_append] at same
    rw [← same] at least
    exact atMost_cons_nil.mpr ⟨least a List.mem_cons_self,
      each.mpr fun c cMem => least c (List.mem_cons_of_mem a cMem)⟩
  · intro atMost
    rcases atMost_cons_nil.mp atMost with ⟨first, others⟩
    refine ⟨a :: version, List.cons_ne_nil a version, rfl, ?_⟩
    intro c cMem
    rcases List.mem_cons.mp cMem with rfl | cMem
    · exact first
    · exact each.mp others c cMem

/-- Versions and tuples are in the same order, unless the one goes on with least components where
the other ends. -/
theorem tupleLe_iff_atMost :
    TupleLe version other ↔ AtMost version other ∧ ¬Padded version other := by
  induction version generalizing other with
  | nil => simp [TupleLe, nil_atMost, not_nil_padded]
  | cons a version ih =>
      cases other with
      | nil => simp [TupleLe, padded_nil]
      | cons b other =>
          rw [TupleLe, ih, atMost_cons, padded_cons]
          constructor
          · rintro (less | ⟨same, atMost, notPadded⟩)
            · exact ⟨.inl less, fun padded => absurd padded.1 less.ne⟩
            · exact ⟨.inr ⟨same, atMost⟩, fun padded => notPadded padded.2⟩
          · rintro ⟨less | ⟨same, atMost⟩, notPadded⟩
            · exact .inl less
            · exact .inr ⟨same, atMost, fun padded => notPadded ⟨same, padded⟩⟩

end Orders

end Dotted
