import Mathlib.Algebra.Order.Floor.Ring
import Mathlib.Tactic.Linarith
import Mathlib.Tactic.Ring

/-!
# Linear interpolation

A value between the points of a sequence: at a rank that is an integer it is the point,
and at other ranks the two points around the rank are weighted by its distances from
them. Where the points ascend, so does the interpolation.
-/

namespace Interpolation

variable {α : Type} [Field α] [LinearOrder α] [IsStrictOrderedRing α] [FloorRing α]

def interpolate (points : ℤ → α) (rank : α) : α :=
  if ⌊rank⌋ = ⌈rank⌉ then points ⌊rank⌋
  else points ⌊rank⌋ * (⌈rank⌉ - rank) + points ⌈rank⌉ * (rank - ⌊rank⌋)

variable {points : ℤ → α} {rank later : α} {last : ℤ}

/-- The points ascend up to the last one. -/
def Ascends (points : ℤ → α) (last : ℤ) : Prop :=
  ∀ i j, 0 ≤ i → i ≤ j → j ≤ last → points i ≤ points j

theorem interpolate_intCast (points : ℤ → α) (i : ℤ) :
    interpolate points (i : α) = points i := by
  rw [interpolate, Int.floor_intCast, Int.ceil_intCast, if_pos rfl]

/-- Beside the integers the ceiling follows the floor. -/
theorem ceil_eq_floor_add_one (apart : ⌊rank⌋ ≠ ⌈rank⌉) : ⌈rank⌉ = ⌊rank⌋ + 1 := by
  have below := Int.floor_le_ceil rank
  have above := Int.ceil_le_floor_add_one rank
  omega

/-- Beside the integers the interpolation adds a part of the difference to the lower point. -/
theorem interpolate_of_ne (points : ℤ → α) (apart : ⌊rank⌋ ≠ ⌈rank⌉) :
    interpolate points rank =
      points ⌊rank⌋ + (points ⌈rank⌉ - points ⌊rank⌋) * (rank - ⌊rank⌋) := by
  rw [interpolate, if_neg apart]
  have next : ((⌈rank⌉ : ℤ) : α) = ⌊rank⌋ + 1 := by
    rw [ceil_eq_floor_add_one apart, Int.cast_add, Int.cast_one]
  rw [next]
  ring

theorem floor_le_interpolate (ordered : points ⌊rank⌋ ≤ points ⌈rank⌉) :
    points ⌊rank⌋ ≤ interpolate points rank := by
  by_cases same : ⌊rank⌋ = ⌈rank⌉
  · rw [interpolate, if_pos same]
  · rw [interpolate_of_ne points same]
    apply le_add_of_nonneg_right
    apply mul_nonneg
    · exact sub_nonneg.mpr ordered
    · exact sub_nonneg.mpr (Int.floor_le rank)

theorem interpolate_le_ceil (ordered : points ⌊rank⌋ ≤ points ⌈rank⌉) :
    interpolate points rank ≤ points ⌈rank⌉ := by
  by_cases same : ⌊rank⌋ = ⌈rank⌉
  · rw [interpolate, if_pos same]
    exact ordered
  · rw [interpolate_of_ne points same]
    have part : rank - ⌊rank⌋ ≤ 1 := by
      have less := Int.lt_floor_add_one rank
      linarith
    have scaled := mul_le_mul_of_nonneg_left part (sub_nonneg.mpr ordered)
    linarith

/-- Between neighbours the interpolation ascends with the rank. -/
theorem interpolate_le_of_floor_eq (ordered : points ⌊rank⌋ ≤ points ⌈rank⌉)
    (apart : ⌊rank⌋ ≠ ⌈rank⌉) (floors : ⌊rank⌋ = ⌊later⌋) (ceils : ⌈rank⌉ = ⌈later⌉)
    (less : rank ≤ later) : interpolate points rank ≤ interpolate points later := by
  have apart' : ⌊later⌋ ≠ ⌈later⌉ := by
    rw [← floors, ← ceils]
    exact apart
  rw [interpolate_of_ne points apart, interpolate_of_ne points apart', ← floors, ← ceils]
  apply add_le_add_right
  apply mul_le_mul_of_nonneg_left
  · exact sub_le_sub_right less _
  · exact sub_nonneg.mpr ordered

/-- The interpolation of points that ascend ascends. -/
theorem interpolate_mono (ascends : Ascends points last) (nonneg : 0 ≤ rank) (less : rank ≤ later)
    (within : later ≤ last) : interpolate points rank ≤ interpolate points later := by
  have start : 0 ≤ ⌊rank⌋ := Int.floor_nonneg.mpr nonneg
  have stop : ⌈later⌉ ≤ last := Int.ceil_le.mpr within
  have floors : ⌊rank⌋ ≤ ⌊later⌋ := Int.floor_le_floor less
  have ceils : ⌈rank⌉ ≤ ⌈later⌉ := Int.ceil_le_ceil less
  have below := Int.floor_le_ceil rank
  have above := Int.floor_le_ceil later
  have ordered := ascends ⌊rank⌋ ⌈rank⌉ start below (ceils.trans stop)
  rcases le_or_gt ⌈rank⌉ ⌊later⌋ with beyond | between
  · have ordered' := ascends ⌊later⌋ ⌈later⌉ (start.trans floors) above stop
    calc
      interpolate points rank ≤ points ⌈rank⌉ := interpolate_le_ceil ordered
      _ ≤ points ⌊later⌋ := ascends _ _ (start.trans below) beyond (above.trans stop)
      _ ≤ interpolate points later := floor_le_interpolate ordered'
  · -- Both ranks lie between the same neighbours.
    have apart : ⌊rank⌋ ≠ ⌈rank⌉ := by omega
    have next := ceil_eq_floor_add_one apart
    have apart' : ⌊later⌋ ≠ ⌈later⌉ := by omega
    have next' := ceil_eq_floor_add_one apart'
    exact interpolate_le_of_floor_eq ordered apart (by omega) (by omega) less

end Interpolation
