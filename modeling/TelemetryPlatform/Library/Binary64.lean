import Mathlib.Algebra.Order.Field.Power
import Mathlib.Algebra.Order.Floor.Ring
import Mathlib.Data.Int.Log
import Mathlib.Data.Rat.Floor
import Mathlib.Tactic.Linarith
import Mathlib.Tactic.Positivity

/-!
# Rounding to binary64

The floating-point numbers of double precision as rational numbers. `nearest` rounds
to 53 binary digits, with the grid of the subnormal numbers around zero, and to the
even one of two numbers that are as near. It does not bound the exponent.
-/

namespace Binary64

section Integers

/-- The nearest integer, and the even one of two that are as near. -/
def roundEven (x : ℚ) : ℤ :=
  if x - ⌊x⌋ < 1 / 2 then ⌊x⌋
  else if 1 / 2 < x - ⌊x⌋ then ⌊x⌋ + 1
  else ⌊x⌋ + ⌊x⌋ % 2

@[simp]
theorem roundEven_intCast (n : ℤ) : roundEven n = n := by
  simp [roundEven]

theorem floor_le_roundEven (x : ℚ) : ⌊x⌋ ≤ roundEven x := by
  unfold roundEven
  split_ifs
  · exact le_rfl
  · omega
  · omega

theorem roundEven_le_floor_add_one (x : ℚ) : roundEven x ≤ ⌊x⌋ + 1 := by
  unfold roundEven
  split_ifs
  · omega
  · exact le_rfl
  · omega

theorem roundEven_mono {x y : ℚ} (less : x ≤ y) : roundEven x ≤ roundEven y := by
  rcases (Int.floor_le_floor less).lt_or_eq with apart | same
  · calc roundEven x ≤ ⌊x⌋ + 1 := roundEven_le_floor_add_one x
      _ ≤ ⌊y⌋ := apart
      _ ≤ roundEven y := floor_le_roundEven y
  · have less' : x - ⌊x⌋ ≤ y - ⌊x⌋ := by linarith
    have parity : 0 ≤ ⌊x⌋ % 2 ∧ ⌊x⌋ % 2 ≤ 1 := by omega
    unfold roundEven
    rw [← same]
    split_ifs
    · exact le_rfl
    · omega
    · omega
    · linarith
    · exact le_rfl
    · linarith
    · linarith
    · omega
    · exact le_rfl

theorem roundEven_neg (x : ℚ) : roundEven (-x) = -roundEven x := by
  by_cases whole : (⌊x⌋ : ℚ) = x
  · rw [← whole, ← Int.cast_neg, roundEven_intCast, roundEven_intCast]
  · have below : (⌊x⌋ : ℚ) < x := (Int.floor_le x).lt_of_ne whole
    have above := Int.lt_floor_add_one x
    have floor_eq : ⌊-x⌋ = -⌊x⌋ - 1 := by
      rw [Int.floor_eq_iff]
      push_cast
      constructor <;> linarith
    unfold roundEven
    rw [floor_eq]
    push_cast
    split_ifs
    · linarith
    · omega
    · linarith
    · omega
    · linarith
    · linarith
    · linarith
    · linarith
    · omega

theorem roundEven_le {x : ℚ} {n : ℤ} (bounded : x ≤ n) : roundEven x ≤ n :=
  (roundEven_mono bounded).trans_eq (roundEven_intCast n)

theorem le_roundEven {x : ℚ} {n : ℤ} (bounded : n ≤ x) : n ≤ roundEven x :=
  (roundEven_intCast n).symm.trans_le (roundEven_mono bounded)

theorem abs_roundEven_le {x : ℚ} {n : ℤ} (bounded : |x| ≤ n) : |roundEven x| ≤ n := by
  rw [abs_le] at bounded ⊢
  constructor
  · apply le_roundEven
    rw [Int.cast_neg]
    exact bounded.1
  · exact roundEven_le bounded.2

end Integers

section Grid

/-- The exponent of the last binary digit of a number near `x`. -/
def exponent (x : ℚ) : ℤ := max (Int.log 2 |x| - 52) (-1074)

/-- The nearest number with 53 binary digits. -/
def nearest (x : ℚ) : ℚ := roundEven (x / 2 ^ exponent x) * 2 ^ exponent x

variable {x y : ℚ}

theorem two_pow_add (e k : ℤ) : (2 : ℚ) ^ (e + k) = 2 ^ k * 2 ^ e := by
  rw [add_comm, zpow_add₀ (by norm_num)]

theorem exponent_neg : exponent (-x) = exponent x := by
  rw [exponent, abs_neg, exponent]

theorem exponent_mono (positive : 0 < x) (less : x ≤ y) : exponent x ≤ exponent y := by
  have log_le : Int.log 2 |x| ≤ Int.log 2 |y| := by
    rw [abs_of_pos positive, abs_of_pos (positive.trans_le less)]
    exact Int.log_mono_right positive less
  unfold exponent
  omega

theorem abs_lt_two_pow : |x| < 2 ^ (exponent x + 53) := by
  apply (Int.lt_zpow_succ_log_self (b := 2) (by decide) |x|).trans_le
  apply zpow_le_zpow_right₀ (by norm_num)
  unfold exponent
  omega

/-- A number above the subnormal ones has all its digits. -/
theorem two_pow_le_abs (nonzero : x ≠ 0) (normal : -1074 < exponent x) :
    2 ^ (exponent x + 52) ≤ |x| := by
  have exponent_eq : exponent x + 52 = Int.log 2 |x| := by
    unfold exponent at *
    omega
  rw [exponent_eq]
  exact Int.zpow_log_le_self (by decide) (abs_pos.mpr nonzero)

theorem exponent_le_of_abs_lt {e : ℤ} (bounded : -1074 ≤ e) (nonzero : x ≠ 0)
    (less : |x| < 2 ^ (e + 53)) : exponent x ≤ e := by
  have log_lt : Int.log 2 |x| < e + 53 :=
    (Int.lt_zpow_iff_log_lt (by decide) (abs_pos.mpr nonzero)).mp less
  unfold exponent
  omega

@[simp]
theorem nearest_zero : nearest 0 = 0 := by
  rw [nearest, zero_div, show (0 : ℚ) = (0 : ℤ) from rfl, roundEven_intCast,
    Int.cast_zero, zero_mul]

theorem nearest_neg : nearest (-x) = -nearest x := by
  rw [nearest, exponent_neg, neg_div, roundEven_neg, Int.cast_neg, neg_mul, nearest]

/-- A number on a grid that is no coarser than its own is not rounded. -/
theorem nearest_of_grid {e n : ℤ} (onGrid : x = n * 2 ^ e) (fine : exponent x ≤ e) :
    nearest x = x := by
  have split : (2 : ℚ) ^ e = 2 ^ (e - exponent x).toNat * 2 ^ exponent x := by
    rw [← zpow_natCast, ← zpow_add₀ (by norm_num)]
    congr 1
    omega
  have whole : x / 2 ^ exponent x = (n * 2 ^ (e - exponent x).toNat : ℤ) := by
    rw [div_eq_iff (by positivity)]
    push_cast
    rw [mul_assoc, ← split, ← onGrid]
  rw [nearest, whole, roundEven_intCast, ← whole, div_mul_cancel₀ _ (by positivity)]

theorem nearest_nonneg (nonneg : 0 ≤ x) : 0 ≤ nearest x := by
  have scaled : ((0 : ℤ) : ℚ) ≤ x / 2 ^ exponent x := by
    rw [Int.cast_zero]
    positivity
  have cast : (0 : ℚ) ≤ roundEven (x / 2 ^ exponent x) := by exact_mod_cast le_roundEven scaled
  unfold nearest
  positivity

theorem nearest_le_two_pow : nearest x ≤ 2 ^ (exponent x + 53) := by
  have less : x / 2 ^ exponent x ≤ (2 ^ 53 : ℤ) := by
    rw [div_le_iff₀ (by positivity)]
    apply (le_abs_self x).trans
    apply abs_lt_two_pow.le.trans
    rw [two_pow_add]
    norm_num
  have cast : (roundEven (x / 2 ^ exponent x) : ℚ) ≤ 2 ^ 53 := by exact_mod_cast roundEven_le less
  rw [nearest, two_pow_add]
  exact mul_le_mul_of_nonneg_right cast (by positivity)

theorem two_pow_le_nearest (large : 2 ^ (exponent x + 52) ≤ x) :
    2 ^ (exponent x + 52) ≤ nearest x := by
  have less : ((2 ^ 52 : ℤ) : ℚ) ≤ x / 2 ^ exponent x := by
    rw [le_div_iff₀ (by positivity)]
    push_cast
    apply le_trans _ large
    rw [two_pow_add]
    norm_num
  have cast : (2 ^ 52 : ℚ) ≤ roundEven (x / 2 ^ exponent x) := by exact_mod_cast le_roundEven less
  rw [nearest, two_pow_add]
  exact mul_le_mul_of_nonneg_right cast (by positivity)

theorem nearest_mono_of_pos (positive : 0 < x) (less : x ≤ y) : nearest x ≤ nearest y := by
  rcases (exponent_mono positive less).lt_or_eq with apart | same
  · -- A power of two lies between the two grids.
    have normal : -1074 < exponent y := by
      unfold exponent at *
      omega
    have large := two_pow_le_abs (positive.trans_le less).ne' normal
    rw [abs_of_pos (positive.trans_le less)] at large
    calc nearest x ≤ 2 ^ (exponent x + 53) := nearest_le_two_pow
      _ ≤ 2 ^ (exponent y + 52) := zpow_le_zpow_right₀ (by norm_num) (by omega)
      _ ≤ nearest y := two_pow_le_nearest large
  · have scaled : x / 2 ^ exponent y ≤ y / 2 ^ exponent y :=
      div_le_div_of_nonneg_right less (by positivity)
    have cast : (roundEven (x / 2 ^ exponent y) : ℚ) ≤ roundEven (y / 2 ^ exponent y) := by
      exact_mod_cast roundEven_mono scaled
    rw [nearest, nearest, same]
    exact mul_le_mul_of_nonneg_right cast (by positivity)

/-- Rounding keeps the order. -/
theorem nearest_mono : Monotone nearest := by
  intro x y less
  rcases lt_trichotomy 0 x with positive | zero | negative
  · exact nearest_mono_of_pos positive less
  · rw [← zero, nearest_zero]
    exact nearest_nonneg (zero.le.trans less)
  · by_cases nonneg : 0 ≤ y
    · have below := nearest_nonneg (neg_nonneg.mpr negative.le)
      rw [nearest_neg] at below
      linarith [nearest_nonneg nonneg]
    · have swapped := nearest_mono_of_pos (neg_pos.mpr (not_le.mp nonneg)) (neg_le_neg less)
      rw [nearest_neg, nearest_neg] at swapped
      linarith

theorem abs_nearest : |nearest x| = |roundEven (x / 2 ^ exponent x)| * 2 ^ exponent x := by
  rw [nearest, abs_mul, abs_of_pos (show (0 : ℚ) < 2 ^ exponent x by positivity), Int.cast_abs]

/-- What is rounded is on the grid. -/
theorem nearest_nearest : nearest (nearest x) = nearest x := by
  have least : -1074 ≤ exponent x := le_max_right _ _
  have scaled : |x / 2 ^ exponent x| ≤ (2 ^ 53 : ℤ) := by
    rw [abs_div, abs_of_pos (show (0 : ℚ) < 2 ^ exponent x by positivity),
      div_le_iff₀ (by positivity)]
    apply abs_lt_two_pow.le.trans
    rw [two_pow_add]
    norm_num
  by_cases zero : nearest x = 0
  · rw [zero, nearest_zero]
  rcases (abs_roundEven_le scaled).lt_or_eq with less | same
  · apply nearest_of_grid rfl
    apply exponent_le_of_abs_lt least zero
    rw [abs_nearest, two_pow_add]
    apply mul_lt_mul_of_pos_right _ (by positivity)
    exact_mod_cast less
  · -- The number is the next power of two, which the next coarser grid has.
    have even : roundEven (x / 2 ^ exponent x) = roundEven (x / 2 ^ exponent x) / 2 * 2 := by
      rcases (abs_eq (by norm_num)).mp same with above | below
      · rw [above]
        rfl
      · rw [below]
        rfl
    apply nearest_of_grid (e := exponent x + 1) (n := roundEven (x / 2 ^ exponent x) / 2)
    · rw [zpow_add₀ (by norm_num), zpow_one, mul_comm (2 ^ exponent x), ← mul_assoc, nearest]
      congr 1
      exact_mod_cast even
    · apply exponent_le_of_abs_lt (by omega) zero
      rw [abs_nearest, same, add_assoc, two_pow_add]
      apply mul_lt_mul_of_pos_right _ (by positivity)
      norm_num

end Grid

end Binary64
