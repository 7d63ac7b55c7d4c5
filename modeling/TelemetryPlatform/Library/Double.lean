import TelemetryPlatform.Library.Binary64

/-!
# Doubles

The doubles with their arithmetic: every result is the exact one, rounded by `nearest`,
and an infinity where that is too large. There is one zero. The operations of two numbers
keep the order, so that sums, quotients and products of ordered doubles are ordered.
-/

namespace Binary64

section Doubles

/-- Where the doubles end. -/
def limit : ℚ := 2 ^ 1024

/-- A rational number that a double holds. -/
def IsDouble (x : ℚ) : Prop := nearest x = x ∧ |x| < limit

instance (x : ℚ) : Decidable (IsDouble x) := inferInstanceAs (Decidable (_ ∧ _))

inductive Double
  | finite (value : ℚ) (isDouble : IsDouble value)
  | infinite (negative : Bool)
  | nan
  deriving DecidableEq

namespace Double

def ofRat (x : ℚ) : Double :=
  if small : |nearest x| < limit then .finite (nearest x) ⟨nearest_nearest, small⟩
  else .infinite (x < 0)

instance : Zero Double := ⟨ofRat 0⟩

instance : One Double := ⟨ofRat 1⟩

/-- Python raises where an integer is too large. -/
instance : IntCast Double := ⟨fun n => ofRat n⟩

instance : NatCast Double := ⟨fun n => ofRat n⟩

protected def neg : Double → Double
  | finite x _ => ofRat (-x)
  | infinite negative => infinite !negative
  | nan => nan

protected def add : Double → Double → Double
  | finite x _, finite y _ => ofRat (x + y)
  | finite _ _, infinite negative => infinite negative
  | infinite negative, finite _ _ => infinite negative
  | infinite negative, infinite negative' =>
      if negative = negative' then infinite negative else nan
  | _, _ => nan

protected def mul : Double → Double → Double
  | finite x _, finite y _ => ofRat (x * y)
  | finite x _, infinite negative | infinite negative, finite x _ =>
      if x = 0 then nan else infinite (negative ^^ (x < 0))
  | infinite negative, infinite negative' => infinite (negative ^^ negative')
  | _, _ => nan

/-- Python raises where the divisor is zero. -/
protected def div : Double → Double → Double
  | finite x _, finite y _ => if y = 0 then nan else ofRat (x / y)
  | finite _ _, infinite _ => 0
  | infinite negative, finite y _ => if y = 0 then nan else infinite (negative ^^ (y < 0))
  | _, _ => nan

instance : Neg Double := ⟨Double.neg⟩

instance : Add Double := ⟨Double.add⟩

instance : Sub Double := ⟨fun x y => x + -y⟩

instance : Mul Double := ⟨Double.mul⟩

instance : Div Double := ⟨Double.div⟩

/-- No comparison with a nan holds. -/
protected def le : Double → Double → Bool
  | nan, _ | _, nan => false
  | infinite true, _ | _, infinite false => true
  | finite x _, finite y _ => x ≤ y
  | _, _ => false

instance : LE Double := ⟨fun x y => x.le y⟩

instance : LT Double := ⟨fun x y => x ≤ y ∧ ¬y ≤ x⟩

instance : DecidableLE Double := fun x y => inferInstanceAs (Decidable (x.le y))

instance : DecidableLT Double := fun x y => inferInstanceAs (Decidable (x ≤ y ∧ ¬y ≤ x))

/-- `min` and `max` keep the first of two doubles unless the second one beats it. -/
instance : Min Double := ⟨fun x y => if y < x then y else x⟩

instance : Max Double := ⟨fun x y => if x < y then y else x⟩

/-- `math.fmod`, which is exact. -/
def fmod : Double → Double → Double
  | finite x _, finite y _ =>
      if y = 0 then nan
      else if 0 ≤ x / y then ofRat (x - ⌊x / y⌋ * y) else ofRat (x - ⌈x / y⌉ * y)
  | finite x isDouble, infinite _ => finite x isDouble
  | _, _ => nan

def floor : Double → Double
  | finite x _ => ofRat ⌊x⌋
  | x => x

/-- `x // y`. -/
def floorDiv (x y : Double) : Double :=
  let mod := fmod x y
  let div := (x - mod) / y
  let div := if mod ≠ 0 ∧ (decide (y < 0) != decide (mod < 0)) then div - 1 else div
  if div = 0 then 0
  else if ofRat (1 / 2) < div - floor div then floor div + 1
  else floor div

/-- `int(x)`, which raises on an infinity and on a nan. -/
def toInt? : Double → Option Int
  | finite x _ => some (if 0 ≤ x then ⌊x⌋ else ⌈x⌉)
  | _ => none

/-- A double that is neither an infinity nor a nan. -/
def IsFinite (x : Double) : Prop := ∃ value isDouble, x = finite value isDouble

instance : DecidablePred IsFinite
  | finite value isDouble => isTrue ⟨value, isDouble, rfl⟩
  | infinite _ => isFalse nofun
  | nan => isFalse nofun

end Double

end Doubles

namespace Double

section Order

variable {x y : Double} {a b : ℚ} {aDouble : IsDouble a} {bDouble : IsDouble b}

@[simp]
theorem finite_le_finite : finite a aDouble ≤ finite b bDouble ↔ a ≤ b := decide_eq_true_iff

@[simp]
theorem finite_lt_finite : finite a aDouble < finite b bDouble ↔ a < b := by
  have unfolded : finite a aDouble < finite b bDouble ↔ a ≤ b ∧ ¬b ≤ a :=
    and_congr finite_le_finite (not_congr finite_le_finite)
  rw [unfolded, not_le]
  exact ⟨And.right, fun less => ⟨less.le, less⟩⟩

theorem infinite_true_le (number : x ≠ nan) : infinite true ≤ x := by
  cases x with
  | nan => exact absurd rfl number
  | _ => rfl

theorem le_infinite_false (number : x ≠ nan) : x ≤ infinite false := by
  cases x with
  | finite value isDouble => rfl
  | infinite negative => cases negative <;> rfl
  | nan => exact absurd rfl number

theorem ne_nan_of_le (less : x ≤ y) : x ≠ nan ∧ y ≠ nan := by
  constructor
  · rintro rfl
    cases less
  · rintro rfl
    cases x with
    | infinite negative => cases negative <;> cases less
    | _ => cases less

theorem eq_infinite_false_of_le (less : infinite false ≤ x) : x = infinite false := by
  cases x with
  | infinite negative => cases negative with
    | true => cases less
    | false => rfl
  | _ => cases less

theorem limit_pos : 0 < limit := by
  unfold limit
  positivity

theorem ofRat_of_isDouble (isDouble : IsDouble a) : ofRat a = finite a isDouble := by
  rcases isDouble with ⟨rounded, small⟩
  have small' : |nearest a| < limit := by
    rw [rounded]
    exact small
  rw [ofRat, dif_pos small']
  congr 1

/-- What a number becomes that is rounded: a double, or the infinity of its sign. -/
theorem ofRat_cases (a : ℚ) :
    (∃ isDouble, ofRat a = finite (nearest a) isDouble) ∨
      limit ≤ nearest a ∧ ofRat a = infinite false ∨
        nearest a ≤ -limit ∧ ofRat a = infinite true := by
  have positive := limit_pos
  by_cases small : |nearest a| < limit
  · refine Or.inl ⟨⟨nearest_nearest, small⟩, ?_⟩
    rw [ofRat, dif_pos small]
  · rw [ofRat, dif_neg small]
    refine Or.inr ?_
    rcases le_or_gt 0 a with nonneg | negative
    · have rounded := nearest_nonneg nonneg
      rw [abs_of_nonneg rounded, not_lt] at small
      exact Or.inl ⟨small, by rw [decide_eq_false nonneg.not_gt]⟩
    · have rounded := nearest_nonneg (neg_nonneg.mpr negative.le)
      rw [nearest_neg] at rounded
      rw [abs_of_nonpos (by linarith), not_lt] at small
      exact Or.inr ⟨by linarith, by rw [decide_eq_true negative]⟩

theorem ofRat_ne_nan : ofRat a ≠ nan := by
  rcases ofRat_cases a with ⟨_, held⟩ | ⟨_, held⟩ | ⟨_, held⟩
  · rw [held]
    nofun
  · rw [held]
    nofun
  · rw [held]
    nofun

/-- Rounding to a double keeps the order, beyond the largest double too. -/
theorem ofRat_mono (less : a ≤ b) : ofRat a ≤ ofRat b := by
  have positive := limit_pos
  have rounded := nearest_mono less
  rcases ofRat_cases a with ⟨aDouble, held⟩ | ⟨large, held⟩ | ⟨_, held⟩
  · rcases ofRat_cases b with ⟨bDouble, held'⟩ | ⟨_, held'⟩ | ⟨small, held'⟩
    · rw [held, held', finite_le_finite]
      exact rounded
    · rw [held']
      exact le_infinite_false ofRat_ne_nan
    · have above := neg_lt_of_abs_lt aDouble.2
      linarith
  · rcases ofRat_cases b with ⟨bDouble, held'⟩ | ⟨_, held'⟩ | ⟨small, held'⟩
    · have below := lt_of_abs_lt bDouble.2
      linarith
    · rw [held']
      exact le_infinite_false ofRat_ne_nan
    · linarith
  · rw [held]
    exact infinite_true_le ofRat_ne_nan

theorem cases_of_le (less : x ≤ y) :
    x = infinite true ∧ y ≠ nan ∨ y = infinite false ∧ x ≠ nan ∨
      ∃ a b aDouble bDouble, x = finite a aDouble ∧ y = finite b bDouble ∧ a ≤ b := by
  rcases ne_nan_of_le less with ⟨number, number'⟩
  cases x with
  | nan => exact absurd rfl number
  | infinite negative => cases negative with
    | true => exact Or.inl ⟨rfl, number'⟩
    | false => exact Or.inr (Or.inl ⟨eq_infinite_false_of_le less, number⟩)
  | finite a aDouble => cases y with
    | nan => exact absurd rfl number'
    | infinite negative => cases negative with
      | true => cases less
      | false => exact Or.inr (Or.inl ⟨rfl, number⟩)
    | finite b bDouble =>
        exact Or.inr (Or.inr ⟨a, b, aDouble, bDouble, rfl, rfl, finite_le_finite.mp less⟩)

/-- Functions that keep the infinities are ordered when they are on the finite doubles. -/
theorem le_of_finite {f g : Double → Double} (low : f (infinite true) = infinite true)
    (high : g (infinite false) = infinite false) (number : ∀ x, x ≠ nan → f x ≠ nan)
    (number' : ∀ x, x ≠ nan → g x ≠ nan)
    (finite : ∀ a b aDouble bDouble, a ≤ b → f (finite a aDouble) ≤ g (finite b bDouble))
    (less : x ≤ y) : f x ≤ g y := by
  rcases cases_of_le less with ⟨rfl, some⟩ | ⟨rfl, some⟩ | ⟨a, b, aDouble, bDouble, rfl, rfl, less'⟩
  · rw [low]
    exact infinite_true_le (number' y some)
  · rw [high]
    exact le_infinite_false (number x some)
  · exact finite a b aDouble bDouble less'

end Order

section Arithmetic

variable {x y : Double} {a b : ℚ} {aDouble : IsDouble a} {bDouble : IsDouble b}

theorem add_ne_nan (number : x ≠ nan) : x + finite a aDouble ≠ nan := by
  cases x with
  | finite value isDouble => exact ofRat_ne_nan
  | infinite negative => nofun
  | nan => exact absurd rfl number

/-- A sum grows with its terms. -/
theorem add_mono (less : x ≤ y) (less' : a ≤ b) : x + finite a aDouble ≤ y + finite b bDouble := by
  apply le_of_finite (f := (· + finite a aDouble)) (g := (· + finite b bDouble)) rfl rfl
    (fun _ => add_ne_nan) (fun _ => add_ne_nan) _ less
  intro c d cDouble dDouble less
  exact ofRat_mono (add_le_add less less')

theorem finite_div (positive : 0 < a) :
    finite b bDouble / finite a aDouble = ofRat (b / a) :=
  if_neg positive.ne'

theorem infinite_div (positive : 0 < a) (negative : Bool) :
    infinite negative / finite a aDouble = infinite negative := by
  have quotient : infinite negative / finite a aDouble = infinite (negative ^^ (a < 0)) :=
    if_neg positive.ne'
  rw [quotient, decide_eq_false positive.not_gt, Bool.xor_false]

theorem div_ne_nan (positive : 0 < a) (number : x ≠ nan) : x / finite a aDouble ≠ nan := by
  cases x with
  | finite b bDouble =>
      rw [finite_div positive]
      exact ofRat_ne_nan
  | infinite negative =>
      rw [infinite_div positive]
      nofun
  | nan => exact absurd rfl number

/-- A quotient by a positive number grows with the dividend. -/
theorem div_mono (positive : 0 < a) (less : x ≤ y) :
    x / finite a aDouble ≤ y / finite a aDouble := by
  apply le_of_finite (f := (· / finite a aDouble)) (g := (· / finite a aDouble))
    (infinite_div positive true) (infinite_div positive false) (fun _ => div_ne_nan positive)
    (fun _ => div_ne_nan positive) _ less
  intro c d cDouble dDouble less
  rw [finite_div positive, finite_div positive]
  exact ofRat_mono (div_le_div_of_nonneg_right less positive.le)

theorem infinite_mul (positive : 0 < a) (negative : Bool) :
    infinite negative * finite a aDouble = infinite negative := by
  have product : infinite negative * finite a aDouble = infinite (negative ^^ (a < 0)) :=
    if_neg positive.ne'
  rw [product, decide_eq_false positive.not_gt, Bool.xor_false]

theorem mul_ne_nan (positive : 0 < a) (number : x ≠ nan) : x * finite a aDouble ≠ nan := by
  cases x with
  | finite b bDouble => exact ofRat_ne_nan
  | infinite negative =>
      rw [infinite_mul positive]
      nofun
  | nan => exact absurd rfl number

/-- A product with a positive number grows with the other factor. -/
theorem mul_mono (positive : 0 < a) (less : x ≤ y) :
    x * finite a aDouble ≤ y * finite a aDouble := by
  apply le_of_finite (f := (· * finite a aDouble)) (g := (· * finite a aDouble))
    (infinite_mul positive true) (infinite_mul positive false) (fun _ => mul_ne_nan positive)
    (fun _ => mul_ne_nan positive) _ less
  intro c d cDouble dDouble less
  exact ofRat_mono (mul_le_mul_of_nonneg_right less positive.le)

end Arithmetic

section Extremes

/-- The finite doubles, in their order. -/
def ofFinite (x : {x : ℚ // IsDouble x}) : Double := finite x.1 x.2

theorem isFinite_iff {x : Double} : x.IsFinite ↔ ∃ y, x = ofFinite y := by
  constructor
  · rintro ⟨value, isDouble, rfl⟩
    exact ⟨⟨value, isDouble⟩, rfl⟩
  · rintro ⟨y, rfl⟩
    exact ⟨y.1, y.2, rfl⟩

theorem ofFinite_injective : Function.Injective ofFinite := by
  intro x y same
  apply Subtype.ext
  injection same

theorem ofFinite_min (x y : {x : ℚ // IsDouble x}) :
    ofFinite (min x y) = min (ofFinite x) (ofFinite y) := by
  have smaller : min (ofFinite x) (ofFinite y) = if y < x then ofFinite y else ofFinite x :=
    if_congr finite_lt_finite rfl rfl
  rw [smaller]
  split
  · next less => rw [min_eq_right less.le]
  · next more => rw [min_eq_left (not_lt.mp more)]

theorem ofFinite_max (x y : {x : ℚ // IsDouble x}) :
    ofFinite (max x y) = max (ofFinite x) (ofFinite y) := by
  have larger : max (ofFinite x) (ofFinite y) = if x < y then ofFinite y else ofFinite x :=
    if_congr finite_lt_finite rfl rfl
  rw [larger]
  split
  · next less => rw [max_eq_right less.le]
  · next more => rw [max_eq_left (not_lt.mp more)]

end Extremes

end Double

end Binary64
