import TelemetryPlatform.Library.Binary64
import TelemetryPlatform.Library.Calendar

/-!
# Times from numbers

`datetime.fromtimestamp(n / d, tz=UTC)` and its text. The quotient is a double, so
that a time is exact to some microseconds only, and there are times for the years 1
to 9999. `isoUtc_isOk_of_bounds` has the numbers this leaves.
-/

namespace Python

open Binary64 (nearest roundEven nearest_mono nearest_zero roundEven_mono)

section Definitions

/-- The whole part of a number, towards zero. -/
def truncate (x : ℚ) : ℤ := if 0 ≤ x then ⌊x⌋ else ⌈x⌉

/-- The microseconds of a fraction of a second, as a product of doubles. -/
def microsOfFraction (fraction : ℚ) : ℤ := roundEven (nearest (fraction * 1000000))

/-- A number of seconds in microseconds. -/
def microsOfSeconds (seconds : ℚ) : ℤ :=
  truncate seconds * 1000000 + microsOfFraction (seconds - truncate seconds)

/-- `n / d` seconds in microseconds. -/
def microseconds (n : ℤ) (d : ℕ) : ℤ := microsOfSeconds (nearest (n / d))

/-- The first moment of the year 1, in microseconds from the epoch. -/
def yearOne : ℤ := -62135596800000000

/-- The time is in one of the years 1 to 9999. -/
def InCalendar (micros : ℤ) : Prop :=
  yearOne ≤ micros ∧ micros < yearOne + maxOrdinal * 86400000000

instance (micros : ℤ) : Decidable (InCalendar micros) := inferInstanceAs (Decidable (_ ∧ _))

def InCalendar.time {micros : ℤ} (inCalendar : InCalendar micros) : DateTime where
  micros := (micros - yearOne).toNat
  inRange := by
    rcases inCalendar with ⟨lower, upper⟩
    omega

/-- The digits of a number, with zeros before them. -/
def zeroPadded (width n : ℕ) : List Char := (Nat.toDigits 10 n).leftpad width '0'

/-- `isoformat()` of a time without an offset. It leaves out a fraction of zero. -/
def DateTime.isoformat (time : DateTime) : List Char :=
  zeroPadded 4 time.date.year ++ '-' :: zeroPadded 2 time.date.month ++
    '-' :: zeroPadded 2 time.date.day ++ 'T' :: zeroPadded 2 (time.seconds % 86400 / 3600) ++
    ':' :: zeroPadded 2 (time.seconds % 3600 / 60) ++ ':' :: zeroPadded 2 (time.seconds % 60) ++
    if time.micros % 1000000 = 0 then [] else '.' :: zeroPadded 6 (time.micros % 1000000)

/-- `datetime.fromtimestamp(n / d, tz=UTC).isoformat()` with `Z` for the UTC offset. A time outside
the calendar is refused by the conversion to `time_t`, by `gmtime`, whose years are of 32 bits, or
by `datetime`. -/
def isoUtc (n : ℤ) (d : ℕ) : Except Exc (List Char) :=
  let micros := microseconds n d
  let seconds := micros / 1000000
  if seconds < -2 ^ 63 ∨ 2 ^ 63 ≤ seconds then .error .overflowError
  else if seconds < -67768040609740800 ∨ 67768036191676800 ≤ seconds then .error .osError
  else if inCalendar : InCalendar micros then .ok (inCalendar.time.isoformat ++ ['Z'])
  else .error (.valueError (str "year is out of range"))

end Definitions

section Order

theorem truncate_mono {x y : ℚ} (less : x ≤ y) : truncate x ≤ truncate y := by
  unfold truncate
  split_ifs with fromZero later later
  · exact Int.floor_le_floor less
  · exact absurd (fromZero.trans less) later
  · exact (Int.ceil_le.mpr (by simpa using (not_le.mp fromZero).le)).trans
      (Int.floor_nonneg.mpr later)
  · exact Int.ceil_le_ceil less

theorem microsOfFraction_mono {x y : ℚ} (less : x ≤ y) :
    microsOfFraction x ≤ microsOfFraction y := by
  apply roundEven_mono (nearest_mono _)
  linarith

/-- What a number has beyond its whole part is of its own sign and no more than one. -/
theorem sub_truncate_bounds (x : ℚ) : (0 ≤ x → 0 ≤ x - truncate x) ∧
    (x ≤ 0 → x - truncate x ≤ 0) ∧ -1 ≤ x - truncate x ∧ x - truncate x ≤ 1 := by
  unfold truncate
  split_ifs with nonneg
  · have floor := Int.floor_le x
    have floor' := Int.lt_floor_add_one x
    refine ⟨fun _ => by linarith, fun nonpos => ?_, by linarith, by linarith⟩
    rw [le_antisymm nonpos nonneg]
    simp
  · have ceil := Int.le_ceil x
    have ceil' := Int.ceil_lt_add_one x
    exact ⟨fun nonneg' => absurd nonneg' nonneg, fun _ => by linarith, by linarith, by linarith⟩

/-- A fraction of a second is of the sign of the time and no longer than a second. -/
theorem microsOfFraction_bounds (x : ℚ) :
    (0 ≤ x → 0 ≤ microsOfFraction (x - truncate x)) ∧
      (x ≤ 0 → microsOfFraction (x - truncate x) ≤ 0) ∧
      -1000000 ≤ microsOfFraction (x - truncate x) ∧
      microsOfFraction (x - truncate x) ≤ 1000000 := by
  have zero : microsOfFraction 0 = 0 := by decide +kernel
  have one : microsOfFraction 1 = 1000000 := by decide +kernel
  have minusOne : microsOfFraction (-1) = -1000000 := by decide +kernel
  rcases sub_truncate_bounds x with ⟨positive, negative, lower, upper⟩
  refine ⟨fun nonneg => ?_, fun nonpos => ?_, ?_, ?_⟩
  · rw [← zero]
    exact microsOfFraction_mono (positive nonneg)
  · rw [← zero]
    exact microsOfFraction_mono (negative nonpos)
  · rw [← minusOne]
    exact microsOfFraction_mono lower
  · rw [← one]
    exact microsOfFraction_mono upper

theorem microsOfSeconds_mono {x y : ℚ} (less : x ≤ y) :
    microsOfSeconds x ≤ microsOfSeconds y := by
  rcases (truncate_mono less).lt_or_eq with apart | same
  · rcases microsOfFraction_bounds x with ⟨_, nonpos, _, upper⟩
    rcases microsOfFraction_bounds y with ⟨nonneg, _, lower, _⟩
    unfold microsOfSeconds
    rcases le_total 0 y with later | earlier
    · have := nonneg later
      omega
    · have := nonpos (less.trans earlier)
      omega
  · unfold microsOfSeconds
    rw [← same]
    have ordered := microsOfFraction_mono (show x - truncate x ≤ y - truncate x by linarith)
    omega

theorem microseconds_mono (d : ℕ) {m n : ℤ} (less : m ≤ n) :
    microseconds m d ≤ microseconds n d := by
  apply microsOfSeconds_mono (nearest_mono _)
  have cast : (m : ℚ) ≤ n := by exact_mod_cast less
  exact div_le_div_of_nonneg_right cast (Nat.cast_nonneg d)

end Order

section Range

theorem isoUtc_ne_keyError {n : ℤ} {d : ℕ} {key : Str} : isoUtc n d ≠ .error (.keyError key) := by
  unfold isoUtc
  dsimp only
  split_ifs <;> rintro ⟨⟩

theorem isoUtc_isOk {n : ℤ} {d : ℕ} :
    (∃ text, isoUtc n d = .ok text) ↔ InCalendar (microseconds n d) := by
  unfold isoUtc
  dsimp only
  constructor
  · rintro ⟨text, written⟩
    split_ifs at written with _ _ inCalendar
    exact inCalendar
  · intro inCalendar
    have range := inCalendar
    unfold InCalendar yearOne maxOrdinal at range
    rw [if_neg (by omega), if_neg (by omega), dif_pos inCalendar]
    exact ⟨_, rfl⟩

/-- A number has a time exactly if it lies between the first and the last that have one. -/
theorem isoUtc_isOk_of_bounds {first last : ℤ} {d : ℕ}
    (lower : microseconds (first - 1) d < yearOne ∧ yearOne ≤ microseconds first d)
    (upper : microseconds last d < yearOne + maxOrdinal * 86400000000 ∧
      yearOne + maxOrdinal * 86400000000 ≤ microseconds (last + 1) d) (n : ℤ) :
    (∃ text, isoUtc n d = .ok text) ↔ first ≤ n ∧ n ≤ last := by
  rw [isoUtc_isOk]
  constructor
  · rintro ⟨fromYearOne, toYearEnd⟩
    constructor
    · by_contra before
      have earlier := microseconds_mono d (show n ≤ first - 1 by omega)
      exact absurd fromYearOne (earlier.trans_lt lower.1).not_ge
    · by_contra after
      have later := microseconds_mono d (show last + 1 ≤ n by omega)
      exact absurd toYearEnd (upper.2.trans later).not_gt
  · rintro ⟨fromFirst, toLast⟩
    exact ⟨lower.2.trans (microseconds_mono d fromFirst),
      (microseconds_mono d toLast).trans_lt upper.1⟩

theorem isoUtc_millis (n : ℤ) : (∃ text, isoUtc n 1000 = .ok text) ↔
    -62135596800000 ≤ n ∧ n ≤ 253402300799999 :=
  isoUtc_isOk_of_bounds (by decide +kernel) (by decide +kernel) n

theorem isoUtc_nanos (n : ℤ) : (∃ text, isoUtc n 1000000000 = .ok text) ↔
    -62135596800000003814 ≤ n ∧ n ≤ 253402300799999984741 :=
  isoUtc_isOk_of_bounds (by decide +kernel) (by decide +kernel) n

end Range

end Python
