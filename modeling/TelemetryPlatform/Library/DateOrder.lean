import Mathlib.Data.List.Lex
import Mathlib.Tactic.IntervalCases
import TelemetryPlatform.Library.Calendar
import TelemetryPlatform.Library.Text

/-!
# The order of dates and of their texts

Days of the calendar are ordered by the year, then the month, then the day, and so are
the texts of their dates when every field has a fixed width: texts of one length are
compared by the first place where they differ.
-/

namespace Python

section Calendar

theorem daysBeforeYear_succ {year : Nat} (positive : 1 ≤ year) :
    daysBeforeYear (year + 1) = daysBeforeYear year + (monthLengths year).sum := by
  have fours : year / 4 = (year - 1) / 4 + if year % 4 = 0 then 1 else 0 := by split <;> omega
  have hundreds : year / 100 = (year - 1) / 100 + if year % 100 = 0 then 1 else 0 := by
    split <;> omega
  have cycles : year / 400 = (year - 1) / 400 + if year % 400 = 0 then 1 else 0 := by
    split <;> omega
  have fewer : (year - 1) / 100 ≤ (year - 1) / 4 := Nat.div_le_div_left (by omega) (by omega)
  simp only [daysBeforeYear, Nat.add_sub_cancel, sum_monthLengths, isLeap, fours, hundreds, cycles]
  by_cases four : year % 4 = 0 <;> by_cases hundred : year % 100 = 0 <;>
    by_cases cycle : year % 400 = 0 <;> simp [four, hundred, cycle] <;> omega

theorem daysBeforeYear_le {year later : Nat} (positive : 1 ≤ year) (le : year ≤ later) :
    daysBeforeYear year ≤ daysBeforeYear later := by
  induction later, le using Nat.le_induction with
  | base => exact Nat.le_refl _
  | succ later le ih =>
      rw [daysBeforeYear_succ (by omega)]
      omega

theorem sum_take_le (lengths : List Nat) {m n : Nat} (le : m ≤ n) :
    (lengths.take m).sum ≤ (lengths.take n).sum := by
  obtain ⟨more, rfl⟩ := Nat.exists_eq_add_of_le le
  rw [List.take_add, List.sum_append]
  omega

namespace Date.Valid

variable {date later : Date}

/-- A day is before the end of its month. -/
theorem lt_month (valid : date.Valid) :
    date.ordinal < daysBeforeYear date.year + ((monthLengths date.year).take date.month).sum := by
  rcases valid with ⟨_, month, day, length, lengthMem, bound⟩
  rcases List.getElem?_eq_some_iff.mp lengthMem with ⟨inRange, same⟩
  have split := List.take_succ_eq_append_getElem inRange
  rw [Nat.sub_add_cancel month, same] at split
  rw [Date.ordinal, split, List.sum_append]
  simp only [List.sum_cons, List.sum_nil]
  omega

/-- A day is before the end of its year. -/
theorem lt_year (valid : date.Valid) : date.ordinal < daysBeforeYear (date.year + 1) := by
  rw [daysBeforeYear_succ valid.1]
  have month := valid.lt_month
  have whole := sum_take_le (monthLengths date.year) valid.month_le
  have all : (monthLengths date.year).take 12 = monthLengths date.year := rfl
  rw [all] at whole
  omega

end Date.Valid

/-- The order by the year, then the month, then the day. -/
def Date.Before (date later : Date) : Prop :=
  date.year < later.year ∨ date.year = later.year ∧
    (date.month < later.month ∨ date.month = later.month ∧ date.day < later.day)

theorem Date.before_total (date later : Date) :
    date.Before later ∨ date = later ∨ later.Before date := by
  cases date
  cases later
  simp only [Date.Before, Date.mk.injEq]
  omega

namespace Date.Valid

variable {date later : Date}

theorem ordinal_lt (valid : date.Valid) (before : date.Before later) :
    date.ordinal < later.ordinal := by
  rcases before with year | ⟨year, month | ⟨month, day⟩⟩
  · have ends := valid.lt_year
    have le := daysBeforeYear_le (Nat.le_add_left 1 date.year) (Nat.succ_le_of_lt year)
    have starts : daysBeforeYear later.year ≤ later.ordinal := by
      unfold Date.ordinal
      omega
    omega
  · have ends := valid.lt_month
    have le := sum_take_le (monthLengths date.year) (Nat.le_sub_one_of_lt month)
    have starts : daysBeforeYear date.year +
        ((monthLengths date.year).take (later.month - 1)).sum ≤ later.ordinal := by
      rw [Date.ordinal, ← year]
      omega
    omega
  · have positive := valid.2.2.1
    unfold Date.ordinal
    rw [year, month]
    omega

theorem ordinal_lt_iff (valid : date.Valid) (laterValid : later.Valid) :
    date.ordinal < later.ordinal ↔ date.Before later := by
  constructor
  · intro lt
    rcases date.before_total later with before | rfl | after
    · exact before
    · omega
    · have gt := laterValid.ordinal_lt after
      omega
  · exact valid.ordinal_lt

end Date.Valid

end Calendar

section Texts

/-- Lists that differ in a part of one length are ordered by it. -/
theorem append_lt_append_iff {α : Type} [LinearOrder α] {left right back other : List α}
    (same : left.length = right.length) :
    left ++ back < right ++ other ↔ left < right ∨ left = right ∧ back < other := by
  induction left generalizing right with
  | nil =>
      have empty := List.length_eq_zero_iff.mp same.symm
      simp [empty]
  | cons item left ih =>
      cases right with
      | nil => simp at same
      | cons head right =>
          rw [List.cons_append, List.cons_append, List.cons_lt_cons_iff, List.cons_lt_cons_iff,
            ih (by simpa using same), List.cons.injEq]
          tauto

theorem code_digitChar {digit : Nat} (small : digit < 10) :
    (Chr.char (Nat.digitChar digit)).code = 48 + digit := by
  interval_cases digit <;> rfl

/-- The code points of a text, by which texts are compared. -/
def codes (text : Str) : List Nat := text.map Chr.code

@[simp]
theorem codes_append (left right : Str) : codes (left ++ right) = codes left ++ codes right :=
  List.map_append

@[simp]
theorem length_codes (text : Str) : (codes text).length = text.length := List.length_map _

theorem codes_injective : Function.Injective codes :=
  List.map_injective_iff.mpr code_injective

theorem codes_padded_inj (width : Nat) {m n : Nat} (mFits : m < 10 ^ width)
    (nFits : n < 10 ^ width) : codes (padded width m) = codes (padded width n) ↔ m = n := by
  constructor
  · intro same
    have read := congrArg DigitTable.latin.read (codes_injective same)
    rw [DigitTable.latin.read_padded width mFits, DigitTable.latin.read_padded width nFits] at read
    exact Option.some.inj read
  · rintro rfl
    rfl

/-- Numbers of one width are ordered as their texts. -/
theorem codes_padded_lt_iff (width : Nat) {m n : Nat} (mFits : m < 10 ^ width)
    (nFits : n < 10 ^ width) : codes (padded width m) < codes (padded width n) ↔ m < n := by
  induction width generalizing m n with
  | zero =>
      have mZero : m = 0 := by simpa using mFits
      have nZero : n = 0 := by simpa using nFits
      simp [mZero, nZero]
  | succ width ih =>
      rw [Nat.pow_succ] at mFits nFits
      rw [padded, padded, codes_append, codes_append, append_lt_append_iff (by simp),
        ih (by omega) (by omega), codes_padded_inj width (by omega) (by omega)]
      simp only [codes, List.map_cons, List.map_nil, List.cons_lt_cons_iff,
        code_digitChar (Nat.mod_lt _ (show 0 < 10 by decide))]
      simp only [List.lt_irrefl, and_false, or_false]
      omega

/-- `date.isoformat()`. -/
def Date.isoformat (date : Date) : Str :=
  padded 4 date.year ++ (str "-" ++ (padded 2 date.month ++ (str "-" ++ padded 2 date.day)))

@[simp]
theorem Date.length_isoformat (date : Date) : date.isoformat.length = 10 := by
  simp [isoformat, str]

/-- The fields of a date fit the widths of its text. -/
structure Date.Fits (date : Date) : Prop where
  year : date.year < 10000
  month : date.month < 100
  day : date.day < 100

theorem Date.codes_isoformat_lt_iff {date later : Date} (fits : date.Fits)
    (laterFits : later.Fits) :
    codes date.isoformat < codes later.isoformat ↔ date.Before later := by
  simp only [isoformat, codes_append]
  rw [append_lt_append_iff (by simp), append_lt_append_iff rfl, append_lt_append_iff (by simp),
    append_lt_append_iff rfl, codes_padded_lt_iff 4 fits.year laterFits.year,
    codes_padded_lt_iff 2 fits.month laterFits.month,
    codes_padded_lt_iff 2 fits.day laterFits.day,
    codes_padded_inj 4 fits.year laterFits.year, codes_padded_inj 2 fits.month laterFits.month]
  simp only [List.lt_irrefl, false_or, true_and]
  rfl

theorem DateTime.fits_date (time : DateTime) : time.date.Fits := by
  have valid : time.date.Valid := valid_dateOf _
  have month_le := valid.month_le
  have day_le := valid.day_le
  exact ⟨year_dateOf_lt time.ordinal_lt, by omega, by omega⟩

/-- The day of a time, counted from the first day of the year 1. -/
def DateTime.day (time : DateTime) : Nat := time.seconds / 86400

/-- The texts of the dates of two times are ordered as their days. -/
theorem DateTime.codes_date_lt_iff (time later : DateTime) :
    codes time.date.isoformat < codes later.date.isoformat ↔ time.day < later.day := by
  have valid : time.date.Valid := valid_dateOf _
  have laterValid : later.date.Valid := valid_dateOf _
  have ordinal_eq : time.date.ordinal = time.day := ordinal_dateOf _
  have later_eq : later.date.ordinal = later.day := ordinal_dateOf _
  rw [Date.codes_isoformat_lt_iff time.fits_date later.fits_date,
    ← valid.ordinal_lt_iff laterValid, ordinal_eq, later_eq]

theorem DateTime.codes_date_eq_iff (time later : DateTime) :
    codes time.date.isoformat = codes later.date.isoformat ↔ time.day = later.day := by
  have before := time.codes_date_lt_iff later
  have after := later.codes_date_lt_iff time
  constructor
  · intro same
    rw [same] at before after
    simp only [List.lt_irrefl, false_iff] at before after
    omega
  · intro same
    rw [same] at before after
    simp only [Nat.lt_irrefl, iff_false] at before after
    exact List.le_antisymm (List.not_lt.mp after) (List.not_lt.mp before)

end Texts

end Python
