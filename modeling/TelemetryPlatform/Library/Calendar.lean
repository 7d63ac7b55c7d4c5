import Mathlib.Data.List.Basic
import Mathlib.Tactic.Linarith
import TelemetryPlatform.Library.Python

/-!
# Dates and times

`datetime.datetime` in UTC as a number of microseconds since the first day of the
year 1, the text `strftime("%Y%m%d%H%M%S")` writes for it, and what `strptime` reads
back from fourteen digits: the time without its fraction of a second.
-/

namespace Python

section Calendar

def isLeap (year : Nat) : Bool := year % 4 = 0 && (year % 100 ≠ 0 || year % 400 = 0)

def monthLengths (year : Nat) : List Nat :=
  [31, if isLeap year then 29 else 28, 31, 30, 31, 30, 31, 31, 30, 31, 30, 31]

/-- The days before a year of the calendar that starts with the year 1. -/
def daysBeforeYear (year : Nat) : Nat :=
  (year - 1) * 365 + (year - 1) / 4 - (year - 1) / 100 + (year - 1) / 400

structure Date where
  year : Nat
  month : Nat
  day : Nat
  deriving DecidableEq

/-- The number of days from the first day of the year 1. -/
def Date.ordinal (date : Date) : Nat :=
  daysBeforeYear date.year + ((monthLengths date.year).take (date.month - 1)).sum + (date.day - 1)

/-- A date of the calendar. -/
def Date.Valid (date : Date) : Prop :=
  1 ≤ date.year ∧ 1 ≤ date.month ∧ 1 ≤ date.day ∧
    ∃ length ∈ (monthLengths date.year)[date.month - 1]?, date.day ≤ length

instance (date : Date) : Decidable date.Valid := by
  unfold Date.Valid
  exact inferInstance

/-- The year a day falls into, and its days before the day. -/
def yearOf (days : Nat) : Nat × Nat :=
  let inCycle := days % 146097
  let inCentury := inCycle % 36524
  let inOlympiad := inCentury % 1461
  let century := inCycle / 36524
  let olympiad := inCentury / 1461
  let year := days / 146097 * 400 + century * 100 + olympiad * 4 + inOlympiad / 365 + 1
  if inOlympiad / 365 = 4 ∨ century = 4 then (year - 1, 365) else (year, inOlympiad % 365)

/-- The month a day of the year falls into and its day in the month. -/
def monthOf (lengths : List Nat) (dayOfYear : Nat) : Nat × Nat :=
  match lengths with
  | [] => (1, dayOfYear + 1)
  | length :: rest =>
      if dayOfYear < length then (1, dayOfYear + 1)
      else ((monthOf rest (dayOfYear - length)).1 + 1, (monthOf rest (dayOfYear - length)).2)

def dateOf (days : Nat) : Date :=
  let (year, dayOfYear) := yearOf days
  let (month, day) := monthOf (monthLengths year) dayOfYear
  ⟨year, month, day⟩

theorem sum_monthLengths (year : Nat) :
    (monthLengths year).sum = if isLeap year then 366 else 365 := by
  unfold monthLengths
  split <;> rfl

/-- The days before the years of a cycle of 400 years. -/
theorem daysBeforeYear_eq (cycle : Nat) {century olympiad year : Nat} (centuries : century < 4)
    (olympiads : olympiad < 25) (years : year < 4) :
    daysBeforeYear (cycle * 400 + century * 100 + olympiad * 4 + year + 1) =
      cycle * 146097 + century * 36524 + olympiad * 1461 + year * 365 := by
  have fours : (cycle * 400 + century * 100 + olympiad * 4 + year) / 4 =
      cycle * 100 + century * 25 + olympiad := by omega
  have hundreds : (cycle * 400 + century * 100 + olympiad * 4 + year) / 100 =
      cycle * 4 + century := by omega
  have cycles : (cycle * 400 + century * 100 + olympiad * 4 + year) / 400 = cycle := by omega
  rw [daysBeforeYear, Nat.add_sub_cancel, fours, hundreds, cycles]
  omega

/-- The last day of a leap year is day 365, counted from 0. -/
theorem isLeap_of_olympiad {cycle century olympiad : Nat} (olympiads : olympiad < 24) :
    isLeap (cycle * 400 + century * 100 + olympiad * 4 + 3 + 1) = true := by
  have fours : (cycle * 400 + century * 100 + olympiad * 4 + 3 + 1) % 4 = 0 := by omega
  have hundreds : (cycle * 400 + century * 100 + olympiad * 4 + 3 + 1) % 100 ≠ 0 := by omega
  simp [isLeap, fours, hundreds]

theorem isLeap_of_cycle (cycle : Nat) : isLeap (cycle * 400 + 400) = true := by
  have fours : (cycle * 400 + 400) % 4 = 0 := by omega
  have cycles : (cycle * 400 + 400) % 400 = 0 := by omega
  simp [isLeap, fours, cycles]

/-- A day is a day of its year. -/
theorem yearOf_spec (days : Nat) :
    daysBeforeYear (yearOf days).1 + (yearOf days).2 = days ∧
      (yearOf days).2 < (monthLengths (yearOf days).1).sum ∧ 1 ≤ (yearOf days).1 := by
  have cycleSplit := Nat.div_add_mod' days 146097
  have inCycle := Nat.mod_lt days (show 146097 > 0 by decide)
  have centurySplit := Nat.div_add_mod' (days % 146097) 36524
  have inCentury := Nat.mod_lt (days % 146097) (show 36524 > 0 by decide)
  have olympiadSplit := Nat.div_add_mod' (days % 146097 % 36524) 1461
  have inOlympiad := Nat.mod_lt (days % 146097 % 36524) (show 1461 > 0 by decide)
  have yearSplit := Nat.div_add_mod' (days % 146097 % 36524 % 1461) 365
  have inYear := Nat.mod_lt (days % 146097 % 36524 % 1461) (show 365 > 0 by decide)
  simp only [yearOf, sum_monthLengths]
  generalize days / 146097 = cycle at *
  generalize days % 146097 % 36524 % 1461 % 365 = dayOfYear at *
  generalize days % 146097 % 36524 % 1461 / 365 = year at *
  generalize days % 146097 % 36524 / 1461 = olympiad at *
  generalize days % 146097 / 36524 = century at *
  generalize days % 146097 % 36524 % 1461 = third at *
  generalize days % 146097 % 36524 = second at *
  generalize days % 146097 = first at *
  split
  · next last =>
      by_cases lastCentury : century = 4
      · have year_eq : cycle * 400 + century * 100 + olympiad * 4 + year + 1 - 1 =
            cycle * 400 + 3 * 100 + 24 * 4 + 3 + 1 := by omega
        have before := daysBeforeYear_eq cycle (show 3 < 4 by decide) (show 24 < 25 by decide)
          (show 3 < 4 by decide)
        have leap : isLeap (cycle * 400 + 3 * 100 + 24 * 4 + 3 + 1) = true := isLeap_of_cycle cycle
        rw [year_eq]
        refine ⟨?_, ?_, ?_⟩
        · dsimp only
          rw [before]
          subst lastCentury
          linarith
        · dsimp only
          rw [leap]
          decide
        · dsimp only
          omega
      · have lastYear : year = 4 := by omega
        have centuries : century < 4 := by omega
        have olympiads : olympiad < 24 := by omega
        have year_eq : cycle * 400 + century * 100 + olympiad * 4 + year + 1 - 1 =
            cycle * 400 + century * 100 + olympiad * 4 + 3 + 1 := by omega
        have before := daysBeforeYear_eq cycle centuries (show olympiad < 25 by omega)
          (show 3 < 4 by decide)
        have leap : isLeap (cycle * 400 + century * 100 + olympiad * 4 + 3 + 1) = true :=
          isLeap_of_olympiad olympiads
        rw [year_eq]
        refine ⟨?_, ?_, ?_⟩
        · dsimp only
          rw [before]
          subst lastYear
          linarith
        · dsimp only
          rw [leap]
          decide
        · dsimp only
          omega
  · next notLast =>
      have years : year < 4 := by omega
      have centuries : century < 4 := by omega
      have olympiads : olympiad < 25 := by omega
      have before := daysBeforeYear_eq cycle centuries olympiads years
      refine ⟨?_, ?_, ?_⟩
      · dsimp only
        rw [before]
        linarith
      · dsimp only
        split <;> omega
      · dsimp only
        omega

/-- A day of a year is a day of its month. -/
theorem monthOf_spec {lengths : List Nat} {dayOfYear : Nat} (inYear : dayOfYear < lengths.sum) :
    (lengths.take ((monthOf lengths dayOfYear).1 - 1)).sum +
        ((monthOf lengths dayOfYear).2 - 1) = dayOfYear ∧
      1 ≤ (monthOf lengths dayOfYear).1 ∧ 1 ≤ (monthOf lengths dayOfYear).2 ∧
      ∃ length ∈ lengths[(monthOf lengths dayOfYear).1 - 1]?,
        (monthOf lengths dayOfYear).2 ≤ length := by
  induction lengths generalizing dayOfYear with
  | nil => simp at inYear
  | cons length rest ih =>
      unfold monthOf
      split
      · next here => exact ⟨by simp, Nat.le_refl 1, Nat.succ_pos dayOfYear, length, rfl, here⟩
      · next later =>
          have inRest : dayOfYear - length < rest.sum := by
            rw [List.sum_cons] at inYear
            omega
          rcases ih inRest with ⟨sum_eq, month, day, found, foundMem, bound⟩
          have month_eq : (monthOf rest (dayOfYear - length)).1 + 1 - 1 =
              (monthOf rest (dayOfYear - length)).1 - 1 + 1 := by omega
          refine ⟨?_, by omega, day, found, ?_, bound⟩
          · dsimp only
            rw [month_eq, List.take_succ_cons, List.sum_cons]
            omega
          · dsimp only
            rw [month_eq, List.getElem?_cons_succ]
            exact foundMem

theorem ordinal_dateOf (days : Nat) : (dateOf days).ordinal = days := by
  rcases yearOf_spec days with ⟨split, inYear, _⟩
  have month := (monthOf_spec inYear).1
  simp only [dateOf, Date.ordinal]
  omega

theorem valid_dateOf (days : Nat) : (dateOf days).Valid := by
  rcases yearOf_spec days with ⟨_, inYear, year⟩
  exact ⟨year, (monthOf_spec inYear).2⟩

theorem year_dateOf_lt {days : Nat} (inRange : days < 3652059) : (dateOf days).year < 10000 := by
  have split := (yearOf_spec days).1
  have year_eq : (dateOf days).year = (yearOf days).1 := rfl
  rw [year_eq]
  by_contra late
  rw [daysBeforeYear] at split
  omega

theorem Date.Valid.month_le {date : Date} (valid : date.Valid) : date.month ≤ 12 := by
  rcases valid with ⟨_, _, _, length, lengthMem, _⟩
  have bound := (List.getElem?_eq_some_iff.mp lengthMem).1
  simp only [monthLengths, List.length_cons, List.length_nil] at bound
  omega

theorem Date.Valid.day_le {date : Date} (valid : date.Valid) : date.day ≤ 31 := by
  rcases valid with ⟨_, _, _, length, lengthMem, bound⟩
  have short : ∀ length ∈ monthLengths date.year, length ≤ 31 := by
    unfold monthLengths
    split <;> decide
  exact bound.trans (short length (List.mem_of_getElem? lengthMem))

end Calendar

section Digits

/-- The value of a text of decimal digits. -/
def DigitTable.read (table : DigitTable) (text : Str) : Option Nat :=
  text.foldlM (fun value c => (table.value c).map (value * 10 + ·)) 0

/-- The last digits of a number. -/
def padded (width n : Nat) : Str :=
  match width with
  | 0 => []
  | width + 1 => padded width (n / 10) ++ [.char (Nat.digitChar (n % 10))]

@[simp]
theorem length_padded (width n : Nat) : (padded width n).length = width := by
  induction width generalizing n with
  | zero => rfl
  | succ width ih => simp [padded, ih]

theorem DigitTable.read_padded (table : DigitTable) (width : Nat) {n : Nat}
    (fits : n < 10 ^ width) :
    table.read (padded width n) = some n := by
  induction width generalizing n with
  | zero =>
      have zero : n = 0 := by simpa using fits
      rw [zero]
      rfl
  | succ width ih =>
      have front := ih (n := n / 10) (by rw [Nat.pow_succ] at fits; omega)
      have last := table.ascii (n % 10) (Nat.mod_lt n (by decide))
      rw [DigitTable.read] at front ⊢
      rw [padded, List.foldlM_append, front]
      simp [last]
      omega

/-- The digits `0` to `9` and no others. -/
def DigitTable.latin : DigitTable where
  value
    | .char c => if c.isDigit then some (c.toNat - '0'.toNat) else none
    | .surrogate _ => none
  ascii := by decide

/-- A directive of `strptime` for two digits. The first has to be one of `0` to `9`, and so has the
second after those first digits that the directive lists with the digits that may follow. -/
def DigitTable.readField (table : DigitTable) (listed : Nat → Bool) : Str → Option Nat
  | [tens, ones] => do
      let high ← latin.value tens
      let low ← (if listed high then latin else table).value ones
      some (high * 10 + low)
  | _ => none

theorem DigitTable.readField_padded (table : DigitTable) {listed : Nat → Bool} {n : Nat}
    (fits : n < 100) : table.readField listed (padded 2 n) = some n := by
  have high := latin.ascii (n / 10 % 10) (Nat.mod_lt _ (by decide))
  have low (digits : DigitTable) := digits.ascii (n % 10) (Nat.mod_lt _ (by decide))
  change (latin.value _).bind _ = some n
  rw [high, Option.bind_some, low, Option.bind_eq_bind, Option.bind_some]
  rw [Option.some.injEq]
  omega

end Digits

section Timestamps

/-- The days of the calendar, up to the year 9999. -/
def maxOrdinal : Nat := 3652059

/-- `datetime.datetime` in UTC. -/
structure DateTime where
  micros : Nat
  inRange : micros < maxOrdinal * 86400000000

namespace DateTime

variable (time : DateTime)

/-- The whole seconds. -/
def seconds : Nat := time.micros / 1000000

def date : Date := dateOf (time.seconds / 86400)

/-- `strftime("%Y%m%d%H%M%S")`. -/
def timestamp : Str :=
  padded 4 time.date.year ++ padded 2 time.date.month ++ padded 2 time.date.day ++
    padded 2 (time.seconds % 86400 / 3600) ++ padded 2 (time.seconds % 3600 / 60) ++
    padded 2 (time.seconds % 60)

end DateTime

/-- `strptime(text, "%Y%m%d%H%M%S")` of a text of fourteen characters, in seconds. Each directive
takes all its digits then: the classes are `1[0-2]|0[1-9]` for the month,
`3[0-1]|[1-2]\d|0[1-9]` for the day, `2[0-3]|[0-1]\d` for the hour, `[0-5]\d` for the minute and
`6[0-1]|[0-5]\d` for the second, and the date is refused when there is no such time. -/
def DigitTable.parseTimestamp (table : DigitTable) (text : Str) : Option Nat := do
  let year ← table.read (text.take 4)
  let month ← table.readField (fun _ => true) ((text.drop 4).take 2)
  let day ← table.readField (fun tens => tens = 0 || tens = 3) ((text.drop 6).take 2)
  let hour ← table.readField (fun tens => tens = 2) ((text.drop 8).take 2)
  let minute ← table.readField (fun _ => false) ((text.drop 10).take 2)
  let second ← table.readField (fun tens => tens = 6) (text.drop 12)
  if Date.Valid ⟨year, month, day⟩ ∧ hour < 24 ∧ minute < 60 ∧ second < 60 then
    some ((Date.ordinal ⟨year, month, day⟩) * 86400 + hour * 3600 + minute * 60 + second)
  else none

theorem DateTime.ordinal_lt (time : DateTime) : time.seconds / 86400 < maxOrdinal := by
  have inRange := time.inRange
  unfold DateTime.seconds maxOrdinal at *
  omega

@[simp]
theorem DateTime.length_timestamp (time : DateTime) : time.timestamp.length = 14 := by
  simp [timestamp]

/-- What is read back is the time without its fraction of a second. -/
theorem parseTimestamp_timestamp (table : DigitTable) (time : DateTime) :
    table.parseTimestamp time.timestamp = some time.seconds := by
  have valid : time.date.Valid := valid_dateOf _
  have month_le := valid.month_le
  have day_le := valid.day_le
  have year : table.read (padded 4 time.date.year) = some time.date.year :=
    table.read_padded 4 (year_dateOf_lt time.ordinal_lt)
  have field {listed : Nat → Bool} {n : Nat} (fits : n < 100) :
      table.readField listed (padded 2 n) = some n := table.readField_padded fits
  have month : time.date.month < 100 := by omega
  have day : time.date.day < 100 := by omega
  have hour : time.seconds % 86400 / 3600 < 100 := by omega
  have minute : time.seconds % 3600 / 60 < 100 := by omega
  have second : time.seconds % 60 < 100 := by omega
  have ordinal_eq : time.date.ordinal = time.seconds / 86400 := ordinal_dateOf _
  have inDay : time.seconds % 86400 / 3600 < 24 ∧ time.seconds % 3600 / 60 < 60 ∧
      time.seconds % 60 < 60 := by omega
  have cut : ∀ {width : Nat} {n : Nat} {rest : Str},
      (padded width n ++ rest).take width = padded width n ∧
        (padded width n ++ rest).drop width = rest := by
    intro width n rest
    exact ⟨List.take_left' (length_padded width n), List.drop_left' (length_padded width n)⟩
  have later : ∀ {first second : Nat} {text : Str},
      text.drop (first + second) = (text.drop first).drop second := by
    intro first second text
    rw [List.drop_drop]
  simp only [DigitTable.parseTimestamp, DateTime.timestamp, List.append_assoc,
    show (12 : Nat) = 4 + 2 + 2 + 2 + 2 from rfl, show (10 : Nat) = 4 + 2 + 2 + 2 from rfl,
    show (8 : Nat) = 4 + 2 + 2 from rfl, show (6 : Nat) = 4 + 2 from rfl, later, cut]
  simp only [year, field month, field day, field hour, field minute, field second,
    Option.bind_eq_bind, Option.bind_some]
  rw [if_pos ⟨valid, inDay⟩, ordinal_eq, Option.some.injEq]
  clear year field month day hour minute second cut later
  omega

end Timestamps

end Python
