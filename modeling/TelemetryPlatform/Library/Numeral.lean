import TelemetryPlatform.Library.Calendar
import TelemetryPlatform.Library.JsonText
import TelemetryPlatform.Library.Text

/-!
# Integers as text

`int(text)` and `str(value)`. `int` reads more than `str` writes: space around the
numeral, a sign, underscores between digits and the decimal digits of any script.
Both refuse numerals that are too long.
-/

namespace Python

section Numerals

def DecimalTable.latin : DecimalTable where
  toDigitTable := DigitTable.latin
  small := by
    intro c digit isDigit
    cases c with
    | surrogate unit => cases isDigit
    | char c =>
        simp only [DigitTable.latin] at isDigit
        split at isDigit
        · next inRange =>
            simp only [Char.isDigit, Bool.and_eq_true, decide_eq_true_eq] at inRange
            have upper : c.toNat ≤ '9'.toNat := inRange.2
            have bound : '9'.toNat - '0'.toNat = 9 := rfl
            cases isDigit
            omega
        · cases isDigit

/-- The default of `sys.set_int_max_str_digits`. -/
def maxStrDigits : Nat := 4300

/-- The separators `0x1c` to `0x1f` are space for `str.strip`, not for `int`. -/
def isIntSpace (c : Chr) : Bool := isSpace c && !(0x1c ≤ c.code && c.code ≤ 0x1f)

/-- The digits of a numeral, with single underscores between them. -/
def readDigits (digits : DecimalTable) : Str → Option (List Nat)
  | [] => none
  | [c] => (digits.value c).map fun digit => [digit]
  | c :: .char '_' :: rest => do
      let digit ← digits.value c
      let others ← readDigits digits rest
      return digit :: others
  | c :: rest => do
      let digit ← digits.value c
      let others ← readDigits digits rest
      return digit :: others

def digitsNat (values : List Nat) : Nat := values.foldl (fun value digit => value * 10 + digit) 0

def readNat (digits : DecimalTable) (text : Str) : Option Nat := do
  let values ← readDigits digits text
  if maxStrDigits < values.length then none else some (digitsNat values)

/-- `int(text)`, without a value where it raises `ValueError`. -/
def intOf (digits : DecimalTable) (text : Str) : Option Int :=
  match ((text.dropWhile isIntSpace).reverse.dropWhile isIntSpace).reverse with
  | .char '-' :: rest => (readNat digits rest).map fun (value : Nat) => -(value : Int)
  | .char '+' :: rest => (readNat digits rest).map Int.ofNat
  | rest => (readNat digits rest).map Int.ofNat

/-- `int(text)`. -/
def Runtime.intOfStr (rt : Runtime) (text : Str) : Except Exc Int :=
  match intOf rt.digits text with
  | some value => .ok value
  | none => .error (.valueError text)

/-- The numeral of an integer. -/
def numeral (value : Int) : Str := (Runtime.intText value).map .char

/-- Whether `str` writes the integer and `int` reads it. -/
def Short (value : Int) : Prop := (Nat.toDigits 10 value.natAbs).length ≤ maxStrDigits

instance (value : Int) : Decidable (Short value) := inferInstanceAs (Decidable (_ ≤ _))

/-- `str(value)`. -/
def strInt (value : Int) : Except Exc Str :=
  if Short value then .ok (numeral value) else .error (.valueError (str "int"))

end Numerals

section RoundTrip

variable {digits : DecimalTable}

theorem short_iff {value : Int} : Short value ↔ value.natAbs < 10 ^ maxStrDigits :=
  Nat.length_toDigits_le_iff (by decide) (by decide)

theorem value_of_isDigit (digits : DigitTable) {c : Char} (isDigit : IsDigit c) :
    digits.value (.char c) = some (c.toNat - '0'.toNat) := by
  have low : '0'.toNat ≤ c.toNat := isDigit.1
  have high : c.toNat ≤ '9'.toNat := isDigit.2
  have zero : '0'.toNat = 48 := rfl
  have nine : '9'.toNat = 57 := rfl
  have value := digits.ascii (c.toNat - '0'.toNat) (by omega)
  have same : Nat.digitChar (c.toNat - '0'.toNat) = c := by
    apply Char.toNat_inj.mp
    rw [Nat.toNat_digitChar_of_lt_ten (by omega)]
    omega
  rwa [same] at value

theorem readDigits_map {text : List Char} (nonempty : text ≠ []) (each : ∀ c ∈ text, IsDigit c) :
    readDigits digits (text.map .char) = some (text.map fun c => c.toNat - '0'.toNat) := by
  induction text with
  | nil => exact absurd rfl nonempty
  | cons c text ih =>
      have first := value_of_isDigit digits.toDigitTable (each c List.mem_cons_self)
      cases text with
      | nil => simp [readDigits, first]
      | cons second text =>
          have others := ih (by simp) fun other otherMem =>
              each other (List.mem_cons_of_mem c otherMem)
          have digit := each second (by simp)
          have notUnderscore : second ≠ '_' := by
            rintro rfl
            exact absurd digit (by decide)
          rw [List.map_cons] at others
          rw [List.map_cons, List.map_cons, readDigits]
          · simp [first, others]
          · intro same
            cases same
          · intro rest same
            exact notUnderscore (Chr.char.inj (List.cons.inj same).1)

theorem readNat_map {text : List Char} (nonempty : text ≠ []) (each : ∀ c ∈ text, IsDigit c) :
    readNat digits (text.map .char) = if text.length ≤ maxStrDigits then
      some (digitsNat (text.map fun c => c.toNat - '0'.toNat)) else none := by
  simp only [readNat, readDigits_map nonempty each, Option.bind_eq_bind, Option.bind_some,
    List.length_map, ← Nat.not_lt, ite_not]

theorem isIntSpace_of_isDigit {c : Char} (isDigit : IsDigit c) : isIntSpace (.char c) = false := by
  have low : '0'.toNat ≤ c.toNat := isDigit.1
  have high : c.toNat ≤ '9'.toNat := isDigit.2
  have zero : '0'.toNat = 48 := rfl
  have nine : '9'.toNat = 57 := rfl
  have solid : isSpace (.char c) = false := by
    simp only [isSpace, Chr.code, List.mem_cons, List.not_mem_nil, decide_eq_false_iff_not,
      or_false, not_or]
    omega
  rw [isIntSpace, solid, Bool.false_and]

theorem dropWhile_isIntSpace {text : Str} (solid : ∀ c ∈ text, isIntSpace c = false) :
    text.dropWhile isIntSpace = text := by
  cases text with
  | nil => rfl
  | cons c text => simp [solid c List.mem_cons_self]

theorem trim_eq_self {text : Str} (solid : ∀ c ∈ text, isIntSpace c = false) :
    ((text.dropWhile isIntSpace).reverse.dropWhile isIntSpace).reverse = text := by
  rw [dropWhile_isIntSpace solid, dropWhile_isIntSpace, List.reverse_reverse]
  intro c cMem
  exact solid c (List.mem_reverse.mp cMem)

/-- What `numeral` writes: digits, after a minus for a negative integer. -/
theorem numeral_cases (value : Int) :
    (value = value.natAbs ∧ numeral value = (Nat.toDigits 10 value.natAbs).map .char) ∨
      (value = -value.natAbs ∧
        numeral value = .char '-' :: (Nat.toDigits 10 value.natAbs).map .char) := by
  by_cases negative : value < 0
  · refine Or.inr ⟨by omega, ?_⟩
    simp [numeral, Runtime.intText, negative]
  · refine Or.inl ⟨by omega, ?_⟩
    simp [numeral, Runtime.intText, negative]

theorem mem_numeral {value : Int} {c : Chr} (cMem : c ∈ numeral value) :
    c = .char '-' ∨ ∃ digit, IsDigit digit ∧ c = .char digit := by
  have ofDigits (cMem : c ∈ (Nat.toDigits 10 value.natAbs).map .char) :
      ∃ digit, IsDigit digit ∧ c = .char digit := by
    rcases List.mem_map.mp cMem with ⟨digit, digitMem, rfl⟩
    exact ⟨digit, isDigit_of_mem_toDigits digitMem, rfl⟩
  rcases numeral_cases value with ⟨-, written⟩ | ⟨-, written⟩
  · rw [written] at cMem
    exact Or.inr (ofDigits cMem)
  · rw [written, List.mem_cons] at cMem
    exact cMem.imp_right ofDigits

theorem numeral_injective : Function.Injective numeral := by
  intro v w same
  have natAbs_eq (written : (Nat.toDigits 10 v.natAbs).map Chr.char =
      (Nat.toDigits 10 w.natAbs).map Chr.char) : v.natAbs = w.natAbs := by
    have chars := List.map_injective_iff.mpr (fun _ _ => Chr.char.inj) written
    rw [← digitsValue_toDigits v.natAbs, chars, digitsValue_toDigits]
  have noMinus (n : Nat) (rest : Str) :
      (Nat.toDigits 10 n).map Chr.char ≠ .char '-' :: rest := by
    intro written
    have minus : Chr.char '-' ∈ (Nat.toDigits 10 n).map Chr.char := by simp [written]
    rcases List.mem_map.mp minus with ⟨c, cMem, isMinus⟩
    cases isMinus
    exact absurd (isDigit_of_mem_toDigits cMem) (by decide)
  rcases numeral_cases v with ⟨vSign, vText⟩ | ⟨vSign, vText⟩
  · rcases numeral_cases w with ⟨wSign, wText⟩ | ⟨wSign, wText⟩
    · have abs := natAbs_eq (by rw [← vText, ← wText, same])
      omega
    · exact absurd (by rw [← vText, same, wText]) (noMinus v.natAbs _)
  · rcases numeral_cases w with ⟨wSign, wText⟩ | ⟨wSign, wText⟩
    · exact absurd (by rw [← wText, ← same, vText]) (noMinus w.natAbs _)
    · rw [vText, wText, List.cons.injEq] at same
      have abs := natAbs_eq same.2
      omega

/-- The digits of a natural number are read as it. -/
theorem DigitTable.read_numeral (digits : DigitTable) (n : Nat) :
    digits.read (numeral n) = some n := by
  have each (text : List Char) (all : ∀ c ∈ text, IsDigit c) :
      digits.read (text.map .char) = some (digitsValue text) := by
    induction text using List.reverseRecOn with
    | nil => rfl
    | append_singleton text c ih =>
        have front := ih fun other otherMem => all other (List.mem_append_left _ otherMem)
        have last := value_of_isDigit digits (all c (by simp))
        rw [DigitTable.read] at front ⊢
        rw [List.map_append, List.foldlM_append, front]
        simp [last, digitsValue, List.foldl_append]
  rcases numeral_cases n with ⟨-, written⟩ | ⟨negative, -⟩
  · rw [written, each _ fun c cMem => isDigit_of_mem_toDigits cMem, digitsValue_toDigits]
    rfl
  · have zero : n = 0 := by omega
    rw [zero]
    exact each (Nat.toDigits 10 0) fun c cMem => isDigit_of_mem_toDigits cMem

/-- The number of a text that is nothing but ASCII digits. -/
def decimal (text : Str) : Option Nat :=
  if text ≠ [] ∧ ∀ c ∈ text, 0x30 ≤ c.code ∧ c.code ≤ 0x39 then
    some (digitsNat (text.map fun c => c.code - 0x30))
  else none

theorem exists_chars {text : Str} (each : ∀ c ∈ text, 0x30 ≤ c.code ∧ c.code ≤ 0x39) :
    ∃ chars : List Char, text = chars.map .char ∧ ∀ c ∈ chars, IsDigit c := by
  induction text with
  | nil => exact ⟨[], rfl, fun _ mem => absurd mem List.not_mem_nil⟩
  | cons c text ih =>
      rw [List.forall_mem_cons] at each
      rcases ih each.2 with ⟨chars, rfl, isDigit⟩
      cases c with
      | surrogate unit =>
          have low := each.1.2
          simp only [Chr.code] at low
          omega
      | char c => exact ⟨c :: chars, rfl, List.forall_mem_cons.mpr ⟨each.1, isDigit⟩⟩

/-- `int` reads digits without a sign, unless there are too many. -/
theorem intOf_map {text : List Char} (nonempty : text ≠ []) (each : ∀ c ∈ text, IsDigit c) :
    intOf digits (text.map .char) = if text.length ≤ maxStrDigits then
      some (digitsNat (text.map fun c => c.toNat - '0'.toNat) : Int) else none := by
  have solid : ∀ c ∈ text.map Chr.char, isIntSpace c = false := by
    intro c cMem
    rcases List.mem_map.mp cMem with ⟨digit, digitMem, rfl⟩
    exact isIntSpace_of_isDigit (each digit digitMem)
  have unsigned (c : Char) (isDigit : IsDigit c) : c ≠ '-' ∧ c ≠ '+' := by
    constructor
    · rintro rfl
      exact absurd isDigit (by decide)
    · rintro rfl
      exact absurd isDigit (by decide)
  rw [intOf, trim_eq_self solid]
  cases text with
  | nil => exact absurd rfl nonempty
  | cons c rest =>
      have first := unsigned c (each c List.mem_cons_self)
      split
      · next minus => exact absurd (Chr.char.inj (List.cons.inj minus).1) first.1
      · next plus => exact absurd (Chr.char.inj (List.cons.inj plus).1) first.2
      · rw [readNat_map nonempty each, apply_ite (Option.map Int.ofNat)]
        rfl

/-- `int` reads decimal digits, unless there are too many. -/
theorem intOf_decimal (digits : DecimalTable) {text : Str} {n : Nat}
    (isDecimal : decimal text = some n) :
    intOf digits text = if text.length ≤ maxStrDigits then some (n : Int) else none := by
  rw [decimal, Option.ite_none_right_eq_some] at isDecimal
  rcases isDecimal with ⟨⟨nonempty, each⟩, value⟩
  cases value
  rcases exists_chars each with ⟨chars, rfl, isDigit⟩
  rw [intOf_map (by simpa using nonempty) isDigit, List.length_map, List.map_map]
  rfl

/-- `int` reads what `str` writes, unless it is too long. -/
theorem intOf_numeral (digits : DecimalTable) (value : Int) :
    intOf digits (numeral value) = if Short value then some value else none := by
  have whole := isWholePart_toDigits value.natAbs
  have written : digitsNat ((Nat.toDigits 10 value.natAbs).map fun c => c.toNat - '0'.toNat) =
      value.natAbs := by
    have read := digitsValue_toDigits value.natAbs
    rwa [digitsValue, ← List.foldl_map] at read
  rcases numeral_cases value with ⟨sign, text⟩ | ⟨sign, text⟩
  · rw [text, intOf_map whole.nonempty whole.digits, written, ← sign]
    rfl
  · have solid : ∀ c ∈ numeral value, isIntSpace c = false := by
      intro c cMem
      rcases mem_numeral cMem with rfl | ⟨digit, isDigit, rfl⟩
      · decide
      · exact isIntSpace_of_isDigit isDigit
    rw [intOf, trim_eq_self solid]
    simp only [text, readNat_map whole.nonempty whole.digits, written,
      apply_ite (Option.map _), Option.map_some, Option.map_none]
    rw [← sign]
    rfl

theorem digitsNat_lt {values : List Nat} (small : ∀ digit ∈ values, digit < 10) :
    digitsNat values < 10 ^ values.length := by
  induction values using List.reverseRecOn with
  | nil => simp [digitsNat]
  | append_singleton values digit ih =>
      have front := ih fun other otherMem => small other (by simp [otherMem])
      have last := small digit (by simp)
      have step : digitsNat (values ++ [digit]) = digitsNat values * 10 + digit := by
        simp [digitsNat, List.foldl_append]
      rw [step, List.length_append, List.length_singleton, Nat.pow_succ]
      omega

theorem small_of_readDigits {text : Str} {values : List Nat}
    (read : readDigits digits text = some values) : ∀ digit ∈ values, digit < 10 := by
  fun_induction readDigits digits text generalizing values with
  | case1 => cases read
  | case2 c =>
      rcases Option.map_eq_some_iff.mp read with ⟨digit, value, rfl⟩
      simpa using digits.small c digit value
  | case3 c rest ih =>
      simp only [Option.bind_eq_bind, Option.bind_eq_some_iff, Option.pure_def,
        Option.some.injEq] at read
      rcases read with ⟨digit, value, others, otherValues, rfl⟩
      rw [List.forall_mem_cons]
      exact ⟨digits.small c digit value, ih otherValues⟩
  | case4 c rest _ _ ih =>
      simp only [Option.bind_eq_bind, Option.bind_eq_some_iff, Option.pure_def,
        Option.some.injEq] at read
      rcases read with ⟨digit, value, others, otherValues, rfl⟩
      rw [List.forall_mem_cons]
      exact ⟨digits.small c digit value, ih otherValues⟩

theorem readNat_lt {text : Str} {value : Nat} (read : readNat digits text = some value) :
    value < 10 ^ maxStrDigits := by
  simp only [readNat, Option.bind_eq_bind, Option.bind_eq_some_iff] at read
  rcases read with ⟨values, readValues, short⟩
  split at short
  · cases short
  · next notLong =>
      cases short
      have bound := digitsNat_lt (small_of_readDigits readValues)
      apply Nat.lt_of_lt_of_le bound
      exact Nat.pow_le_pow_right (by decide) (Nat.not_lt.mp notLong)

/-- The integers that `int` reads can be written. -/
theorem short_of_intOf {text : Str} {value : Int} (read : intOf digits text = some value) :
    Short value := by
  rw [short_iff]
  rw [intOf] at read
  split at read
  · rcases Option.map_eq_some_iff.mp read with ⟨number, isNumber, rfl⟩
    simpa using readNat_lt isNumber
  · rcases Option.map_eq_some_iff.mp read with ⟨number, isNumber, rfl⟩
    simpa using readNat_lt isNumber
  · rcases Option.map_eq_some_iff.mp read with ⟨number, isNumber, rfl⟩
    simpa using readNat_lt isNumber

end RoundTrip

end Python
