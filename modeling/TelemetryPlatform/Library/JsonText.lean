import Mathlib.Algebra.Group.Nat.Defs
import TelemetryPlatform.Library.Grouping
import TelemetryPlatform.Library.Json

/-!
# Reading back what was written

`json.loads` returns the document that `json.dumps` wrote, for every document
that `ReadsBack`: the keys of each object are distinct, each integer is short
enough for `int`, and each float is one whose text reads back. `loads_render` is
proved along the scanner, with the length of the text as its fuel. Documents that
`json.loads` has built are of that kind (`readsBack_of_loads`), so that writing
and reading can be repeated.

What a float's text looks like is up to the interpreter. `WritesFloats` collects
what the documentation of `json` and of `float.__repr__` promises about it.
-/

namespace Python

section Numerals

/-- A digit of a JSON number. -/
def IsDigit (c : Char) : Prop := '0' ≤ c ∧ c ≤ '9'

instance (c : Char) : Decidable (IsDigit c) := inferInstanceAs (Decidable (_ ∧ _))

theorem isDigit_of_mem_toDigits {n : Nat} {c : Char} (cMem : c ∈ Nat.toDigits 10 n) :
    IsDigit c := by
  have isDigit := Nat.isDigit_of_mem_toDigits (by simp) (by simp) cMem
  simp only [Char.isDigit, Bool.and_eq_true, decide_eq_true_eq] at isDigit
  exact isDigit

theorem digitsValue_toDigits (n : Nat) : digitsValue (Nat.toDigits 10 n) = n := by
  have read := Nat.ofDigitChars_ten_toDigits (n := n)
  simp only [Nat.ofDigitChars_eq_foldl] at read
  simpa only [digitsValue, Nat.mul_comm] using read

/-- The text does not go on with a digit. -/
def NoDigitHead (text : Str) : Prop := ∀ c rest, text = .char c :: rest → ¬IsDigit c

theorem spanDigits_append {digits : List Char} {rest : Str} (each : ∀ c ∈ digits, IsDigit c)
    (ends : NoDigitHead rest) : spanDigits (digits.map .char ++ rest) = (digits, rest) := by
  induction digits with
  | nil =>
      cases rest with
      | nil => rfl
      | cons c rest =>
          cases c with
          | char c =>
              have notDigit := ends c rest rfl
              simp only [IsDigit] at notDigit
              simp [spanDigits, notDigit]
          | surrogate unit => rfl
  | cons c digits ih =>
      have first : '0' ≤ c ∧ c ≤ '9' := each c (by simp)
      have others := ih fun other otherMem => each other (by simp [otherMem])
      simp [spanDigits, first, others]

theorem digitsValue_cons_lt {digits : List Char} (each : ∀ c ∈ digits, IsDigit c) :
    digitsValue digits < 10 ^ digits.length := by
  have general : ∀ value, digits.foldl (fun value c => value * 10 + (c.toNat - '0'.toNat)) value <
      (value + 1) * 10 ^ digits.length := by
    induction digits with
    | nil => simp
    | cons c digits ih =>
        intro value
        have digit : c.toNat - '0'.toNat ≤ 9 := by
          have upper : c.toNat ≤ '9'.toNat := (each c (by simp)).2
          have bound : '9'.toNat - '0'.toNat = 9 := rfl
          omega
        have tail := ih (fun other otherMem => each other (by simp [otherMem]))
          (value * 10 + (c.toNat - '0'.toNat))
        have step : (value * 10 + (c.toNat - '0'.toNat) + 1) * 10 ^ digits.length ≤
            ((value + 1) * 10) * 10 ^ digits.length := by
          apply Nat.mul_le_mul_right
          omega
        simp only [List.foldl_cons, List.length_cons, Nat.pow_succ]
        calc _ < _ := tail
          _ ≤ _ := step
          _ = _ := by rw [Nat.mul_assoc, Nat.mul_comm 10]
  simpa [digitsValue] using general 0

/-- Leading zeros aside, a numeral is as long as its digits. -/
theorem length_toDigits_digitsValue {digits : List Char} (nonempty : digits ≠ [])
    (each : ∀ c ∈ digits, IsDigit c) :
    (Nat.toDigits 10 (digitsValue digits)).length ≤ digits.length := by
  apply (Nat.length_toDigits_le_iff (by simp) (List.length_pos_iff.mpr nonempty)).mpr
  exact digitsValue_cons_lt each

theorem spanDigits_spec (text : Str) :
    text = (spanDigits text).1.map .char ++ (spanDigits text).2 ∧
      ∀ c ∈ (spanDigits text).1, IsDigit c := by
  induction text with
  | nil => simp [spanDigits]
  | cons c rest ih =>
      cases c with
      | surrogate unit => simp [spanDigits]
      | char c =>
          by_cases digit : '0' ≤ c ∧ c ≤ '9'
          · simp only [spanDigits, digit, and_self, if_true, List.map_cons, List.cons_append,
              List.mem_cons, forall_eq_or_imp]
            exact ⟨congrArg _ ih.1, digit, ih.2⟩
          · simp [spanDigits, digit]

end Numerals

section Strings

theorem hexDigit?_digitChar (digit : Nat) (small : digit < 16) :
    hexDigit? (.char (Nat.digitChar digit)) = some digit := by
  have all : ∀ digit < 16, hexDigit? (.char (Nat.digitChar digit)) = some digit := by decide
  exact all digit small

theorem hexUnit?_digits (unit : Nat) (small : unit < 0x10000) :
    hexUnit? (.char (Nat.digitChar (unit / 0x1000 % 16)))
      (.char (Nat.digitChar (unit / 0x100 % 16))) (.char (Nat.digitChar (unit / 0x10 % 16)))
      (.char (Nat.digitChar (unit % 16))) = some unit := by
  have first := hexDigit?_digitChar (unit / 0x1000 % 16) (by omega)
  have second := hexDigit?_digitChar (unit / 0x100 % 16) (by omega)
  have third := hexDigit?_digitChar (unit / 0x10 % 16) (by omega)
  have fourth := hexDigit?_digitChar (unit % 16) (by omega)
  simp only [hexUnit?, first, second, third, fourth, Option.bind_eq_bind, Option.bind_some,
    Option.pure_def, Option.some.injEq]
  omega

theorem chrOfCode_code (c : Chr) : chrOfCode c.code = c := by
  cases c with
  | char scalar =>
      have valid := scalar.valid
      have notSurrogate : ¬(0xD800 ≤ scalar.toNat ∧ scalar.toNat < 0xE000) := by
        simp only [UInt32.isValidChar, Nat.isValidChar] at valid
        simp only [Char.toNat]
        omega
      simp [chrOfCode, Chr.code, notSurrogate, Char.ofNat_toNat]
  | surrogate unit =>
      have inRange : 0xD800 + unit.val < 0xE000 := by omega
      simp [chrOfCode, Chr.code, inRange]

/-- A character of a string is read back from what was written for it. -/
theorem scanString_escapeChr (c : Chr) (rest : Str) :
    scanString none (escapeChr .compact c ++ rest) = consDecoded c (scanString none rest) := by
  unfold escapeChr
  split
  · next same => subst same; rfl
  split
  · next same => subst same; rfl
  split
  · next same => subst same; rfl
  split
  · next same => subst same; rfl
  split
  · next same => subst same; rfl
  split
  · next same => subst same; rfl
  split
  · next same => subst same; rfl
  split
  · next control =>
      have unit := hexUnit?_digits c.code (by omega)
      have notHigh : isHighSurrogate c.code = false := by
        simp only [isHighSurrogate, Bool.and_eq_false_iff, decide_eq_false_iff_not]
        omega
      simp [hexEscape, str, scanString, unit, notHigh, chrOfCode_code]
  split
  · next impossible => simp [JsonStyle.compact] at impossible
  · next notQuote notBackslash _ _ _ _ _ printable _ =>
      simp only [List.singleton_append]
      rw [scanString.eq_def]
      split <;> simp_all [flushHigh]

theorem scanString_written (text rest : Str) :
    scanString none (text.flatMap (escapeChr .compact) ++ .char '"' :: rest) =
      some (text, rest) := by
  induction text with
  | nil => simp [scanString, flushHigh]
  | cons c text ih =>
      simp only [List.flatMap_cons, List.append_assoc, scanString_escapeChr, ih]
      rfl

end Strings

section Numbers

/-- The integer part of a JSON number: `0`, or digits that do not start with `0`. -/
structure IsWholePart (text : List Char) : Prop where
  digits : ∀ c ∈ text, IsDigit c
  nonempty : text ≠ []
  noLeadingZero : text.head? = some '0' → text = ['0']

def IsFraction (text : List Char) : Prop :=
  text = [] ∨ ∃ digits, text = '.' :: digits ∧ digits ≠ [] ∧ ∀ c ∈ digits, IsDigit c

def IsExponent (text : List Char) : Prop :=
  text = [] ∨ ∃ e sign digits, text = e :: (sign ++ digits) ∧ (e = 'e' ∨ e = 'E') ∧
    (sign = [] ∨ sign = ['+'] ∨ sign = ['-']) ∧ digits ≠ [] ∧ ∀ c ∈ digits, IsDigit c

/-- The texts `json.dumps` writes for floats: three names, or a number that is not an integer's. -/
inductive FloatLiteral : List Char → Prop where
  | nan : FloatLiteral "NaN".toList
  | infinity : FloatLiteral "Infinity".toList
  | negInfinity : FloatLiteral "-Infinity".toList
  | number {sign whole fraction exponent : List Char} (signed : sign = [] ∨ sign = ['-'])
      (isWhole : IsWholePart whole) (isFraction : IsFraction fraction)
      (isExponent : IsExponent exponent) (real : fraction ≠ [] ∨ exponent ≠ []) :
      FloatLiteral (sign ++ whole ++ fraction ++ exponent)

/-- A number ends here. -/
def EndsNumber (text : Str) : Prop :=
  ∀ c rest, text = .char c :: rest → ¬IsDigit c ∧ c ≠ '.' ∧ c ≠ 'e' ∧ c ≠ 'E'

theorem EndsNumber.noDigitHead {text : Str} (ends : EndsNumber text) : NoDigitHead text :=
  fun c rest same => (ends c rest same).1

theorem endsNumber_nil : EndsNumber [] := by
  intro c rest same
  cases same

theorem endsNumber_cons {c : Char} {rest : Str} (digit : ¬IsDigit c) (point : c ≠ '.')
    (lower : c ≠ 'e') (upper : c ≠ 'E') : EndsNumber (.char c :: rest) := by
  intro c' rest' same
  cases same
  exact ⟨digit, point, lower, upper⟩

theorem IsWholePart.exists_cons {whole : List Char} (isWhole : IsWholePart whole) :
    ∃ c digits, whole = c :: digits ∧ IsDigit c :=
  match whole, isWhole with
  | [], isWhole => absurd rfl isWhole.nonempty
  | c :: digits, isWhole => ⟨c, digits, rfl, isWhole.digits c (by simp)⟩

theorem isWholePart_toDigits (n : Nat) : IsWholePart (Nat.toDigits 10 n) where
  digits := fun _ => isDigit_of_mem_toDigits
  nonempty := Nat.toDigits_ne_nil
  noLeadingZero := by
    intro zero
    have value := digitsValue_toDigits n
    cases written : Nat.toDigits 10 n with
    | nil => exact absurd written Nat.toDigits_ne_nil
    | cons c digits =>
        simp only [written, List.head?_cons, Option.some.injEq] at zero
        subst zero
        by_contra longer
        have nonempty : digits ≠ [] := by
          rintro rfl
          exact longer rfl
        have each : ∀ c ∈ digits, IsDigit c := by
          intro c cMem
          apply isDigit_of_mem_toDigits (n := n)
          simp [written, cMem]
        have shorter := length_toDigits_digitsValue nonempty each
        have same : digitsValue digits = n := by
          rw [← value, written]
          simp [digitsValue]
        simp only [same, written, List.length_cons] at shorter
        omega

theorem scanInteger_append {whole : List Char} {rest : Str} (isWhole : IsWholePart whole)
    (ends : NoDigitHead rest) : scanInteger (whole.map .char ++ rest) = some (whole, rest) := by
  rcases isWhole.exists_cons with ⟨c, digits, rfl, digit⟩
  by_cases zero : c = '0'
  · subst zero
    have alone := isWhole.noLeadingZero rfl
    simp only [List.cons.injEq, true_and] at alone
    subst alone
    rfl
  · have spanned := spanDigits_append isWhole.digits ends
    simp only [scanInteger, List.map_cons, List.cons_append] at spanned ⊢
    split
    · next same => simp_all
    · simp [spanned]

theorem scanFraction_append {fraction : List Char} {rest : Str} (isFraction : IsFraction fraction)
    (digit : NoDigitHead rest) (point : ∀ tail, rest ≠ .char '.' :: tail) :
    scanFraction (fraction.map .char ++ rest) = (fraction, rest) := by
  rcases isFraction with rfl | ⟨digits, rfl, nonempty, each⟩
  · simp only [List.map_nil, List.nil_append]
    unfold scanFraction
    split
    · exact absurd rfl (point _)
    · rfl
  · have spanned := spanDigits_append each digit
    simp only [List.map_cons, List.cons_append, scanFraction, spanned]

theorem scanExponent_append {exponent : List Char} {rest : Str} (isExponent : IsExponent exponent)
    (ends : EndsNumber rest) : scanExponent (exponent.map .char ++ rest) = (exponent, rest) := by
  rcases isExponent with rfl | ⟨e, sign, digits, rfl, isE, signed, nonempty, each⟩
  · simp only [List.map_nil, List.nil_append]
    cases rest with
    | nil => rfl
    | cons c rest =>
        cases c with
        | surrogate unit => rfl
        | char c =>
            have other := ends c rest rfl
            simp [scanExponent, other.2.2]
  · have spanned := spanDigits_append each ends.noDigitHead
    simp only [List.map_cons, List.map_append, List.cons_append, List.append_assoc, scanExponent,
      isE, if_true]
    rcases signed with rfl | rfl | rfl
    · cases digits with
      | nil => exact absurd rfl nonempty
      | cons c digits =>
          have digit : IsDigit c := each c (by simp)
          have notPlus : c ≠ '+' := by
            rintro rfl
            exact absurd digit (by decide)
          have notMinus : c ≠ '-' := by
            rintro rfl
            exact absurd digit (by decide)
          simp only [List.map_cons, List.cons_append] at spanned
          simp [notPlus, notMinus, spanned]
    · simp [spanned]
    · simp [spanned]

namespace Runtime

variable (rt : Runtime)

/-- An integer whose decimal numeral is short enough for `int`. -/
def ReadsInt (n : Int) : Prop := (Nat.toDigits 10 n.natAbs).length ≤ rt.intMaxStrDigits

/-- `float(text)` of what `json.dumps` writes for a float is that float. -/
structure ReadsFloat (x : rt.Float) : Prop where
  literal : FloatLiteral (rt.floatJson x)
  value : rt.floatOfLiteral (rt.floatJson x) = x

/-- Every float is read back: `float.__repr__` is exact and writes JSON numbers. -/
def WritesFloats : Prop := ∀ x, rt.ReadsFloat x

variable {rt}

/-- A number after its sign. -/
def scanUnsigned (rt : Runtime) (sign : List Char) (text : Str) : Except Exc (rt.Value × Str) :=
  match scanInteger text with
  | none => .error .jsonDecodeError
  | some (digits, rest) =>
      let fraction := scanFraction rest
      let exponent := scanExponent fraction.2
      if fraction.1 = [] ∧ exponent.1 = [] then
        if rt.intMaxStrDigits < digits.length then .error (.valueError (str "int"))
        else
          let value : Int := digitsValue digits
          .ok (.int (if sign = [] then value else -value), rest)
      else
        .ok (.float (rt.floatOfLiteral (sign ++ digits ++ fraction.1 ++ exponent.1)), exponent.2)

theorem scanNumber_minus (text : Str) :
    rt.scanNumber (.char '-' :: text) = rt.scanUnsigned ['-'] text := rfl

theorem scanNumber_plain {text : Str} (plain : ∀ tail, text ≠ .char '-' :: tail) :
    rt.scanNumber text = rt.scanUnsigned [] text := by
  unfold scanNumber
  split
  · exact absurd rfl (plain _)
  · rfl

/-- The sign of a number is read before its integer part. -/
theorem scanNumber_append {sign whole : List Char} {rest : Str} (signed : sign = [] ∨ sign = ['-'])
    (isWhole : IsWholePart whole) :
    rt.scanNumber ((sign ++ whole).map .char ++ rest) =
      rt.scanUnsigned sign (whole.map .char ++ rest) := by
  rcases signed with rfl | rfl
  · apply scanNumber_plain
    intro tail same
    rcases isWhole.exists_cons with ⟨c, digits, rfl, digit⟩
    simp only [List.nil_append, List.map_cons, List.cons_append, List.cons.injEq,
      Chr.char.injEq] at same
    have notMinus : ¬IsDigit '-' := by decide
    exact notMinus (same.1 ▸ digit)
  · exact scanNumber_minus _

theorem scanNumber_int {n : Int} {rest : Str} (short : rt.ReadsInt n) (ends : EndsNumber rest) :
    rt.scanNumber ((intText n).map .char ++ rest) = .ok (.int n, rest) := by
  have whole := isWholePart_toDigits n.natAbs
  have scanned := scanInteger_append whole ends.noDigitHead
  have fraction : scanFraction rest = ([], rest) :=
    scanFraction_append (Or.inl rfl) ends.noDigitHead fun tail same => (ends _ tail same).2.1 rfl
  have exponent : scanExponent rest = ([], rest) := scanExponent_append (Or.inl rfl) ends
  have notLong : ¬rt.intMaxStrDigits < (Nat.toDigits 10 n.natAbs).length := Nat.not_lt.mpr short
  have unsigned (sign : List Char) :
      rt.scanUnsigned sign ((Nat.toDigits 10 n.natAbs).map .char ++ rest) =
        .ok (.int (if sign = [] then (n.natAbs : Int) else -(n.natAbs : Int)), rest) := by
    simp only [scanUnsigned, scanned, fraction, exponent, and_self, if_true, notLong, if_false,
      digitsValue_toDigits]
  by_cases negative : n < 0
  · have written : intText n = ['-'] ++ Nat.toDigits 10 n.natAbs := by simp [intText, negative]
    simp only [written, scanNumber_append (Or.inr rfl) whole, unsigned]
    simp only [reduceCtorEq, if_false, Except.ok.injEq, Prod.mk.injEq, Json.int.injEq, and_true]
    omega
  · have written : intText n = [] ++ Nat.toDigits 10 n.natAbs := by simp [intText, negative]
    simp only [written, scanNumber_append (Or.inl rfl) whole, unsigned]
    simp only [if_true, Except.ok.injEq, Prod.mk.injEq, Json.int.injEq, and_true]
    omega

/-- A number with a fraction or an exponent is read as the float its text denotes. -/
theorem scanNumber_float {sign whole fraction exponent : List Char} {rest : Str}
    (signed : sign = [] ∨ sign = ['-']) (isWhole : IsWholePart whole)
    (isFraction : IsFraction fraction) (isExponent : IsExponent exponent)
    (real : fraction ≠ [] ∨ exponent ≠ []) (ends : EndsNumber rest) :
    rt.scanNumber ((sign ++ whole ++ fraction ++ exponent).map .char ++ rest) =
      .ok (.float (rt.floatOfLiteral (sign ++ whole ++ fraction ++ exponent)), rest) := by
  have exponentScanned := scanExponent_append isExponent ends
  have exponentHead : NoDigitHead (exponent.map .char ++ rest) ∧
      ∀ tail, exponent.map .char ++ rest ≠ .char '.' :: tail := by
    rcases isExponent with rfl | ⟨e, sign, digits, rfl, isE, _⟩
    · exact ⟨ends.noDigitHead, fun tail same => (ends _ tail same).2.1 rfl⟩
    · constructor
      · intro c tail same digit
        simp only [List.map_cons, List.cons_append, List.cons.injEq, Chr.char.injEq] at same
        rcases same with ⟨rfl, _⟩
        rcases isE with rfl | rfl <;> exact absurd digit (by decide)
      · intro tail same
        simp only [List.map_cons, List.cons_append, List.cons.injEq, Chr.char.injEq] at same
        rcases same with ⟨rfl, _⟩
        rcases isE with impossible | impossible <;> exact absurd impossible (by decide)
  have fractionScanned := scanFraction_append isFraction exponentHead.1 exponentHead.2
  have fractionHead : NoDigitHead (fraction.map .char ++ (exponent.map .char ++ rest)) := by
    rcases isFraction with rfl | ⟨digits, rfl, _⟩
    · exact exponentHead.1
    · intro c tail same digit
      simp only [List.map_cons, List.cons_append, List.cons.injEq, Chr.char.injEq] at same
      rcases same with ⟨rfl, _⟩
      exact absurd digit (by decide)
  have wholeScanned := scanInteger_append isWhole fractionHead
  have notInt : ¬(fraction = [] ∧ exponent = []) := by
    rintro ⟨noFraction, noExponent⟩
    rcases real with some | some
    · exact some noFraction
    · exact some noExponent
  have split : (sign ++ whole ++ fraction ++ exponent).map Chr.char ++ rest =
      (sign ++ whole).map .char ++ (fraction.map .char ++ (exponent.map .char ++ rest)) := by
    simp
  simp only [split, scanNumber_append signed isWhole, scanUnsigned, wholeScanned, fractionScanned,
    exponentScanned, notInt, if_false]

end Runtime

end Numbers

namespace Json

variable {Float : Type}

theorem depthItems_le_iff {items : List (Json Float)} {n : Nat} :
    depth.depthItems items ≤ n ↔ ∀ item ∈ items, item.depth ≤ n := by
  induction items with
  | nil => simp [depth.depthItems]
  | cons item rest ih => simp [depth.depthItems, ih]

theorem depthEntries_le_iff {entries : List (Str × Json Float)} {n : Nat} :
    depth.depthEntries entries ≤ n ↔ ∀ entry ∈ entries, entry.2.depth ≤ n := by
  induction entries with
  | nil => simp [depth.depthEntries]
  | cons entry rest ih => simp [depth.depthEntries, ih]

end Json

namespace Runtime

variable {rt : Runtime}

/-- A document whose text `json.loads` reads back as the same document. -/
def ReadsBack (rt : Runtime) : rt.Value → Prop
  | .int n => rt.ReadsInt n
  | .float x => rt.ReadsFloat x
  | .arr items => itemsReadBack items
  | .obj entries => (entries.map Prod.fst).Nodup ∧ membersReadBack entries
  | .null | .bool _ | .str _ => True
where
  itemsReadBack : List rt.Value → Prop
    | [] => True
    | item :: rest => rt.ReadsBack item ∧ itemsReadBack rest
  membersReadBack : List (Str × rt.Value) → Prop
    | [] => True
    | (_, value) :: rest => rt.ReadsBack value ∧ membersReadBack rest

theorem itemsReadBack_iff {items : List rt.Value} :
    ReadsBack.itemsReadBack rt items ↔ ∀ item ∈ items, rt.ReadsBack item := by
  induction items with
  | nil => simp [ReadsBack.itemsReadBack]
  | cons item rest ih => simp [ReadsBack.itemsReadBack, ih]

theorem membersReadBack_iff {entries : List (Str × rt.Value)} :
    ReadsBack.membersReadBack rt entries ↔ ∀ entry ∈ entries, rt.ReadsBack entry.2 := by
  induction entries with
  | nil => simp [ReadsBack.membersReadBack]
  | cons entry rest ih => simp [ReadsBack.membersReadBack, ih]

section Written

/-- The text starts like a number. -/
def NumberHead (text : Str) : Prop :=
  ∃ c tail, text = .char c :: tail ∧
    (IsDigit c ∨ c = '-' ∧ ∃ d rest, tail = .char d :: rest ∧ IsDigit d)

theorem scanOnce_number {fuel depth : Nat} {text : Str} (head : NumberHead text) :
    rt.scanOnce (fuel + 1) depth text = rt.scanNumber text := by
  rcases head with ⟨c, tail, rfl, digit | ⟨rfl, d, rest, rfl, digit⟩⟩
  · have other : ∀ letter, ¬IsDigit letter → c ≠ letter := by
      rintro letter notDigit rfl
      exact notDigit digit
    have quote := other '"' (by decide)
    have brace := other '{' (by decide)
    have bracket := other '[' (by decide)
    have null := other 'n' (by decide)
    have yes := other 't' (by decide)
    have no := other 'f' (by decide)
    have nan := other 'N' (by decide)
    have infinity := other 'I' (by decide)
    have minus := other '-' (by decide)
    simp [scanOnce, str, quote, brace, bracket, null.symm, yes.symm, no.symm, nan.symm,
      infinity.symm, minus.symm]
  · have infinity : 'I' ≠ d := by
      rintro rfl
      exact absurd digit (by decide)
    simp [scanOnce, str, infinity]

theorem numberHead_append {sign whole : List Char} (rest : Str)
    (signed : sign = [] ∨ sign = ['-']) (isWhole : IsWholePart whole) :
        NumberHead ((sign ++ whole).map .char ++ rest) := by
  rcases isWhole.exists_cons with ⟨c, digits, rfl, digit⟩
  rcases signed with rfl | rfl
  · exact ⟨c, digits.map .char ++ rest, rfl, Or.inl digit⟩
  · exact ⟨'-', .char c :: (digits.map .char ++ rest), rfl, Or.inr ⟨rfl, c, _, rfl, digit⟩⟩

theorem scanOnce_int {fuel depth : Nat} {n : Int} {rest : Str} (short : rt.ReadsInt n)
    (ends : EndsNumber rest) :
    rt.scanOnce (fuel + 1) depth ((intText n).map .char ++ rest) = .ok (.int n, rest) := by
  have head : NumberHead ((intText n).map .char ++ rest) := by
    have whole := isWholePart_toDigits n.natAbs
    by_cases negative : n < 0
    · have written : intText n = ['-'] ++ Nat.toDigits 10 n.natAbs := by simp [intText, negative]
      exact written ▸ numberHead_append _ (Or.inr rfl) whole
    · have written : intText n = [] ++ Nat.toDigits 10 n.natAbs := by simp [intText, negative]
      exact written ▸ numberHead_append _ (Or.inl rfl) whole
  simp only [scanOnce_number head, scanNumber_int short ends]

theorem scanOnce_float {fuel depth : Nat} {x : rt.Float} {rest : Str} (reads : rt.ReadsFloat x)
    (ends : EndsNumber rest) :
    rt.scanOnce (fuel + 1) depth ((rt.floatJson x).map .char ++ rest) = .ok (.float x, rest) := by
  have literal := reads.literal
  have value := reads.value
  generalize rt.floatJson x = text at literal value
  subst value
  cases literal with
  | nan => simp [scanOnce, str]
  | infinity => simp [scanOnce, str]
  | negInfinity => simp [scanOnce, str]
  | @number sign whole fraction exponent signed isWhole isFraction isExponent real =>
      have head : NumberHead ((sign ++ whole ++ fraction ++ exponent).map .char ++ rest) := by
        have start := numberHead_append (fraction.map .char ++ (exponent.map .char ++ rest))
          signed isWhole
        simpa using start
      simp only [scanOnce_number head,
        scanNumber_float signed isWhole isFraction isExponent real ends]

/-- The first characters a document's text can have. -/
def StartsValue (text : Str) : Prop :=
  ∃ c tail, text = .char c :: tail ∧ (IsDigit c ∨ c ∈ "-NI\"[\x7bntf".toList)

theorem StartsValue.append {text rest : Str} (starts : StartsValue text) :
    StartsValue (text ++ rest) := by
  rcases starts with ⟨c, tail, rfl, first⟩
  exact ⟨c, tail ++ rest, rfl, first⟩

theorem StartsValue.skipSpace_eq {text : Str} (starts : StartsValue text) :
    skipSpace text = text := by
  rcases starts with ⟨c, tail, rfl, first⟩
  have solid : isJsonSpace (.char c) = false := by
    rcases first with digit | listed
    · have other : ∀ space ∈ " \t\n\r".toList, c ≠ space := by
        rintro space spaceMem rfl
        have none : ∀ space ∈ " \t\n\r".toList, ¬IsDigit space := by
          simp [IsDigit]
        exact none c spaceMem digit
      simp [isJsonSpace, other]
    · have solid : ∀ c ∈ "-NI\"[\x7bntf".toList, isJsonSpace (.char c) = false := by
        simp [isJsonSpace]
      exact solid c listed
  simp [skipSpace, solid]

theorem StartsValue.ne_cons {text : Str} {c : Char} {tail : Str} (starts : StartsValue text)
    (notDigit : ¬IsDigit c) (notListed : c ∉ "-NI\"[\x7bntf".toList) : text ≠ .char c :: tail := by
  rcases starts with ⟨first, rest, rfl, digit | listed⟩
  · intro same
    simp only [List.cons.injEq, Chr.char.injEq] at same
    exact notDigit (same.1 ▸ digit)
  · intro same
    simp only [List.cons.injEq, Chr.char.injEq] at same
    exact notListed (same.1 ▸ listed)

theorem NumberHead.startsValue {text : Str} (head : NumberHead text) : StartsValue text := by
  rcases head with ⟨c, tail, rfl, digit | ⟨rfl, _⟩⟩
  · exact ⟨c, tail, rfl, Or.inl digit⟩
  · exact ⟨'-', tail, rfl, Or.inr (by simp)⟩

theorem startsValue_of_literal {text : List Char} (literal : FloatLiteral text) :
    StartsValue (text.map .char) := by
  cases literal with
  | nan => exact ⟨'N', _, rfl, Or.inr (by simp)⟩
  | infinity => exact ⟨'I', _, rfl, Or.inr (by simp)⟩
  | negInfinity => exact ⟨'-', _, rfl, Or.inr (by simp)⟩
  | @number sign whole fraction exponent signed isWhole isFraction isExponent real =>
      have head := numberHead_append ((fraction ++ exponent).map .char) signed isWhole
      simpa using head.startsValue

theorem startsValue_render {value : rt.Value} (reads : rt.ReadsBack value) :
    StartsValue (rt.render .compact value) := by
  cases value with
  | null => exact ⟨'n', _, rfl, Or.inr (by simp)⟩
  | bool value =>
      cases value with
      | false => exact ⟨'f', _, rfl, Or.inr (by simp)⟩
      | true => exact ⟨'t', _, rfl, Or.inr (by simp)⟩
  | int n =>
      have whole := isWholePart_toDigits n.natAbs
      by_cases negative : n < 0
      · have written : intText n = ['-'] ++ Nat.toDigits 10 n.natAbs := by simp [intText, negative]
        have head := numberHead_append [] (Or.inr rfl) whole
        simpa [render, written] using head.startsValue
      · have written : intText n = [] ++ Nat.toDigits 10 n.natAbs := by simp [intText, negative]
        have head := numberHead_append [] (Or.inl rfl) whole
        simpa [render, written] using head.startsValue
  | float x => exact startsValue_of_literal reads.literal
  | str text => exact ⟨'"', _, rfl, Or.inr (by simp)⟩
  | arr items =>
      cases items with
      | nil => exact ⟨'[', _, rfl, Or.inr (by simp)⟩
      | cons item rest => exact ⟨'[', _, rfl, Or.inr (by simp)⟩
  | obj entries =>
      cases entries with
      | nil => exact ⟨'{', _, rfl, Or.inr (by simp)⟩
      | cons entry rest => exact ⟨'{', _, rfl, Or.inr (by simp)⟩

theorem skipSpace_cons {c : Char} {rest : Str} (solid : isJsonSpace (.char c) = false) :
    skipSpace (.char c :: rest) = .char c :: rest := by
  simp [skipSpace, solid]

theorem length_render_pos {value : rt.Value} (reads : rt.ReadsBack value) :
    0 < (rt.render .compact value).length := by
  rcases startsValue_render reads with ⟨c, tail, written, _⟩
  simp [written]

variable (rt) in
/-- With this fuel the scanner reads a document's text as that document and stops behind it. -/
def ScansValue (fuel : Nat) : Prop :=
  ∀ (value : rt.Value) (depth : Nat) (rest : Str), rt.ReadsBack value →
    2 * (rt.render .compact value).length ≤ fuel → value.depth ≤ depth → EndsNumber rest →
      rt.scanOnce fuel depth (rt.render .compact value ++ rest) = .ok (value, rest)

variable (rt) in
def ScansItems (fuel : Nat) : Prop :=
  ∀ (item : rt.Value) (others done : List rt.Value) (depth : Nat) (tail : Str),
    rt.ReadsBack item → ReadsBack.itemsReadBack rt others →
    2 * (rt.render .compact item ++ render.renderItems rt .compact others).length < fuel →
    max item.depth (Json.depth.depthItems others) ≤ depth →
      rt.scanItems fuel depth done (rt.render .compact item ++
          (render.renderItems rt .compact others ++ .char ']' :: tail)) =
        .ok (.arr (done ++ item :: others), tail)

variable (rt) in
def ScansMembers (fuel : Nat) : Prop :=
  ∀ (key : Str) (value : rt.Value) (others done : List (Str × rt.Value)) (depth : Nat) (tail : Str),
    rt.ReadsBack value → ReadsBack.membersReadBack rt others →
    ((done ++ (key, value) :: others).map Prod.fst).Nodup →
    2 * (renderStr .compact key ++ (rt.render .compact value ++
      render.renderMembers rt .compact others)).length < fuel →
    max value.depth (Json.depth.depthEntries others) ≤ depth →
      rt.scanMembers fuel depth done (renderStr .compact key ++ .char ':' ::
          (rt.render .compact value ++
            (render.renderMembers rt .compact others ++ .char '}' :: tail))) =
        .ok (.obj (done ++ (key, value) :: others), tail)

theorem scansValue_succ {fuel : Nat} (items : ScansItems rt fuel) (members : ScansMembers rt fuel) :
    ScansValue rt (fuel + 1) := by
  intro value depth rest reads enough deep ends
  match value with
  | .null => simp [render, scanOnce, str]
  | .bool true => simp [render, scanOnce, str]
  | .bool false => simp [render, scanOnce, str]
  | .int n => exact scanOnce_int reads ends
  | .float x => exact scanOnce_float reads ends
  | .str text =>
      have scanned := scanString_written text rest
      simp [render, renderStr, scanOnce, scanned]
  | .arr [] =>
      simp only [Json.depth] at deep
      obtain ⟨depth, rfl⟩ : ∃ less, depth = less + 1 := ⟨depth - 1, by omega⟩
      simp [render, scanOnce, str, skipSpace, isJsonSpace]
  | .arr (item :: others) =>
      simp only [Json.depth, Json.depth.depthItems] at deep
      obtain ⟨depth, rfl⟩ : ∃ less, depth = less + 1 := ⟨depth - 1, by omega⟩
      simp only [render, List.length_cons, List.length_append] at enough
      have starts : StartsValue (rt.render .compact item ++
          (render.renderItems rt .compact others ++ .char ']' :: rest)) :=
        (startsValue_render reads.1).append
      have scanned := items item others [] depth rest reads.1 reads.2
        (by simp only [List.length_append]; omega) (by omega)
      simp only [render, List.cons_append, List.append_assoc, List.nil_append, scanOnce,
        starts.skipSpace_eq] at scanned ⊢
      simp only [Chr.char.injEq, Char.reduceEq, if_false, if_true]
      split
      · next same => exact absurd same (starts.ne_cons (by decide) (by decide))
      · exact scanned
  | .obj [] =>
      simp only [Json.depth] at deep
      obtain ⟨depth, rfl⟩ : ∃ less, depth = less + 1 := ⟨depth - 1, by omega⟩
      simp [render, scanOnce, str, skipSpace, isJsonSpace]
  | .obj ((key, value) :: others) =>
      simp only [Json.depth, Json.depth.depthEntries] at deep
      obtain ⟨depth, rfl⟩ : ∃ less, depth = less + 1 := ⟨depth - 1, by omega⟩
      simp only [render, List.length_cons, List.length_append] at enough
      have scanned := members key value others [] depth rest reads.2.1 reads.2.2 reads.1
        (by simp only [List.length_append]; omega) (by omega)
      simp only [render, renderStr, JsonStyle.compact, str, List.cons_append, List.append_assoc,
        List.nil_append, scanOnce] at scanned ⊢
      simp only [Chr.char.injEq, Char.reduceEq, if_false, if_true,
        skipSpace_cons (c := '"') (by decide)]
      simpa using scanned

theorem scansItems_succ {fuel : Nat} (once : ScansValue rt fuel) (items : ScansItems rt fuel) :
    ScansItems rt (fuel + 1) := by
  intro item others done depth tail reads othersRead enough deep
  simp only [List.length_append] at enough
  cases others with
  | nil =>
      have scanned := once item depth (.char ']' :: tail) reads (by omega) (by omega)
        (endsNumber_cons (by decide) (by decide) (by decide) (by decide))
      simp only [render.renderItems, List.nil_append, scanItems, scanned,
        skipSpace_cons (c := ']') (by decide)]
  | cons next others =>
      have separated : render.renderItems rt .compact (next :: others) =
          .char ',' :: (rt.render .compact next ++ render.renderItems rt .compact others) := rfl
      simp only [separated, List.length_cons, List.length_append] at enough
      simp only [Json.depth.depthItems] at deep
      have starts : StartsValue (rt.render .compact next ++
          (render.renderItems rt .compact others ++ .char ']' :: tail)) :=
        (startsValue_render othersRead.1).append
      have scanned := once item depth (.char ',' :: (rt.render .compact next ++
        (render.renderItems rt .compact others ++ .char ']' :: tail))) reads (by omega)
        (by omega) (endsNumber_cons (by decide) (by decide) (by decide) (by decide))
      have later := items next others (done ++ [item]) depth tail othersRead.1 othersRead.2
        (by simp only [List.length_append]; omega) (by omega)
      simp only [separated, List.cons_append, List.append_assoc, scanItems, scanned,
        skipSpace_cons (c := ',') (by decide), starts.skipSpace_eq, later]
      simp

theorem scansMembers_succ {fuel : Nat} (once : ScansValue rt fuel)
    (members : ScansMembers rt fuel) : ScansMembers rt (fuel + 1) := by
  intro key value others done depth tail reads othersRead distinct enough deep
  have fresh : key ∉ done.map Prod.fst := by
    simp only [List.map_append, List.map_cons, List.nodup_append] at distinct
    intro keyMem
    exact distinct.2.2 key keyMem key (by simp) rfl
  simp only [List.length_append] at enough
  have keyScanned (rest : Str) := scanString_written key rest
  have starts (rest : Str) : StartsValue (rt.render .compact value ++ rest) :=
    (startsValue_render reads).append
  cases others with
  | nil =>
      have scanned := once value depth (.char '}' :: tail) reads (by omega) (by omega)
        (endsNumber_cons (by decide) (by decide) (by decide) (by decide))
      simp only [render.renderMembers, List.nil_append, renderStr, List.cons_append,
        List.append_assoc, scanMembers, keyScanned, skipSpace_cons (c := ':') (by decide),
        (starts _).skipSpace_eq, scanned, skipSpace_cons (c := '}') (by decide),
        dictSet_of_not_mem fresh]
  | cons entry others =>
      rcases entry with ⟨nextKey, nextValue⟩
      have separated : render.renderMembers rt .compact ((nextKey, nextValue) :: others) =
          .char ',' :: (renderStr .compact nextKey ++ .char ':' ::
            (rt.render .compact nextValue ++ render.renderMembers rt .compact others)) := by
        simp only [render.renderMembers, List.append_assoc]
        rfl
      simp only [separated, List.length_cons, List.length_append] at enough
      simp only [Json.depth.depthEntries] at deep
      have scanned := once value depth (.char ',' :: (renderStr .compact nextKey ++ .char ':' ::
        (rt.render .compact nextValue ++
          (render.renderMembers rt .compact others ++ .char '}' :: tail)))) reads (by omega)
        (by omega) (endsNumber_cons (by decide) (by decide) (by decide) (by decide))
      have later := members nextKey nextValue others (done ++ [(key, value)]) depth tail
        othersRead.1 othersRead.2 (by simpa using distinct)
        (by simp only [List.length_append]; omega) (by omega)
      simp only [renderStr, List.cons_append, List.append_assoc, List.nil_append] at later scanned
      simp only [separated, renderStr, List.cons_append, List.append_assoc, List.nil_append,
        scanMembers, keyScanned, skipSpace_cons (c := ':') (by decide), (starts _).skipSpace_eq,
        scanned, skipSpace_cons (c := ',') (by decide), skipSpace_cons (c := '"') (by decide),
        dictSet_of_not_mem fresh, later]

variable (rt) in
theorem scans_render (fuel : Nat) :
    ScansValue rt fuel ∧ ScansItems rt fuel ∧ ScansMembers rt fuel := by
  induction fuel with
  | zero =>
      refine ⟨?_, ?_, ?_⟩
      · intro value depth rest reads enough
        have some := length_render_pos reads
        omega
      · intro item others done depth tail _ _ enough
        omega
      · intro key value others done depth tail _ _ _ enough
        omega
  | succ fuel ih =>
      exact ⟨scansValue_succ ih.2.1 ih.2.2, scansItems_succ ih.1 ih.2.1,
        scansMembers_succ ih.1 ih.2.2⟩

/-- `json.loads(json.dumps(value)) == value`. -/
theorem loads_render {value : rt.Value} (reads : rt.ReadsBack value)
    (deep : value.depth ≤ rt.loadsDepth) : rt.loads (rt.render .compact value) = .ok value := by
  have starts := startsValue_render reads
  have noMark : (str "\ufeff").isPrefixOf (rt.render .compact value) = false := by
    rcases starts with ⟨c, tail, written, digit | listed⟩
    · have different : '\ufeff' ≠ c := by
        rintro rfl
        exact absurd digit (by decide)
      simp [written, str, List.isPrefixOf, different]
    · have different : ∀ c ∈ "-NI\"[\x7bntf".toList, '\ufeff' ≠ c := by simp
      simp [written, str, List.isPrefixOf, different c listed]
  have scanned := (scans_render rt (2 * (rt.render .compact value).length + 2)).1 value
    rt.loadsDepth [] reads (by omega) deep endsNumber_nil
  simp only [List.append_nil] at scanned
  simp only [loads, noMark, starts.skipSpace_eq, scanned]
  rfl

end Written

section Scanned

variable (rt) in
/-- What the scanner returns reads back and nests no deeper than it was allowed to. -/
def ReturnsValue (fuel : Nat) : Prop :=
  ∀ (depth : Nat) (text rest : Str) (value : rt.Value),
    rt.scanOnce fuel depth text = .ok (value, rest) → rt.ReadsBack value ∧ value.depth ≤ depth

variable (rt) in
def ReturnsItems (fuel : Nat) : Prop :=
  ∀ (depth : Nat) (done : List rt.Value) (text rest : Str) (value : rt.Value),
    rt.scanItems fuel depth done text = .ok (value, rest) →
    (∀ item ∈ done, rt.ReadsBack item ∧ item.depth ≤ depth) →
      rt.ReadsBack value ∧ value.depth ≤ depth + 1

variable (rt) in
def ReturnsMembers (fuel : Nat) : Prop :=
  ∀ (depth : Nat) (done : List (Str × rt.Value)) (text rest : Str) (value : rt.Value),
    rt.scanMembers fuel depth done text = .ok (value, rest) → (done.map Prod.fst).Nodup →
    (∀ entry ∈ done, rt.ReadsBack entry.2 ∧ entry.2.depth ≤ depth) →
      rt.ReadsBack value ∧ value.depth ≤ depth + 1

theorem scanNumber_cases {text rest : Str} {value : rt.Value}
    (scanned : rt.scanNumber text = .ok (value, rest)) :
    (∃ n, value = .int n ∧ rt.ReadsInt n) ∨ ∃ x, value = .float x := by
  have unsigned : ∃ sign unsigned, rt.scanUnsigned sign unsigned = .ok (value, rest) := by
    by_cases minus : ∃ tail, text = .char '-' :: tail
    · rcases minus with ⟨tail, rfl⟩
      exact ⟨['-'], tail, scanned⟩
    · simp only [not_exists] at minus
      exact ⟨[], text, scanNumber_plain minus ▸ scanned⟩
  rcases unsigned with ⟨sign, unsigned, scanned⟩
  simp only [scanUnsigned] at scanned
  split at scanned
  · cases scanned
  · next digits after whole =>
      split at scanned
      · split at scanned
        · cases scanned
        · next short =>
            cases scanned
            refine Or.inl ⟨_, rfl, ?_⟩
            have digitsOnly : digits ≠ [] ∧ ∀ c ∈ digits, IsDigit c := by
              unfold scanInteger at whole
              split at whole
              · cases whole
                exact ⟨by simp, by simp [IsDigit]⟩
              · split at whole
                · cases whole
                · next found some =>
                    have spec := (spanDigits_spec unsigned).2
                    rw [Option.some.inj whole] at spec
                    refine ⟨?_, spec⟩
                    rintro rfl
                    exact some _ (Option.some.inj whole)
            have long := length_toDigits_digitsValue digitsOnly.1 digitsOnly.2
            simp only [ReadsInt]
            split
            · simp only [Int.natAbs_natCast]
              omega
            · simp only [Int.natAbs_neg, Int.natAbs_natCast]
              omega
      · cases scanned
        exact Or.inr ⟨_, rfl⟩

theorem returnsValue_succ {fuel : Nat} (floats : rt.WritesFloats) (items : ReturnsItems rt fuel)
    (members : ReturnsMembers rt fuel) : ReturnsValue rt (fuel + 1) := by
  intro depth text rest value scanned
  unfold scanOnce at scanned
  split at scanned
  · cases scanned
  split at scanned
  · split at scanned
    · cases scanned
      exact ⟨trivial, Nat.zero_le _⟩
    · cases scanned
  split at scanned
  · split at scanned
    · cases scanned
    · split at scanned
      · cases scanned
        exact ⟨⟨List.nodup_nil, trivial⟩, by simp [Json.depth, Json.depth.depthEntries]⟩
      · exact members _ [] _ _ _ scanned List.nodup_nil (by simp)
  split at scanned
  · split at scanned
    · cases scanned
    · split at scanned
      · cases scanned
        exact ⟨trivial, by simp [Json.depth, Json.depth.depthItems]⟩
      · exact items _ [] _ _ _ scanned (by simp)
  -- the keywords and the three names of floats
  split at scanned
  · cases scanned
    exact ⟨trivial, Nat.zero_le _⟩
  split at scanned
  · cases scanned
    exact ⟨trivial, Nat.zero_le _⟩
  split at scanned
  · cases scanned
    exact ⟨trivial, Nat.zero_le _⟩
  split at scanned
  · cases scanned
    exact ⟨floats _, Nat.zero_le _⟩
  split at scanned
  · cases scanned
    exact ⟨floats _, Nat.zero_le _⟩
  split at scanned
  · cases scanned
    exact ⟨floats _, Nat.zero_le _⟩
  rcases scanNumber_cases scanned with ⟨n, rfl, short⟩ | ⟨x, rfl⟩
  · exact ⟨short, Nat.zero_le _⟩
  · exact ⟨floats x, Nat.zero_le _⟩

theorem returnsItems_succ {fuel : Nat} (once : ReturnsValue rt fuel)
    (items : ReturnsItems rt fuel) :
    ReturnsItems rt (fuel + 1) := by
  intro depth done text rest value scanned doneReads
  unfold scanItems at scanned
  split at scanned
  · cases scanned
  · next item after found =>
      have itemReads := once _ _ _ _ found
      have more : ∀ other ∈ done ++ [item], rt.ReadsBack other ∧ other.depth ≤ depth := by
        intro other otherMem
        simp only [List.mem_append, List.mem_singleton] at otherMem
        rcases otherMem with old | rfl
        · exact doneReads other old
        · exact itemReads
      split at scanned
      · cases scanned
        refine ⟨itemsReadBack_iff.mpr fun other otherMem => (more other otherMem).1, ?_⟩
        simp only [Json.depth, Nat.add_le_add_iff_right]
        exact Json.depthItems_le_iff.mpr fun other otherMem => (more other otherMem).2
      · exact items _ _ _ _ _ scanned more
      · cases scanned

theorem returnsMembers_succ {fuel : Nat} (once : ReturnsValue rt fuel)
    (members : ReturnsMembers rt fuel) : ReturnsMembers rt (fuel + 1) := by
  intro depth done text rest value scanned distinct doneReads
  unfold scanMembers at scanned
  split at scanned
  · split at scanned
    · cases scanned
    · next key _ _ =>
        split at scanned
        · split at scanned
          · cases scanned
          · next found after same =>
              have foundReads := once _ _ _ _ same
              have more : ∀ entry ∈ dictSet done key found,
                  rt.ReadsBack entry.2 ∧ entry.2.depth ≤ depth := by
                intro entry entryMem
                rcases mem_of_mem_dictSet entryMem with rfl | old
                · exact foundReads
                · exact doneReads entry old
              have moreDistinct : ((dictSet done key found).map Prod.fst).Nodup :=
                nodup_keys_dictSet distinct
              split at scanned
              · cases scanned
                refine ⟨⟨moreDistinct, ?_⟩, ?_⟩
                · exact membersReadBack_iff.mpr fun entry entryMem => (more entry entryMem).1
                · simp only [Json.depth, Nat.add_le_add_iff_right]
                  exact Json.depthEntries_le_iff.mpr fun entry entryMem => (more entry entryMem).2
              · exact members _ _ _ _ _ scanned moreDistinct more
              · cases scanned
        · cases scanned
  · cases scanned

theorem returns (floats : rt.WritesFloats) (fuel : Nat) :
    ReturnsValue rt fuel ∧ ReturnsItems rt fuel ∧ ReturnsMembers rt fuel := by
  induction fuel with
  | zero =>
      refine ⟨?_, ?_, ?_⟩
      · intro depth text rest value scanned
        cases scanned
      · intro depth done text rest value scanned
        cases scanned
      · intro depth done text rest value scanned
        cases scanned
  | succ fuel ih =>
      exact ⟨returnsValue_succ floats ih.2.1 ih.2.2, returnsItems_succ ih.1 ih.2.1,
        returnsMembers_succ ih.1 ih.2.2⟩

/-- What `json.loads` has built can be written and read back. -/
theorem readsBack_of_loads {text : Str} {value : rt.Value} (floats : rt.WritesFloats)
    (loaded : rt.loads text = .ok value) : rt.ReadsBack value ∧ value.depth ≤ rt.loadsDepth := by
  unfold loads at loaded
  split at loaded
  · cases loaded
  · split at loaded
    · cases loaded
    · next found rest scanned =>
        split at loaded
        · cases loaded
          exact (returns floats _).1 _ _ _ _ scanned
        · cases loaded

/-- An object can be read only where at least one level of nesting is allowed. -/
theorem one_le_loadsDepth {text : Str} {entries : List (Str × rt.Value)}
    (loaded : rt.loads text = .ok (.obj entries)) : 1 ≤ rt.loadsDepth := by
  have flat (fuel : Nat) (text rest : Str) :
      rt.scanOnce fuel 0 text ≠ .ok (.obj entries, rest) := by
    intro scanned
    cases fuel with
    | zero => cases scanned
    | succ fuel =>
        unfold scanOnce at scanned
        split at scanned
        · cases scanned
        split at scanned
        · split at scanned <;> cases scanned
        split at scanned
        · cases scanned
        split at scanned
        · cases scanned
        iterate 6
          split at scanned
          · cases scanned
        rcases scanNumber_cases scanned with ⟨n, impossible, _⟩ | ⟨x, impossible⟩
        · cases impossible
        · cases impossible
  unfold loads at loaded
  split at loaded
  · cases loaded
  · split at loaded
    · cases loaded
    · next found rest scanned =>
        split at loaded
        · cases loaded
          by_contra none
          have zero : rt.loadsDepth = 0 := by omega
          rw [zero] at scanned
          exact flat _ _ _ scanned
        · cases loaded

end Scanned

end Runtime

end Python
