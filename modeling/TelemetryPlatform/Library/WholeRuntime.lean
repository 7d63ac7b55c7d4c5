import TelemetryPlatform.Library.JsonText
import TelemetryPlatform.Library.Numeral
import TelemetryPlatform.Library.Text

/-!
# A runtime that evaluates

`Runtime.whole` is a runtime whose floats are the whole numbers and whose text
functions know ASCII. On documents of that kind it answers as the interpreter
does, and it is what concrete runs of the programs are evaluated with. Codecs are
left to the runs that need them.
-/

namespace Python

/-- `text.upper()` on ASCII. -/
def upperAscii (text : Str) : Str :=
  text.map fun
    | .char c => .char c.toUpper
    | c => c

/-- `float(value)` where the result is a whole number. -/
def wholeOf : Json Int → Except Exc Int
  | .int value | .float value => .ok value
  | .bool value => .ok value.toNat
  | .str text => .error (.valueError text)
  | .null | .arr _ | .obj _ => .error .typeError

mutual

/-- `repr(value)` of a document whose strings need no escapes. -/
def reprWhole : Json Int → Str
  | .null => str "None"
  | .bool true => str "True"
  | .bool false => str "False"
  | .int value => (Runtime.intText value).map .char
  | .float value => (Runtime.intText value).map .char ++ str ".0"
  | .str text => str "'" ++ text ++ str "'"
  | .arr items => str "[" ++ (str ", ").intercalate (reprItems items) ++ str "]"
  | .obj entries => str "\x7b" ++ (str ", ").intercalate (reprEntries entries) ++ str "\x7d"

def reprItems : List (Json Int) → List Str
  | [] => []
  | item :: rest => reprWhole item :: reprItems rest

def reprEntries : List (Str × Json Int) → List Str
  | [] => []
  | (key, item) :: rest => (str "'" ++ key ++ str "': " ++ reprWhole item) :: reprEntries rest

end

def Runtime.whole : Runtime where
  Float := Int
  floatOfLiteral text :=
    let digits : Int := digitsValue (spanDigits ((text.dropWhile (· = '-')).map .char)).1
    if text.head? = some '-' then -digits else digits
  floatRepr value := Runtime.intText value ++ ".0".toList
  floatJson value := Runtime.intText value ++ ".0".toList
  floatTruth value := value ≠ 0
  floatTrunc := .whole
  floatEq left right := left = right
  floatEqInt left right := left = right
  floatLtInt left right := left < right
  floatSub left right := left - right
  floatDiv left right := left / right
  floatOf := wholeOf
  decodeErrorText _ := str "Expecting value: line 1 column 1 (char 0)"
  digits := DecimalTable.latin
  containerText := reprWhole
  reprDepth := 1000
  reprStr text := str "'" ++ text ++ str "'"
  upper := upperAscii
  b64decode _ := .error (.valueError [])
  gunzip _ := .error (.valueError [])
  decodeJsonBytes bytes := .ok (bytes.map fun byte => .char (Char.ofNat byte.toNat))
  loadsDepth := 1000
  dumpsDepth := 1000
  intMaxStrDigits := 4300

section Floats

theorem noDigitHead_point (rest : Str) : NoDigitHead (.char '.' :: rest) := by
  intro c tail same
  cases same
  decide

theorem toDigits_ne_minus (n : Nat) : ∀ c ∈ Nat.toDigits 10 n, c ≠ '-' := by
  rintro c cMem rfl
  have digit := isDigit_of_mem_toDigits cMem
  revert digit
  decide

/-- Whole floats are written so that they are read back. -/
theorem Runtime.whole_writesFloats : Runtime.whole.WritesFloats := by
  intro x
  change Int at x
  have whole := isWholePart_toDigits x.natAbs
  have spanned : spanDigits ((Nat.toDigits 10 x.natAbs ++ ['.', '0']).map .char) =
      (Nat.toDigits 10 x.natAbs, [.char '.', .char '0']) := by
    rw [List.map_append]
    exact spanDigits_append whole.digits (noDigitHead_point _)
  have text : Runtime.whole.floatJson x = Runtime.intText x ++ ['.', '0'] := rfl
  have head : (Nat.toDigits 10 x.natAbs).head? ≠ some '-' := by
    intro minus
    exact toDigits_ne_minus _ '-' (List.mem_of_head? minus) rfl
  constructor
  · rw [text]
    have isFraction : IsFraction ['.', '0'] := Or.inr ⟨['0'], rfl, by simp, by simp [IsDigit]⟩
    by_cases negative : x < 0
    · have literal := FloatLiteral.number (Or.inr rfl) whole isFraction (Or.inl rfl)
        (Or.inl (by simp))
      simpa [intText, negative] using literal
    · have literal := FloatLiteral.number (Or.inl rfl) whole isFraction (Or.inl rfl)
        (Or.inl (by simp))
      simpa [intText, negative] using literal
  · rcases whole.exists_cons with ⟨c, digits, written, _⟩
    have notMinus : c ≠ '-' := toDigits_ne_minus x.natAbs c (written ▸ List.mem_cons_self)
    have value := digitsValue_toDigits x.natAbs
    rw [written] at spanned value
    rw [text]
    by_cases negative : x < 0
    · simp only [Runtime.whole, intText, negative, if_true, written]
      simp only [List.cons_append, List.dropWhile_cons, decide_true, if_true, notMinus,
        decide_false, Bool.false_eq_true, if_false, List.head?_cons]
      rw [← List.cons_append, spanned, value]
      omega
    · simp only [Runtime.whole, intText, negative, if_false, written]
      simp only [List.cons_append, List.dropWhile_cons, notMinus,
        decide_false, Bool.false_eq_true, if_false, List.head?_cons, Option.some.injEq]
      rw [← List.cons_append, spanned, value]
      omega
end Floats

section Same

mutual

/-- Whether two documents are the same, as a computation. -/
def Json.same : Json Int → Json Int → Bool
  | .null, .null => true
  | .bool left, .bool right => left = right
  | .int left, .int right | .float left, .float right => left = right
  | .str left, .str right => left = right
  | .arr left, .arr right => sameItems left right
  | .obj left, .obj right => sameEntries left right
  | _, _ => false

def Json.sameItems : List (Json Int) → List (Json Int) → Bool
  | [], [] => true
  | left :: lefts, right :: rights => left.same right && sameItems lefts rights
  | _, _ => false

def Json.sameEntries : List (Str × Json Int) → List (Str × Json Int) → Bool
  | [], [] => true
  | (key, left) :: lefts, (key', right) :: rights =>
      key = key' && left.same right && sameEntries lefts rights
  | _, _ => false

end

mutual

theorem Json.eq_of_same {left right : Json Int} (same : left.same right = true) : left = right := by
  cases left <;> cases right <;> simp only [Json.same, Bool.false_eq_true,
    decide_eq_true_eq] at same
  · rfl
  · rw [same]
  · rw [same]
  · rw [same]
  · rw [same]
  · rw [Json.eq_of_sameItems same]
  · rw [Json.eq_of_sameEntries same]

theorem Json.eq_of_sameItems {left right : List (Json Int)}
    (same : Json.sameItems left right = true) :
    left = right := by
  cases left <;> cases right <;>
    simp only [Json.sameItems, Bool.false_eq_true, Bool.and_eq_true] at same
  · rfl
  · rw [Json.eq_of_same same.1, Json.eq_of_sameItems same.2]

theorem Json.eq_of_sameEntries {left right : List (Str × Json Int)}
    (same : Json.sameEntries left right = true) : left = right := by
  cases left with
  | nil =>
      cases right with
      | nil => rfl
      | cons entry rest => simp only [Json.sameEntries, Bool.false_eq_true] at same
  | cons entry lefts =>
      cases right with
      | nil => simp only [Json.sameEntries, Bool.false_eq_true] at same
      | cons entry' rights =>
          rcases entry with ⟨key, left⟩
          rcases entry' with ⟨key', right⟩
          simp only [Json.sameEntries, Bool.and_eq_true, decide_eq_true_eq] at same
          rw [same.1.1, Json.eq_of_same same.1.2, Json.eq_of_sameEntries same.2]

end

/-- Whether a text is that of a document. -/
def loadsTo (text : Str) (value : Json Int) : Bool :=
  match Runtime.whole.loads text with
  | .ok found => Json.same found value
  | .error _ => false

theorem loads_of_loadsTo {text : Str} {value : Json Int} (loaded : loadsTo text value = true) :
    Runtime.whole.loads text = .ok value := by
  rw [loadsTo] at loaded
  cases found : Runtime.whole.loads text with
  | ok document =>
      rw [found] at loaded
      rw [Json.eq_of_same loaded]
  | error error =>
      rw [found] at loaded
      cases loaded

end Same
end Python
