import Mathlib.Data.List.Basic
import Mathlib.Data.Fin.Basic

/-!
# Python values

The part of Python's data model that programs over JSON documents use: strings
as sequences of code points, which may hold lone surrogates, UTF-8 encoding, the
exceptions of the built-in operations, JSON documents as `json.loads` builds
them, and dictionaries as insertion-ordered association lists.

What depends on the interpreter rather than on the program (floating point,
`repr`, the Unicode tables, the codecs, the recursion limits) is collected in
`Runtime`. Results about a program hold for every runtime.
-/

namespace Python

/-- A code point of a Python string: a Unicode scalar value or a lone surrogate. -/
inductive Chr where
  | char (scalar : Char)
  | surrogate (unit : Fin 2048)
  deriving DecidableEq

abbrev Str := List Chr

instance : LawfulBEq Str := inferInstance

abbrev Bytes := List UInt8

namespace Chr

def code : Chr → Nat
  | .char scalar => scalar.toNat
  | .surrogate unit => 0xD800 + unit.val

def isScalar : Chr → Bool
  | .char _ => true
  | .surrogate _ => false

/-- The UTF-8 encoding, which a surrogate does not have. -/
def utf8 : Chr → Option Bytes
  | .char scalar => some (String.utf8EncodeChar scalar)
  | .surrogate _ => none

end Chr

/-- The Python string of a literal. -/
def str (literal : String) : Str := literal.toList.map .char

/-- The built-in exceptions. Texts are kept where a program raises them itself. -/
inductive Exc where
  | valueError (text : Str)
  | jsonDecodeError
  | unicodeEncodeError
  | keyError (key : Str)
  | indexError
  | typeError
  | attributeError
  | overflowError
  | osError
  | recursionError
  | runtimeError (text : Str)
  deriving DecidableEq

/-- Whether `except ValueError` catches the exception. -/
def Exc.isValueError : Exc → Bool
  | .valueError _ | .jsonDecodeError | .unicodeEncodeError => true
  | _ => false

/-- Every code point has a UTF-8 encoding. -/
def Encodable (text : Str) : Prop := ∀ c ∈ text, c.isScalar = true

instance (text : Str) : Decidable (Encodable text) :=
  inferInstanceAs (Decidable (∀ c ∈ text, c.isScalar = true))

/-- `str.encode("utf-8")`. -/
def encode (text : Str) : Except Exc Bytes :=
  match text.mapM Chr.utf8 with
  | some pieces => .ok pieces.flatten
  | none => .error .unicodeEncodeError

@[simp]
theorem encodable_nil : Encodable [] := by simp [Encodable]

@[simp]
theorem encodable_cons {c : Chr} {text : Str} :
    Encodable (c :: text) ↔ c.isScalar = true ∧ Encodable text := by
  simp [Encodable]

@[simp]
theorem encodable_append {left right : Str} :
    Encodable (left ++ right) ↔ Encodable left ∧ Encodable right := by
  simp only [Encodable, List.mem_append]
  constructor
  · exact fun all => ⟨fun c mem => all c (Or.inl mem), fun c mem => all c (Or.inr mem)⟩
  · rintro ⟨leftAll, rightAll⟩ c (mem | mem)
    · exact leftAll c mem
    · exact rightAll c mem

@[simp]
theorem encodable_map_char (literal : List Char) : Encodable (literal.map .char) := by
  simp [Encodable, Chr.isScalar]

@[simp]
theorem encodable_str (literal : String) : Encodable (str literal) :=
  encodable_map_char _

theorem mapM_utf8_isSome {text : Str} : (text.mapM Chr.utf8).isSome ↔ Encodable text := by
  induction text with
  | nil => simp
  | cons c rest ih =>
      cases c with
      | char scalar =>
          cases found : rest.mapM Chr.utf8 <;>
            simp [List.mapM_cons, Chr.utf8, Chr.isScalar, ← ih, found]
      | surrogate unit => simp [List.mapM_cons, Chr.utf8, Chr.isScalar]

/-- `encode` raises exactly on the strings that hold a surrogate. -/
theorem encode_eq_ok {text : Str} (encodable : Encodable text) :
    ∃ bytes, encode text = .ok bytes := by
  have found := mapM_utf8_isSome.mpr encodable
  rcases Option.isSome_iff_exists.mp found with ⟨pieces, pieces_eq⟩
  exact ⟨pieces.flatten, by simp [encode, pieces_eq]⟩

theorem encode_eq_error {text : Str} (notEncodable : ¬Encodable text) :
    encode text = .error .unicodeEncodeError := by
  have missing : text.mapM Chr.utf8 = none := by
    rw [← Option.not_isSome_iff_eq_none, mapM_utf8_isSome]
    exact notEncodable
  simp [encode, missing]

theorem encodable_of_encode {text : Str} {bytes : Bytes} (encoded : encode text = .ok bytes) :
    Encodable text := by
  by_contra notEncodable
  rw [encode_eq_error notEncodable] at encoded
  cases encoded

theorem ok_bind {ε α β : Type} (value : α) (next : α → Except ε β) :
    ((.ok value : Except ε α) >>= next) = next value := rfl

theorem error_bind {ε α β : Type} (error : ε) (next : α → Except ε β) :
    ((.error error : Except ε α) >>= next) = .error error := rfl

theorem bind_eq_ok {ε α β : Type} {first : Except ε α} {next : α → Except ε β} {result : β} :
    (first >>= next) = .ok result ↔ ∃ value, first = .ok value ∧ next value = .ok result := by
  cases first <;> simp [bind, Except.bind]

/-- A list of computations succeeds exactly when each of them does. -/
theorem exists_mapM_eq_ok {ε α β : Type} {f : α → Except ε β} {items : List α} :
    (∃ results, items.mapM f = .ok results) ↔ ∀ item ∈ items, ∃ result, f item = .ok result := by
  induction items with
  | nil => simp [pure, Except.pure]
  | cons item items ih =>
      simp only [List.mapM_cons, List.forall_mem_cons, ← ih, bind, Except.bind, pure, Except.pure]
      cases f item with
      | error error => simp
      | ok result => cases items.mapM f <;> simp

theorem mapM_congr {ε α β : Type} {f g : α → Except ε β} {items : List α}
    (same : ∀ item ∈ items, f item = g item) : items.mapM f = items.mapM g := by
  induction items with
  | nil => rfl
  | cons item items ih =>
      rw [List.forall_mem_cons] at same
      rw [List.mapM_cons, List.mapM_cons, same.1, ih same.2]

/-- A JSON document; an object keeps its keys in insertion order. -/
inductive Json (Float : Type) where
  | null
  | bool (value : Bool)
  | int (value : Int)
  | float (value : Float)
  | str (value : Str)
  | arr (items : List (Json Float))
  | obj (entries : List (Str × Json Float))

section Dictionaries

variable {κ ν : Type} [DecidableEq κ]

/-- `d[key] = value`: an existing key keeps its place, a new one goes last. -/
def dictSet (entries : List (κ × ν)) (key : κ) (value : ν) : List (κ × ν) :=
  match entries with
  | [] => [(key, value)]
  | entry :: rest =>
      if entry.1 = key then (key, value) :: rest else entry :: dictSet rest key value

/-- `d.get(key)`. -/
def dictGet? (entries : List (κ × ν)) (key : κ) : Option ν :=
  match entries with
  | [] => none
  | entry :: rest => if entry.1 = key then some entry.2 else dictGet? rest key

/-- `d.setdefault(key, value)`, as a statement. -/
def dictSetDefault (entries : List (κ × ν)) (key : κ) (value : ν) : List (κ × ν) :=
  if (dictGet? entries key).isSome then entries else dictSet entries key value

end Dictionaries

namespace Json

variable {Float : Type}

/-- `isinstance(value, dict)`, with the entries. -/
def entries? : Json Float → Option (List (Str × Json Float))
  | .obj entries => some entries
  | _ => none

/-- `value.get(key)` with the default `None`; only dictionaries have the method. -/
def get (value : Json Float) (key : Str) : Except Exc (Json Float) :=
  match value with
  | .obj entries => .ok ((dictGet? entries key).getD .null)
  | _ => .error .attributeError

/-- `value.get(key, default)`. -/
def getD (value : Json Float) (key : Str) (default : Json Float) : Except Exc (Json Float) :=
  match value with
  | .obj entries => .ok ((dictGet? entries key).getD default)
  | _ => .error .attributeError

/-- `value[key]` for a string key. -/
def subscript (value : Json Float) (key : Str) : Except Exc (Json Float) :=
  match value with
  | .obj entries =>
      match dictGet? entries key with
      | some found => .ok found
      | none => .error (.keyError key)
  | _ => .error .typeError

/-- The values `for item in value` runs through. -/
def iterate : Json Float → Except Exc (List (Json Float))
  | .arr items => .ok items
  | .obj entries => .ok (entries.map fun entry => .str entry.1)
  | .str text => .ok (text.map fun c => .str [c])
  | _ => .error .typeError

/-- Nesting depth of arrays and objects. -/
def depth : Json Float → Nat
  | .arr items => depthItems items + 1
  | .obj entries => depthEntries entries + 1
  | _ => 0
where
  depthItems : List (Json Float) → Nat
    | [] => 0
    | item :: rest => max item.depth (depthItems rest)
  depthEntries : List (Str × Json Float) → Nat
    | [] => 0
    | (_, item) :: rest => max item.depth (depthEntries rest)

end Json

/-- `unicodedata.decimal`, which `str.isdigit`, `int` and the class `\d` go by. -/
structure DigitTable where
  value : Chr → Option Nat
  ascii : ∀ digit < 10, value (.char (Nat.digitChar digit)) = some digit

/-- The decimal digits of the interpreter's Unicode tables. -/
structure DecimalTable extends DigitTable where
  small : ∀ c digit, value c = some digit → digit < 10

/-- What `int` makes of a float: its whole part, unless it is an infinity or no number. -/
inductive Truncated where
  | whole (value : Int)
  | infinite
  | nan

/--
The interpreter under a program. Floats are an abstract type with the operations
programs apply to them; the remaining fields are functions of the standard
library whose results the programs only pass on.
-/
structure Runtime where
  /-- The type `float`. -/
  Float : Type
  /-- `float(text)` for the text of a JSON number. -/
  floatOfLiteral : List Char → Float
  /-- `repr(x)` of a float. -/
  floatRepr : Float → List Char
  /-- What `json.dumps` writes for a float. -/
  floatJson : Float → List Char
  /-- `bool(x)` of a float. -/
  floatTruth : Float → Bool
  /-- The whole part of a float, towards zero. -/
  floatTrunc : Float → Truncated
  /-- `x == y` on floats. -/
  floatEq : Float → Float → Bool
  /-- `x == n` of a float and an integer. -/
  floatEqInt : Float → Int → Bool
  /-- `x < n` of a float and an integer. -/
  floatLtInt : Float → Int → Bool
  /-- `x - y` and `x / y` on floats. -/
  floatSub : Float → Float → Float
  floatDiv : Float → Float → Float
  /-- `float(value)`. -/
  floatOf : Json Float → Except Exc Float
  /-- The text of the `JSONDecodeError` a document raises. -/
  decodeErrorText : Str → Str
  /-- The characters that `int` takes for digits. -/
  digits : DecimalTable
  /-- The text of a list or a dict. -/
  containerText : Json Float → Str
  /-- How deep lists and dicts may nest in `str` and `repr`. -/
  reprDepth : Nat
  /-- `repr(text)` of a string. -/
  reprStr : Str → Str
  /-- `text.upper()`. -/
  upper : Str → Str
  /-- `base64.b64decode`. -/
  b64decode : Str → Except Exc Bytes
  /-- `gzip.decompress`. -/
  gunzip : Bytes → Except Exc Bytes
  /-- The text `json.loads` reads from a bytes argument. -/
  decodeJsonBytes : Bytes → Except Exc Str
  /-- How deep arrays and objects may nest in `json.loads`. -/
  loadsDepth : Nat
  /-- How deep arrays and objects may nest in `json.dumps`. -/
  dumpsDepth : Nat
  /-- The longest decimal numeral `int` converts. -/
  intMaxStrDigits : Nat

namespace Runtime

variable (rt : Runtime)

/-- The documents of a runtime. -/
abbrev Value := Json rt.Float

/-- `bool(value)`. -/
def truth : rt.Value → Bool
  | .null => false
  | .bool value => value
  | .int value => value ≠ 0
  | .float value => rt.floatTruth value
  | .str value => !value.isEmpty
  | .arr items => !items.isEmpty
  | .obj entries => !entries.isEmpty

/-- The decimal numeral of an integer. -/
def intText (n : Int) : List Char :=
  if n < 0 then '-' :: Nat.toDigits 10 n.natAbs else Nat.toDigits 10 n.natAbs

/-- `int(x)` of a float. -/
def floatToInt (value : rt.Float) : Except Exc Int :=
  match rt.floatTrunc value with
  | .whole value => .ok value
  | .infinite => .error .overflowError
  | .nan => .error (.valueError (str "cannot convert float NaN to integer"))

/-- `str(x)` of a list or a dict. -/
def containerStr (value : rt.Value) : Except Exc Str :=
  if value.depth ≤ rt.reprDepth then .ok (rt.containerText value) else .error .recursionError

/-- `str(value)`. -/
def strOf : rt.Value → Except Exc Str
  | .null => .ok (str "None")
  | .bool true => .ok (str "True")
  | .bool false => .ok (str "False")
  | .int value => .ok ((intText value).map .char)
  | .float value => .ok ((rt.floatRepr value).map .char)
  | .str value => .ok value
  | .arr items => rt.containerStr (.arr items)
  | .obj entries => rt.containerStr (.obj entries)

/-- The value of a `bool` or an `int`. -/
def number? : rt.Value → Option Int
  | .bool value => some value.toNat
  | .int value => some value
  | _ => none

/-- `left == right` of values that are not both lists or both dictionaries. -/
def eqPlain (left right : rt.Value) : Bool :=
  match left, right with
  | .null, .null => true
  | .str left, .str right => left = right
  | .float left, .float right => rt.floatEq left right
  | .float left, right => (rt.number? right).any (rt.floatEqInt left)
  | left, .float right => (rt.number? left).any (rt.floatEqInt right)
  | left, right => (rt.number? left).isSome && rt.number? left = rt.number? right

/-- `left == right`; the order of a dictionary's keys does not matter. -/
def eq : rt.Value → rt.Value → Bool
  | .arr left, .arr right => eqItems left right
  | .obj left, .obj right => left.length = right.length && eqEntries left right
  | left, right => rt.eqPlain left right
where
  eqItems : List rt.Value → List rt.Value → Bool
    | [], [] => true
    | left :: lefts, right :: rights => eq left right && eqItems lefts rights
    | _, _ => false
  eqEntries : List (Str × rt.Value) → List (Str × rt.Value) → Bool
    | [], _ => true
    | (key, left) :: lefts, rights =>
        (match dictGet? rights key with
          | some right => eq left right
          | none => false) && eqEntries lefts rights

end Runtime

end Python
