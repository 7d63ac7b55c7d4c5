import Mathlib.Tactic.SplitIfs
import TelemetryPlatform.Library.Python

/-!
# Reading and writing JSON

`loads` is `json.loads` on a string: the recursive-descent scanner of the
standard library, with its liberties (NaN and infinities, lone surrogates from
escapes, the last of several equal keys wins) and its two ways of refusing a
document, `ValueError` and, past the nesting limit, `RecursionError`.

`dumps` is `json.dumps` with `ensure_ascii=False` and compact separators. It
writes every code point of a string as itself unless JSON requires an escape, so
the text it produces can be encoded exactly when every string in the document
can; this is `encodable_render`.
-/

namespace Python

section Strings

/-- The value of a hexadecimal digit. -/
def hexDigit? : Chr → Option Nat
  | .char c =>
      if '0' ≤ c ∧ c ≤ '9' then some (c.toNat - '0'.toNat)
      else if 'a' ≤ c ∧ c ≤ 'f' then some (c.toNat - 'a'.toNat + 10)
      else if 'A' ≤ c ∧ c ≤ 'F' then some (c.toNat - 'A'.toNat + 10)
      else none
  | .surrogate _ => none

/-- The code unit of the four digits after `\u`. -/
def hexUnit? (a b c d : Chr) : Option Nat := do
  let a ← hexDigit? a
  let b ← hexDigit? b
  let c ← hexDigit? c
  let d ← hexDigit? d
  return ((a * 16 + b) * 16 + c) * 16 + d

/-- The code point with a given number; surrogates are kept. -/
def chrOfCode (code : Nat) : Chr :=
  if high : 0xD800 ≤ code ∧ code < 0xE000 then .surrogate ⟨code - 0xD800, by omega⟩
  else .char (Char.ofNat code)

def isHighSurrogate (unit : Nat) : Bool := 0xD800 ≤ unit && unit < 0xDC00

def isLowSurrogate (unit : Nat) : Bool := 0xDC00 ≤ unit && unit < 0xE000

/-- The scalar a surrogate pair stands for. -/
def joinSurrogates (high low : Nat) : Nat :=
  0x10000 + (high - 0xD800) * 0x400 + (low - 0xDC00)

/-- The character of a one-letter escape. -/
def simpleEscape? : Chr → Option Chr
  | .char '"' => some (.char '"')
  | .char '\\' => some (.char '\\')
  | .char '/' => some (.char '/')
  | .char 'b' => some (.char '\x08')
  | .char 'f' => some (.char '\x0c')
  | .char 'n' => some (.char '\n')
  | .char 'r' => some (.char '\r')
  | .char 't' => some (.char '\t')
  | _ => none

/-- Put a decoded character in front of the rest of a string. -/
def consDecoded (c : Chr) (rest : Option (Str × Str)) : Option (Str × Str) :=
  rest.map fun decoded => (c :: decoded.1, decoded.2)

/-- Put back an escaped high surrogate that found no low one. -/
def flushHigh (high : Option Nat) (rest : Option (Str × Str)) : Option (Str × Str) :=
  match high with
  | some unit => consDecoded (chrOfCode unit) rest
  | none => rest

/--
The string after an opening quote, and the text after its closing quote. `high`
is an escaped high surrogate just read: only two adjacent escapes make a pair.
-/
def scanString (high : Option Nat) : Str → Option (Str × Str)
  | [] => none
  | .char '"' :: rest => flushHigh high (some ([], rest))
  | .char '\\' :: .char 'u' :: a :: b :: c :: d :: rest =>
      match hexUnit? a b c d with
      | none => none
      | some unit =>
          match high with
          | some pending =>
              if isLowSurrogate unit then
                consDecoded (chrOfCode (joinSurrogates pending unit)) (scanString none rest)
              else if isHighSurrogate unit then
                consDecoded (chrOfCode pending) (scanString (some unit) rest)
              else
                consDecoded (chrOfCode pending)
                  (consDecoded (chrOfCode unit) (scanString none rest))
          | none =>
              if isHighSurrogate unit then scanString (some unit) rest
              else consDecoded (chrOfCode unit) (scanString none rest)
  | .char '\\' :: escape :: rest =>
      match simpleEscape? escape with
      | some c => flushHigh high (consDecoded c (scanString none rest))
      | none => none
  | c :: rest =>
      if c.code < 0x20 then none
      else flushHigh high (consDecoded c (scanString none rest))

end Strings

/-- JSON white space. -/
def isJsonSpace (c : Chr) : Bool :=
  c = .char ' ' || c = .char '\t' || c = .char '\n' || c = .char '\r'

def skipSpace (text : Str) : Str := text.dropWhile isJsonSpace

/-- The longest run of ASCII digits at the front. -/
def spanDigits : Str → List Char × Str
  | .char c :: rest =>
      if '0' ≤ c ∧ c ≤ '9' then ((c :: (spanDigits rest).1), (spanDigits rest).2)
      else ([], .char c :: rest)
  | text => ([], text)

/-- The number a run of decimal digits denotes. -/
def digitsValue (digits : List Char) : Nat :=
  digits.foldl (fun value c => value * 10 + (c.toNat - '0'.toNat)) 0

/-- The optional fraction `.ddd`. -/
def scanFraction (text : Str) : List Char × Str :=
  match text with
  | .char '.' :: rest =>
      match spanDigits rest with
      | ([], _) => ([], text)
      | (digits, rest) => ('.' :: digits, rest)
  | _ => ([], text)

/-- The optional exponent `e±ddd`. -/
def scanExponent (text : Str) : List Char × Str :=
  match text with
  | .char e :: rest =>
      if e = 'e' ∨ e = 'E' then
        let sign : List Char × Str := match rest with
          | .char '+' :: rest => (['+'], rest)
          | .char '-' :: rest => (['-'], rest)
          | _ => ([], rest)
        match spanDigits sign.2 with
        | ([], _) => ([], text)
        | (digits, rest) => (e :: sign.1 ++ digits, rest)
      else ([], text)
  | _ => ([], text)

/-- The integer part: `0`, or digits that do not start with `0`. -/
def scanInteger (text : Str) : Option (List Char × Str) :=
  match text with
  | .char '0' :: rest => some (['0'], rest)
  | _ =>
      match spanDigits text with
      | ([], _) => none
      | found => some found

namespace Runtime

variable (rt : Runtime)

/-- A number: an `int`, or a `float` when it has a fraction or an exponent. -/
def scanNumber (text : Str) : Except Exc (rt.Value × Str) :=
  let sign : List Char × Str := match text with
    | .char '-' :: rest => (['-'], rest)
    | _ => ([], text)
  match scanInteger sign.2 with
  | none => .error .jsonDecodeError
  | some (digits, rest) =>
      let fraction := scanFraction rest
      let exponent := scanExponent fraction.2
      if fraction.1 = [] ∧ exponent.1 = [] then
        if rt.intMaxStrDigits < digits.length then .error (.valueError (str "int"))
        else
          let value : Int := digitsValue digits
          .ok (.int (if sign.1 = [] then value else -value), rest)
      else
        .ok (.float (rt.floatOfLiteral (sign.1 ++ digits ++ fraction.1 ++ exponent.1)),
          exponent.2)

mutual

/--
One value and the text after it. `fuel` bounds the number of calls, `depth` is
how many more arrays and objects may be entered.
-/
def scanOnce : Nat → Nat → Str → Except Exc (rt.Value × Str)
  | 0, _, _ => .error .jsonDecodeError
  | fuel + 1, depth, text =>
      match text with
      | [] => .error .jsonDecodeError
      | c :: rest =>
          if c = .char '"' then
            match scanString none rest with
            | some (value, rest) => .ok (.str value, rest)
            | none => .error .jsonDecodeError
          else if c = .char '{' then
            match depth with
            | 0 => .error .recursionError
            | depth + 1 =>
                match skipSpace rest with
                | .char '}' :: rest => .ok (.obj [], rest)
                | rest => scanMembers fuel depth [] rest
          else if c = .char '[' then
            match depth with
            | 0 => .error .recursionError
            | depth + 1 =>
                match skipSpace rest with
                | .char ']' :: rest => .ok (.arr [], rest)
                | rest => scanItems fuel depth [] rest
          else if (str "null").isPrefixOf text then .ok (.null, text.drop 4)
          else if (str "true").isPrefixOf text then .ok (.bool true, text.drop 4)
          else if (str "false").isPrefixOf text then .ok (.bool false, text.drop 5)
          else if (str "NaN").isPrefixOf text then
            .ok (.float (rt.floatOfLiteral "NaN".toList), text.drop 3)
          else if (str "Infinity").isPrefixOf text then
            .ok (.float (rt.floatOfLiteral "Infinity".toList), text.drop 8)
          else if (str "-Infinity").isPrefixOf text then
            .ok (.float (rt.floatOfLiteral "-Infinity".toList), text.drop 9)
          else rt.scanNumber text

/-- The items of an array up to its closing bracket. -/
def scanItems : Nat → Nat → List rt.Value → Str → Except Exc (rt.Value × Str)
  | 0, _, _, _ => .error .jsonDecodeError
  | fuel + 1, depth, items, text =>
      match scanOnce fuel depth text with
      | .error error => .error error
      | .ok (item, rest) =>
          match skipSpace rest with
          | .char ']' :: rest => .ok (.arr (items ++ [item]), rest)
          | .char ',' :: rest => scanItems fuel depth (items ++ [item]) (skipSpace rest)
          | _ => .error .jsonDecodeError

/-- The members of an object up to its closing brace. -/
def scanMembers : Nat → Nat → List (Str × rt.Value) → Str → Except Exc (rt.Value × Str)
  | 0, _, _, _ => .error .jsonDecodeError
  | fuel + 1, depth, entries, text =>
      match text with
      | .char '"' :: rest =>
          match scanString none rest with
          | none => .error .jsonDecodeError
          | some (key, rest) =>
              match skipSpace rest with
              | .char ':' :: rest =>
                  match scanOnce fuel depth (skipSpace rest) with
                  | .error error => .error error
                  | .ok (value, rest) =>
                      match skipSpace rest with
                      | .char '}' :: rest => .ok (.obj (dictSet entries key value), rest)
                      | .char ',' :: rest =>
                          scanMembers fuel depth (dictSet entries key value) (skipSpace rest)
                      | _ => .error .jsonDecodeError
              | _ => .error .jsonDecodeError
      | _ => .error .jsonDecodeError

end

/-- `json.loads(text)`. -/
def loads (text : Str) : Except Exc rt.Value :=
  if (str "\ufeff").isPrefixOf text then .error .jsonDecodeError
  else
    match rt.scanOnce (2 * text.length + 2) rt.loadsDepth (skipSpace text) with
    | .error error => .error error
    | .ok (value, rest) =>
        if (skipSpace rest).isEmpty then .ok value else .error .jsonDecodeError

end Runtime

/-- How `json.dumps` separates items and keys, and whether it escapes non-ASCII text. -/
structure JsonStyle where
  ensureAscii : Bool
  itemSeparator : Str
  keySeparator : Str

namespace JsonStyle

/-- The arguments' defaults. -/
def standard : JsonStyle := ⟨true, str ", ", str ": "⟩

/-- `ensure_ascii=False, separators=(",", ":")`. -/
def compact : JsonStyle := ⟨false, str ",", str ":"⟩

end JsonStyle

def hexEscape (unit : Nat) : Str :=
  str "\\u" ++ [unit / 0x1000 % 16, unit / 0x100 % 16, unit / 0x10 % 16, unit % 16].map
    fun digit => .char (Nat.digitChar digit)

/-- The escape of a character outside ASCII, in UTF-16 code units. -/
def asciiEscape (c : Chr) : Str :=
  if c.code < 0x10000 then hexEscape c.code
  else
    hexEscape (0xD800 + (c.code - 0x10000) / 0x400) ++
      hexEscape (0xDC00 + (c.code - 0x10000) % 0x400)

/-- How `json.dumps` writes a character of a string. -/
def escapeChr (style : JsonStyle) (c : Chr) : Str :=
  if c = .char '"' then str "\\\""
  else if c = .char '\\' then str "\\\\"
  else if c = .char '\n' then str "\\n"
  else if c = .char '\r' then str "\\r"
  else if c = .char '\t' then str "\\t"
  else if c = .char '\x0c' then str "\\f"
  else if c = .char '\x08' then str "\\b"
  else if c.code < 0x20 then hexEscape c.code
  else if style.ensureAscii ∧ 0x80 ≤ c.code then asciiEscape c
  else [c]

def renderStr (style : JsonStyle) (text : Str) : Str :=
  .char '"' :: text.flatMap (escapeChr style) ++ [.char '"']

namespace Runtime

variable (rt : Runtime)

/-- The text of a document. -/
def render (style : JsonStyle) : rt.Value → Str
  | .null => str "null"
  | .bool true => str "true"
  | .bool false => str "false"
  | .int value => (intText value).map .char
  | .float value => (rt.floatJson value).map .char
  | .str value => renderStr style value
  | .arr [] => str "[]"
  | .arr (item :: rest) => .char '[' :: (render style item ++ renderItems rest ++ [.char ']'])
  | .obj [] => str "{}"
  | .obj ((key, value) :: rest) =>
      .char '{' :: (renderStr style key ++ style.keySeparator ++ (render style value ++
        renderMembers rest ++ [.char '}']))
where
  renderItems : List rt.Value → Str
    | [] => []
    | item :: rest => style.itemSeparator ++ (render style item ++ renderItems rest)
  renderMembers : List (Str × rt.Value) → Str
    | [] => []
    | (key, value) :: rest =>
        style.itemSeparator ++ (renderStr style key ++ style.keySeparator ++
          (render style value ++ renderMembers rest))

/-- `json.dumps(value)` in a given style. -/
def dumps (style : JsonStyle) (value : rt.Value) : Except Exc Str :=
  if value.depth ≤ rt.dumpsDepth then .ok (rt.render style value) else .error .recursionError

end Runtime

namespace Json

variable {Float : Type}

/-- Every string of a document, keys included, has a UTF-8 encoding. -/
def Encodable : Json Float → Prop
  | .str value => Python.Encodable value
  | .arr items => encodableItems items
  | .obj entries => encodableMembers entries
  | _ => True
where
  encodableItems : List (Json Float) → Prop
    | [] => True
    | item :: rest => item.Encodable ∧ encodableItems rest
  encodableMembers : List (Str × Json Float) → Prop
    | [] => True
    | (key, value) :: rest =>
        Python.Encodable key ∧ value.Encodable ∧ encodableMembers rest

end Json

@[simp]
theorem encodable_hexEscape (unit : Nat) : Encodable (hexEscape unit) := by
  simp [hexEscape, Chr.isScalar]

@[simp]
theorem encodable_escapeChr {c : Chr} :
    Encodable (escapeChr .compact c) ↔ c.isScalar = true := by
  cases c with
  | char scalar =>
      unfold escapeChr
      split_ifs <;> simp_all [Chr.isScalar, JsonStyle.compact]
  | surrogate unit =>
      have large : ¬0xD800 + unit.val < 0x20 := by omega
      simp [escapeChr, Chr.code, Chr.isScalar, large, JsonStyle.compact]

@[simp]
theorem encodable_renderStr {text : Str} :
    Encodable (renderStr .compact text) ↔ Encodable text := by
  have body : Encodable (text.flatMap (escapeChr .compact)) ↔ Encodable text := by
    induction text with
    | nil => simp
    | cons c rest ih => simp [List.flatMap_cons, ih]
  simp [renderStr, body, Chr.isScalar]

@[simp]
theorem encodable_separators :
    Encodable JsonStyle.compact.itemSeparator ∧ Encodable JsonStyle.compact.keySeparator := by
  simp [JsonStyle.compact]

/-- The written text can be encoded exactly when every string of the document can. -/
theorem encodable_render (rt : Runtime) (value : rt.Value) :
    Encodable (rt.render .compact value) ↔ value.Encodable :=
  match value with
  | .null => by simp [Runtime.render, Json.Encodable]
  | .bool true => by simp [Runtime.render, Json.Encodable]
  | .bool false => by simp [Runtime.render, Json.Encodable]
  | .int value => by simp [Runtime.render, Json.Encodable]
  | .float value => by simp [Runtime.render, Json.Encodable]
  | .str value => by simp [Runtime.render, Json.Encodable]
  | .arr [] => by simp [Runtime.render, Json.Encodable, Json.Encodable.encodableItems]
  | .arr (item :: rest) => by
      simp [Runtime.render, Json.Encodable, Json.Encodable.encodableItems, Chr.isScalar,
        encodable_render rt item, items rest]
  | .obj [] => by simp [Runtime.render, Json.Encodable, Json.Encodable.encodableMembers]
  | .obj ((key, value) :: rest) => by
      simp [Runtime.render, Json.Encodable, Json.Encodable.encodableMembers, Chr.isScalar,
        encodable_render rt value, members rest]
where
  items (rest : List rt.Value) :
      Encodable (Runtime.render.renderItems rt .compact rest) ↔
        Json.Encodable.encodableItems rest :=
    match rest with
    | [] => by simp [Runtime.render.renderItems, Json.Encodable.encodableItems]
    | item :: rest => by
        simp [Runtime.render.renderItems, Json.Encodable.encodableItems,
          encodable_render rt item, items rest]
  members (rest : List (Str × rt.Value)) :
      Encodable (Runtime.render.renderMembers rt .compact rest) ↔
        Json.Encodable.encodableMembers rest :=
    match rest with
    | [] => by simp [Runtime.render.renderMembers, Json.Encodable.encodableMembers]
    | (key, value) :: rest => by
        simp [Runtime.render.renderMembers, Json.Encodable.encodableMembers,
          encodable_render rt value, members rest]

end Python
