import Mathlib.Data.List.DropRight
import Mathlib.Data.List.Infix
import Mathlib.Data.List.TakeWhile
import TelemetryPlatform.Library.Python

/-!
# Python string methods

The methods on strings that scripts take apart their inputs with, as list
operations on code points.
-/

namespace Python

theorem code_injective : Function.Injective Chr.code := by
  intro first second same
  cases first with
  | char scalar =>
      cases second with
      | char other => rw [Char.ext (UInt32.toNat_inj.mp same)]
      | surrogate unit =>
          have valid := scalar.valid
          simp only [Chr.code, Char.toNat] at same
          simp only [UInt32.isValidChar, Nat.isValidChar] at valid
          omega
  | surrogate unit =>
      cases second with
      | char scalar =>
          have valid := scalar.valid
          simp only [Chr.code, Char.toNat] at same
          simp only [UInt32.isValidChar, Nat.isValidChar] at valid
          omega
      | surrogate other =>
          simp only [Chr.code] at same
          rw [Fin.ext (by omega : unit.val = other.val)]

/-- The code points `str.isspace`, `str.strip` and the class `\s` recognise. -/
def isSpace (c : Chr) : Bool :=
  c.code ∈ [0x09, 0x0a, 0x0b, 0x0c, 0x0d, 0x1c, 0x1d, 0x1e, 0x1f, 0x20, 0x85, 0xa0, 0x1680,
    0x2000, 0x2001, 0x2002, 0x2003, 0x2004, 0x2005, 0x2006, 0x2007, 0x2008, 0x2009, 0x200a,
    0x2028, 0x2029, 0x202f, 0x205f, 0x3000]

/-- `text.strip()`. -/
def strip (text : Str) : Str :=
  (text.dropWhile isSpace).reverse.dropWhile isSpace |>.reverse

/-- `needle in text`. -/
def Contains (needle text : Str) : Prop := needle <:+: text

instance (needle text : Str) : Decidable (Contains needle text) :=
  inferInstanceAs (Decidable (needle <:+: text))

/-- `key in value`: a key of a dictionary, an item of a list or a part of a string. -/
def Json.contains {Float : Type} (value : Json Float) (key : Str) : Except Exc Bool :=
  match value with
  | .obj entries => .ok (dictGet? entries key).isSome
  | .arr items => .ok (items.any fun item => match item with
      | .str text => text = key
      | _ => false)
  | .str text => .ok (decide (Contains key text))
  | _ => .error .typeError

/-- The characters that end a line for `str.splitlines`. -/
def endsLine (c : Chr) : Bool :=
  c.code ∈ [0x0a, 0x0b, 0x0c, 0x0d, 0x1c, 0x1d, 0x1e, 0x85, 0x2028, 0x2029]

/-- `text.splitlines()`, where a carriage return and a newline end one line together. -/
def splitlines : Str → List Str
  | [] => []
  | .char '\r' :: .char '\n' :: rest => [] :: splitlines rest
  | c :: rest =>
      if endsLine c then [] :: splitlines rest
      else
        match splitlines rest with
        | [] => [[c]]
        | line :: lines => (c :: line) :: lines

/-- `text.replace(old, new)` for single characters. -/
def replaceChr (text : Str) (old new : Chr) : Str :=
  text.map fun c => if c = old then new else c

/-- `c.lower()` for the letters of ASCII, the only ones the scripts lower. -/
def lowerChr (c : Chr) : Chr :=
  if 0x41 ≤ c.code ∧ c.code ≤ 0x5a then .char (Char.ofNat (c.code + 0x20)) else c

def lower (text : Str) : Str := text.map lowerChr

@[simp]
theorem length_lower (text : Str) : (lower text).length = text.length := List.length_map ..

theorem lower_append (left right : Str) : lower (left ++ right) = lower left ++ lower right :=
  List.map_append ..

theorem lower_take (n : Nat) (text : Str) : lower (text.take n) = (lower text).take n :=
  List.map_take ..

/-- The class `\d`. Which characters beyond ASCII are digits depends on the interpreter. -/
structure DigitClass where
  holds : Chr → Bool
  ascii : ∀ c : Chr, c.code < 0x80 → holds c = decide (0x30 ≤ c.code ∧ c.code ≤ 0x39)

/-- The digits of ASCII and no others. -/
def DigitClass.latin : DigitClass where
  holds c := decide (0x30 ≤ c.code ∧ c.code ≤ 0x39)
  ascii _ _ := rfl

theorem DigitClass.not_holds_of_letter (digits : DigitClass) {c : Chr} (lowest : 0x61 ≤ c.code)
    (highest : c.code ≤ 0x7a) : digits.holds c = false := by
  rw [digits.ascii c (by omega), decide_eq_false_iff_not]
  omega

theorem DigitClass.lowerChr_of_holds (digits : DigitClass) {c : Chr}
    (isDigit : digits.holds c = true) : lowerChr c = c := by
  rw [lowerChr, if_neg]
  rintro ⟨lowest, highest⟩
  rw [digits.ascii c (by omega)] at isDigit
  have := of_decide_eq_true isDigit
  omega

theorem replaceChr_append (left right : Str) (old new : Chr) :
    replaceChr (left ++ right) old new = replaceChr left old new ++ replaceChr right old new :=
  List.map_append ..

/-- A text between two characters that are no white space is its own `strip`. -/
theorem strip_eq_self {first last : Chr} (middle : Str) (firstSolid : isSpace first = false)
    (lastSolid : isSpace last = false) :
    strip (first :: middle ++ [last]) = first :: middle ++ [last] := by
  simp [strip, firstSolid, lastSolid]

theorem strip_strip (text : Str) : strip (strip text) = strip text := by
  have front : (strip text).dropWhile isSpace = strip text := by
    rcases List.rdropWhile_prefix isSpace (text.dropWhile isSpace) with ⟨space, split⟩
    change strip text ++ space = _ at split
    apply List.dropWhile_eq_self_iff.mpr
    intro nonempty first
    have solid := List.dropWhile_get_zero_not isSpace text (by
      rw [← split, List.length_append]
      exact Nat.lt_add_right _ nonempty)
    apply solid
    simp only [← split, List.get_eq_getElem, List.getElem_append_left nonempty]
    exact first
  rw [strip, front]
  exact List.rdropWhile_idempotent isSpace _

theorem strip_append_newline {first last : Chr} {middle : Str}
    (firstSolid : isSpace first = false) (lastSolid : isSpace last = false) :
    strip (first :: middle ++ [last] ++ str "\n") = first :: middle ++ [last] := by
  have newline : isSpace (.char '\n') = true := by decide
  simp [strip, str, firstSolid, lastSolid, newline]

section Split

/-- `text.split(sep, 1)` where `sep` occurs: the text before its first occurrence and after it. -/
def splitOnce (sep text : Str) : Option (Str × Str) :=
  match text.dropPrefix? sep with
  | some after => some ([], after)
  | none =>
      match text with
      | [] => none
      | c :: rest => (splitOnce sep rest).map fun found => (c :: found.1, found.2)

/-- `text.split(c)[0]`. -/
def beforeFirst (c : Chr) (text : Str) : Str := text.takeWhile (· ≠ c)

/-- `text.split(c)[-1]`. -/
def afterLast (c : Chr) (text : Str) : Str := (text.splitOn c).getLastD []

/-- `text.split(sep)[-1]`. -/
def lastPart (sep text : Str) : Str :=
  go text.length text
where
  go : Nat → Str → Str
    | 0, text => text
    | fuel + 1, text =>
        match splitOnce sep text with
        | some (_, after) => go fuel after
        | none => text

/-- `text.split(c, n)[n]`. -/
def fieldsAfter? (n : Nat) (c : Chr) (text : Str) : Option Str :=
  match n with
  | 0 => some text
  | n + 1 =>
      match text.dropWhile (· ≠ c) with
      | [] => none
      | _ :: rest => fieldsAfter? n c rest

theorem dropPrefix?_eq_some {pre text after : Str} :
    text.dropPrefix? pre = some after ↔ text = pre ++ after := by
  rw [List.dropPrefix?_eq_some_iff]
  constructor
  · rintro ⟨front, rfl, same⟩
    rw [eq_of_beq same]
  · rintro rfl
    exact ⟨pre, rfl, by simp⟩

theorem dropPrefix?_eq_none {pre text : Str} :
    text.dropPrefix? pre = none ↔ ¬pre <+: text := by
  rw [Option.eq_none_iff_forall_ne_some]
  constructor
  · rintro none ⟨after, rfl⟩
    exact none after (dropPrefix?_eq_some.mpr rfl)
  · rintro notPrefix after found
    exact notPrefix ⟨after, (dropPrefix?_eq_some.mp found).symm⟩

/-- The separator is in the text exactly when the text can be split at it. -/
theorem splitOnce_eq_none {sep text : Str} : splitOnce sep text = none ↔ ¬Contains sep text := by
  induction text with
  | nil =>
      rw [splitOnce]
      cases dropped : ([] : Str).dropPrefix? sep with
      | some after =>
          have split := dropPrefix?_eq_some.mp dropped
          have empty : sep = [] := (List.append_eq_nil_iff.mp split.symm).1
          simp [Contains, empty]
      | none =>
          have notPrefix := dropPrefix?_eq_none.mp dropped
          simp only [Contains, List.infix_nil, true_iff]
          rintro rfl
          exact notPrefix List.prefix_rfl
  | cons c rest ih =>
      rw [splitOnce, Contains, List.infix_cons_iff, not_or]
      cases dropped : (c :: rest).dropPrefix? sep with
      | some after =>
          have isPrefix : sep <+: c :: rest := ⟨after, (dropPrefix?_eq_some.mp dropped).symm⟩
          simp [isPrefix]
      | none =>
          have notPrefix := dropPrefix?_eq_none.mp dropped
          simp only [Option.map_eq_none_iff, ih, Contains, notPrefix, not_false_eq_true, true_and]

theorem text_of_splitOnce {sep text front rest : Str}
    (found : splitOnce sep text = some (front, rest)) : text = front ++ sep ++ rest := by
  induction text generalizing front with
  | nil =>
      rw [splitOnce] at found
      cases dropped : ([] : Str).dropPrefix? sep with
      | some after =>
          rw [dropped] at found
          cases found
          exact dropPrefix?_eq_some.mp dropped
      | none =>
          rw [dropped] at found
          cases found
  | cons c text ih =>
      rw [splitOnce] at found
      cases dropped : (c :: text).dropPrefix? sep with
      | some after =>
          rw [dropped] at found
          cases found
          exact dropPrefix?_eq_some.mp dropped
      | none =>
          rw [dropped] at found
          rcases Option.map_eq_some_iff.mp found with ⟨⟨front', rest'⟩, found', same⟩
          cases same
          rw [ih found']
          simp

theorem splitOnce_prefix {sep after : Str} : splitOnce sep (sep ++ after) = some ([], after) := by
  unfold splitOnce
  rw [dropPrefix?_eq_some.mpr rfl]

theorem splitOnce_cons {sep rest : Str} {c : Chr} (notPrefix : ¬sep <+: c :: rest) :
    splitOnce sep (c :: rest) = (splitOnce sep rest).map fun found => (c :: found.1, found.2) := by
  rw [splitOnce, dropPrefix?_eq_none.mpr notPrefix]

/-- Nothing of a separator is found in front of its first character. -/
theorem splitOnce_append {opener : Chr} {tail front rest : Str} (plain : opener ∉ front) :
    splitOnce (opener :: tail) (front ++ rest) =
      (splitOnce (opener :: tail) rest).map fun found => (front ++ found.1, found.2) := by
  induction front with
  | nil => simp
  | cons c front ih =>
      rcases not_or.mp (mt List.mem_cons.mpr plain) with ⟨different, plain⟩
      have notPrefix : ¬opener :: tail <+: c :: (front ++ rest) := fun isPrefix =>
        different (List.cons_prefix_cons.mp isPrefix).1
      rw [List.cons_append, splitOnce_cons notPrefix, ih plain]
      simp [Function.comp_def]

theorem splitOnce_opener {opener : Chr} {tail front rest : Str} (plain : opener ∉ front) :
    splitOnce (opener :: tail) (front ++ opener :: rest) =
      match rest.dropPrefix? tail with
      | some after => some (front, after)
      | none => (splitOnce (opener :: tail) rest).map fun found =>
          (front ++ opener :: found.1, found.2) := by
  rw [splitOnce_append plain]
  cases dropped : rest.dropPrefix? tail with
  | some after =>
      rw [dropPrefix?_eq_some.mp dropped, ← List.cons_append, splitOnce_prefix]
      simp
  | none =>
      have notPrefix : ¬opener :: tail <+: opener :: rest := fun isPrefix =>
        dropPrefix?_eq_none.mp dropped (List.cons_prefix_cons.mp isPrefix).2
      rw [splitOnce_cons notPrefix]
      simp [Function.comp_def]

theorem splitOnce_chr {c : Chr} {front rest : Str} (plain : c ∉ front) :
    splitOnce [c] (front ++ c :: rest) = some (front, rest) := by
  have found : rest.dropPrefix? [] = some rest := dropPrefix?_eq_some.mpr rfl
  rw [splitOnce_opener plain, found]

/-- A separator whose first character does not occur again in it is first found behind a text
that does not have it. -/
theorem splitOnce_first {opener : Chr} {tail front rest : Str} (plain : opener ∉ tail)
    (absent : ¬Contains (opener :: tail) front) :
    splitOnce (opener :: tail) (front ++ opener :: tail ++ rest) = some (front, rest) := by
  induction front with
  | nil => exact splitOnce_prefix
  | cons c front ih =>
      have notPrefix : ¬opener :: tail <+: c :: (front ++ opener :: tail ++ rest) := by
        rintro ⟨after, same⟩
        rw [← List.cons_append, ← List.cons_append, List.append_assoc] at same
        rcases List.append_eq_append_iff.mp same with ⟨more, front_eq, _⟩ | ⟨more, own, back⟩
        · exact absent ⟨[], more, by simpa using front_eq.symm⟩
        · cases more with
          | nil =>
              rw [List.append_nil] at own
              exact absent ⟨[], [], by simpa using own⟩
          | cons d more =>
              -- the separator would begin again inside itself
              rw [List.cons_append, List.cons_append] at back
              rcases List.cons.inj own with ⟨-, tail_eq⟩
              apply plain
              rw [tail_eq, (List.cons.inj back).1]
              simp
      rw [List.cons_append, List.cons_append, splitOnce_cons notPrefix,
        ih fun inFront => absent (inFront.trans (List.suffix_cons c front).isInfix)]
      rfl

/-- A separator between two characters is not found in a text that has the first one only
after its last second one. -/
theorem not_contains_delimited {opener closer : Chr} {word front back : Str}
    (noOpener : opener ∉ front) (noCloser : closer ∉ back) :
    ¬Contains (opener :: (word ++ [closer])) (front ++ back) := by
  rintro ⟨before, after, found⟩
  rw [List.append_assoc] at found
  rcases List.append_eq_append_iff.mp found with ⟨middle, rfl, back_eq⟩ | ⟨middle, rfl, rest_eq⟩
  · cases middle with
    | nil =>
        apply noCloser
        rw [List.nil_append] at back_eq
        simp [← back_eq]
    | cons c middle =>
        apply noOpener
        rw [List.cons_append] at back_eq
        simp [(List.cons.inj back_eq).1]
  · apply noCloser
    simp [rest_eq]

theorem contains_append {opener : Chr} {tail front rest : Str} (plain : opener ∉ front) :
    Contains (opener :: tail) (front ++ rest) ↔ Contains (opener :: tail) rest := by
  rw [← not_iff_not, ← splitOnce_eq_none, ← splitOnce_eq_none, splitOnce_append plain,
    Option.map_eq_none_iff]

theorem afterLast_append {c : Chr} (front rest : Str) :
    afterLast c (front ++ c :: rest) = afterLast c rest := by
  rw [afterLast, List.splitOn_append_cons_self, afterLast]
  rcases List.exists_cons_of_ne_nil (List.splitOn_ne_nil c rest) with ⟨piece, pieces, split⟩
  simp [split, List.getLast?_cons]

theorem afterLast_eq_self {c : Chr} {text : Str} (absent : c ∉ text) : afterLast c text = text := by
  rw [afterLast, List.splitOn_eq_singleton absent]
  rfl

theorem not_mem_afterLast {c : Chr} {text : Str} : c ∉ afterLast c text := by
  induction text with
  | nil => simp [afterLast]
  | cons d text ih =>
      by_cases same : d = c
      · subst same
        rw [show d :: text = [] ++ d :: text from rfl, afterLast_append]
        exact ih
      · rcases List.exists_cons_of_ne_nil (List.splitOn_ne_nil c text) with ⟨piece, pieces, split⟩
        rw [afterLast, split] at ih
        rw [afterLast, List.splitOn_cons_eq_if_modifyHead, if_neg (by simpa using same), split]
        cases pieces with
        | nil =>
            simp only [List.modifyHead_cons, List.getLastD_cons, List.getLastD_nil, List.mem_cons,
              not_or] at ih ⊢
            exact ⟨fun equal => same equal.symm, ih⟩
        | cons next pieces => simpa using ih

theorem beforeFirst_eq_self {c : Chr} {text : Str} (absent : c ∉ text) :
    beforeFirst c text = text := by
  rw [beforeFirst, List.takeWhile_eq_self_iff]
  intro d dMem
  rw [decide_eq_true_eq]
  rintro rfl
  exact absent dMem

theorem not_mem_beforeFirst {c : Chr} {text : Str} : c ∉ beforeFirst c text := by
  intro present
  have different := List.mem_takeWhile_imp present
  simp at different

theorem beforeFirst_append {c : Chr} {front rest : Str} (absent : c ∉ front) :
    beforeFirst c (front ++ c :: rest) = front := by
  have plain : ∀ d ∈ front, decide (d ≠ c) = true := by
    intro d dMem
    rw [decide_eq_true_eq]
    rintro rfl
    exact absent dMem
  rw [beforeFirst, List.takeWhile_append_of_pos plain]
  simp

/-- The text ends before its first `c`, or goes on with it. -/
theorem beforeFirst_cases (c : Chr) (text : Str) :
    text = beforeFirst c text ∨ ∃ rest, text = beforeFirst c text ++ c :: rest := by
  have split := (List.takeWhile_append_dropWhile (p := (· ≠ c)) (l := text)).symm
  cases dropped : text.dropWhile (· ≠ c) with
  | nil =>
      left
      rw [dropped, List.append_nil] at split
      exact split
  | cons d rest =>
      right
      have stops := List.head?_dropWhile_not (· ≠ c) text
      rw [dropped] at split stops
      have same : d = c := by simpa using stops
      exact ⟨rest, by rw [same] at split; exact split⟩

theorem head?_splitOn {c : Chr} {text : Str} :
    (text.splitOn c).head? = some (beforeFirst c text) := by
  induction text with
  | nil => rfl
  | cons d text ih =>
      rw [List.splitOn_cons_eq_if_modifyHead]
      by_cases same : d = c
      · simp [same, beforeFirst]
      · rcases List.exists_cons_of_ne_nil (List.splitOn_ne_nil c text) with ⟨piece, pieces, split⟩
        rw [split, List.head?_cons, Option.some.injEq] at ih
        simp [split, ih, beforeFirst, same]

theorem beforeFirst_of_splitOn {c : Chr} {text first : Str} {rest : List Str}
    (split : text.splitOn c = first :: rest) : beforeFirst c text = first := by
  have head : (text.splitOn c).head? = some (beforeFirst c text) := head?_splitOn
  rw [split, List.head?_cons, Option.some.injEq] at head
  exact head.symm

/-- A text of at least two parts ends its first part at a separator. -/
theorem exists_of_splitOn_cons_cons {c : Chr} {text first second : Str} {others : List Str}
    (split : text.splitOn c = first :: second :: others) :
    c ∉ first ∧ ∃ rest, text = first ++ c :: rest := by
  have first_eq := beforeFirst_of_splitOn split
  have plain : c ∉ first := by
    rw [← first_eq]
    intro member
    have different := List.mem_takeWhile_imp member
    simp at different
  refine ⟨plain, ?_⟩
  have parts := List.takeWhile_append_dropWhile (p := fun d => decide (d ≠ c)) (l := text)
  change beforeFirst c text ++ _ = text at parts
  rw [first_eq] at parts
  cases remainder : text.dropWhile (fun d => decide (d ≠ c)) with
  | nil =>
      rw [remainder, List.append_nil] at parts
      rw [← parts, List.splitOn_eq_singleton plain] at split
      cases split
  | cons d rest =>
      have last := List.head?_dropWhile_not (fun d => decide (d ≠ c)) text
      rw [remainder] at last
      have separator : d = c := by simpa using last
      rw [remainder, separator] at parts
      exact ⟨rest, parts.symm⟩

/-- A separator that is in the text once splits off the last part. -/
theorem lastPart_of_splitOnce {sep text front rest : Str}
    (found : splitOnce sep text = some (front, rest)) (absent : splitOnce sep rest = none) :
    lastPart sep text = rest := by
  cases text with
  | nil =>
      have empty : rest = [] := by
        unfold splitOnce at found
        split at found
        · next dropped =>
            cases found
            exact (List.append_eq_nil_iff.mp (dropPrefix?_eq_some.mp dropped).symm).2
        · cases found
      exact empty.symm
  | cons c text =>
      have last : lastPart.go sep text.length rest = rest := by
        cases text with
        | nil => rfl
        | cons d text => simp only [List.length_cons, lastPart.go, absent]
      simp only [lastPart, List.length_cons, lastPart.go, found, last]

theorem fieldsAfter?_succ {n : Nat} {c : Chr} {field rest : Str} (plain : c ∉ field) :
    fieldsAfter? (n + 1) c (field ++ c :: rest) = fieldsAfter? n c rest := by
  have solid : ∀ d ∈ field, decide (d ≠ c) = true := by
    intro d dMem
    rw [decide_eq_true_eq]
    rintro rfl
    exact plain dMem
  rw [fieldsAfter?, List.dropWhile_append_of_pos solid]
  simp

end Split

/-- A text that starts with a part and then with itself is made of the part as far as it repeats. -/
theorem holds_of_selfPrefixed {α : Type} {holds : α → Prop} {part own left right back : List α}
    {n : Nat} (each : ∀ item ∈ part, holds item) (nonempty : 0 < part.length)
    (same : own ++ left = part ++ (own ++ right).take n ++ back) {i : Nat} {item : α}
    (inOwn : i < part.length + own.length) (inCopy : i < part.length + n)
    (found : (own ++ left)[i]? = some item) : holds item := by
  induction i using Nat.strong_induction_on generalizing item with
  | h i ih =>
      by_cases inPart : i < part.length
      · rw [same, List.append_assoc, List.getElem?_append_left inPart] at found
        exact each item (List.mem_of_getElem? found)
      · have later : i - part.length < own.length := by omega
        have copied : (own ++ left)[i - part.length]? = some item := by
          rw [same, List.append_assoc, List.getElem?_append_right (by omega)] at found
          have inTake : i - part.length < ((own ++ right).take n).length := by
            rw [List.length_take, List.length_append]
            omega
          rw [List.getElem?_append_left inTake, List.getElem?_take_of_lt (by omega),
            List.getElem?_append_left later] at found
          rw [List.getElem?_append_left later, found]
        exact ih (i - part.length) (by omega) (by omega) (by omega) copied

end Python
