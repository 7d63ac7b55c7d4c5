import TelemetryPlatform.Library.Text

/-!
# Shell patterns

`fnmatch.fnmatch`: a star for any text, a question mark for any character and a
bracket expression for one of a set of characters. A bracket that is not closed
stands for itself, and so does every other character.
-/

namespace Python

section Patterns

/-- A part of a pattern: a star, or a set of characters given by ranges. -/
inductive GlobPart where
  | star
  | chrSet (negated : Bool) (ranges : List (Chr × Chr))

def GlobPart.literal (c : Chr) : GlobPart := .chrSet false [(c, c)]

/-- Whether a part that stands for one character stands for this one. -/
def GlobPart.admits (c : Chr) : GlobPart → Bool
  | .star => false
  | .chrSet negated ranges =>
      negated != ranges.any fun range => range.1.code ≤ c.code && c.code ≤ range.2.code

/-- The ranges of a bracket expression. A hyphen at either end stands for itself. -/
def globRanges : Str → List (Chr × Chr)
  | low :: .char '-' :: high :: rest => (low, high) :: globRanges rest
  | c :: rest => (c, c) :: globRanges rest
  | [] => []

/-- What follows an opening bracket: whether the set is negated, its text and the rest. A closing
bracket in front belongs to the set. -/
def closeBracket (text : Str) : Option (Bool × Str × Str) :=
  let negated := decide (text.head? = some (.char '!'))
  match if negated then text.tail else text with
  | [] => none
  | first :: rest =>
      (splitOnce (str "]") rest).map fun (set, after) => (negated, first :: set, after)

theorem length_of_closeBracket {text set after : Str} {negated : Bool}
    (closed : closeBracket text = some (negated, set, after)) : after.length < text.length := by
  have body : (if text.head? = some (.char '!') then text.tail else text).length ≤ text.length := by
    split <;> simp
  simp only [closeBracket, decide_eq_true_eq] at closed
  split at closed
  · cases closed
  · next first rest split =>
      rw [split, List.length_cons] at body
      simp only [Option.map_eq_some_iff, Prod.mk.injEq] at closed
      rcases closed with ⟨⟨front, back⟩, found, -, -, rfl⟩
      have whole := congrArg List.length (text_of_splitOnce found)
      simp only [List.length_append] at whole
      change back.length < _
      omega

/-- The parts of a pattern. -/
def globParts : Str → List GlobPart
  | [] => []
  | c :: rest =>
      if c = .char '*' then .star :: globParts rest
      else if c = .char '?' then .chrSet true [] :: globParts rest
      else if c = .char '[' then
        match closed : closeBracket rest with
        | none => .literal c :: globParts rest
        | some (negated, set, after) =>
            have _shorter := length_of_closeBracket closed
            .chrSet negated (globRanges set) :: globParts after
      else .literal c :: globParts rest
termination_by pattern => pattern.length
decreasing_by all_goals simp only [List.length_cons]; omega

def matchParts : List GlobPart → Str → Bool
  | [], text => text.isEmpty
  | .star :: parts, text => text.tails.any (matchParts parts)
  | .chrSet negated ranges :: parts, c :: text =>
      (GlobPart.chrSet negated ranges).admits c && matchParts parts text
  | .chrSet _ _ :: _, [] => false

/-- `fnmatch.fnmatch(name, pattern)`. -/
def fnmatch (name pattern : Str) : Bool := matchParts (globParts pattern) name

end Patterns

section Literals

/-- A character that stands for itself in every pattern. -/
def IsPlain (c : Chr) : Prop := c ≠ .char '*' ∧ c ≠ .char '?' ∧ c ≠ .char '['

instance (c : Chr) : Decidable (IsPlain c) := inferInstanceAs (Decidable (_ ∧ _))

theorem globParts_append {front rest : Str} (plain : ∀ c ∈ front, IsPlain c) :
    globParts (front ++ rest) = front.map .literal ++ globParts rest := by
  induction front with
  | nil => rfl
  | cons c front ih =>
      have first := plain c List.mem_cons_self
      have others := ih fun other otherMem => plain other (List.mem_cons_of_mem c otherMem)
      rw [List.cons_append, globParts, if_neg first.1, if_neg first.2.1, if_neg first.2.2, others]
      rfl

theorem admits_literal (c other : Chr) : (GlobPart.literal c).admits other = true ↔ other = c := by
  simp only [GlobPart.literal, GlobPart.admits, List.any_cons, List.any_nil, Bool.or_false,
    Bool.false_bne, Bool.and_eq_true, decide_eq_true_eq]
  constructor
  · rintro ⟨low, high⟩
    exact code_injective (Nat.le_antisymm high low)
  · rintro rfl
    exact ⟨Nat.le_refl _, Nat.le_refl _⟩

/-- Plain characters in front of a pattern match themselves. -/
theorem matchParts_literal {front : Str} {parts : List GlobPart} {text : Str} :
    matchParts (front.map .literal ++ parts) text = true ↔
      ∃ tail, text = front ++ tail ∧ matchParts parts tail = true := by
  induction front generalizing text with
  | nil => simp
  | cons c front ih =>
      cases text with
      | nil => simp [matchParts, GlobPart.literal]
      | cons other text =>
          rw [List.map_cons, List.cons_append, GlobPart.literal, matchParts, ← GlobPart.literal,
            Bool.and_eq_true, admits_literal, ih]
          constructor
          · rintro ⟨rfl, tail, rfl, matched⟩
            exact ⟨tail, rfl, matched⟩
          · rintro ⟨tail, same, matched⟩
            rw [List.cons_append, List.cons.injEq] at same
            exact ⟨same.1, tail, same.2, matched⟩

theorem matchParts_star (text : Str) : matchParts [.star] text = true := by
  rw [matchParts, List.any_eq_true]
  exact ⟨[], by simp, rfl⟩

/-- A plain text, a digit and a star. -/
theorem fnmatch_digit {front name : Str} (plain : ∀ c ∈ front, IsPlain c) :
    fnmatch name (front ++ str "[0-9]*") = true ↔
      ∃ c rest, name = front ++ c :: rest ∧ 0x30 ≤ c.code ∧ c.code ≤ 0x39 := by
  have closed : closeBracket (str "0-9]*") = some (false, str "0-9", str "*") := by decide
  have parts : globParts (str "[0-9]*") = [.chrSet false [(.char '0', .char '9')], .star] := by
    change globParts (.char '[' :: str "0-9]*") = _
    rw [globParts, if_neg (by decide), if_neg (by decide), if_pos rfl]
    split
    · next isOpen => cases isOpen.symm.trans closed
    · next negated set after isClosed =>
        cases isClosed.symm.trans closed
        simp [globRanges, globParts, str]
  rw [fnmatch, globParts_append plain, parts, matchParts_literal]
  constructor
  · rintro ⟨tail, rfl, matched⟩
    cases tail with
    | nil => cases matched
    | cons c rest =>
        rw [matchParts, Bool.and_eq_true] at matched
        refine ⟨c, rest, rfl, ?_⟩
        have admitted := matched.1
        simp only [GlobPart.admits, Bool.false_bne, List.any_cons, List.any_nil, Bool.or_false,
          Bool.and_eq_true, decide_eq_true_eq] at admitted
        exact admitted
  · rintro ⟨c, rest, rfl, low, high⟩
    refine ⟨c :: rest, rfl, ?_⟩
    rw [matchParts, matchParts_star, Bool.and_true]
    simp only [GlobPart.admits, Bool.false_bne, List.any_cons, List.any_nil, Bool.or_false,
      Bool.and_eq_true, decide_eq_true_eq]
    exact ⟨low, high⟩

end Literals

end Python
