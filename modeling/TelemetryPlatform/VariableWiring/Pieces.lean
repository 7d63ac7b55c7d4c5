import TelemetryPlatform.VariableWiring.Parse

/-!
# The pieces of a text

A text is a sequence of code characters, comments and strings. The mask of a text
is that of its pieces: comments are blanked, strings up to their quotation marks,
and code stays as it is.
-/

namespace VariableWiring

open Python

section Pieces

/-- What a string is made of: characters, and those that a backslash takes their meaning from. -/
inductive Letter where
  | plain (c : Chr)
  | escaped (c : Chr)

inductive Piece where
  | code (c : Chr)
  | hashComment (body : Str)
  | slashComment (body : Str)
  | blockComment (body : Str)
  | string (content : List Letter)

def Letter.text : Letter → Str
  | .plain c => [c]
  | .escaped c => [.char '\\', c]

def Letter.masked : Letter → Str
  | .plain _ => str " "
  | .escaped _ => str "  "

namespace Piece

def text : Piece → Str
  | .code c => [c]
  | .hashComment body => .char '#' :: body
  | .slashComment body => .char '/' :: .char '/' :: body
  | .blockComment body => .char '/' :: .char '*' :: (body ++ str "*/")
  | .string content => quote :: (content.flatMap Letter.text ++ [quote])

def masked : Piece → Str
  | .code c => [c]
  | .hashComment body => .char ' ' :: body.map fun _ => .char ' '
  | .slashComment body => .char ' ' :: .char ' ' :: body.map fun _ => .char ' '
  | .blockComment body => .char ' ' :: .char ' ' :: (body.map blank ++ str "  ")
  | .string content => quote :: (content.flatMap Letter.masked ++ [quote])

/-- A string is on one line, and a character that means something needs a backslash. -/
def Plain (letter : Letter) : Prop :=
  match letter with
  | .plain c => c ≠ quote ∧ c ≠ .char '\\' ∧ c ≠ newline
  | .escaped c => c ≠ newline

/-- The piece is what the text in front of some other begins with. -/
def Fits (rest : Str) : Piece → Prop
  | .code c => c ≠ quote ∧ c ≠ .char '#' ∧
      (c = .char '/' → rest.head? ≠ some (.char '/') ∧ rest.head? ≠ some (.char '*'))
  | .hashComment body => newline ∉ body ∧ (rest = [] ∨ rest.head? = newline)
  | .slashComment body => newline ∉ body ∧ (rest = [] ∨ rest.head? = newline)
  | .blockComment body => ¬Contains (str "*/") (body ++ str "*")
  | .string content => ∀ letter ∈ content, Plain letter

end Piece

def textOf (pieces : List Piece) : Str := pieces.flatMap Piece.text

def maskedOf (pieces : List Piece) : Str := pieces.flatMap Piece.masked

/-- The pieces are those of their text. -/
def Lexed : List Piece → Prop
  | [] => True
  | piece :: pieces => piece.Fits (textOf pieces) ∧ Lexed pieces

end Pieces

section Modes

variable {rest : Str}

theorem mask_comment {body : Str} (noNewline : newline ∉ body)
    (ends : rest = [] ∨ rest.head? = newline) :
    mask .lineComment (body ++ rest) = body.map (fun _ => .char ' ') ++ mask .code rest := by
  induction body with
  | nil =>
      rcases ends with rfl | atLine
      · simp [mask]
      · cases rest with
        | nil => simp [mask]
        | cons c rest =>
            cases Option.some.inj atLine
            simp [mask, newline]
  | cons c body ih =>
      rw [List.mem_cons, not_or] at noNewline
      rw [List.cons_append, mask, ih noNewline.2]
      · rfl
      · rintro rfl
        exact noNewline.1 rfl

theorem mask_block {body : Str} (once : ¬Contains (str "*/") (body ++ str "*")) :
    mask .blockComment (body ++ (str "*/" ++ rest)) = body.map blank ++
        (str "  " ++ mask .code rest) := by
  induction body with
  | nil => simp [mask, str]
  | cons c body ih =>
      have later : ¬Contains (str "*/") (body ++ str "*") := fun early => once (early.trans
        (List.suffix_cons c (body ++ str "*")).isInfix)
      rw [List.cons_append, mask, ih later]
      · rfl
      · rintro rest' rfl same
        apply once
        cases body with
        | nil => cases same
        | cons d body =>
            rw [List.cons_append, List.cons.injEq] at same
            rw [same.1]
            exact (List.prefix_append (str "*/") (body ++ str "*")).isInfix

theorem mask_string {content : List Letter} (plain : ∀ letter ∈ content, Piece.Plain letter) :
    mask .string (content.flatMap Letter.text ++ quote :: rest) =
      content.flatMap Letter.masked ++ quote :: mask .code rest := by
  induction content with
  | nil => simp [mask, quote]
  | cons letter content ih =>
      rw [List.forall_mem_cons] at plain
      rw [List.flatMap_cons, List.flatMap_cons, List.append_assoc, List.append_assoc, ← ih plain.2]
      cases letter with
      | plain c =>
          have notNewline : blank c = .char ' ' := if_neg plain.1.2.2
          rw [Letter.text, List.singleton_append, mask, notNewline]
          · rfl
          · exact plain.1.1
          · rintro d rest' rfl
            exact absurd rfl plain.1.2.1
      | escaped c =>
          simp [Letter.text, Letter.masked, mask, str]

theorem mask_piece {piece : Piece} (fits : piece.Fits rest) :
    mask .code (piece.text ++ rest) = piece.masked ++ mask .code rest := by
  cases piece with
  | code c =>
      rcases fits with ⟨notQuote, notHash, notSlash⟩
      rw [Piece.text, Piece.masked, List.singleton_append, List.singleton_append, mask]
      · exact notHash
      · rintro rest' rfl rfl
        exact (notSlash rfl).1 rfl
      · rintro rest' rfl rfl
        exact (notSlash rfl).2 rfl
      · exact notQuote
  | hashComment body =>
      simp [Piece.text, Piece.masked, mask, mask_comment fits.1 fits.2]
  | slashComment body =>
      simp [Piece.text, Piece.masked, mask, mask_comment fits.1 fits.2]
  | blockComment body =>
      have inner := @mask_block rest body fits
      simp [Piece.text, Piece.masked, mask, inner]
  | string content =>
      have inner := @mask_string rest content fits
      rw [Piece.text, Piece.masked, List.cons_append, List.append_assoc, List.singleton_append]
      calc
        mask .code (quote :: (content.flatMap Letter.text ++ quote :: rest)) =
            quote :: mask .string (content.flatMap Letter.text ++ quote :: rest) := by
          rw [quote, mask]
        _ = quote :: (content.flatMap Letter.masked ++ quote :: mask .code rest) := by rw [inner]
        _ = _ := by simp

theorem mask_pieces {pieces : List Piece} (lexed : Lexed pieces) :
    maskHcl (textOf pieces) = maskedOf pieces := by
  rw [maskHcl]
  induction pieces with
  | nil => rfl
  | cons piece pieces ih =>
      have first := mask_piece lexed.1
      rw [ih lexed.2] at first
      exact first

end Modes

section Alignment

/-- A text where the newlines stay in place. -/
def Aligned : Str → Str → Prop := List.Forall₂ fun c c' => c = newline ↔ c' = newline

theorem aligned_append {text text' masked masked' : Str} (front : Aligned text masked)
    (back : Aligned text' masked') : Aligned (text ++ text') (masked ++ masked') := by
  induction front with
  | nil => exact back
  | cons same _ ih => exact .cons same ih

theorem aligned_map {f : Chr → Chr} {text : Str} (keeps : ∀ c ∈ text, c = newline ↔ f c = newline) :
    Aligned text (text.map f) := by
  induction text with
  | nil => exact .nil
  | cons c text ih =>
      rw [List.forall_mem_cons] at keeps
      exact .cons keeps.1 (ih keeps.2)

theorem aligned_flatMap {α : Type} {text masked : α → Str} {items : List α}
    (each : ∀ item ∈ items, Aligned (text item) (masked item)) :
    Aligned (items.flatMap text) (items.flatMap masked) := by
  induction items with
  | nil => exact .nil
  | cons item items ih =>
      rw [List.forall_mem_cons] at each
      exact aligned_append each.1 (ih each.2)

theorem blank_eq_newline (c : Chr) : c = newline ↔ blank c = newline := by
  rw [blank]
  split
  · next same => exact iff_of_true same rfl
  · next other => exact iff_of_false other (by decide)

theorem aligned_comment {body : Str} (noNewline : newline ∉ body) :
    Aligned body (body.map fun _ => .char ' ') := by
  apply aligned_map
  intro c cMem
  refine iff_of_false ?_ (by decide)
  rintro rfl
  exact noNewline cMem

theorem aligned_letter {letter : Letter} (plain : Piece.Plain letter) :
    Aligned letter.text letter.masked := by
  cases letter with
  | plain c => exact .cons (iff_of_false plain.2.2 (by decide)) .nil
  | escaped c => exact .cons (by decide) (.cons (iff_of_false plain (by decide)) .nil)

theorem aligned_piece {piece : Piece} {rest : Str} (fits : piece.Fits rest) :
    Aligned piece.text piece.masked := by
  cases piece with
  | code c => exact .cons Iff.rfl .nil
  | hashComment body => exact .cons (by decide) (aligned_comment fits.1)
  | slashComment body => exact .cons (by decide) (.cons (by decide) (aligned_comment fits.1))
  | blockComment body =>
      have closes : Aligned (str "*/") (str "  ") := .cons (by decide) (.cons (by decide) .nil)
      exact .cons (by decide) (.cons (by decide)
        (aligned_append (aligned_map fun c _ => blank_eq_newline c) closes))
  | string content =>
      exact .cons Iff.rfl (aligned_append
        (aligned_flatMap fun letter letterMem => aligned_letter (fits letter letterMem))
        (.cons Iff.rfl .nil))

theorem aligned_pieces {pieces : List Piece} (lexed : Lexed pieces) :
    Aligned (textOf pieces) (maskedOf pieces) := by
  induction pieces with
  | nil => exact .nil
  | cons piece pieces ih => exact aligned_append (aligned_piece lexed.1) (ih lexed.2)

theorem lexed_append {front back : List Piece} (lexed : Lexed (front ++ back)) : Lexed back := by
  induction front with
  | nil => exact lexed
  | cons piece front ih => exact ih lexed.2

/-- The pieces in front of a place are masked to as many characters as they have. -/
theorem length_front {front back : List Piece} (lexed : Lexed (front ++ back)) :
    (maskedOf front).length = (textOf front).length := by
  induction front with
  | nil => rfl
  | cons piece front ih =>
      have first := List.Forall₂.length_eq (aligned_piece lexed.1)
      have others := ih lexed.2
      simp only [maskedOf, textOf, List.flatMap_cons, List.length_append] at others ⊢
      rw [others, first]

/-- The mask keeps the length, the places of the newlines and what is outside of comments and
strings. -/
structure MasksRight (pieces : List Piece) : Prop where
  length : (maskHcl (textOf pieces)).length = (textOf pieces).length
  newlines : ∀ n : Nat, (textOf pieces)[n]? = newline ↔ (maskHcl (textOf pieces))[n]? = newline
  code : ∀ front (c : Chr) back, pieces = front ++ .code c :: back →
    (maskHcl (textOf pieces))[(textOf front).length]? = c

theorem newline_iff_of_aligned {text masked : Str} (aligned : Aligned text masked) (n : Nat) :
    text[n]? = newline ↔ masked[n]? = newline := by
  induction aligned generalizing n with
  | nil => exact Iff.rfl
  | cons same _ ih =>
      cases n with
      | zero => simpa using same
      | succ n => simpa using ih n

theorem masksRight {pieces : List Piece} (lexed : Lexed pieces) : MasksRight pieces := by
  have aligned := aligned_pieces lexed
  constructor
  · rw [mask_pieces lexed]
    exact (List.Forall₂.length_eq aligned).symm
  · intro n
    rw [mask_pieces lexed]
    exact newline_iff_of_aligned aligned n
  · rintro front c back rfl
    rw [mask_pieces lexed, ← length_front lexed]
    simp [maskedOf, Piece.masked]

end Alignment

end VariableWiring
