import Mathlib.Data.List.Infix

/-!
# Tokens in a text

A `Lexer` says which token a text begins with and how a token is spelled. `scan` reads a
text from left to right as characters and tokens, and `fill` writes a text for each token.
To replace a part of a text by another one is to scan for it and to fill it.

What is read is determined by what can be written for it: `eq_of_fill` says that two
readings are the same if they are filled to the same texts by fillings that tell the
tokens apart from each other and from the characters.
-/

namespace Lexing

variable {α τ : Type}

/-- A part of a text that is read. -/
inductive Piece (α τ : Type) where
  | chr (c : α)
  | token (t : τ)
deriving DecidableEq

/-- The token at the beginning of a text, if there is one. -/
structure Lexer (α τ : Type) where
  tokenAt : List α → Option τ
  spell : τ → List α
  spell_begins : ∀ {text t}, tokenAt text = some t → spell t <+: text
  spell_ne_nil : ∀ t, spell t ≠ []

/-- The texts for the tokens among the characters. -/
def fill (filling : τ → List α) (pieces : List (Piece α τ)) : List α :=
  pieces.flatMap fun piece => match piece with
    | .chr c => [c]
    | .token t => filling t

namespace Lexer

variable (lexer : Lexer α τ)

/-- Read a text of which the next `skip` characters are read already. -/
def scanFrom : Nat → List α → List (Piece α τ)
  | _, [] => []
  | skip + 1, _ :: rest => scanFrom skip rest
  | 0, c :: rest =>
      match lexer.tokenAt (c :: rest) with
      | none => .chr c :: scanFrom 0 rest
      | some t => .token t :: scanFrom ((lexer.spell t).length - 1) rest

def scan (text : List α) : List (Piece α τ) := lexer.scanFrom 0 text

end Lexer

section Fill

variable {filling : τ → List α} {left right : List (Piece α τ)}

@[simp]
theorem fill_nil : fill filling [] = [] := rfl

@[simp]
theorem fill_chr (c : α) (pieces : List (Piece α τ)) :
    fill filling (.chr c :: pieces) = c :: fill filling pieces := rfl

@[simp]
theorem fill_token (t : τ) (pieces : List (Piece α τ)) :
    fill filling (.token t :: pieces) = filling t ++ fill filling pieces := rfl

@[simp]
theorem fill_append (left right : List (Piece α τ)) :
    fill filling (left ++ right) = fill filling left ++ fill filling right :=
  List.flatMap_append ..

@[simp]
theorem fill_map_chr (text : List α) : fill filling (text.map Piece.chr) = text := by
  induction text with
  | nil => rfl
  | cons c text ih => rw [List.map_cons, fill_chr, ih]

/-- Fillings that tell the tokens apart by the first characters they write. -/
structure Separates (allowed : (τ → List α) → Prop) : Prop where
  inhabited : ∃ filling, allowed filling
  ne_nil : ∀ filling, allowed filling → ∀ t, filling t ≠ []
  chr : ∀ t c, ∃ filling, allowed filling ∧ (filling t).head? ≠ some c
  token : ∀ s t, s ≠ t → ∃ filling, allowed filling ∧ (filling s).head? ≠ (filling t).head?

theorem head?_fill_token {t : τ} (nonempty : filling t ≠ []) :
    (fill filling (.token t :: left)).head? = (filling t).head? := by
  rw [fill_token, List.head?_append_of_ne_nil _ nonempty]

/-- What is read is determined by the texts that are written for it. -/
theorem eq_of_fill {allowed : (τ → List α) → Prop} (separates : Separates allowed)
    (agree : ∀ filling, allowed filling → fill filling left = fill filling right) :
    left = right := by
  have written : ∀ {piece : Piece α τ} {rest : List (Piece α τ)} {filling : τ → List α},
      allowed filling → fill filling (piece :: rest) ≠ [] := by
    intro piece rest filling isAllowed empty
    cases piece with
    | chr c => cases empty
    | token t => exact separates.ne_nil filling isAllowed t (List.append_eq_nil_iff.mp empty).1
  rcases separates.inhabited with ⟨witness, isAllowed⟩
  induction left generalizing right with
  | nil =>
      cases right with
      | nil => rfl
      | cons piece rest => exact absurd (agree witness isAllowed).symm (written isAllowed)
  | cons piece left ih =>
      cases right with
      | nil => exact absurd (agree witness isAllowed) (written isAllowed)
      | cons other right =>
          have heads : ∀ filling, allowed filling → (fill filling (piece :: left)).head? =
              (fill filling (other :: right)).head? := fun filling isAllowed => by
            rw [agree filling isAllowed]
          have begins : ∀ filling, allowed filling → ∀ t rest,
              (fill filling (.token t :: rest)).head? = (filling t).head? :=
            fun filling isAllowed t rest => head?_fill_token (separates.ne_nil filling isAllowed t)
          have same : piece = other := by
            cases piece with
            | chr c =>
                cases other with
                | chr d =>
                    have equal := heads witness isAllowed
                    rw [fill_chr, fill_chr, List.head?_cons, List.head?_cons,
                      Option.some.injEq] at equal
                    rw [equal]
                | token t =>
                    rcases separates.chr t c with ⟨filling, isAllowed, different⟩
                    have equal := heads filling isAllowed
                    rw [begins filling isAllowed] at equal
                    exact absurd equal.symm different
            | token t =>
                cases other with
                | chr d =>
                    rcases separates.chr t d with ⟨filling, isAllowed, different⟩
                    have equal := heads filling isAllowed
                    rw [begins filling isAllowed] at equal
                    exact absurd equal different
                | token u =>
                    by_contra apart
                    have distinct : t ≠ u := fun same => apart (by rw [same])
                    rcases separates.token t u distinct with ⟨filling, isAllowed, different⟩
                    have equal := heads filling isAllowed
                    rw [begins filling isAllowed, begins filling isAllowed] at equal
                    exact different equal
          subst same
          congr 1
          apply ih
          intro filling isAllowed
          have whole := agree filling isAllowed
          cases piece with
          | chr c => exact (List.cons.inj whole).2
          | token t => exact List.append_cancel_left whole

end Fill

namespace Lexer

variable {lexer : Lexer α τ} {text front rest : List α} {t : τ} {c : α}

theorem scanFrom_append (front rest : List α) :
    lexer.scanFrom front.length (front ++ rest) = lexer.scan rest := by
  induction front with
  | nil => rfl
  | cons c front ih => exact ih

@[simp]
theorem scan_nil : lexer.scan [] = [] := rfl

theorem scan_chr (none : lexer.tokenAt (c :: rest) = none) :
    lexer.scan (c :: rest) = .chr c :: lexer.scan rest := by
  rw [scan, scanFrom, none]
  rfl

theorem scan_token (found : lexer.tokenAt (lexer.spell t ++ rest) = some t) :
    lexer.scan (lexer.spell t ++ rest) = .token t :: lexer.scan rest := by
  rcases List.exists_cons_of_ne_nil (lexer.spell_ne_nil t) with ⟨c, tail, spelled⟩
  have length : (lexer.spell t).length - 1 = tail.length := by rw [spelled]; rfl
  rw [spelled, List.cons_append] at found ⊢
  rw [scan, scanFrom, found, ← scanFrom_append tail rest, ← length]

/-- A text begins with a token, or with a character behind which it is read on. -/
theorem scan_induction {motive : List α → Prop} (nil : motive [])
    (token : ∀ t rest, lexer.tokenAt (lexer.spell t ++ rest) = some t → motive rest →
      motive (lexer.spell t ++ rest))
    (chr : ∀ c rest, lexer.tokenAt (c :: rest) = none → motive rest → motive (c :: rest))
    (text : List α) : motive text := by
  induction bound : text.length using Nat.strong_induction_on generalizing text with
  | h n ih =>
      cases text with
      | nil => exact nil
      | cons c rest =>
          cases found : lexer.tokenAt (c :: rest) with
          | none => exact chr c rest found (ih rest.length (by simp [← bound]) rest rfl)
          | some t =>
              rcases lexer.spell_begins found with ⟨behind, split⟩
              have shorter : behind.length < n := by
                have nonempty := List.length_pos_iff.mpr (lexer.spell_ne_nil t)
                rw [← bound, ← split, List.length_append]
                omega
              rw [← split] at found ⊢
              exact token t behind found (ih behind.length shorter behind rfl)

/-- What is read is spelled as the text is. -/
theorem fill_scan (text : List α) : fill lexer.spell (lexer.scan text) = text := by
  induction text using lexer.scan_induction with
  | nil => rfl
  | token t rest found ih => rw [scan_token found, fill_token, ih]
  | chr c rest none ih => rw [scan_chr none, fill_chr, ih]

/-- No token begins in the text, whatever is read behind it. -/
def Avoids (lexer : Lexer α τ) : List α → List α → Prop
  | [], _ => True
  | c :: front, rest => lexer.tokenAt (c :: (front ++ rest)) = none ∧ Avoids lexer front rest

theorem scan_append (avoids : lexer.Avoids front rest) :
    lexer.scan (front ++ rest) = front.map Piece.chr ++ lexer.scan rest := by
  induction front with
  | nil => rfl
  | cons c front ih =>
      rw [List.cons_append, scan_chr avoids.1, ih avoids.2]
      rfl

theorem avoids_of_forall (none : ∀ before c behind, front = before ++ c :: behind →
    lexer.tokenAt (c :: (behind ++ rest)) = none) : lexer.Avoids front rest := by
  induction front with
  | nil => trivial
  | cons c front ih =>
      refine ⟨none [] c front rfl, ih fun before d behind split => ?_⟩
      exact none (c :: before) d behind (by rw [split]; rfl)

/-- A character is read where no token begins. -/
theorem tokenAt_of_scan {before behind : List (Piece α τ)}
    (split : lexer.scan text = before ++ .chr c :: behind) :
    lexer.tokenAt (c :: fill lexer.spell behind) = none := by
  induction text using lexer.scan_induction generalizing before with
  | nil => simp at split
  | token t rest found ih =>
      rw [scan_token found] at split
      cases before with
      | nil => cases split
      | cons piece before => exact ih (List.cons.inj split).2
  | chr d rest none ih =>
      rw [scan_chr none] at split
      cases before with
      | nil =>
          rcases List.cons.inj split with ⟨same, rfl⟩
          cases same
          rw [fill_scan]
          exact none
      | cons piece before => exact ih (List.cons.inj split).2

/-- A token is read where the text begins with it. -/
theorem exists_tokenAt (tokenMem : .token t ∈ lexer.scan text) :
    ∃ behind, lexer.tokenAt behind = some t := by
  induction text using lexer.scan_induction with
  | nil => cases tokenMem
  | token u rest found ih =>
      rw [scan_token found] at tokenMem
      rcases List.mem_cons.mp tokenMem with same | later
      · cases same
        exact ⟨_, found⟩
      · exact ih later
  | chr c rest none ih =>
      rw [scan_chr none] at tokenMem
      rcases List.mem_cons.mp tokenMem with same | later
      · cases same
      · exact ih later

end Lexer

/-- What begins with a character that the front does not have is found behind it. -/
theorem infix_of_infix_append {opener : α} {front tail rest : List α} (plain : opener ∉ front)
    (inside : opener :: tail <:+: front ++ rest) : opener :: tail <:+: rest := by
  induction front with
  | nil => exact inside
  | cons c front ih =>
      rcases not_or.mp (mt List.mem_cons.mpr plain) with ⟨different, plain⟩
      rcases List.infix_cons_iff.mp inside with begins | inside
      · exact absurd (List.cons_prefix_cons.mp begins).1 different
      · exact ih plain inside

section Replace

variable [DecidableEq α]

/-- The lexer of a single text. -/
def literal (old : List α) (nonempty : old ≠ []) : Lexer α Unit where
  tokenAt text := if old <+: text then some () else none
  spell _ := old
  spell_begins found := by
    by_contra absent
    rw [if_neg absent] at found
    cases found
  spell_ne_nil _ := nonempty

/-- Every occurrence of a text that is not empty is replaced by another one, from left to right. -/
def replace (old new : List α) (nonempty : old ≠ []) (text : List α) : List α :=
  fill (fun _ => new) ((literal old nonempty).scan text)

variable {old new front rest text : List α} {nonempty : old ≠ []} {c : α}

theorem tokenAt_literal : (literal old nonempty).tokenAt text = none ↔ ¬old <+: text := by
  simp [literal]

theorem replace_found : replace old new nonempty (old ++ rest) =
    new ++ replace old new nonempty rest := by
  have found : (literal old nonempty).tokenAt (old ++ rest) = some () :=
    if_pos (List.prefix_append old rest)
  have scanned : (literal old nonempty).scan (old ++ rest) = _ := Lexer.scan_token found
  rw [replace, scanned]
  rfl

theorem replace_other (absent : ¬old <+: c :: rest) :
    replace old new nonempty (c :: rest) = c :: replace old new nonempty rest := by
  rw [replace, Lexer.scan_chr (tokenAt_literal.mpr absent)]
  rfl

theorem replace_append (avoids : (literal old nonempty).Avoids front rest) :
    replace old new nonempty (front ++ rest) = front ++ replace old new nonempty rest := by
  rw [replace, Lexer.scan_append avoids, fill_append, fill_map_chr]
  rfl

theorem replace_induction {motive : List α → Prop} (nonempty : old ≠ []) (nil : motive [])
    (found : ∀ rest, motive rest → motive (old ++ rest))
    (other : ∀ c rest, ¬old <+: c :: rest → motive rest → motive (c :: rest))
    (text : List α) : motive text := by
  induction text using (literal old nonempty).scan_induction with
  | nil => exact nil
  | token t rest _ ih => exact found rest ih
  | chr c rest none ih => exact other c rest (tokenAt_literal.mp none) ih

/-- A text without the replaced one stays as it is. -/
theorem replace_eq_self (absent : ¬old <:+: text) : replace old new nonempty text = text := by
  induction text using replace_induction nonempty with
  | nil => rfl
  | found rest _ => exact absurd (List.prefix_append old rest).isInfix absent
  | other c rest notPrefix ih =>
      rw [replace_other notPrefix, ih fun inside =>
        absent (inside.trans (List.suffix_cons c rest).isInfix)]

/-- No occurrence reaches across the first character of the replaced text. -/
theorem replace_boundary {opener : α} {tail : List α} {nonempty : opener :: tail ≠ []}
    (once : opener ∉ tail) (front rest : List α) :
    replace (opener :: tail) new nonempty (front ++ opener :: rest) =
      replace (opener :: tail) new nonempty front ++
        replace (opener :: tail) new nonempty (opener :: rest) := by
  induction front using replace_induction nonempty with
  | nil => rfl
  | found front ih => rw [List.append_assoc, replace_found, ih, replace_found, List.append_assoc]
  | other c front absent ih =>
      have still : ¬opener :: tail <+: c :: (front ++ opener :: rest) := by
        rintro ⟨behind, split⟩
        rw [← List.cons_append] at split
        rcases List.append_eq_append_iff.mp split with ⟨more, front_eq, _⟩ | ⟨more, own, rest_eq⟩
        · exact absent ⟨more, front_eq.symm⟩
        · cases more with
          | nil =>
              rw [List.append_nil] at own
              exact absent ⟨[], by rw [List.append_nil, own]⟩
          | cons d more =>
              -- the opener would be found again behind itself
              rw [List.cons_append] at own rest_eq
              apply once
              rw [(List.cons.inj own).2, ← (List.cons.inj rest_eq).1]
              simp
      rw [List.cons_append, replace_other still, replace_other absent, ih]
      rfl

/-- What begins a text after the replacement begins it before, if it has no first character of a
new text. -/
theorem begins_of_replace {n : α} {more word : List α} (fresh : n ∉ word)
    (begins : word <+: replace old (n :: more) nonempty text) : word <+: text := by
  induction text using replace_induction nonempty generalizing word with
  | nil => exact begins
  | found rest _ =>
      rw [replace_found, List.cons_append] at begins
      cases word with
      | nil => exact List.nil_prefix
      | cons c word =>
          rw [(List.cons_prefix_cons.mp begins).1] at fresh
          exact absurd List.mem_cons_self fresh
  | other c rest absent ih =>
      rw [replace_other absent] at begins
      cases word with
      | nil => exact List.nil_prefix
      | cons d word =>
          rcases List.cons_prefix_cons.mp begins with ⟨rfl, later⟩
          have inside := ih (fun inWord => fresh (List.mem_cons_of_mem _ inWord)) later
          exact List.cons_prefix_cons.mpr ⟨rfl, inside⟩

/-- A replaced text does not come about again. -/
theorem not_infix_replace {opener n : α} {tail more : List α} {nonempty : opener :: tail ≠ []}
    (plain : opener ∉ n :: more) (fresh : n ∉ tail) (text : List α) :
    ¬opener :: tail <:+: replace (opener :: tail) (n :: more) nonempty text := by
  induction text using replace_induction nonempty with
  | nil =>
      intro inside
      cases List.infix_nil.mp inside
  | found rest ih =>
      rw [replace_found]
      exact fun inside => ih (infix_of_infix_append plain inside)
  | other c rest absent ih =>
      rw [replace_other absent]
      intro inside
      rcases List.infix_cons_iff.mp inside with begins | inside
      · rcases List.cons_prefix_cons.mp begins with ⟨rfl, later⟩
        exact absent (List.cons_prefix_cons.mpr ⟨rfl, begins_of_replace fresh later⟩)
      · exact ih inside

end Replace

end Lexing
