import TelemetryPlatform.VariableWiring.Blocks

/-!
# The headers that are found

The pattern of a header matches the masked text where the pieces of a header stand,
and nowhere else. In a file of blocks these are the headers of the blocks with one
label whose type ends in `variable`.
-/

namespace VariableWiring

open Python

section Peeling

variable {pieces : List Piece} {back : Str} {c : Chr}

/-- A character that no comment and no string leaves is one of the code. -/
theorem exists_code (notBlank : c ≠ .char ' ') (notQuote : c ≠ quote)
    (starts : maskedOf pieces = c :: back) :
    ∃ later, pieces = .code c :: later ∧ maskedOf later = back := by
  cases pieces with
  | nil => cases starts
  | cons piece pieces =>
      rw [maskedOf, List.flatMap_cons] at starts
      cases piece with
      | code d =>
          rcases List.cons.inj starts with ⟨rfl, rfl⟩
          exact ⟨pieces, rfl, rfl⟩
      | string content => exact absurd (List.cons.inj starts).1.symm notQuote
      | _ => exact absurd (List.cons.inj starts).1.symm notBlank

theorem exists_codeOf {word : Str} (solid : ∀ c ∈ word, c ≠ .char ' ' ∧ c ≠ quote)
    (starts : maskedOf pieces = word ++ back) :
    ∃ later, pieces = codeOf word ++ later ∧ maskedOf later = back := by
  induction word generalizing pieces with
  | nil => exact ⟨pieces, rfl, starts⟩
  | cons c word ih =>
      rw [List.forall_mem_cons] at solid
      rcases exists_code solid.1.1 solid.1.2 starts with ⟨later, rfl, rest⟩
      rcases ih solid.2 rest with ⟨later', rfl, rest'⟩
      exact ⟨later', rfl, rest'⟩

theorem blank_isSpace (c : Chr) : isSpace (blank c) = true := by
  rw [blank]
  split <;> decide

theorem masked_ne_nil (piece : Piece) : piece.masked ≠ [] := by
  cases piece <;> exact List.cons_ne_nil _ _

theorem allSpace_of_isWhite {piece : Piece} (isWhite : piece.isWhite = true) :
    AllSpace piece.masked := by
  have blanks (body : Str) : AllSpace (body.map fun _ => Chr.char ' ') := by
    intro c cMem
    rcases List.mem_map.mp cMem with ⟨_, -, rfl⟩
    decide
  intro c cMem
  cases piece with
  | code d =>
      cases List.mem_singleton.mp cMem
      exact isWhite
  | string content => cases isWhite
  | hashComment body =>
      rcases List.mem_cons.mp cMem with rfl | cMem
      · decide
      · exact blanks body c cMem
  | slashComment body =>
      rcases List.mem_cons.mp cMem with rfl | cMem
      · decide
      · rcases List.mem_cons.mp cMem with rfl | cMem
        · decide
        · exact blanks body c cMem
  | blockComment body =>
      simp only [Piece.masked, List.mem_cons, List.mem_append, List.mem_map] at cMem
      rcases cMem with rfl | rfl | ⟨d, -, rfl⟩ | inClose
      · decide
      · decide
      · exact blank_isSpace d
      · rcases List.mem_map.mp inClose with ⟨e, eMem, rfl⟩
        rcases List.mem_cons.mp eMem with rfl | eMem
        · decide
        · cases List.mem_singleton.mp eMem
          decide

theorem allSpace_of_allWhite (allWhite : AllWhite pieces) : AllSpace (maskedOf pieces) := by
  intro c cMem
  rcases List.mem_flatMap.mp cMem with ⟨piece, pieceMem, cMem⟩
  exact allSpace_of_isWhite (allWhite piece pieceMem) c cMem

/-- White space in the masked text is that of white pieces. -/
theorem exists_white {gap : Str} (gapSpace : AllSpace gap) (solid : isSpace c = false)
    (starts : maskedOf pieces = gap ++ c :: back) :
    ∃ whites later, pieces = whites ++ later ∧ AllWhite whites ∧ maskedOf whites = gap ∧
      maskedOf later = c :: back := by
  induction pieces generalizing gap with
  | nil => simp [maskedOf] at starts
  | cons piece pieces ih =>
      by_cases isWhite : piece.isWhite = true
      · have space := allSpace_of_isWhite isWhite
        rw [maskedOf, List.flatMap_cons, ← maskedOf] at starts
        rcases List.append_eq_append_iff.mp starts with ⟨more, rfl, rest⟩ | ⟨more, masked_eq, rest⟩
        · have moreSpace : AllSpace more := fun d dMem => gapSpace d (List.mem_append_right _ dMem)
          rcases ih moreSpace rest with ⟨whites, later, rfl, allWhite, rfl, begins⟩
          exact ⟨piece :: whites, later, rfl, List.forall_mem_cons.mpr ⟨isWhite, allWhite⟩,
            rfl, begins⟩
        · cases more with
          | nil =>
              rw [List.append_nil] at masked_eq
              rw [List.nil_append] at rest
              exact ⟨[piece], pieces, rfl, by simpa [AllWhite] using isWhite,
                by simpa [maskedOf] using masked_eq, rest.symm⟩
          | cons d more =>
              rw [List.cons_append, List.cons.injEq] at rest
              rcases rest with ⟨rfl, -⟩
              have isSpace' := space c (by simp [masked_eq])
              rw [solid] at isSpace'
              cases isSpace'
      · have nothing : gap = [] := by
          cases gap with
          | nil => rfl
          | cons d gap =>
              have dSpace := gapSpace d List.mem_cons_self
              rw [maskedOf, List.flatMap_cons] at starts
              cases piece with
              | code e =>
                  rcases List.cons.inj starts with ⟨rfl, -⟩
                  exact absurd dSpace isWhite
              | string content =>
                  rcases List.cons.inj starts with ⟨rfl, -⟩
                  exact absurd dSpace (by decide)
              | _ => exact absurd rfl isWhite
        subst nothing
        exact ⟨[], piece :: pieces, rfl, fun _ mem => absurd mem List.not_mem_nil, rfl, starts⟩

/-- A quotation mark in the masked text of pieces is that of a string. -/
theorem exists_string (lexed : Lexed pieces) (starts : maskedOf pieces = quote :: back) :
    ∃ content later, pieces = .string content :: later ∧
      back = content.flatMap Letter.masked ++ quote :: maskedOf later := by
  cases pieces with
  | nil => cases starts
  | cons piece pieces =>
      rw [maskedOf, List.flatMap_cons, ← maskedOf] at starts
      cases piece with
      | code d =>
          rcases List.cons.inj starts with ⟨isQuote, -⟩
          exact absurd isQuote lexed.1.1
      | string content =>
          rcases List.cons.inj starts with ⟨-, rest⟩
          refine ⟨content, pieces, rfl, ?_⟩
          rw [← rest]
          simp
      | _ => exact absurd (List.cons.inj starts).1 (by decide)

end Peeling

section Matches

variable {pieces : List Piece} {passed text rest : Str} {groups after : List (Nat × Str)}
  {found : Match}

theorem reads_headerParts {name : Pattern} :
    (Pattern.sequence (headerParts name)).Reads passed text rest groups after ↔
      ∃ gap inner brace between,
        text = str "variable" ++ (gap ++ quote :: (inner ++ quote :: (brace ++ str "\x7b"))) ∧
        gap ≠ [] ∧ AllSpace gap ∧ AllSpace brace ∧ between = groups ∧
        name.Reads ((str "variable" ++ (gap ++ [quote])).reverse ++ passed) inner
          (quote :: (brace ++ str "\x7b") ++ rest) between after := by
  simp only [headerParts, reads_cons, reads_nil, reads_oneOrMore_one, reads_word, reads_spaces]
  constructor
  · rintro ⟨_, _, _, rfl, ⟨rfl, rfl⟩, gap, _, _, rfl, ⟨someGap, gapSpace, rfl⟩, _, _, _, rfl,
      ⟨rfl, rfl⟩, inner, _, _, rfl, reads, _, _, _, rfl, ⟨rfl, rfl⟩, brace, _, _, rfl,
      ⟨braceSpace, rfl⟩, _, _, _,
      rfl, ⟨rfl, rfl⟩, rfl, rfl⟩
    exact ⟨gap, inner, brace, _, by simp, someGap, gapSpace, braceSpace, rfl, by simpa using reads⟩
  · rintro ⟨gap, inner, brace, _, rfl, someGap, gapSpace, braceSpace, rfl, reads⟩
    exact ⟨str "variable", _, _, rfl, ⟨rfl, rfl⟩, gap, _, _, rfl, ⟨someGap, gapSpace, rfl⟩,
      [quote], _, _, rfl, ⟨rfl, rfl⟩, inner, _, _, rfl, by simpa using reads, [quote], _, _, rfl,
      ⟨rfl, rfl⟩, brace,
      _, _, rfl, ⟨braceSpace, rfl⟩, str "\x7b", [], _, rfl, ⟨rfl, rfl⟩, rfl, rfl⟩

theorem reads_variableHeader : variableHeader.Reads passed text rest groups after ↔
    ∃ gap inner brace,
      text = str "variable" ++ (gap ++ quote :: (inner ++ quote :: (brace ++ str "\x7b"))) ∧
      gap ≠ [] ∧ AllSpace gap ∧ AllSpace brace ∧ (∀ c ∈ inner, inName c = true) ∧
          after = groups := by
  rw [variableHeader, reads_headerParts]
  simp only [reads_many_one]
  constructor
  · rintro ⟨gap, inner, brace, _, rfl, someGap, gapSpace, braceSpace, rfl, inside, rfl⟩
    exact ⟨gap, inner, brace, rfl, someGap, gapSpace, braceSpace, inside, rfl⟩
  · rintro ⟨gap, inner, brace, rfl, someGap, gapSpace, braceSpace, inside, rfl⟩
    exact ⟨gap, inner, brace, _, rfl, someGap, gapSpace, braceSpace, rfl, inside, rfl⟩

theorem exists_of_firstSolid {solid : Piece} (first : firstSolid pieces = some solid) :
    ∃ gap back, pieces = gap ++ solid :: back ∧ AllWhite gap ∧ solid.isWhite = false := by
  have split := List.takeWhile_append_dropWhile (p := Piece.isWhite) (l := pieces)
  rw [firstSolid] at first
  cases dropped : pieces.dropWhile Piece.isWhite with
  | nil =>
      rw [dropped] at first
      cases first
  | cons piece back =>
      rw [dropped] at first split
      cases Option.some.inj first
      refine ⟨_, back, split.symm, fun piece pieceMem => List.mem_takeWhile_imp pieceMem, ?_⟩
      have head := List.head_dropWhile_not (l := pieces) Piece.isWhite (by simp [dropped])
      simpa only [dropped, List.head_cons] using head

theorem firstSolid_append {gap : List Piece} (allWhite : AllWhite gap) (back : List Piece) :
    firstSolid (gap ++ back) = firstSolid back := by
  rw [firstSolid, List.dropWhile_append_of_pos allWhite, ← firstSolid]

/-- The pieces of a header from the word `variable` on. -/
def headerPieces (label : List Piece) (content : List Letter) (gap : List Piece) : List Piece :=
  codeOf (str "variable") ++ (label ++ .string content :: (gap ++ [.code (.char '\x7b')]))

/-- The pieces begin with the header of a variable. -/
def StartsHeader (pieces : List Piece) : Prop :=
  ∃ label content later, pieces = codeOf (str "variable") ++ (label ++ .string content :: later) ∧
    label ≠ [] ∧ AllWhite label ∧ firstSolid later = some (.code (.char '\x7b'))

theorem maskedOf_codeOf (word : Str) : maskedOf (codeOf word) = word := by
  induction word with
  | nil => rfl
  | cons c word ih => exact congrArg (c :: ·) ih

theorem inName_of_masked {content : List Letter} :
    ∀ c ∈ content.flatMap Letter.masked, inName c = true := by
  intro c cMem
  rcases List.mem_flatMap.mp cMem with ⟨letter, -, cMem⟩
  have isSpace : c = .char ' ' := by
    cases letter <;> simpa [Letter.masked, str] using cMem
  rw [isSpace]
  decide

theorem maskedOf_headerPieces (label : List Piece) (content : List Letter) (gap : List Piece) :
    maskedOf (headerPieces label content gap) = str "variable" ++ (maskedOf label ++ quote ::
      (content.flatMap Letter.masked ++ quote :: (maskedOf gap ++ str "\x7b"))) := by
  have word := maskedOf_codeOf (str "variable")
  simp only [maskedOf, headerPieces, List.flatMap_append, List.flatMap_cons] at word ⊢
  rw [word]
  simp [Piece.masked, str]

theorem maskedOf_ne_nil (nonempty : pieces ≠ []) : maskedOf pieces ≠ [] := by
  cases pieces with
  | nil => exact absurd rfl nonempty
  | cons piece pieces => simp [maskedOf, masked_ne_nil]

/-- A match stands where the pieces of a header do. -/
theorem exists_headerPieces (lexed : Lexed pieces)
    (matched : variableHeader.matchAt passed (maskedOf pieces) = some found) :
    ∃ label content gap back, pieces = headerPieces label content gap ++ back ∧ label ≠ [] ∧
      AllWhite label ∧ AllWhite gap ∧ found.text = maskedOf (headerPieces label content gap) := by
  rcases reads_of_matchAt matched with ⟨-, ahead, -, reads⟩
  rcases reads_variableHeader.mp reads with
    ⟨gap, inner, brace, whole, someGap, gapSpace, braceSpace, inside, -⟩
  rw [whole] at ahead
  simp only [List.append_assoc, List.cons_append] at ahead
  rcases exists_codeOf (by decide) ahead with ⟨afterWord, rfl, ahead'⟩
  have solidQuote : isSpace quote = false := by decide
  rcases exists_white gapSpace solidQuote ahead' with
    ⟨label, afterLabel, rfl, labelWhite, rfl, opens⟩
  have lexed' : Lexed afterLabel := by
    rw [← List.append_assoc] at lexed
    exact lexed_append lexed
  rcases exists_string lexed' opens with ⟨content, afterString, rfl, closes⟩
  rcases span_cons_unique inside inName_of_masked (by decide) (by decide) closes with
    ⟨rfl, -, brace_eq⟩
  have solidBrace : isSpace (.char '\x7b') = false := by decide
  rcases exists_white braceSpace solidBrace brace_eq.symm with
    ⟨gap, afterGap, rfl, gapWhite, rfl, last⟩
  rcases exists_code (by decide) (by decide) last with ⟨back, rfl, -⟩
  refine ⟨label, content, gap, back, by simp [headerPieces], ?_, labelWhite, gapWhite, ?_⟩
  · rintro rfl
    exact someGap rfl
  · rw [whole, maskedOf_headerPieces]

/-- Where a header starts a match stands. -/
theorem matchAt_header {label gap back : List Piece} {content : List Letter}
    (someLabel : label ≠ [])
    (labelWhite : AllWhite label) (gapWhite : AllWhite gap) :
    (variableHeader.matchAt passed (maskedOf (headerPieces label content gap ++ back))).isSome := by
  apply matchAt_isSome.mpr
  refine ⟨maskedOf (headerPieces label content gap), maskedOf back, [], by simp [maskedOf],
    reads_variableHeader.mpr ⟨maskedOf label, content.flatMap Letter.masked, maskedOf gap, ?_,
      maskedOf_ne_nil someLabel, allSpace_of_allWhite labelWhite, allSpace_of_allWhite gapWhite,
      inName_of_masked, rfl⟩⟩
  exact maskedOf_headerPieces label content gap

theorem startsHeader_iff : StartsHeader pieces ↔ ∃ label content gap back,
    pieces = headerPieces label content gap ++ back ∧ label ≠ [] ∧ AllWhite label ∧
        AllWhite gap := by
  constructor
  · rintro ⟨label, content, later, rfl, someLabel, labelWhite, opens⟩
    rcases exists_of_firstSolid opens with ⟨gap, back, rfl, gapWhite, -⟩
    exact ⟨label, content, gap, back, by simp [headerPieces], someLabel, labelWhite, gapWhite⟩
  · rintro ⟨label, content, gap, back, rfl, someLabel, labelWhite, gapWhite⟩
    refine ⟨label, content, gap ++ .code (.char '\x7b') :: back, by simp [headerPieces], someLabel,
      labelWhite, ?_⟩
    rw [firstSolid_append gapWhite]
    rfl

theorem matchAt_of_ne {c : Chr} {ahead : Str} (other : c ≠ .char 'v') :
    variableHeader.matchAt passed (c :: ahead) = none := by
  apply matchAt_eq_none.mpr
  intro text rest after split reads
  rcases reads_variableHeader.mp reads with ⟨gap, inner, brace, rfl, -⟩
  exact other (List.cons.inj split).1

theorem ne_of_mem_masked {piece : Piece} (notCode : ∀ c, piece ≠ .code c) :
    ∀ c ∈ piece.masked, c ≠ .char 'v' := by
  rintro c cMem rfl
  by_cases isWhite : piece.isWhite = true
  · exact absurd (allSpace_of_isWhite isWhite _ cMem) (by decide)
  · cases piece with
    | code d => exact notCode d rfl
    | string content =>
        simp only [Piece.masked, List.mem_cons, List.mem_append, List.mem_flatMap] at cMem
        rcases cMem with isQuote | ⟨letter, -, inLetter⟩ | isQuote
        · exact absurd isQuote (by decide)
        · cases letter <;> simp [Letter.masked, str] at inLetter
        · exact absurd isQuote (by decide)
    | _ => exact absurd rfl isWhite

theorem avoids_of_ne {text back : Str} (others : ∀ c ∈ text, c ≠ .char 'v') :
    variableHeader.Avoids passed text back := by
  induction text generalizing passed with
  | nil => exact avoids_nil
  | cons c text ih =>
      rw [List.forall_mem_cons] at others
      exact avoids_cons.mpr ⟨matchAt_of_ne others.1, ih others.2⟩

/-- No match begins in pieces where no header starts. -/
theorem avoids_of_calm {front back : List Piece} (lexed : Lexed (front ++ back))
    (calm : ∀ before after, front = before ++ after → after ≠ [] → ¬StartsHeader (after ++ back)) :
    variableHeader.Avoids passed (maskedOf front) (maskedOf back) := by
  induction front generalizing passed with
  | nil => exact avoids_nil
  | cons piece front ih =>
      have split : maskedOf (piece :: front) = piece.masked ++ maskedOf front := rfl
      have others : variableHeader.Avoids (piece.masked.reverse ++ passed) (maskedOf front)
          (maskedOf back) := by
        apply ih lexed.2
        rintro before after rfl some
        exact calm (piece :: before) after rfl some
      rw [split]
      refine avoids_append.mpr ⟨?_, others⟩
      by_cases isCode : ∃ c, piece = .code c
      · rcases isCode with ⟨c, rfl⟩
        refine avoids_cons.mpr ⟨?_, avoids_nil⟩
        by_contra matched
        rcases Option.ne_none_iff_exists'.mp matched with ⟨found, matched⟩
        have whole : [c] ++ (maskedOf front ++ maskedOf back) =
            maskedOf (.code c :: (front ++ back)) := by
          simp [maskedOf, Piece.masked]
        have here : variableHeader.matchAt passed (maskedOf (.code c :: (front ++ back))) =
            some found := by
          rw [← whole]
          exact matched
        rcases exists_headerPieces lexed here with
          ⟨label, content, gap, more, pieces_eq, someLabel, labelWhite, gapWhite, -⟩
        apply calm [] (.code c :: front) rfl (List.cons_ne_nil _ _)
        exact startsHeader_iff.mpr
          ⟨label, content, gap, more, pieces_eq, someLabel, labelWhite, gapWhite⟩
      · exact avoids_of_ne (ne_of_mem_masked fun c same => isCode ⟨c, same⟩)

end Matches

end VariableWiring
