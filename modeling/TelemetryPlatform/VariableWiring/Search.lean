import TelemetryPlatform.VariableWiring.Headers

/-!
# The headers of a file

Going through the attributes and blocks of a file, the scan finds the header of each
block that `Body.headers` has, and nothing in between.
-/

namespace VariableWiring

open Python

section Starts

variable {pieces rest : List Piece}

theorem not_startsHeader_cons {piece : Piece} (other : piece ≠ .code (.char 'v')) :
    ¬StartsHeader (piece :: pieces) := by
  rintro ⟨label, content, later, split, -⟩
  exact other (List.cons.inj split).1

/-- A header does not start in pieces that are no letters. -/
theorem calm_of_ne {front back : List Piece} (others : ∀ piece ∈ front, piece ≠ .code (.char 'v')) :
    ∀ before after, front = before ++ after → after ≠ [] → ¬StartsHeader (after ++ back) := by
  rintro before after rfl some
  cases after with
  | nil => exact absurd rfl some
  | cons piece after => exact not_startsHeader_cons (others piece (by simp))

theorem ne_of_isWhite {piece : Piece} (isWhite : piece.isWhite = true) :
    piece ≠ .code (.char 'v') := by
  rintro rfl
  exact absurd isWhite (by decide)

theorem isWhite_of_isInline {piece : Piece} (isInline : piece.isInline = true) :
    piece.isWhite = true := by
  cases piece with
  | code c =>
      rcases of_decide_eq_true isInline with rfl | rfl <;> decide
  | blockComment body => rfl
  | _ => cases isInline

theorem allWhite_of_allInline (allInline : AllInline pieces) : AllWhite pieces :=
  fun piece pieceMem => isWhite_of_isInline (allInline piece pieceMem)

/-- Part of an identifier. -/
def Piece.isWord : Piece → Bool
  | .code c => isIdent c
  | _ => false

theorem isSpace_of_isIdent {c : Chr} (ident : isIdent c = true) : isSpace c = false := by
  simp only [isIdent, isDefaultToken, Bool.or_eq_true, Bool.and_eq_true, decide_eq_true_eq,
    Bool.not_eq_true'] at ident
  rcases ident with (token | rfl) | ⟨-, notSpace⟩
  · simp only [isSpace, List.mem_cons, List.not_mem_nil, decide_eq_false_iff_not, or_false, not_or]
    omega
  · decide
  · exact notSpace

theorem isWord_codeOf {word : Str} (ident : ∀ c ∈ word, isIdent c = true) :
    ∀ piece ∈ codeOf word, piece.isWord = true := by
  intro piece pieceMem
  rcases List.mem_map.mp pieceMem with ⟨c, cMem, rfl⟩
  exact ident c cMem

theorem isWord_of_isWhite {piece : Piece} (isWhite : piece.isWhite = true) :
    piece.isWord = false := by
  cases piece with
  | code c =>
      by_contra ident
      have notSpace := isSpace_of_isIdent (eq_true_of_ne_false ident)
      rw [Piece.isWhite, notSpace] at isWhite
      cases isWhite
  | _ => rfl

theorem isWord_head {whites : List Piece} (allWhite : AllWhite whites) {solid : Piece}
    (noWord : solid.isWord = false) :
    ∀ piece ∈ (whites ++ solid :: rest).head?, piece.isWord = false := by
  intro piece first
  cases whites with
  | nil =>
      cases Option.some.inj first
      exact noWord
  | cons own whites =>
      rw [← Option.some.inj first]
      exact isWord_of_isWhite (allWhite own List.mem_cons_self)

/-- A header that starts in a word has all of it for its own. -/
theorem word_of_startsHeader {word : Str} (ident : ∀ c ∈ word, isIdent c = true)
    (stops : ∀ piece ∈ rest.head?, piece.isWord = false)
    (starts : StartsHeader (codeOf word ++ rest)) :
    word = str "variable" ∧ ∃ label content later, rest = label ++ .string content :: later ∧
      label ≠ [] ∧ AllWhite label ∧ firstSolid later = some (.code (.char '\x7b')) := by
  rcases starts with ⟨label, content, later, split, someLabel, labelWhite, opens⟩
  have stops' : ∀ piece ∈ (label ++ .string content :: later).head?, piece.isWord = false := by
    cases label with
    | nil => exact absurd rfl someLabel
    | cons piece label =>
        intro first isFirst
        cases Option.some.inj isFirst
        exact isWord_of_isWhite (labelWhite piece List.mem_cons_self)
  rcases span_unique (isWord_codeOf ident) (isWord_codeOf (by decide)) stops stops' split with
    ⟨words, rests⟩
  have inj : Function.Injective Piece.code := fun _ _ same => Piece.code.inj same
  exact ⟨List.map_injective_iff.mpr inj words, label, content, later, rests, someLabel, labelWhite,
    opens⟩

end Starts

section Follows

/-- What may follow an item: the indent of the next or the end of the block. -/
structure Follows (rest : List Piece) : Prop where
  starts : ∀ piece ∈ rest.head?, piece.isWhite = true ∨ piece = .code (.char '\x7d')
  solid : ∀ piece ∈ firstSolid rest, ∃ c, piece = .code c ∧ (isIdent c = true ∨ c = .char '\x7d')

variable {pieces rest : List Piece}

theorem firstSolid_white (allWhite : AllWhite pieces) : firstSolid pieces = none := by
  have nothing := firstSolid_append allWhite []
  rwa [List.append_nil] at nothing

theorem firstSolid_append_or (pieces rest : List Piece) :
    firstSolid (pieces ++ rest) = (firstSolid pieces).or (firstSolid rest) :=
  head?_dropWhile_append pieces rest

theorem follows_tail (allWhite : AllWhite pieces) : Follows pieces := by
  constructor
  · intro piece first
    exact .inl (allWhite piece (List.mem_of_mem_head? first))
  · rw [firstSolid_white allWhite]
    intro piece nothing
    cases nothing

theorem follows_close (closeWhite : AllWhite pieces) (rest : List Piece) :
    Follows (pieces ++ .code (.char '\x7d') :: rest) := by
  constructor
  · intro piece first
    cases pieces with
    | nil => exact .inr (Option.some.inj first).symm
    | cons own pieces =>
        rw [← Option.some.inj first]
        exact .inl (closeWhite own List.mem_cons_self)
  · rw [firstSolid_append closeWhite]
    rintro piece ⟨⟩
    exact ⟨_, rfl, .inr rfl⟩

theorem follows_name {indent : List Piece} {name : Str} (isIndent : IsIndent false indent)
    (isName : IsName name) (rest : List Piece) : Follows (indent ++ (codeOf name ++ rest)) := by
  rcases isIndent with ⟨indentWhite, none | onLine⟩
  · cases none
  · cases name with
    | nil => exact absurd rfl isName.1
    | cons c name =>
        have ident := isName.2 c List.mem_cons_self
        constructor
        · intro piece first
          cases indent with
          | nil => cases onLine
          | cons own indent =>
              rw [← Option.some.inj first]
              exact .inl (indentWhite own List.mem_cons_self)
        · rw [firstSolid_append indentWhite, firstSolid, codeOf, List.map_cons, List.cons_append,
            List.dropWhile_cons_of_neg (by simp [Piece.isWhite, isSpace_of_isIdent ident])]
          rintro piece ⟨⟩
          exact ⟨c, rfl, .inl ident⟩

theorem follows_body {body : Body} (wellFormed : body.WellFormed false) (follows : Follows rest) :
    Follows (body.pieces ++ rest) := by
  cases body with
  | nil => exact follows
  | attr indent name gap expr others =>
      have next := follows_name wellFormed.1 wellFormed.2.1
        (gap ++ .code (.char '=') :: expr ++ others.pieces ++ rest)
      simpa [Body.pieces, attributePieces] using next
  | block indent type labels gap inner close others =>
      have next := follows_name wellFormed.1 wellFormed.2.1 (labelPieces labels ++
        (gap ++ .code (.char '\x7b') :: (inner.pieces ++ (close ++ .code (.char '\x7d') ::
          (others.pieces ++ rest)))))
      simpa [Body.pieces, headPieces] using next

end Follows

section Attributes

variable {name : Str} {gap expr rest : List Piece}

/-- No header starts in an expression. -/
theorem calm_expr (isExpr : IsExpr expr) (follows : Follows rest) :
    ∀ before after, expr = before ++ after → after ≠ [] → ¬StartsHeader (after ++ rest) := by
  rintro before after rfl some ⟨label, content, later, split, someLabel, labelWhite, opens⟩
  have notString : ∀ later, rest ≠ .string content :: later := by
    rintro later rfl
    rcases follows.starts _ rfl with isWhite | isClose
    · cases isWhite
    · cases isClose
  rw [← List.append_assoc] at split
  rcases List.append_eq_append_iff.mp split with ⟨more, front_eq, rest_eq⟩ | ⟨more,
    after_eq, more_eq⟩
  · -- the string would be behind the expression, with nothing but white space in front of it
    cases more with
    | nil => exact notString later rest_eq
    | cons piece more =>
        have noWord : piece.isWord = false := by
          rcases follows.starts piece (by rw [rest_eq]; rfl) with isWhite | rfl
          · exact isWord_of_isWhite isWhite
          · decide
        have moreWhite : AllWhite (piece :: more) := by
          rcases List.append_eq_append_iff.mp front_eq with ⟨more', -, label_eq⟩ | ⟨more',
            word_eq, more_eq⟩
          · intro own ownMem
            exact labelWhite own (by rw [label_eq]; exact List.mem_append_right _ ownMem)
          · cases more' with
            | nil =>
                rw [List.nil_append] at more_eq
                rwa [more_eq]
            | cons own more' =>
                rw [List.cons_append, List.cons.injEq] at more_eq
                have isWord := @isWord_codeOf (str "variable") (by decide) own
                    (by rw [word_eq]; simp)
                rw [← more_eq.1, noWord] at isWord
                cases isWord
        have first := follows.solid (.string content) (by
          rw [rest_eq, firstSolid_append moreWhite]
          rfl)
        rcases first with ⟨c, isCode, -⟩
        cases isCode
  · cases more with
    | nil => exact notString later more_eq.symm
    | cons piece more =>
        rw [List.cons_append, List.cons.injEq] at more_eq
        rcases more_eq with ⟨rfl, rfl⟩
        rw [firstSolid_append_or] at opens
        have notOpen := isExpr.noOpen (before ++ (codeOf (str "variable") ++ label)) content more
          (by rw [after_eq]; simp)
        cases first : firstSolid more with
        | some piece =>
            rw [first] at opens notOpen
            exact notOpen opens
        | none =>
            rw [first, Option.none_or] at opens
            rcases follows.solid _ opens with ⟨c, isCode, kind⟩
            cases isCode
            exact absurd kind (by decide)

theorem calm_append {front front' back : List Piece}
    (first : ∀ before after, front = before ++ after → after ≠ [] →
      ¬StartsHeader (after ++ (front' ++ back)))
    (second : ∀ before after, front' = before ++ after → after ≠ [] →
      ¬StartsHeader (after ++ back)) :
    ∀ before after, front ++ front' = before ++ after → after ≠ [] →
        ¬StartsHeader (after ++ back) := by
  intro before after split some
  rcases List.append_eq_append_iff.mp split with ⟨more, -, front'_eq⟩ | ⟨more, front_eq, after_eq⟩
  · exact second more after front'_eq some
  · rw [after_eq, List.append_assoc]
    cases more with
    | nil =>
        rw [List.nil_append] at after_eq ⊢
        exact second [] front' rfl (after_eq ▸ some)
    | cons piece more => exact first before (piece :: more) front_eq (List.cons_ne_nil _ _)

/-- No header starts in an attribute. -/
theorem calm_attribute (isName : IsName name) (gapInline : AllInline gap) (isExpr : IsExpr expr)
    (follows : Follows rest) : ∀ before after, attributePieces name gap expr = before ++ after →
      after ≠ [] → ¬StartsHeader (after ++ rest) := by
  have gapWhite := allWhite_of_allInline gapInline
  apply calm_append
  · rintro before after split some starts
    rcases List.map_eq_append_iff.mp split with ⟨front, word, rfl, -, rfl⟩
    have ident : ∀ c ∈ word, isIdent c = true := fun c cMem =>
      isName.2 c (List.mem_append_right front cMem)
    rw [List.append_assoc, List.cons_append] at starts
    rcases word_of_startsHeader ident (isWord_head gapWhite (by decide)) starts with
      ⟨-, label, content, later, same, -, labelWhite, -⟩
    rcases span_cons_unique gapWhite labelWhite (by decide) rfl same with ⟨-, isString, -⟩
    cases isString
  · apply calm_append
    · apply calm_of_ne
      intro piece pieceMem
      exact ne_of_isWhite (gapWhite piece pieceMem)
    · have opened : [Piece.code (.char '=')] ++ expr = .code (.char '=') :: expr := rfl
      rw [← opened]
      apply calm_append
      · apply calm_of_ne
        rintro piece pieceMem rfl
        exact absurd (List.mem_singleton.mp pieceMem) (by simp)
      · exact calm_expr isExpr follows

end Attributes

section Heads

variable {type : Str} {labels : List (List Piece × List Letter)} {gap rest : List Piece}

/-- What stands behind the type of a block up to its brace. -/
def afterType (labels : List (List Piece × List Letter)) (gap : List Piece) : List Piece :=
  labelPieces labels ++ (gap ++ [.code (.char '\x7b')])

theorem ne_of_mem_afterType (labelsInline : ∀ label ∈ labels, AllInline label.1)
    (gapInline : AllInline gap) : ∀ piece ∈ afterType labels gap, piece ≠ .code (.char 'v') := by
  intro piece pieceMem
  simp only [afterType, labelPieces, List.mem_append, List.mem_flatMap,
    List.mem_singleton] at pieceMem
  rcases pieceMem with ⟨label, labelMem, inGap | rfl⟩ | inGap | rfl
  · exact ne_of_isWhite (allWhite_of_allInline (labelsInline label labelMem) piece inGap)
  · simp
  · exact ne_of_isWhite (allWhite_of_allInline gapInline piece inGap)
  · simp

theorem isWord_afterType (labelsInline : ∀ label ∈ labels, AllInline label.1)
    (gapInline : AllInline gap) :
    ∀ piece ∈ (afterType labels gap ++ rest).head?, piece.isWord = false := by
  cases labels with
  | nil =>
      have split : afterType [] gap ++ rest = gap ++ .code (.char '\x7b') :: rest := by
        simp [afterType, labelPieces]
      rw [split]
      exact isWord_head (allWhite_of_allInline gapInline) (by decide)
  | cons label labels =>
      have split : afterType (label :: labels) gap ++ rest =
          label.1 ++ .string label.2 :: (afterType labels gap ++ rest) := by
        simp [afterType, labelPieces]
      rw [split]
      exact isWord_head (allWhite_of_allInline (labelsInline label List.mem_cons_self)) rfl

/-- A block whose header is that of a variable for the scan. -/
theorem startsHeader_afterType {word : Str} (ident : ∀ c ∈ word, isIdent c = true)
    (labelsInline : ∀ label ∈ labels, AllInline label.1) (gapInline : AllInline gap) :
    StartsHeader (codeOf word ++ (afterType labels gap ++ rest)) ↔
      word = str "variable" ∧ ∃ label, labels = [label] ∧ label.1 ≠ [] := by
  have gapWhite := allWhite_of_allInline gapInline
  constructor
  · intro starts
    rcases word_of_startsHeader ident (isWord_afterType labelsInline gapInline) starts with
      ⟨rfl, label, content, later, same, someLabel, labelWhite, opens⟩
    refine ⟨rfl, ?_⟩
    cases labels with
    | nil =>
        have closes : gap ++ .code (.char '\x7b') :: rest = label ++ .string content :: later := by
          simpa [afterType, labelPieces] using same
        rcases span_cons_unique gapWhite labelWhite (by decide) rfl closes with ⟨-, isString, -⟩
        cases isString
    | cons own labels =>
        have first : own.1 ++ .string own.2 :: (afterType labels gap ++ rest) =
            label ++ .string content :: later := by
          simpa [afterType, labelPieces] using same
        rcases span_cons_unique (allWhite_of_allInline (labelsInline own List.mem_cons_self))
          labelWhite rfl rfl first with ⟨rfl, -, rfl⟩
        cases labels with
        | nil => exact ⟨own, rfl, someLabel⟩
        | cons second labels =>
            have secondWhite := allWhite_of_allInline (labelsInline second (by simp))
            have isString : firstSolid (afterType (second :: labels) gap ++ rest) =
                some (.string second.2) := by
              simp only [afterType, labelPieces, List.flatMap_cons, List.append_assoc]
              rw [firstSolid_append secondWhite]
              rfl
            rw [isString] at opens
            cases opens
  · rintro ⟨rfl, label, rfl, someLabel⟩
    refine ⟨label.1, label.2, gap ++ .code (.char '\x7b') :: rest, ?_, someLabel,
      allWhite_of_allInline (labelsInline label List.mem_cons_self), ?_⟩
    · simp [afterType, labelPieces]
    · rw [firstSolid_append gapWhite]
      rfl

/-- Either no header starts in the head of a block, or the rest of the head is one. -/
theorem head_cases (isName : IsName type) (labelsInline : ∀ label ∈ labels, AllInline label.1)
    (gapInline : AllInline gap) (rest : List Piece) :
    (readHeaderText type labels gap = none ∧ ∀ before after,
      headPieces type labels gap = before ++ after → after ≠ [] → ¬StartsHeader (after ++ rest)) ∨
    ∃ word label, headPieces type labels gap = codeOf word ++ headerPieces label.1 label.2 gap ∧
      readHeaderText type labels gap = some (headerText label gap) ∧ label.1 ≠ [] ∧
      AllWhite label.1 ∧ ∀ before after, codeOf word = before ++ after → after ≠ [] →
        ¬StartsHeader (after ++ (headerPieces label.1 label.2 gap ++ rest)) := by
  by_cases reads : ∃ label, labels = [label] ∧ str "variable" <:+ type ∧ label.1 ≠ []
  · right
    rcases reads with ⟨label, rfl, ⟨word, rfl⟩, someLabel⟩
    have header (rest : List Piece) : headerPieces label.1 label.2 gap ++ rest =
        codeOf (str "variable") ++ (afterType [label] gap ++ rest) := by
      simp [headerPieces, afterType, labelPieces]
    refine ⟨word, label, ?_, ?_, someLabel,
      allWhite_of_allInline (labelsInline label List.mem_cons_self), ?_⟩
    · rw [← List.append_nil (headerPieces _ _ _), header]
      simp [headPieces, afterType, codeOf]
    · rw [readHeaderText, if_pos ⟨List.suffix_append word _, someLabel⟩]
    · rintro before after split some starts
      rcases List.map_eq_append_iff.mp split with ⟨front, back, rfl, -, rfl⟩
      rw [header, ← List.append_assoc, codeOf, ← List.map_append, ← codeOf] at starts
      have ident : ∀ c ∈ back ++ str "variable", isIdent c = true := fun c cMem =>
        isName.2 c (by rw [List.append_assoc]; exact List.mem_append_right front cMem)
      rcases (startsHeader_afterType ident labelsInline gapInline).mp starts with ⟨same, -⟩
      have nothing : back = [] := by simpa using same
      exact some (by rw [nothing]; rfl)
  · left
    constructor
    · unfold readHeaderText
      split
      · next label => exact if_neg fun both => reads ⟨label, rfl, both⟩
      · rfl
    · apply calm_append
      · rintro before after split some starts
        rcases List.map_eq_append_iff.mp split with ⟨front, back, rfl, -, rfl⟩
        have ident : ∀ c ∈ back, isIdent c = true := fun c cMem =>
          isName.2 c (List.mem_append_right front cMem)
        rcases (startsHeader_afterType ident labelsInline gapInline).mp starts with
          ⟨rfl, label, labels_eq, someLabel⟩
        exact reads ⟨label, labels_eq, List.suffix_append front _, someLabel⟩
      · exact calm_of_ne (ne_of_mem_afterType labelsInline gapInline)

end Heads

section Bodies

/-- A match that is the header of a block, in front of what is in the block. -/
def IsHeaderOf (pieces : List Piece) (found : Match) (header : Str × Body) : Prop :=
  ∃ front head close rest, pieces = front ++ (head ++ (header.2.pieces ++
      (close ++ .code (.char '\x7d') :: rest))) ∧ AllWhite close ∧ header.2.WellFormed true ∧
    found.offset = (maskedOf front).length ∧ found.stopOffset = (maskedOf (front ++ head)).length ∧
    textOf head = header.1 ∧ ∃ others, head = others ++ [.code (.char '\x7b')]

variable {pieces rest : List Piece} {done : List Piece}

theorem maskedOf_append (front back : List Piece) :
    maskedOf (front ++ back) = maskedOf front ++ maskedOf back := List.flatMap_append

/-- Pieces where no header starts are passed over. -/
theorem findFrom_calm {front : List Piece} (lexed : Lexed (front ++ rest))
    (calm : ∀ before after, front = before ++ after → after ≠ [] → ¬StartsHeader (after ++ rest)) :
    variableHeader.findFrom (maskedOf done).reverse 0 (maskedOf (front ++ rest)) =
      variableHeader.findFrom (maskedOf (done ++ front)).reverse 0 (maskedOf rest) := by
  rw [maskedOf_append, findFrom_append (avoids_of_calm lexed calm), maskedOf_append,
    List.reverse_append]

theorem findFrom_white {front : List Piece} (lexed : Lexed (front ++ rest))
    (white : AllWhite front) :
    variableHeader.findFrom (maskedOf done).reverse 0 (maskedOf (front ++ rest)) =
      variableHeader.findFrom (maskedOf (done ++ front)).reverse 0 (maskedOf rest) :=
  findFrom_calm lexed (calm_of_ne fun piece pieceMem => ne_of_isWhite (white piece pieceMem))

theorem headerPieces_unique {label label' gap gap' back back' : List Piece}
    {content content' : List Letter} (labelWhite : AllWhite label) (labelWhite' : AllWhite label')
    (gapWhite : AllWhite gap) (gapWhite' : AllWhite gap')
    (same : headerPieces label content gap ++ back = headerPieces label' content' gap' ++ back') :
    headerPieces label content gap = headerPieces label' content' gap' := by
  simp only [headerPieces, List.append_assoc, List.cons_append, List.append_cancel_left_eq,
    List.nil_append] at same
  rcases span_cons_unique labelWhite labelWhite' rfl rfl same with ⟨rfl, contents, closes⟩
  rcases span_cons_unique gapWhite gapWhite' (by decide) (by decide) closes with ⟨rfl, -, -⟩
  rw [Piece.string.inj contents]

theorem textOf_codeOf (word : Str) : textOf (codeOf word) = word := by
  induction word with
  | nil => rfl
  | cons c word ih => exact congrArg (c :: ·) ih

theorem textOf_headerPieces (label : List Piece × List Letter) (gap : List Piece) :
    textOf (headerPieces label.1 label.2 gap) = headerText label gap := by
  have word := textOf_codeOf (str "variable")
  simp only [textOf, headerPieces, List.flatMap_append, List.flatMap_cons] at word ⊢
  rw [word]
  simp [Piece.text, headerText, textOf, labelText, str]

/-- A header is found where it starts. -/
theorem findFrom_headerPieces {label gap : List Piece} {content : List Letter} {passed : Str}
    (someLabel : label ≠ []) (labelWhite : AllWhite label) (gapWhite : AllWhite gap)
    (lexed : Lexed (headerPieces label content gap ++ rest)) :
    ∃ found, variableHeader.findFrom passed 0 (maskedOf (headerPieces label content gap ++ rest)) =
        found :: variableHeader.findFrom
          ((maskedOf (headerPieces label content gap)).reverse ++ passed) 0 (maskedOf rest) ∧
      found.offset = passed.length ∧
      found.stopOffset = passed.length + (maskedOf (headerPieces label content gap)).length := by
  have here := @matchAt_header passed label gap rest content someLabel labelWhite gapWhite
  rcases Option.isSome_iff_exists.mp here with ⟨found, matched⟩
  rcases exists_headerPieces lexed matched with
    ⟨label', content', gap', back', pieces_eq, -, labelWhite', gapWhite', whole⟩
  rw [← headerPieces_unique labelWhite labelWhite' gapWhite gapWhite' pieces_eq] at whole
  have someText : maskedOf (headerPieces label content gap) ≠ [] :=
    maskedOf_ne_nil fun nothing => absurd (congrArg List.length nothing) (by simp [headerPieces])
  generalize headerPieces label content gap = header at matched whole someText
  rcases reads_of_matchAt matched with ⟨start, -, stop, -⟩
  rw [maskedOf_append] at matched ⊢
  refine ⟨found, findFrom_of_matchAt someText matched whole, ?_, ?_⟩
  · rw [Match.offset, start]
  · rw [Match.stopOffset, stop, whole, List.length_append, List.length_reverse, Nat.add_comm]

/-- What the head of a block is found as. -/
theorem findFrom_head {type : Str} {labels : List (List Piece × List Letter)} {gap : List Piece}
    (isName : IsName type) (labelsInline : ∀ label ∈ labels, AllInline label.1)
    (gapInline : AllInline gap) (lexed : Lexed (headPieces type labels gap ++ rest)) :
    ∃ founds, variableHeader.findFrom (maskedOf done).reverse 0
        (maskedOf (headPieces type labels gap ++ rest)) =
      founds ++ variableHeader.findFrom (maskedOf (done ++ headPieces type labels gap)).reverse 0
        (maskedOf rest) ∧
      ((founds = [] ∧ readHeaderText type labels gap = none) ∨
        ∃ found word head others, founds = [found] ∧
          headPieces type labels gap = codeOf word ++ head ∧
          found.offset = (maskedOf (done ++ codeOf word)).length ∧
          found.stopOffset = (maskedOf (done ++ codeOf word ++ head)).length ∧
          readHeaderText type labels gap = some (textOf head) ∧
          head = others ++ [.code (.char '\x7b')]) := by
  rcases head_cases isName labelsInline gapInline rest with
    ⟨unread, calm⟩ | ⟨word, label, split, read, someLabel, labelWhite, calm⟩
  · refine ⟨[], ?_, .inl ⟨rfl, unread⟩⟩
    rw [findFrom_calm lexed calm]
    rfl
  · rw [split, List.append_assoc] at lexed
    have gapWhite := allWhite_of_allInline gapInline
    rcases @findFrom_headerPieces rest label.1 gap label.2 (maskedOf (done ++ codeOf word)).reverse
      someLabel labelWhite gapWhite (lexed_append lexed) with ⟨found, first, offset, stopOffset⟩
    have isHead := textOf_headerPieces label gap
    have brace : headerPieces label.1 label.2 gap = codeOf (str "variable") ++
        (label.1 ++ .string label.2 :: gap) ++ [.code (.char '\x7b')] := by
      simp [headerPieces]
    generalize headerPieces label.1 label.2 gap = head
      at split lexed calm first stopOffset isHead brace
    refine ⟨[found], ?_, .inr ⟨found, word, head, _, rfl, split, ?_, ?_, ?_, brace⟩⟩
    · rw [split, List.append_assoc, findFrom_calm lexed calm, first, ← List.append_assoc,
        maskedOf_append (done ++ codeOf word), List.reverse_append]
      rfl
    · rw [offset, List.length_reverse]
    · rw [stopOffset, List.length_reverse, maskedOf_append (done ++ codeOf word),
        List.length_append]
    · rw [read, isHead]

/-- The scan of some items finds their headers. -/
theorem findFrom_body {body : Body} {first : Bool} (wellFormed : body.WellFormed first)
    (follows : Follows rest) (split : pieces = done ++ (body.pieces ++ rest))
    (lexed : Lexed pieces) :
    ∃ founds, variableHeader.findFrom (maskedOf done).reverse 0 (maskedOf (body.pieces ++ rest)) =
        founds ++ variableHeader.findFrom (maskedOf (done ++ body.pieces)).reverse 0
          (maskedOf rest) ∧
      List.Forall₂ (IsHeaderOf pieces) founds body.headers := by
  induction body generalizing done rest first with
  | nil =>
      refine ⟨[], ?_, .nil⟩
      rw [Body.pieces, List.append_nil]
      rfl
  | attr indent name gap expr others ih =>
      rcases wellFormed with ⟨isIndent, isName, gapInline, isExpr, othersFormed⟩
      have follows' := follows_body othersFormed follows
      have parts : Body.pieces (.attr indent name gap expr others) ++ rest =
          indent ++ (attributePieces name gap expr ++ (others.pieces ++ rest)) := by
        simp [Body.pieces]
      rw [parts] at split ⊢
      have lexed' := lexed_append (split ▸ lexed)
      have overIndent := @findFrom_white _ done _ lexed' isIndent.1
      have overAttribute := @findFrom_calm _ (done ++ indent) _ (lexed_append lexed')
        (calm_attribute isName gapInline isExpr follows')
      rcases @ih rest (done ++ indent ++ attributePieces name gap expr) false othersFormed follows
        (by simp [split]) with ⟨founds, found, headers⟩
      refine ⟨founds, ?_, headers⟩
      rw [overIndent, overAttribute, found]
      simp [Body.pieces]
  | block indent type labels gap inner close others ihInner ihOthers =>
      rcases wellFormed with
        ⟨isIndent, isName, labelsInline, gapInline, innerFormed, closeWhite, othersFormed⟩
      have parts : Body.pieces (.block indent type labels gap inner close others) ++ rest =
          indent ++ (headPieces type labels gap ++ (inner.pieces ++ (close ++
            .code (.char '\x7d') :: (others.pieces ++ rest)))) := by
        simp [Body.pieces]
      rw [parts] at split ⊢
      have lexed' := lexed_append (split ▸ lexed)
      have overIndent := @findFrom_white _ done _ lexed' isIndent.1
      rcases @findFrom_head _ (done ++ indent) type labels gap isName labelsInline gapInline
        (lexed_append lexed') with ⟨own, overHead, ownCases⟩
      rcases @ihInner (close ++ .code (.char '\x7d') :: (others.pieces ++ rest))
        (done ++ indent ++ headPieces type labels gap) true innerFormed (follows_close closeWhite _)
        (by simp [split]) with ⟨inside, overInner, innerHeaders⟩
      have closing : close ++ .code (.char '\x7d') :: (others.pieces ++ rest) =
          (close ++ [.code (.char '\x7d')]) ++ (others.pieces ++ rest) := by simp
      have overClose := @findFrom_calm (others.pieces ++ rest)
        (done ++ indent ++ headPieces type labels gap ++ inner.pieces)
        (close ++ [.code (.char '\x7d')]) (closing ▸ lexed_append
          (lexed_append (lexed_append lexed')))
        (calm_of_ne (by
          intro piece pieceMem
          rcases List.mem_append.mp pieceMem with inClose | isClose
          · exact ne_of_isWhite (closeWhite piece inClose)
          · simp [List.mem_singleton.mp isClose]))
      rcases @ihOthers rest (done ++ indent ++ headPieces type labels gap ++ inner.pieces ++
        (close ++ [.code (.char '\x7d')])) false othersFormed follows (by simp [split]) with
        ⟨founds, overOthers, otherHeaders⟩
      refine ⟨own ++ (inside ++ founds), ?_, ?_⟩
      · rw [overIndent, overHead, overInner, closing, overClose, overOthers]
        simp [Body.pieces]
      · rw [Body.headers]
        refine List.rel_append ?_ (List.rel_append innerHeaders otherHeaders)
        rcases ownCases with
          ⟨rfl, unread⟩ | ⟨found, word, head, before, rfl, split', offset, stop, read, brace⟩
        · rw [unread]
          exact .nil
        · rw [read]
          refine .cons ⟨done ++ indent ++ codeOf word, head, close, others.pieces ++ rest, ?_,
            closeWhite, innerFormed, offset, stop, rfl, before, brace⟩ .nil
          rw [split, split']
          simp

end Bodies

end VariableWiring
