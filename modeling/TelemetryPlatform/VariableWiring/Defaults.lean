import TelemetryPlatform.VariableWiring.Search

/-!
# The default of a block

The scan of a block comes to its closing brace, and what it finds on the way are the
places of its attributes that read as `default`.
-/

namespace VariableWiring

open Python

section Places

variable {before : Option Chr} {text rest : Str} {c : Chr}

theorem startsDefault_iff : startsDefault before text = true ↔ ∃ after,
    text = str "default" ++ after ∧ before.any isDefaultToken = false ∧
      after.head?.any isDefaultToken = false ∧
      (after.dropWhile isBlank).head? = some (.char '=') := by
  rw [startsDefault]
  cases behind : text.dropPrefix? (str "default") with
  | none =>
      refine iff_of_false (by simp) ?_
      rintro ⟨after, split, -⟩
      rw [dropPrefix?_eq_some.mpr split] at behind
      cases behind
  | some after =>
      have split := dropPrefix?_eq_some.mp behind
      simp only [Bool.and_eq_true, Bool.not_eq_true', decide_eq_true_eq, and_assoc]
      constructor
      · intro reads
        exact ⟨after, split, reads⟩
      · rintro ⟨other, split', reads⟩
        rw [split] at split'
        rwa [List.append_cancel_left split']

theorem startsDefault_cons (other : c ≠ .char 'd') : startsDefault before (c :: text) = false := by
  by_contra starts
  rcases startsDefault_iff.mp (eq_true_of_ne_false starts) with ⟨after, split, -⟩
  exact other (List.cons.inj split).1

theorem startsDefault_congr {before' : Option Chr} (noToken : before.any isDefaultToken = false)
    (noToken' : before'.any isDefaultToken = false) (text : Str) :
    startsDefault before text = startsDefault before' text := by
  rw [Bool.eq_iff_iff, startsDefault_iff, startsDefault_iff, noToken, noToken']

theorem isSpace_of_isBlank (blank : isBlank c = true) : isSpace c = true := by
  rcases of_decide_eq_true blank with rfl | rfl <;> decide

/-- Nothing that follows an item can belong to its attribute. -/
theorem startsDefault_append (starts : ∀ c ∈ rest.head?, isSpace c = true ∨ c = .char '\x7d')
    (solid : (rest.dropWhile isBlank).head? ≠ some (.char '=')) :
    startsDefault before (text ++ rest) = startsDefault before text := by
  have firsts (after : Str) := @head?_dropWhile_append _ isBlank after rest
  rw [Bool.eq_iff_iff, startsDefault_iff, startsDefault_iff]
  constructor
  · rintro ⟨after, split, noToken, ends, assigns⟩
    rcases List.append_eq_append_iff.mp split with ⟨more, word_eq, rfl⟩ | ⟨more, rfl, rfl⟩
    · cases more with
      | nil => exact absurd assigns solid
      | cons c more =>
          have inWord : c ∈ str "default" := by simp [word_eq]
          have noSpace : ∀ c ∈ str "default", isSpace c = false ∧ c ≠ .char '\x7d' := by decide
          rcases starts c rfl with space | close
          · rw [(noSpace c inWord).1] at space
            cases space
          · exact absurd close (noSpace c inWord).2
    · refine ⟨more, rfl, noToken, ?_, ?_⟩
      · cases more with
        | nil => rfl
        | cons c more => exact ends
      · rw [firsts] at assigns
        cases first : (more.dropWhile isBlank).head? with
        | some c => rwa [first, Option.some_or] at assigns
        | none =>
            rw [first, Option.none_or] at assigns
            exact absurd assigns solid
  · rintro ⟨after, rfl, noToken, ends, assigns⟩
    refine ⟨after ++ rest, by simp, noToken, ?_, ?_⟩
    · cases after with
      | nil => cases assigns
      | cons c after => exact ends
    · rw [firsts, assigns, Option.some_or]

end Places

section Scans

variable {before : Option Chr} {flag : Bool} {ahead : Str} {depth : Nat}

/-- The character in front of what follows some pieces. -/
def lastOf (before : Option Chr) (pieces : List Piece) : Option Chr :=
  (maskedOf pieces).getLast?.or before

/-- The text of a comment or a string does not change what the scan knows. -/
theorem scanBlock_quiet {text : Str}
    (quiet : ∀ c ∈ text, c ≠ .char '\x7b' ∧ c ≠ .char '\x7d' ∧ c ≠ .char 'd') :
    scanBlock before (depth + 1) flag (text ++ ahead) =
      scanBlock (text.getLast?.or before) (depth + 1) flag ahead := by
  induction text generalizing before with
  | nil => rfl
  | cons c text ih =>
      rw [List.forall_mem_cons] at quiet
      rcases quiet with ⟨⟨notOpen, notClose, notD⟩, quiet⟩
      rw [List.cons_append, scanBlock, if_neg notOpen, if_neg notClose, startsDefault_cons notD,
        Bool.and_false, Bool.or_false, ih quiet, List.getLast?_cons]
      cases text.getLast? <;> rfl

theorem quiet_masked {piece : Piece} (notCode : ∀ c, piece ≠ .code c) :
    ∀ c ∈ piece.masked, c ≠ .char '\x7b' ∧ c ≠ .char '\x7d' ∧ c ≠ .char 'd' := by
  intro c cMem
  by_cases isWhite : piece.isWhite = true
  · have space := allSpace_of_isWhite isWhite c cMem
    refine ⟨?_, ?_, ?_⟩ <;> rintro rfl <;> exact absurd space (by decide)
  · cases piece with
    | code d => exact absurd rfl (notCode d)
    | string content =>
        simp only [Piece.masked, List.mem_cons, List.mem_append, List.mem_flatMap, List.not_mem_nil,
          or_false] at cMem
        rcases cMem with rfl | ⟨letter, -, inLetter⟩ | rfl
        · decide
        · have space : c = .char ' ' := by
            cases letter <;> simpa [Letter.masked, str] using inLetter
          rw [space]
          decide
        · decide
    | _ => exact absurd rfl isWhite

theorem startsDefault_quiet {text : Str} (nonempty : text ≠ [])
    (quiet : ∀ c ∈ text, c ≠ .char '\x7b' ∧ c ≠ .char '\x7d' ∧ c ≠ .char 'd') :
    startsDefault before (text ++ ahead) = false := by
  cases text with
  | nil => exact absurd rfl nonempty
  | cons c text => exact startsDefault_cons (quiet c List.mem_cons_self).2.2

theorem getLast?_masked_or (piece : Piece) :
    piece.masked.getLast?.or before = piece.masked.getLast? := by
  cases last : piece.masked.getLast? with
  | none => exact absurd (List.getLast?_eq_none_iff.mp last) (masked_ne_nil piece)
  | some c => rfl

theorem lastOf_cons (piece : Piece) (pieces : List Piece) :
    lastOf before (piece :: pieces) = lastOf piece.masked.getLast? pieces := by
  have split : maskedOf (piece :: pieces) = piece.masked ++ maskedOf pieces := rfl
  rw [lastOf, lastOf, split, List.getLast?_append, Option.or_assoc, getLast?_masked_or]

/-- One piece of the scan. -/
theorem scanBlock_piece {piece : Piece} {after : Nat} (rest : List Piece)
    (here : depthAfter depth piece = some after) (outer : Nat) :
    scanBlock before (outer + depth + 1) flag (maskedOf (piece :: rest)) =
      scanBlock piece.masked.getLast? (outer + after + 1)
        (flag || decide (outer + depth = 0) && startsDefault before (maskedOf (piece :: rest)))
        (maskedOf rest) := by
  have split : maskedOf (piece :: rest) = piece.masked ++ maskedOf rest := rfl
  by_cases isCode : ∃ c, piece = .code c
  · rcases isCode with ⟨c, rfl⟩
    have whole : maskedOf (.code c :: rest) = c :: maskedOf rest := rfl
    rw [whole]
    by_cases isOpen : c = .char '\x7b'
    · subst isOpen
      cases here
      rw [scanBlock, if_pos rfl, startsDefault_cons (by decide), Bool.and_false, Bool.or_false]
      rfl
    · by_cases isClose : c = .char '\x7d'
      · subst isClose
        rw [depthAfter, if_neg isOpen, if_pos rfl, Option.ite_none_left_eq_some] at here
        rcases here with ⟨positive, same⟩
        cases same
        obtain ⟨depth, rfl⟩ := Nat.exists_eq_succ_of_ne_zero positive
        rw [scanBlock, if_neg isOpen, if_pos rfl, startsDefault_cons (by decide), Bool.and_false,
          Bool.or_false]
        rfl
      · rw [depthAfter, if_neg isOpen, if_neg isClose] at here
        cases here
        rw [scanBlock, if_neg isOpen, if_neg isClose]
        rfl
  · have notCode : ∀ c, piece ≠ .code c := fun c same => isCode ⟨c, same⟩
    have same : after = depth := by
      cases piece with
      | code c => exact absurd rfl (notCode c)
      | _ => exact (Option.some.inj here).symm
    have quiet := quiet_masked notCode
    subst same
    rw [split, scanBlock_quiet quiet, getLast?_masked_or,
      startsDefault_quiet (masked_ne_nil piece) quiet, Bool.and_false, Bool.or_false]

/-- The scan of pieces whose braces match. -/
theorem scanBlock_pieces {pieces rest : List Piece} {outer after : Nat}
    (balanced : braces depth pieces = some after)
    (apart : ∀ front back before, pieces = front ++ back → back ≠ [] →
      startsDefault before (maskedOf (back ++ rest)) = startsDefault before (maskedOf back)) :
    scanBlock before (outer + depth + 1) flag (maskedOf (pieces ++ rest)) =
      scanBlock (lastOf before pieces) (outer + after + 1)
        (flag || decide (outer = 0) && defaultsIn before depth pieces) (maskedOf rest) := by
  induction pieces generalizing before depth flag with
  | nil =>
      cases balanced
      simp [lastOf, maskedOf, defaultsIn]
  | cons piece pieces ih =>
      rcases Option.bind_eq_some_iff.mp balanced with ⟨next, here, later⟩
      have apart' : ∀ front back before, pieces = front ++ back → back ≠ [] →
          startsDefault before (maskedOf (back ++ rest)) = startsDefault before
              (maskedOf back) := by
        rintro front back before rfl some
        exact apart (piece :: front) back before rfl some
      have first := apart [] (piece :: pieces) before rfl (List.cons_ne_nil _ _)
      rw [List.cons_append, scanBlock_piece (pieces ++ rest) here outer, ih later apart',
        lastOf_cons, ← List.cons_append, first, defaultsIn, here]
      congr 1
      by_cases outside : outer = 0
      · simp [outside, Bool.or_assoc]
      · simp [outside]

/-- Pieces with nothing that reads as `default`, whatever is behind them. -/
def Silent (pieces rest : List Piece) : Prop :=
  ∀ front back before, pieces = front ++ back → back ≠ [] →
    startsDefault before (maskedOf (back ++ rest)) = false

theorem defaultsIn_silent {pieces : List Piece} (silent : Silent pieces []) :
    defaultsIn before depth pieces = false := by
  induction pieces generalizing before depth with
  | nil => rfl
  | cons piece pieces ih =>
      have here := silent [] (piece :: pieces) before rfl (List.cons_ne_nil _ _)
      rw [List.append_nil] at here
      rw [defaultsIn, here, Bool.and_false, Bool.false_or, ih]
      rintro front back before rfl some
      exact silent (piece :: front) back before rfl some

theorem scanBlock_silent {pieces rest : List Piece} {after : Nat}
    (balanced : braces depth pieces = some after) (silent : ∀ rest,
      Silent pieces rest) (outer : Nat) :
    scanBlock before (outer + depth + 1) flag (maskedOf (pieces ++ rest)) =
      scanBlock (lastOf before pieces) (outer + after + 1) flag (maskedOf rest) := by
  have apart : ∀ front back before, pieces = front ++ back → back ≠ [] →
      startsDefault before (maskedOf (back ++ rest)) = startsDefault before (maskedOf back) := by
    intro front back before split some
    have alone := silent [] front back before split some
    rw [List.append_nil] at alone
    rw [silent rest front back before split some, alone]
  rw [scanBlock_pieces balanced apart, defaultsIn_silent (silent []), Bool.and_false, Bool.or_false]

theorem braces_append (front back : List Piece) :
    braces depth (front ++ back) = (braces depth front).bind fun depth => braces depth back := by
  induction front generalizing depth with
  | nil => rfl
  | cons piece front ih =>
      rw [List.cons_append, braces, braces, Option.bind_assoc]
      exact congrArg _ (funext fun depth => ih)

/-- Pieces without braces. -/
theorem braces_flat {pieces : List Piece}
    (flat : ∀ piece ∈ pieces, piece ≠ .code (.char '\x7b') ∧ piece ≠ .code (.char '\x7d')) :
    braces depth pieces = some depth := by
  induction pieces with
  | nil => rfl
  | cons piece pieces ih =>
      rw [List.forall_mem_cons] at flat
      have here : depthAfter depth piece = some depth := by
        cases piece with
        | code c =>
            have notOpen : c ≠ .char '\x7b' := fun same => flat.1.1 (by rw [same])
            have notClose : c ≠ .char '\x7d' := fun same => flat.1.2 (by rw [same])
            rw [depthAfter, if_neg notOpen, if_neg notClose]
        | _ => rfl
      rw [braces, here, Option.bind_some, ih flat.2]

theorem flat_of_isWhite {piece : Piece} (isWhite : piece.isWhite = true) :
    piece ≠ .code (.char '\x7b') ∧ piece ≠ .code (.char '\x7d') := by
  constructor <;> rintro rfl <;> exact absurd isWhite (by decide)

theorem flat_of_isWord {piece : Piece} (isWord : piece.isWord = true) :
    piece ≠ .code (.char '\x7b') ∧ piece ≠ .code (.char '\x7d') := by
  constructor <;> rintro rfl <;> exact absurd isWord (by decide)

end Scans

section Bodies

variable {before : Option Chr} {flag : Bool} {depth : Nat} {pieces rest : List Piece}

theorem silent_white (white : AllWhite pieces) (rest : List Piece) : Silent pieces rest := by
  rintro front back before rfl some
  cases back with
  | nil => exact absurd rfl some
  | cons piece back =>
      have isWhite := white piece (by simp)
      rw [List.cons_append, maskedOf, List.flatMap_cons]
      cases masked : piece.masked with
      | nil => exact absurd masked (masked_ne_nil piece)
      | cons c others =>
          apply startsDefault_cons
          rintro rfl
          have space := allSpace_of_isWhite isWhite (.char 'd') (by simp [masked])
          exact absurd space (by decide)

theorem scanBlock_white (white : AllWhite pieces) (rest : List Piece) :
    scanBlock before (depth + 1) flag (maskedOf (pieces ++ rest)) =
      scanBlock (lastOf before pieces) (depth + 1) flag (maskedOf rest) :=
  @scanBlock_silent before flag 0 pieces rest 0
    (braces_flat fun piece pieceMem => flat_of_isWhite (white piece pieceMem)) (silent_white white)
    depth

section Head

variable {type : Str} {labels : List (List Piece × List Letter)} {gap : List Piece}

/-- What a head is made of in front of its brace. -/
theorem head_split (isName : IsName type) (labelsInline : ∀ label ∈ labels, AllInline label.1)
    (gapInline : AllInline gap) :
    ∃ front, headPieces type labels gap = front ++ [.code (.char '\x7b')] ∧ ∀ piece ∈ front,
      piece.isWord = true ∨ piece.isWhite = true ∨ ∃ content, piece = .string content := by
  refine ⟨codeOf type ++ (labelPieces labels ++ gap), by simp [headPieces], ?_⟩
  intro piece pieceMem
  simp only [labelPieces, List.mem_append, List.mem_flatMap, List.mem_singleton] at pieceMem
  rcases pieceMem with inType | ⟨label, labelMem, inGap | rfl⟩ | inGap
  · exact .inl (isWord_codeOf isName.2 piece inType)
  · exact .inr (.inl (isWhite_of_isInline (labelsInline label labelMem piece inGap)))
  · exact .inr (.inr ⟨label.2, rfl⟩)
  · exact .inr (.inl (isWhite_of_isInline (gapInline piece inGap)))

theorem equals_not_mem {front : List Piece} (kinds : ∀ piece ∈ front,
    piece.isWord = true ∨ piece.isWhite = true ∨ ∃ content, piece = .string content) :
    .char '=' ∉ maskedOf front := by
  intro equalsMem
  rcases List.mem_flatMap.mp equalsMem with ⟨piece, pieceMem, equalsMem⟩
  rcases kinds piece pieceMem with isWord | isWhite | ⟨content, rfl⟩
  · cases piece with
    | code c =>
        cases List.mem_singleton.mp equalsMem
        exact absurd isWord (by decide)
    | _ => cases isWord
  · exact absurd (allSpace_of_isWhite isWhite _ equalsMem) (by decide)
  · simp only [Piece.masked, List.mem_cons, List.mem_append, List.mem_flatMap, List.not_mem_nil,
      or_false] at equalsMem
    rcases equalsMem with isQuote | ⟨letter, -, inLetter⟩ | isQuote
    · exact absurd isQuote (by decide)
    · cases letter <;> simp [Letter.masked, str] at inLetter
    · exact absurd isQuote (by decide)

/-- The head of a block has no equals sign. -/
theorem silent_head (isName : IsName type) (labelsInline : ∀ label ∈ labels, AllInline label.1)
    (gapInline : AllInline gap) (rest : List Piece) : Silent (headPieces type labels gap) rest := by
  rintro front back before split some
  rcases head_split isName labelsInline gapInline with ⟨others, whole, kinds⟩
  rw [whole] at split
  rcases List.eq_nil_or_concat back with rfl | ⟨inner, last, rfl⟩
  · exact absurd rfl some
  · rw [List.concat_eq_append, ← List.append_assoc] at split
    rcases List.append_inj' split rfl with ⟨rfl, brace⟩
    cases brace
    by_contra starts
    rcases startsDefault_iff.mp (eq_true_of_ne_false starts) with ⟨after, text_eq, -, -, assigns⟩
    have blanks := List.takeWhile_append_dropWhile (p := isBlank) (l := after)
    cases dropped : after.dropWhile isBlank with
    | nil =>
        rw [dropped] at assigns
        cases assigns
    | cons c more =>
        rw [dropped] at assigns blanks
        cases Option.some.inj assigns
        have same : maskedOf inner ++ .char '\x7b' :: maskedOf rest =
            (str "default" ++ after.takeWhile isBlank) ++ .char '=' :: more := by
          rw [List.append_assoc, blanks, ← text_eq]
          simp [maskedOf, Piece.masked]
        rcases mem_or_mem_of_append (by decide) same with equalsMem | openMem
        · exact equals_not_mem (fun piece pieceMem =>
            kinds piece (List.mem_append_right front pieceMem)) equalsMem
        · rcases List.mem_append.mp openMem with inWord | inBlanks
          · exact absurd inWord (by decide)
          · exact absurd (List.mem_takeWhile_imp inBlanks) (by decide)

theorem braces_head (isName : IsName type) (labelsInline : ∀ label ∈ labels, AllInline label.1)
    (gapInline : AllInline gap) : braces 0 (headPieces type labels gap) = some 1 := by
  rcases head_split isName labelsInline gapInline with ⟨others, whole, kinds⟩
  rw [whole, braces_append, braces_flat, Option.bind_some]
  · rfl
  · intro piece pieceMem
    rcases kinds piece pieceMem with isWord | isWhite | ⟨content, rfl⟩
    · exact flat_of_isWord isWord
    · exact flat_of_isWhite isWhite
    · simp

theorem braces_attribute {name : Str} {expr : List Piece} (isName : IsName name)
    (gapInline : AllInline gap) (isExpr : IsExpr expr) :
    braces 0 (attributePieces name gap expr) = some 0 := by
  have equals : braces 0 (.code (.char '=') :: expr) = braces 0 expr := rfl
  rw [attributePieces, braces_append, braces_flat, Option.bind_some, braces_append, braces_flat,
    Option.bind_some, equals]
  · exact isExpr.balanced
  · intro piece pieceMem
    exact flat_of_isWhite (isWhite_of_isInline (gapInline piece pieceMem))
  · intro piece pieceMem
    exact flat_of_isWord (isWord_codeOf isName.2 piece pieceMem)

end Head

theorem defaultsIn_congr {before' : Option Chr} (noToken : before.any isDefaultToken = false)
    (noToken' : before'.any isDefaultToken = false) (pieces : List Piece) :
    defaultsIn before depth pieces = defaultsIn before' depth pieces := by
  cases pieces with
  | nil => rfl
  | cons piece pieces => rw [defaultsIn, defaultsIn, startsDefault_congr noToken noToken']

/-- In front of an item there is white space or the brace of its block. -/
theorem noToken_indent {first : Bool} {indent : List Piece} (isIndent : IsIndent first indent)
    (opened : first = true → before.any isDefaultToken = false) :
    (lastOf before indent).any isDefaultToken = false := by
  rw [lastOf]
  cases last : (maskedOf indent).getLast? with
  | none =>
      have nothing := List.getLast?_eq_none_iff.mp last
      rcases isIndent.2 with isFirst | onLine
      · exact opened isFirst
      · have newlineMem : newline ∈ maskedOf indent :=
          List.mem_flatMap.mpr ⟨_, onLine, List.mem_singleton_self newline⟩
        rw [nothing] at newlineMem
        cases newlineMem
  | some c =>
      have space := allSpace_of_allWhite isIndent.1 c (List.mem_of_getLast? last)
      by_contra token
      have ident : isIdent c = true := by
        simp only [isIdent, Bool.or_eq_true]
        exact .inl (.inl (eq_true_of_ne_false token))
      rw [isSpace_of_isIdent ident] at space
      cases space

/-- What follows an item does not change what it reads as. -/
theorem startsDefault_follows (follows : Follows rest) (before : Option Chr) (pieces : List Piece) :
    startsDefault before (maskedOf (pieces ++ rest)) = startsDefault before (maskedOf pieces) := by
  rw [maskedOf_append]
  apply startsDefault_append
  · intro c first
    cases rest with
    | nil => cases first
    | cons piece rest =>
        rw [maskedOf, List.flatMap_cons, List.head?_append_of_ne_nil _ (masked_ne_nil piece)]
          at first
        rcases follows.starts piece rfl with isWhite | rfl
        · exact .inl (allSpace_of_isWhite isWhite c (List.mem_of_mem_head? first))
        · exact .inr (Option.some.inj first).symm
  · intro assigns
    have split := List.takeWhile_append_dropWhile (p := isBlank) (l := maskedOf rest)
    cases dropped : (maskedOf rest).dropWhile isBlank with
    | nil =>
        rw [dropped] at assigns
        cases assigns
    | cons c more =>
        rw [dropped] at assigns split
        cases Option.some.inj assigns
        have space : AllSpace ((maskedOf rest).takeWhile isBlank) := fun c cMem =>
          isSpace_of_isBlank (List.mem_takeWhile_imp cMem)
        have solid : isSpace (.char '=') = false := by decide
        rcases exists_white space solid split.symm with ⟨whites, later, rfl, white, -, begins⟩
        rcases exists_code (by decide) (by decide) begins with ⟨later, rfl, -⟩
        have first := follows.solid (.code (.char '=')) (by
          rw [firstSolid_append white]
          rfl)
        rcases first with ⟨c, isCode, kind⟩
        cases isCode
        exact absurd kind (by decide)

theorem lastOf_append (front back : List Piece) :
    lastOf (lastOf before front) back = lastOf before (front ++ back) := by
  rw [lastOf, lastOf, lastOf, maskedOf_append, List.getLast?_append, Option.or_assoc]

/-- The brace that closes a block. -/
theorem scanBlock_close (pieces : List Piece) :
    scanBlock before (depth + 1) flag (maskedOf (.code (.char '\x7d') :: pieces)) =
      scanBlock (some (.char '\x7d')) depth flag (maskedOf pieces) := by
  have whole : maskedOf (.code (.char '\x7d') :: pieces) = .char '\x7d' :: maskedOf pieces := rfl
  rw [whole, scanBlock, if_neg (by decide), if_pos rfl]

/-- The scan of some items. -/
theorem scanBlock_body {body : Body} {first : Bool} (wellFormed : body.WellFormed first)
    (follows : Follows rest) (opened : first = true → before.any isDefaultToken = false) :
    scanBlock before (depth + 1) flag (maskedOf (body.pieces ++ rest)) =
      scanBlock (lastOf before body.pieces) (depth + 1)
        (flag || decide (depth = 0) && body.readsDefault) (maskedOf rest) := by
  induction body generalizing before flag depth rest first with
  | nil => simp [Body.pieces, Body.readsDefault, lastOf, maskedOf]
  | attr indent name gap expr others ih =>
      rcases wellFormed with ⟨isIndent, isName, gapInline, isExpr, othersFormed⟩
      have follows' := follows_body othersFormed follows
      have parts : Body.pieces (.attr indent name gap expr others) ++ rest =
          indent ++ (attributePieces name gap expr ++ (others.pieces ++ rest)) := by
        simp [Body.pieces]
      have noToken := noToken_indent isIndent opened
      have own : defaultsIn (lastOf before indent) 0 (attributePieces name gap expr) =
          defaultsIn none 0 (attributePieces name gap expr) := defaultsIn_congr noToken rfl _
      have overAttribute := @scanBlock_pieces (lastOf before indent) flag 0
        (attributePieces name gap expr) (others.pieces ++ rest) depth 0
        (braces_attribute isName gapInline isExpr)
        (fun _ back before _ _ => startsDefault_follows follows' before back)
      rw [parts, scanBlock_white isIndent.1]
      rw [own] at overAttribute
      refine overAttribute.trans ?_
      rw [Nat.add_zero, ih othersFormed follows (by simp), lastOf_append, lastOf_append,
        Body.readsDefault]
      congr 1
      by_cases outside : depth = 0
      · simp [outside, Bool.or_assoc]
      · simp [outside]
  | block indent type labels gap inner close others ihInner ihOthers =>
      rcases wellFormed with
        ⟨isIndent, isName, labelsInline, gapInline, innerFormed, closeWhite, othersFormed⟩
      have parts : Body.pieces (.block indent type labels gap inner close others) ++ rest =
          indent ++ (headPieces type labels gap ++ (inner.pieces ++ (close ++
            .code (.char '\x7d') :: (others.pieces ++ rest)))) := by
        simp [Body.pieces]
      have opens : (lastOf (lastOf before indent) (headPieces type labels gap)).any isDefaultToken =
          false := by
        rcases head_split isName labelsInline gapInline with ⟨front, whole, -⟩
        rw [whole, ← lastOf_append]
        rfl
      have overHead := @scanBlock_silent (lastOf before indent) flag 0 (headPieces type labels gap)
        (inner.pieces ++ (close ++ .code (.char '\x7d') :: (others.pieces ++ rest))) 1
        (braces_head isName labelsInline gapInline) (silent_head isName labelsInline gapInline)
          depth
      have overInner := @ihInner (lastOf (lastOf before indent) (headPieces type labels gap)) flag
        (depth + 1) (close ++ .code (.char '\x7d') :: (others.pieces ++ rest)) true innerFormed
        (follows_close closeWhite _) (fun _ => opens)
      have last : lastOf (some (.char '\x7d')) others.pieces =
          lastOf before (Body.block indent type labels gap inner close others).pieces := by
        have split : (Body.block indent type labels gap inner close others).pieces =
            (indent ++ (headPieces type labels gap ++ (inner.pieces ++ close))) ++
              .code (.char '\x7d') :: others.pieces := by
          simp [Body.pieces]
        rw [split, ← lastOf_append, lastOf_cons]
        rfl
      rw [parts, scanBlock_white isIndent.1]
      refine overHead.trans (overInner.trans ?_)
      have nested : decide (depth + 1 = 0) = false := by simp
      rw [nested, Bool.false_and, Bool.or_false, scanBlock_white closeWhite, scanBlock_close,
        ihOthers othersFormed follows (by simp), last, Body.readsDefault]

/-- The scan of a block from its opening brace on. -/
theorem scanBlock_inner {body : Body} {close : List Piece} (wellFormed : body.WellFormed true)
    (closeWhite : AllWhite close) (rest : List Piece) :
    scanBlock (some (.char '\x7b')) 1 false
      (maskedOf (body.pieces ++ (close ++ .code (.char '\x7d') :: rest))) = some
          body.readsDefault := by
  have overBody := @scanBlock_body (some (.char '\x7b')) false 0
      (close ++ .code (.char '\x7d') :: rest)
    body true wellFormed (follows_close closeWhite rest) (fun _ => rfl)
  refine overBody.trans ?_
  rw [scanBlock_white closeWhite, scanBlock_close, scanBlock]
  rfl

end Bodies

end VariableWiring
