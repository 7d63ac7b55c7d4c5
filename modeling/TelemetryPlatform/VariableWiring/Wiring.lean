import TelemetryPlatform.VariableWiring.Defaults

/-!
# The required variables of a file

`Wired` says that the mask keeps what it has to, that the variables that are parsed
are those that a file declares, and that the new required variables of a revision are
those that are required there and were not declared before. What is parsed is what
the headers read as, the last of each name.
-/

namespace VariableWiring

open Python
open Deploy (strLe strLe_trans strLe_total strLe_antisymm)

section Parses

/-- The name that the text of a header reads as. -/
def headerName (header : Str) : Option Str :=
  (variableName.search header).map fun nameMatch => (nameMatch.group 1).getD []

/-- What the headers of a file read as. -/
def Body.readings (body : Body) : List (Str × Bool) :=
  body.headers.filterMap fun header =>
    (headerName header.1).map fun name => (name, header.2.readsDefault)

/-- What the header of a block reads as. -/
def reading (header : Str × Body) : Except HclParseError (Str × Bool) :=
  match headerName header.1 with
  | none => .error .noName
  | some name => .ok (name, header.2.readsDefault)

theorem textOf_append (front back : List Piece) : textOf (front ++ back) = textOf front ++
    textOf back :=
  List.flatMap_append

theorem readHeader_eq {pieces : List Piece} {found : Match} {header : Str × Body}
    (lexed : Lexed pieces) (isHeader : IsHeaderOf pieces found header) :
    readHeader (textOf pieces) (maskedOf pieces) found = reading header := by
  rcases isHeader with
    ⟨front, head, close, rest, split, closeWhite, innerFormed, offset, stop, text_eq, others, brace⟩
  have split' : pieces = (front ++ head) ++ (header.2.pieces ++ (close ++
      .code (.char '\x7d') :: rest)) := by
    rw [split, List.append_assoc]
  have frontLength := @length_front front _ (split ▸ lexed)
  have headLength := @length_front (front ++ head) _ (split' ▸ lexed)
  have slice : ((textOf pieces).take found.stopOffset).drop found.offset = header.1 := by
    rw [offset, stop, headLength, frontLength, split', textOf_append (front ++ head),
      List.take_left, textOf_append, List.drop_left]
    exact text_eq
  have last : ((maskedOf pieces).take found.stopOffset).getLast? = some (.char '\x7b') := by
    rw [stop, split', maskedOf_append (front ++ head), List.take_left, brace, ← List.append_assoc,
      maskedOf_append]
    exact List.getLast?_concat
  have behind : (maskedOf pieces).drop found.stopOffset = maskedOf (header.2.pieces ++ (close ++
      .code (.char '\x7d') :: rest)) := by
    rw [stop, split', maskedOf_append (front ++ head), List.drop_left]
  rw [readHeader, slice, last, behind, scanBlock_inner innerFormed closeWhite, reading, headerName]
  cases variableName.search header.1 <;> rfl

theorem findFrom_nil_header (passed : Str) : variableHeader.findFrom passed 0 [] = [] := by
  have nowhere : variableHeader.matchAt passed [] = none := by
    apply matchAt_eq_none.mpr
    intro text rest after nothing reads
    rcases reads_variableHeader.mp reads with ⟨gap, inner, brace, rfl, -⟩
    cases nothing
  rw [Pattern.findFrom, if_pos rfl, nowhere]
  rfl

theorem mapM_forall₂ {α β γ ε : Type} {related : α → β → Prop} {first : α → Except ε γ}
    {second : β → Except ε γ} {items : List α} {others : List β}
    (pairs : List.Forall₂ related items others)
    (same : ∀ item other, related item other → first item = second other) :
    items.mapM first = others.mapM second := by
  induction pairs with
  | nil => rfl
  | cons pair _ ih => rw [List.mapM_cons, List.mapM_cons, same _ _ pair, ih]

variable {file : VariablesFile}

/-- What a file is parsed to. -/
theorem parseVariableBlocks_eq : parseVariableBlocks
    file.text = (file.body.headers.mapM reading).map
    (dictWrites []) := by
  have split : file.pieces = [] ++ (file.body.pieces ++ file.tail) := rfl
  rcases findFrom_body file.wellFormed (follows_tail file.tailWhite) split file.lexed with
    ⟨founds, found, headers⟩
  have overTail := @findFrom_white [] ([] ++ file.body.pieces) file.tail
    (by simpa using lexed_append file.lexed) file.tailWhite
  rw [List.append_nil] at overTail
  have none : variableHeader.findFrom (maskedOf ([] ++ file.body.pieces)).reverse 0
      (maskedOf file.tail) = [] := overTail.trans (findFrom_nil_header _)
  have whole : variableHeader.finditer (maskedOf file.pieces) = founds := by
    rw [none, List.append_nil] at found
    exact found
  have each : founds.mapM (readHeader (textOf file.pieces) (maskedOf file.pieces)) =
      file.body.headers.mapM reading := by
    apply mapM_forall₂ headers
    intro found header isHeader
    exact readHeader_eq file.lexed isHeader
  have masked : maskHcl (textOf file.pieces) = maskedOf file.pieces := mask_pieces file.lexed
  rw [parseVariableBlocks, VariablesFile.text, masked, whole, each]
  cases file.body.headers.mapM reading <;> rfl

/-- The headers of a file are read where each has a name. -/
theorem mapM_reading_iff {headers : List (Str × Body)} {declared : List (Str × Bool)} :
    headers.mapM reading = .ok declared ↔
      (∀ header ∈ headers, headerName header.1 ≠ none) ∧
        declared = headers.filterMap fun header =>
          (headerName header.1).map fun name => (name, header.2.readsDefault) := by
  induction headers generalizing declared with
  | nil =>
      rw [List.mapM_nil, List.filterMap_nil]
      constructor
      · rintro ⟨⟩
        exact ⟨fun _ mem => absurd mem List.not_mem_nil, rfl⟩
      · rintro ⟨-, rfl⟩
        rfl
  | cons header headers ih =>
      rw [List.mapM_cons, bind_eq_ok, List.forall_mem_cons, reading]
      cases name : headerName header.1 with
      | none => simp
      | some name' =>
          rw [List.filterMap_cons_some (by rw [name]; rfl)]
          constructor
          · rintro ⟨first, ⟨⟩, others⟩
            rcases bind_eq_ok.mp others with ⟨rest, read, ⟨⟩⟩
            rcases ih.mp read with ⟨named, rfl⟩
            exact ⟨⟨by simp, named⟩, rfl⟩
          · rintro ⟨⟨-, named⟩, rfl⟩
            refine ⟨_, rfl, bind_eq_ok.mpr ⟨_, ih.mpr ⟨named, rfl⟩, rfl⟩⟩

end Parses

section Revisions

variable (file : VariablesFile)

/-- The variables that are parsed are those that the file declares. -/
def ParsesRight : Prop :=
  ∃ parsed, parseVariableBlocks file.text = .ok parsed ∧ ∀ name hasDefault,
    (name, hasDefault) ∈ parsed ↔ ∃ block, (name, block) ∈ file.body.variables ∧
      block.hasDefault = hasDefault

/-- Each header has a name, and the last that reads as a name is that of the variable. -/
structure ReadsRight : Prop where
  named : ∀ header ∈ file.body.headers, headerName header.1 ≠ none
  last : ∀ name hasDefault, dictGet? file.body.readings.reverse name = some hasDefault ↔
    ∃ block, (name, block) ∈ file.body.variables ∧ block.hasDefault = hasDefault

variable {file}

theorem parsesRight_iff : ParsesRight file ↔ ReadsRight file := by
  rw [ParsesRight, parseVariableBlocks_eq]
  constructor
  · rintro ⟨parsed, read, exact'⟩
    cases result : file.body.headers.mapM reading with
    | error error =>
        rw [result] at read
        cases read
    | ok declared =>
        rw [result] at read
        cases read
        rcases mapM_reading_iff.mp result with ⟨named, rfl⟩
        refine ⟨named, fun name hasDefault => ?_⟩
        rw [← exact', mem_dictWrites_nil]
        rfl
  · rintro ⟨named, last⟩
    refine ⟨dictWrites [] file.body.readings, ?_, fun name hasDefault => ?_⟩
    · rw [mapM_reading_iff.mpr ⟨named, rfl⟩]
      rfl
    · rw [← last, mem_dictWrites_nil]

variable (base : Option VariablesFile) (head : VariablesFile)

/-- A variable that is required in a revision and was not declared before. -/
def NewlyRequired (name : Str) : Prop :=
  (∃ block, (name, block) ∈ head.body.variables ∧ block.hasDefault = false) ∧
    ∀ before ∈ base, name ∉ before.body.variables.map Prod.fst

/-- The mask and the parser are right about both revisions, and so are the new required
variables. -/
structure Wired : Prop where
  masks : ∀ file ∈ head :: base.toList, MasksRight file.pieces
  parses : ∀ file ∈ head :: base.toList, ParsesRight file
  required : ∀ name, name ∈ newRequiredVariables (base.map (·.text)) head.text ↔
    NewlyRequired base head name
  sorted : (newRequiredVariables (base.map (·.text)) head.text).Pairwise fun name other =>
    strLe name other = true ∧ name ≠ other

variable {base head}

theorem nodup_of_parsed {text : Str} {parsed : List (Str × Bool)}
    (read : parseVariableBlocks text = .ok parsed) : (parsed.map Prod.fst).Nodup := by
  rcases bind_eq_ok.mp read with ⟨declared, -, ⟨⟩⟩
  exact nodup_keys_dictWrites_nil declared

theorem sorted_newRequiredVariables {baseText : Option Str} {headText : Str} :
    (newRequiredVariables baseText headText).Pairwise fun name other =>
      strLe name other = true ∧ name ≠ other := by
  rw [newRequiredVariables]
  split
  · next headVars baseVars readHead readBase =>
      have sorted := List.pairwise_mergeSort strLe_trans strLe_total
        ((headVars.filter fun entry => !entry.2 && decide (entry.1 ∉ baseVars.map Prod.fst)).map
          Prod.fst)
      have nodup := ((nodup_of_parsed readHead).sublist
        ((List.filter_sublist (p := fun entry : Str × Bool =>
          !entry.2 && decide (entry.1 ∉ baseVars.map Prod.fst))).map Prod.fst))
      have distinct := (List.mergeSort_perm _ strLe).nodup_iff.mpr nodup
      exact sorted.and distinct
  · exact .nil

theorem mem_names {file : VariablesFile} {parsed : List (Str × Bool)} (name : Str)
    (exact' : ∀ name hasDefault, (name, hasDefault) ∈ parsed ↔
      ∃ block, (name, block) ∈ file.body.variables ∧ block.hasDefault = hasDefault) :
    name ∈ parsed.map Prod.fst ↔ name ∈ file.body.variables.map Prod.fst := by
  constructor
  · intro nameMem
    rcases List.mem_map.mp nameMem with ⟨⟨_, hasDefault⟩, entryMem, rfl⟩
    rcases (exact' _ hasDefault).mp entryMem with ⟨block, blockMem, -⟩
    exact List.mem_map.mpr ⟨_, blockMem, rfl⟩
  · intro nameMem
    rcases List.mem_map.mp nameMem with ⟨⟨_, block⟩, blockMem, rfl⟩
    exact List.mem_map.mpr ⟨_, (exact' _ block.hasDefault).mpr ⟨block, blockMem, rfl⟩, rfl⟩

theorem mem_newRequiredVariables (parses : ∀ file ∈ head :: base.toList, ParsesRight file)
    (name : Str) : name ∈ newRequiredVariables (base.map (·.text)) head.text ↔
      NewlyRequired base head name := by
  rcases parses head List.mem_cons_self with ⟨headVars, readHead, exactHead⟩
  have readBase : ∃ baseVars, ((base.map (·.text)).map parseVariableBlocks).getD (.ok []) =
      .ok baseVars ∧ (name ∈ baseVars.map Prod.fst ↔
        ∃ before ∈ base, name ∈ before.body.variables.map Prod.fst) := by
    cases base with
    | none => exact ⟨[], rfl, by simp⟩
    | some before =>
        rcases parses before (by simp) with ⟨baseVars, read, exactBase⟩
        refine ⟨baseVars, read, ?_⟩
        rw [mem_names name exactBase]
        simp
  rcases readBase with ⟨baseVars, readBase, named⟩
  rw [newRequiredVariables, readHead, readBase]
  simp only [List.mem_mergeSort, List.mem_map (f := Prod.fst), List.mem_filter, Bool.and_eq_true,
    Bool.not_eq_true', decide_eq_true_eq]
  constructor
  · rintro ⟨⟨_, _⟩, ⟨entryMem, rfl, new⟩, rfl⟩
    refine ⟨(exactHead _ false).mp entryMem, fun before beforeMem nameMem => ?_⟩
    exact new (List.mem_map.mp (named.mpr ⟨before, beforeMem, nameMem⟩))
  · rintro ⟨declared, new⟩
    refine ⟨(name, false), ⟨(exactHead name false).mpr declared, rfl, fun nameMem => ?_⟩, rfl⟩
    rcases named.mp (List.mem_map.mpr nameMem) with ⟨before, beforeMem, inBefore⟩
    exact new before beforeMem inBefore

/-- When the required variables of a revision are found. -/
theorem wired_iff : Wired base head ↔ ∀ file ∈ head :: base.toList, ReadsRight file := by
  constructor
  · intro wired file fileMem
    exact parsesRight_iff.mp (wired.parses file fileMem)
  · intro reads
    have parses : ∀ file ∈ head :: base.toList, ParsesRight file := fun file fileMem =>
      parsesRight_iff.mpr (reads file fileMem)
    exact ⟨fun file _ => masksRight file.lexed, parses, mem_newRequiredVariables parses,
      sorted_newRequiredVariables⟩

end Revisions

section CommentedHeader

instance (pieces : List Piece) : Decidable (AllWhite pieces) :=
  inferInstanceAs (Decidable (∀ piece ∈ pieces, piece.isWhite = true))

instance (pieces : List Piece) : Decidable (AllInline pieces) :=
  inferInstanceAs (Decidable (∀ piece ∈ pieces, piece.isInline = true))

instance (name : Str) : Decidable (IsName name) :=
  inferInstanceAs (Decidable (name ≠ [] ∧ ∀ c ∈ name, isIdent c = true))

instance (letter : Letter) : Decidable (Piece.Plain letter) :=
  match letter with
  | .plain c => inferInstanceAs (Decidable (c ≠ quote ∧ c ≠ .char '\\' ∧ c ≠ newline))
  | .escaped c => inferInstanceAs (Decidable (c ≠ newline))

instance (piece : Piece) (rest : Str) : Decidable (piece.Fits rest) :=
  match piece with
  | .code c => inferInstanceAs (Decidable (c ≠ quote ∧ c ≠ .char '#' ∧ (c = .char '/' →
      rest.head? ≠ some (.char '/') ∧ rest.head? ≠ some (.char '*'))))
  | .hashComment body => inferInstanceAs (Decidable (newline ∉ body ∧
    (_ ∨ rest.head? = some newline)))
  | .slashComment body => inferInstanceAs (Decidable (newline ∉ body ∧
    (_ ∨ rest.head? = some newline)))
  | .blockComment body => inferInstanceAs (Decidable ¬Contains (str "*/") (body ++ str "*"))
  | .string content => inferInstanceAs (Decidable (∀ letter ∈ content, Piece.Plain letter))

instance decidableLexed : (pieces : List Piece) → Decidable (Lexed pieces)
  | [] => .isTrue trivial
  | piece :: pieces =>
      have := decidableLexed pieces
      inferInstanceAs (Decidable (piece.Fits (textOf pieces) ∧ Lexed pieces))

/-- `variable /* note */ "x" { }`, on two lines. -/
def commentedFile : VariablesFile where
  body := .block [] (str "variable") [([.code (.char ' '), .blockComment (str " note "),
    .code (.char ' ')], [.plain (.char 'x')])] [.code (.char ' ')] .nil [.code newline] .nil
  tail := [.code newline]
  wellFormed := ⟨⟨by decide, .inl rfl⟩, by decide, by decide, by decide,
    trivial, by decide, trivial⟩
  tailWhite := by decide
  lexed := by decide
  named := by decide
  distinct := by decide

/-- A comment in a header keeps the file from being parsed. -/
theorem not_wired_commented : ¬Wired none commentedFile := by
  intro wired
  rcases wired.parses commentedFile List.mem_cons_self with ⟨parsed, read, -⟩
  have error : (parseVariableBlocks commentedFile.text).isOk = false := by decide +kernel
  rw [read] at error
  cases error

end CommentedHeader

end VariableWiring
