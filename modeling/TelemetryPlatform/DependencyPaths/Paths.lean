import Mathlib.Data.List.Infix
import TelemetryPlatform.DependencyPaths.Validate
import TelemetryPlatform.Library.HclDocument

/-!
# The paths of dependencies

`Matches` says what a path with interpolations leads to when each of them is read as one
segment: a directory is at the place of some names, one for each segment, that the
segments spell. A path that is `Plain` is read in the same way by the validator.
-/

namespace DependencyPaths

open Python Hcl

section Reading

/-- The character that an escape stands for, and the opener that a doubled one does. -/
def escapeValue : Str → Str
  | [.char '\\', .char 'n'] => [newline]
  | [.char '\\', .char 'r'] => str "\r"
  | [.char '\\', .char 't'] => str "\t"
  | text => text.tail

/-- What a letter stands for; an interpolation is read by `Spells`. -/
def value : Letter → Str
  | .chr c => [c]
  | .escape text => escapeValue text
  | .interpolation _ => []

def isSlash : Letter → Bool
  | .chr c => decide (c = .char '/')
  | _ => false

/-- The letters between the slashes of a path. -/
def segments (path : List Letter) : List (List Letter) := path.splitOnP isSlash

def isAbsolute (path : List Letter) : Bool := path.head?.any isSlash

/-- The letters spell a name when the interpolations stand for some texts. -/
def Spells : List Letter → Str → Prop
  | [], name => name = []
  | .interpolation _ :: letters, name => ∃ front back, name = front ++ back ∧ Spells letters back
  | letter :: letters, name => ∃ back, name = value letter ++ back ∧ Spells letters back

/-- The names that a segment leads through: one that is spelled by it if it has an interpolation,
and its own otherwise, if it is neither empty nor a dot. -/
def ReadsSegment (segment : List Letter) (names : List Part) : Prop :=
  if segment.any isInterpolation then
    ∃ name : Part, names = [name] ∧ name ≠ up ∧ Spells segment name.val
  else names = (part? (segment.flatMap value)).toList

def Reads : List (List Letter) → List Part → Prop
  | [], names => names = []
  | segment :: segments, names =>
      ∃ own others, names = own ++ others ∧ ReadsSegment segment own ∧ Reads segments others

/-- A path matches an existing directory when each interpolation is read as one segment. -/
def Matches (tree : LiveTree) (unitDir : List Part) (path : List Letter) : Prop :=
  ∃ names, Reads (segments path) names ∧
    tree.IsDir ((PosixPath.mk (isAbsolute path) names).place unitDir)

/-- A path in which the validator sees the interpolations that it has, and nothing else that means
something in a glob pattern. -/
structure Plain (path : List Letter) : Prop where
  noEscape : ∀ text, .escape text ∉ path
  closes : ∀ body, .interpolation body ∈ path → body ≠ [] ∧ .char '\x7d' ∉ body
  noMagic : path.any isInterpolation = true → ∀ c, .chr c ∈ path → IsPlain c
  apart : ∀ first second, [.interpolation first, .interpolation second] ∉ segments path

end Reading

section Interpolations

variable {passed text rest : Str} {groups after : List (Nat × Str)} {path : List Letter}
  {idents : WordClass}

theorem reads_interpolationRe : interpolationRe.Reads passed text rest groups after ↔
    ∃ body, text = str "$\x7b" ++ (body ++ str "\x7d") ∧ body ≠ [] ∧ .char '\x7d' ∉ body ∧
      after = groups := by
  have notClose (body : Str) : (∀ c ∈ body, inBlock c = true) ↔ .char '\x7d' ∉ body := all_ne_iff
  simp only [interpolationRe, reads_cons, reads_nil, reads_word, reads_oneOrMore_one, notClose]
  constructor
  · rintro ⟨_, _, _, rfl, ⟨rfl, rfl⟩, body, _, _, rfl, ⟨nonempty, absent, rfl⟩, _, _, _, rfl,
      ⟨rfl, rfl⟩, rfl, rfl⟩
    exact ⟨body, by simp, nonempty, absent, rfl⟩
  · rintro ⟨body, rfl, nonempty, absent, rfl⟩
    exact ⟨str "$\x7b", _, _, rfl, ⟨rfl, rfl⟩, body, _, _, rfl, ⟨nonempty, absent, rfl⟩,
      str "\x7d", [], _, by simp, ⟨rfl, rfl⟩, rfl, rfl⟩

/-- No interpolation begins with a character that is none of a brace's opener. -/
theorem matchAt_chr {c : Chr} (plain : c = .char '$' → rest.head? ≠ some (.char '\x7b')) :
    interpolationRe.matchAt passed (c :: rest) = none := by
  apply matchAt_eq_none.mpr
  intro text back after split reads
  rcases reads_interpolationRe.mp reads with ⟨body, rfl, -⟩
  rcases List.cons.inj split with ⟨rfl, rfl⟩
  exact plain rfl rfl

theorem matchAt_interpolation {body : Str} (nonempty : body ≠ []) (absent : .char '\x7d' ∉ body) :
    ∃ found, interpolationRe.matchAt passed ((Letter.interpolation body).text ++ rest) =
      some found ∧ found.text = (Letter.interpolation body).text := by
  have isFound : (interpolationRe.matchAt passed
      ((Letter.interpolation body).text ++ rest)).isSome = true :=
    matchAt_isSome.mpr ⟨_, rest, [], rfl,
      reads_interpolationRe.mpr ⟨body, rfl, nonempty, absent, rfl⟩⟩
  rcases Option.isSome_iff_exists.mp isFound with ⟨found, matched⟩
  refine ⟨found, matched, ?_⟩
  rcases reads_of_matchAt matched with ⟨-, ahead, -, reads⟩
  rcases reads_interpolationRe.mp reads with ⟨other, whole, -, absent', -⟩
  have inside (text : Str) (none : Chr.char '\x7d' ∉ text) :
      ∀ c ∈ text, decide (c ≠ .char '\x7d') = true := by
    intro c cMem
    apply decide_eq_true
    rintro rfl
    exact none cMem
  rw [whole, Letter.text] at ahead
  simp only [List.append_assoc] at ahead
  have bodies : body ++ .char '\x7d' :: rest = other ++ .char '\x7d' :: found.stop.ahead :=
    List.append_cancel_left ahead
  rcases span_cons_unique (inside body absent) (inside other absent') (by simp) (by simp)
    bodies with ⟨rfl, -, -⟩
  exact whole

/-- The character of a letter in the glob pattern of a path. -/
def glyph : Letter → Chr
  | .chr c => c
  | _ => .char '*'

theorem head?_ne_of_fits {content : List Letter} {rest : Str}
    (plain : (lettersText content ++ quote :: rest).head? ≠ some (.char '\x7b')) :
    (lettersText content).head? ≠ some (.char '\x7b') := by
  cases text : lettersText content with
  | nil => simp
  | cons c text' =>
      rw [text] at plain
      exact plain

/-- The substitution replaces the interpolations of a path. -/
theorem subFrom_path (fits : LettersFit idents path (quote :: rest))
    (noEscape : ∀ text, .escape text ∉ path)
    (closes : ∀ body, .interpolation body ∈ path → body ≠ [] ∧ .char '\x7d' ∉ body) :
    interpolationRe.subFrom (str "*") passed 0 (lettersText path) = path.map glyph := by
  induction path generalizing passed with
  | nil => rfl
  | cons letter path ih =>
      have others := @ih ((Letter.text letter).reverse ++ passed) fits.2
        (fun text textMem => noEscape text (List.mem_cons_of_mem _ textMem))
        (fun body bodyMem => closes body (List.mem_cons_of_mem _ bodyMem))
      cases letter with
      | chr c =>
          have none : interpolationRe.matchAt passed (c :: lettersText path) = none := by
            apply matchAt_chr
            intro isDollar
            exact head?_ne_of_fits (fits.1.2.2.2 (.inl isDollar))
          rw [lettersText_cons, List.map_cons, ← others]
          exact subFrom_of_none none
      | escape text => exact absurd List.mem_cons_self (noEscape text)
      | interpolation body =>
          rcases closes body List.mem_cons_self with ⟨nonempty, absent⟩
          rcases @matchAt_interpolation passed (lettersText path) body nonempty absent with
            ⟨found, matched, whole⟩
          rw [lettersText_cons, List.map_cons, ← others,
            subFrom_of_matchAt (by simp [Letter.text, str]) matched whole]
          rfl

/-- The search finds an interpolation if there is one. -/
theorem isSome_searchFrom_path (fits : LettersFit idents path (quote :: rest))
    (noEscape : ∀ text, .escape text ∉ path)
    (closes : ∀ body, .interpolation body ∈ path → body ≠ [] ∧ .char '\x7d' ∉ body) :
    (interpolationRe.searchFrom passed (lettersText path)).isSome = path.any isInterpolation := by
  induction path generalizing passed with
  | nil =>
      have none : interpolationRe.matchAt passed [] = none := by
        apply matchAt_eq_none.mpr
        intro text back after split reads
        rcases reads_interpolationRe.mp reads with ⟨body, rfl, -⟩
        cases split
      rw [lettersText_nil, Pattern.searchFrom, none]
      rfl
  | cons letter path ih =>
      have others := @ih ((Letter.text letter).reverse ++ passed) fits.2
        (fun text textMem => noEscape text (List.mem_cons_of_mem _ textMem))
        (fun body bodyMem => closes body (List.mem_cons_of_mem _ bodyMem))
      cases letter with
      | chr c =>
          have none : interpolationRe.matchAt passed (c :: lettersText path) = none := by
            apply matchAt_chr
            intro isDollar
            exact head?_ne_of_fits (fits.1.2.2.2 (.inl isDollar))
          have apart : isInterpolation (.chr c) = false := rfl
          rw [lettersText_cons, List.any_cons, apart, Bool.false_or, ← others]
          change (interpolationRe.searchFrom passed (c :: lettersText path)).isSome = _
          rw [Pattern.searchFrom, none]
          rfl
      | escape text => exact absurd List.mem_cons_self (noEscape text)
      | interpolation body =>
          rcases closes body List.mem_cons_self with ⟨nonempty, absent⟩
          rcases @matchAt_interpolation passed (lettersText path) body nonempty absent with
            ⟨found, matched, -⟩
          rw [lettersText_cons, searchFrom_of_matchAt matched]
          rfl

end Interpolations

section Segments

theorem splitOnP_map {α β : Type} {p : β → Bool} {f : α → β} (items : List α) :
    (items.map f).splitOnP p = (items.splitOnP (p ∘ f)).map (List.map f) := by
  induction items with
  | nil => rfl
  | cons item items ih =>
      rw [List.map_cons, List.splitOnP_cons_eq_if_modifyHead,
        List.splitOnP_cons_eq_if_modifyHead, ih, Function.comp_apply]
      split_ifs
      · rfl
      · cases items.splitOnP (p ∘ f) <;> rfl

theorem not_of_mem_splitOnP {α : Type} {p : α → Bool} {items piece : List α} {item : α}
    (pieceMem : piece ∈ items.splitOnP p) (itemMem : item ∈ piece) :
    p item = false ∧ item ∈ items := by
  induction items generalizing piece with
  | nil =>
      rw [List.splitOnP_nil, List.mem_singleton] at pieceMem
      rw [pieceMem] at itemMem
      cases itemMem
  | cons head items ih =>
      rw [List.splitOnP_cons_eq_if_modifyHead] at pieceMem
      split_ifs at pieceMem with isSeparator
      · rcases List.mem_cons.mp pieceMem with rfl | later
        · cases itemMem
        · rcases ih later itemMem with ⟨other, inside⟩
          exact ⟨other, List.mem_cons_of_mem head inside⟩
      · cases split : items.splitOnP p with
        | nil =>
            rw [split] at pieceMem
            cases pieceMem
        | cons first pieces =>
            rw [split, List.modifyHead_cons, List.mem_cons] at pieceMem
            rw [split] at ih
            rcases pieceMem with rfl | later
            · rcases List.mem_cons.mp itemMem with rfl | inside
              · exact ⟨eq_false_of_ne_true isSeparator, List.mem_cons_self⟩
              · rcases ih List.mem_cons_self inside with ⟨other, inside⟩
                exact ⟨other, List.mem_cons_of_mem head inside⟩
            · rcases ih (List.mem_cons_of_mem first later) itemMem with ⟨other, inside⟩
              exact ⟨other, List.mem_cons_of_mem head inside⟩

variable {path segment : List Letter} {name : Str}

/-- The parts of a glob pattern are those of the segments. -/
theorem parts_glyph : (PosixPath.ofText (path.map glyph)).parts =
    (segments path).filterMap fun segment => part? (segment.map glyph) := by
  have slashes : (· == Chr.char '/') ∘ glyph = isSlash := by
    funext letter
    rw [Function.comp_apply, Bool.eq_iff_iff, beq_iff_eq]
    cases letter <;> simp [glyph, isSlash]
  rw [PosixPath.ofText]
  dsimp only
  rw [List.splitOn_eq_splitOnP, splitOnP_map, slashes, List.filterMap_map]
  rfl

/-- A segment without escapes and interpolations is its own pattern. -/
theorem map_glyph (noEscape : ∀ text, .escape text ∉ segment)
    (own : segment.any isInterpolation = false) :
    segment.map glyph = segment.flatMap value := by
  induction segment with
  | nil => rfl
  | cons letter segment ih =>
      rw [List.any_cons, Bool.or_eq_false_iff] at own
      have others := ih (fun text textMem => noEscape text (List.mem_cons_of_mem _ textMem)) own.2
      rw [List.map_cons, List.flatMap_cons, others]
      cases letter with
      | chr c => rfl
      | escape text => exact absurd List.mem_cons_self (noEscape text)
      | interpolation body => cases own.1

/-- What the pattern of a segment matches is spelled by the segment. -/
theorem spells_of_matchParts (noEscape : ∀ text, .escape text ∉ segment)
    (plain : ∀ c, .chr c ∈ segment → IsPlain c)
    (matched : matchParts (globParts (segment.map glyph)) name = true) : Spells segment name := by
  induction segment generalizing name with
  | nil =>
      rw [List.map_nil, globParts, matchParts] at matched
      exact List.isEmpty_iff.mp matched
  | cons letter segment ih =>
      have later {back : Str} := @ih back
        (fun text textMem => noEscape text (List.mem_cons_of_mem _ textMem))
        (fun c cMem => plain c (List.mem_cons_of_mem _ cMem))
      cases letter with
      | chr c =>
          have parts := @globParts_append [c] (segment.map glyph)
            (by simpa using plain c List.mem_cons_self)
          change matchParts (globParts ([c] ++ segment.map glyph)) name = true at matched
          rw [parts, matchParts_literal] at matched
          rcases matched with ⟨back, rfl, matched⟩
          exact ⟨back, rfl, later matched⟩
      | escape text => exact absurd List.mem_cons_self (noEscape text)
      | interpolation body =>
          change matchParts (globParts (.char '*' :: segment.map glyph)) name = true at matched
          rw [globParts, if_pos rfl, matchParts, List.any_eq_true] at matched
          rcases matched with ⟨back, isTail, matched⟩
          rcases (List.mem_tails back name).mp isTail with ⟨front, rfl⟩
          exact ⟨front, back, rfl, later matched⟩

/-- The part of a segment's pattern is there, and means something, where the segment has an
interpolation. -/
theorem hasMagic_glyph (noEscape : ∀ text, .escape text ∉ segment)
    (plain : ∀ c, .chr c ∈ segment → IsPlain c) :
    hasMagic (segment.map glyph) = segment.any isInterpolation := by
  induction segment with
  | nil => rfl
  | cons letter segment ih =>
      have others := ih (fun text textMem => noEscape text (List.mem_cons_of_mem _ textMem))
        (fun c cMem => plain c (List.mem_cons_of_mem _ cMem))
      rw [hasMagic] at others ⊢
      rw [List.map_cons, List.any_cons, List.any_cons, others]
      cases letter with
      | chr c => simp [glyph, isInterpolation, plain c List.mem_cons_self]
      | escape text => exact absurd List.mem_cons_self (noEscape text)
      | interpolation body =>
          have star : decide (¬IsPlain (glyph (.interpolation body))) = true := by
            simp [glyph, IsPlain]
          rw [star]
          rfl

theorem part?_of_hasMagic {text : Str} (noSlash : .char '/' ∉ text) (magic : hasMagic text = true) :
    ∃ part, part? text = some part ∧ part.val = text := by
  have isPart : IsPart text := by
    refine ⟨?_, ?_, noSlash⟩
    · rintro rfl
      cases magic
    · rintro rfl
      exact absurd magic (by decide)
  exact ⟨⟨text, isPart⟩, dif_pos isPart, rfl⟩

theorem val_of_part? {text : Str} {part : Part} (found : part? text = some part) :
    part.val = text := by
  rw [part?] at found
  split_ifs at found with isPart
  rw [← Option.some.inj found]

/-- The names that stand for the parts of a glob pattern are read from the segments. -/
theorem reads_of_standsFor {pieces : List (List Letter)} {names : List Part}
    (noEscape : ∀ piece ∈ pieces, ∀ text, .escape text ∉ piece)
    (plain : ∀ piece ∈ pieces, ∀ c, .chr c ∈ piece → IsPlain c)
    (noSlash : ∀ piece ∈ pieces, .char '/' ∉ piece.map glyph)
    (stand : List.Forall₂ StandsFor (pieces.filterMap fun piece => part? (piece.map glyph)) names) :
    Reads pieces names := by
  induction pieces generalizing names with
  | nil =>
      cases stand
      rfl
  | cons piece pieces ih =>
      rw [List.forall_mem_cons] at noEscape plain noSlash
      have magic := hasMagic_glyph noEscape.1 plain.1
      have later {names : List Part} := @ih names noEscape.2 plain.2 noSlash.2
      rw [List.filterMap_cons] at stand
      by_cases own : piece.any isInterpolation = true
      · rw [own] at magic
        rcases part?_of_hasMagic noSlash.1 magic with ⟨part, isPart, val_eq⟩
        rw [isPart] at stand
        rcases List.forall₂_cons_left_iff.mp stand with ⟨name, others, stands, standFor, rfl⟩
        rw [StandsFor, val_eq, if_pos magic] at stands
        refine ⟨[name], others, rfl, ?_, later standFor⟩
        rw [ReadsSegment, if_pos own]
        exact ⟨name, rfl, stands.1, spells_of_matchParts noEscape.1 plain.1 stands.2⟩
      · rw [eq_false_of_ne_true own] at magic
        have text := map_glyph noEscape.1 (eq_false_of_ne_true own)
        refine ⟨(part? (piece.flatMap value)).toList, ?_⟩
        rw [ReadsSegment, if_neg own, ← text]
        cases isPart : part? (piece.map glyph) with
        | none =>
            rw [isPart] at stand
            exact ⟨names, rfl, rfl, later stand⟩
        | some part =>
            rw [isPart] at stand
            rcases List.forall₂_cons_left_iff.mp stand with ⟨name, others, stands, standFor, rfl⟩
            rw [StandsFor, val_of_part? isPart, magic, if_neg Bool.false_ne_true] at stands
            exact ⟨others, by rw [stands]; rfl, rfl, later standFor⟩

/-- A path without interpolations leads through its own names. -/
theorem reads_own {pieces : List (List Letter)} {names : List Part}
    (noEscape : ∀ piece ∈ pieces, ∀ text, .escape text ∉ piece)
    (own : ∀ piece ∈ pieces, piece.any isInterpolation = false) :
    Reads pieces names ↔ names = pieces.filterMap fun piece => part? (piece.map glyph) := by
  induction pieces generalizing names with
  | nil => exact Iff.rfl
  | cons piece pieces ih =>
      rw [List.forall_mem_cons] at noEscape own
      have others {names : List Part} := @ih names noEscape.2 own.2
      have first (names : List Part) :
          ReadsSegment piece names ↔ names = (part? (piece.map glyph)).toList := by
        rw [ReadsSegment, own.1, if_neg Bool.false_ne_true, ← map_glyph noEscape.1 own.1]
      rw [List.filterMap_cons]
      simp only [Reads, first, others]
      constructor
      · rintro ⟨_, _, rfl, rfl, rfl⟩
        cases part? (piece.map glyph) <;> rfl
      · rintro rfl
        refine ⟨_, _, ?_, rfl, rfl⟩
        cases part? (piece.map glyph) <;> rfl

end Segments

section Acceptance

variable {idents : WordClass} {tree : LiveTree} {hclFile unitDir : List Part} {path : List Letter}
  {rest : Str}

theorem noEscape_segments (plain : Plain path) :
    ∀ piece ∈ segments path, ∀ text, .escape text ∉ piece := by
  intro piece pieceMem text textMem
  exact plain.noEscape text (not_of_mem_splitOnP pieceMem textMem).2

theorem absolute_glyph (path : List Letter) :
    (PosixPath.ofText (path.map glyph)).absolute = isAbsolute path := by
  rcases path with _ | ⟨letter, path⟩
  · rfl
  · cases letter <;> simp [PosixPath.ofText, isAbsolute, isSlash, glyph]

theorem own_segments (own : path.any isInterpolation = false) :
    ∀ piece ∈ segments path, piece.any isInterpolation = false := by
  intro piece pieceMem
  rw [List.any_eq_false] at own ⊢
  intro letter letterMem
  exact own letter (not_of_mem_splitOnP pieceMem letterMem).2

theorem lettersText_own (plain : Plain path) (own : path.any isInterpolation = false) :
    lettersText path = path.map glyph := by
  rw [map_glyph plain.noEscape own, lettersText]
  apply List.flatMap_congr
  intro letter letterMem
  cases letter with
  | chr c => rfl
  | escape text => exact absurd letterMem (plain.noEscape text)
  | interpolation body => exact absurd rfl (List.any_eq_false.mp own _ letterMem)

/-- A path without interpolations matches a directory where it leads to one. -/
theorem matches_own (plain : Plain path) (own : path.any isInterpolation = false) :
    Matches tree unitDir path ↔
      tree.IsDir ((PosixPath.ofText (lettersText path)).place unitDir) := by
  have whole : PosixPath.ofText (path.map glyph) = ⟨isAbsolute path,
      (segments path).filterMap fun segment => part? (segment.map glyph)⟩ := by
    rw [← parts_glyph, ← absolute_glyph]
  rw [lettersText_own plain own, whole, Matches]
  simp only [reads_own (noEscape_segments plain) (own_segments own), exists_eq_left]

/-- The parts of the glob pattern of a path with interpolations are none that matches at any
depth. -/
theorem anyDepth_not_mem (plain : Plain path) (some : path.any isInterpolation = true) :
    anyDepth ∉ (segments path).filterMap fun segment => part? (segment.map glyph) := by
  intro inside
  rcases List.mem_filterMap.mp inside with ⟨segment, segmentMem, isPart⟩
  have stars : segment.map glyph = [.char '*', .char '*'] := (val_of_part? isPart).symm
  have isInterp {letter : Letter} (letterMem : letter ∈ segment)
      (star : glyph letter = .char '*') : ∃ body, letter = .interpolation body := by
    have inPath := (not_of_mem_splitOnP segmentMem letterMem).2
    cases letter with
    | chr c =>
        have isPlain := plain.noMagic some c inPath
        exact absurd star isPlain.1
    | escape text => exact absurd inPath (plain.noEscape text)
    | interpolation body => exact ⟨body, rfl⟩
  have length := congrArg List.length stars
  rcases segment with _ | ⟨first, _ | ⟨second, _ | ⟨third, segment⟩⟩⟩
  · cases length
  · cases length
  · rcases List.cons.inj stars with ⟨firstStar, others⟩
    rcases isInterp List.mem_cons_self firstStar with ⟨body, rfl⟩
    rcases isInterp (List.mem_cons_of_mem _ List.mem_cons_self) (List.cons.inj others).1 with
      ⟨body', rfl⟩
    exact plain.apart body body' segmentMem
  · simp at length

/-- What the validator accepts matches, unless it is a file. -/
theorem matches_of_accepted (fits : LettersFit idents path (quote :: rest)) (plain : Plain path)
    (accepted : validateDependencyPath tree hclFile (lettersText path) = .ok ())
    (noFile : path.any isInterpolation = false →
      tree.Exists ((PosixPath.ofText (lettersText path)).place hclFile.tail) →
      tree.IsDir ((PosixPath.ofText (lettersText path)).place hclFile.tail)) :
    Matches tree hclFile.tail path := by
  have searched : (interpolationRe.search (lettersText path)).isSome = path.any isInterpolation :=
    isSome_searchFrom_path fits plain.noEscape plain.closes
  have substituted : interpolationRe.sub (str "*") (lettersText path) = path.map glyph :=
    subFrom_path fits plain.noEscape plain.closes
  simp only [validateDependencyPath, searched, substituted] at accepted
  by_cases some : path.any isInterpolation = true
  · rw [if_pos some, absolute_glyph, parts_glyph] at accepted
    split_ifs at accepted with absolute found
    rcases found with ⟨place, matched, isDir⟩
    rcases DirTree.exists_of_mem_glob (anyDepth_not_mem plain some) matched with
      ⟨names, stand, rfl⟩
    refine ⟨names, reads_of_standsFor (noEscape_segments plain) ?_ ?_ stand, ?_⟩
    · intro piece pieceMem c cMem
      exact plain.noMagic some c (not_of_mem_splitOnP pieceMem cMem).2
    · intro piece pieceMem slashMem
      rcases List.mem_map.mp slashMem with ⟨letter, letterMem, isSlash_eq⟩
      have noSlash := (not_of_mem_splitOnP pieceMem letterMem).1
      cases letter with
      | chr c => simp [isSlash, ← isSlash_eq, glyph] at noSlash
      | _ => simp [glyph] at isSlash_eq
    · rw [eq_false_of_ne_true absolute]
      exact isDir
  · have own := eq_false_of_ne_true some
    rw [if_neg some] at accepted
    split_ifs at accepted with found
    exact (matches_own plain own).mpr (noFile own found)

end Acceptance

end DependencyPaths
