import TelemetryPlatform.Library.Regex
import TelemetryPlatform.Release.Version

/-!
# The title of a pull request

`parse_pr_title` of `scripts/validate_pr_title.py` reads a conventional-commit title and
derives the bump of the release from its type and its breaking mark.

The white space around a title is no part of it, and neither are the blank lines of a
message in front of its subject, nor the rest of the message behind it.
`bumpOf_headD` states this of the subject that the release reads from a message.
-/

namespace Release

open Python

section Title

/-- The types of a new feature. -/
def minorTypes : List Str :=
  [str "feat", str "perf", str "build", str "ci", str "revert", str "release", str "meta",
    str "module"]

def patchTypes : List Str :=
  [str "fix", str "chore", str "docs", str "style", str "refactor", str "test"]

def validCommitTypes : List Str := minorTypes ++ patchTypes

/-- `repr(sorted(VALID_COMMIT_TYPES))`. -/
def validTypesText : Str :=
  str ("['build', 'chore', 'ci', 'docs', 'feat', 'fix', 'meta', 'module', 'perf', 'refactor', " ++
    "'release', 'revert', 'style', 'test']")

structure ParsedTitle where
  commitType : Str
  scope : Option Str
  breaking : Bool
  description : Str
  bump : BumpType
deriving DecidableEq

inductive TitleError where
  | empty
  | noMatch (title : Str)
  | unrecognized (commitType title : Str)
deriving DecidableEq

def TitleError.message (rt : Runtime) : TitleError → Str
  | .empty =>
      str ("ERROR: PR title is empty.\n" ++
        "A conventional-commit title is required (e.g. 'feat: add rotation').\n" ++
        "Ensure the PR title follows the conventional-commit format.")
  | .noMatch title =>
      str "ERROR: PR title " ++ rt.reprStr title ++
        str (" does not match the conventional-commit pattern.\n" ++
          "Expected format: <type>[(<scope>)][!]: <description>\nValid types: ") ++
        validTypesText ++ str "\nExample: 'feat(kms-key): add key rotation support'"
  | .unrecognized commitType title =>
      str "ERROR: Unrecognized commit type " ++ rt.reprStr commitType ++ str " in title " ++
        rt.reprStr title ++ str ".\nValid types: " ++ validTypesText ++
        str "\nUse a recognized conventional-commit type."

/-- A part that may be left out. -/
def maybe (part : Pattern) : Pattern := .either part .empty

/-- The pattern of a title without its end. -/
def ccPattern : Pattern :=
  .sequence
    [.group 1 (.oneOrMore (.one fun c => 0x61 ≤ c.code ∧ c.code ≤ 0x7a)),
      maybe (.sequence
        [.word (str "("), .group 2 (.oneOrMore (.one (· ≠ .char ')'))), .word (str ")")]),
      maybe (.group 3 (.word (str "!"))),
      .word (str ":"), .oneOrMore (.one isSpace), .group 4 (.oneOrMore (.one (· ≠ newline)))]

/-- `_CC_PATTERN.match`: the first match that `$` accepts the end of. -/
def matchTitle (title : Str) : Option Match :=
  ((ccPattern.ends ⟨[], title, []⟩).find? fun stop =>
    stop.ahead = [] ∨ stop.ahead = [newline]).map (Match.mk ⟨[], title, []⟩)

/-- `_derive_bump`. -/
def deriveBump (commitType : Str) (breaking : Bool) : BumpType :=
  if breaking then .major
  else if commitType ∈ minorTypes then .minor
  else .patch

def parsePrTitle (title : Str) : Except TitleError ParsedTitle :=
  if strip title = [] then .error .empty
  else
    match matchTitle (strip title) with
    | none => .error (.noMatch title)
    | some found =>
        let commitType := (found.group 1).getD []
        let breaking := found.group 3 = some (str "!")
        if commitType ∈ validCommitTypes then
          .ok ⟨commitType, found.group 2, breaking, (found.group 4).getD [],
            deriveBump commitType breaking⟩
        else .error (.unrecognized commitType title)

/-- The bump of a title that is accepted. -/
def bumpOf (title : Str) : Option BumpType := (parsePrTitle title).toOption.map ParsedTitle.bump

example : bumpOf (str " feat(kms-key)!: rotate\n") = some .major := by decide +kernel

end Title

section Subject

/-- The lines of a message that are not blank. -/
def solidLines (message : Str) : List Str := (splitlines message).filter fun line => strip line ≠ []

theorem bumpOf_congr {left right : Str} (same : strip left = strip right) :
    bumpOf left = bumpOf right := by
  rw [bumpOf, bumpOf, parsePrTitle, parsePrTitle, same]
  split
  · rfl
  · split
    · rfl
    · dsimp only
      split
      · rfl
      · rfl

theorem isSpace_of_endsLine {c : Chr} (ends : endsLine c = true) : isSpace c = true := by
  simp only [endsLine, isSpace, decide_eq_true_eq, List.mem_cons, List.not_mem_nil, or_false]
    at ends ⊢
  tauto

theorem strip_cons {c : Chr} (space : isSpace c = true) (text : Str) :
    strip (c :: text) = strip text := by
  rw [strip, strip, List.dropWhile_cons_of_pos space]

theorem strip_cons_ne_nil {c : Chr} (solid : ¬isSpace c = true) (text : Str) :
    strip (c :: text) ≠ [] := by
  rw [strip, List.dropWhile_cons_of_neg solid]
  intro empty
  have all := List.dropWhile_eq_nil_iff.mp (List.reverse_eq_nil_iff.mp empty)
  exact solid (all c (List.mem_reverse.mpr List.mem_cons_self))

/-- White space behind a text is no part of what is left of it. -/
theorem strip_append {spaces : Str} (blank : ∀ c ∈ spaces, isSpace c = true) (text : Str) :
    strip (text ++ spaces) = strip text := by
  by_cases solid : text.dropWhile isSpace = []
  · have all : (text ++ spaces).dropWhile isSpace = [] := by
      rw [List.dropWhile_eq_nil_iff] at solid ⊢
      intro c cMem
      rcases List.mem_append.mp cMem with inText | inSpaces
      · exact solid c inText
      · exact blank c inSpaces
    rw [strip, strip, all, solid]
  · have kept : (text ++ spaces).dropWhile isSpace = text.dropWhile isSpace ++ spaces := by
      rw [List.dropWhile_append, if_neg (by simpa using solid)]
    rw [strip, strip, kept, List.reverse_append, List.dropWhile_append_of_pos]
    simpa using blank

/-- The first line of a text ends at the first character that ends a line. -/
theorem head?_splitlines {text : Str} (nonempty : text ≠ []) :
    (splitlines text).head? = some (text.takeWhile fun c => !endsLine c) := by
  induction text using splitlines.induct with
  | case1 => exact absurd rfl nonempty
  | case2 rest _ => simp [splitlines, endsLine, Chr.code]
  | case3 c rest apart ends _ =>
      rw [splitlines, if_pos ends]
      · simp [ends]
      · exact apart
  | case4 c rest apart goes blank ih =>
      have last : rest = [] := by
        by_contra more
        have first := ih more
        rw [blank] at first
        cases first
      rw [splitlines, if_neg goes, blank, last]
      · simp [goes]
      · exact apart
  | case5 c rest apart goes line lines found ih =>
      rw [splitlines, if_neg goes, found]
      · have more : rest ≠ [] := by
          rintro rfl
          cases found
        have first := ih more
        rw [found, List.head?_cons, Option.some.injEq] at first
        simp [goes, first]
      · exact apart

/-- White space in front of a message is no part of its first line that is not blank. -/
theorem head?_solidLines_cons {c : Chr} (space : isSpace c = true) (rest : Str) :
    (solidLines (c :: rest)).head?.map strip = (solidLines rest).head?.map strip := by
  have single : strip [c] = [] := strip_cons space []
  unfold solidLines
  generalize whole : c :: rest = message
  fun_cases splitlines message with
  | case1 => cases whole
  | case2 behind =>
      cases whole
      -- the newline alone ends the same line as the pair
      rw [splitlines, if_pos (by decide)]
      nofun
  | case3 d others apart ends =>
      cases whole
      rfl
  | case4 d others apart goes blank =>
      cases whole
      rw [blank]
      simp [single]
  | case5 d others apart goes line lines found =>
      cases whole
      rw [found]
      by_cases empty : strip line = []
      · simp [strip_cons space, empty]
      · simp [strip_cons space, empty]

theorem head?_solidLines_dropWhile (message : Str) :
    (solidLines message).head?.map strip =
      (solidLines (message.dropWhile isSpace)).head?.map strip := by
  induction message with
  | nil => rfl
  | cons c rest ih =>
      by_cases space : isSpace c = true
      · rw [head?_solidLines_cons space, ih, List.dropWhile_cons_of_pos space]
      · rw [List.dropWhile_cons_of_neg space]

/-- A text that begins with no white space begins with a line that is not blank. -/
theorem head?_solidLines {c : Chr} (solid : ¬isSpace c = true) (rest : Str) :
    (solidLines (c :: rest)).head? = some ((c :: rest).takeWhile fun d => !endsLine d) := by
  have goes : ¬endsLine c = true := fun ends => solid (isSpace_of_endsLine ends)
  have first := head?_splitlines (List.cons_ne_nil c rest)
  cases lines : splitlines (c :: rest) with
  | nil =>
      rw [lines] at first
      cases first
  | cons line others =>
      rw [lines, List.head?_cons, Option.some.injEq] at first
      have nonblank : strip line ≠ [] := by
        rw [first, List.takeWhile_cons_of_pos (by simpa using goes)]
        exact strip_cons_ne_nil solid _
      rw [solidLines, lines, List.filter_cons_of_pos (by simpa using nonblank),
        List.head?_cons, first]

/-- The characters that a text loses at its end are white space. -/
theorem exists_spaces (text : Str) : ∃ spaces : Str, (∀ c ∈ spaces, isSpace c = true) ∧
    text.dropWhile isSpace = strip text ++ spaces := by
  refine ⟨(text.dropWhile isSpace).rtakeWhile isSpace, fun c cMem => ?_, ?_⟩
  · exact List.mem_rtakeWhile_imp cMem
  · exact (List.rdropWhile_append_rtakeWhile ..).symm

/-- The bump of the first line that is not blank is the same for a message and for what is left
of it without the white space around it. -/
theorem bumpOf_headD {message : Str} (solid : strip message ≠ []) :
    bumpOf ((solidLines (strip message)).headD (strip message)) =
      ((solidLines message).head?.bind bumpOf) := by
  rcases exists_spaces message with ⟨spaces, blank, split⟩
  rcases List.exists_cons_of_ne_nil solid with ⟨c, rest, stripped⟩
  rw [stripped, List.cons_append] at split
  have begins : ¬isSpace c = true := by
    have first := List.head?_dropWhile_not isSpace message
    rw [split] at first
    simpa using first
  -- the first line of the message, and of what is left of it
  have front := head?_solidLines_dropWhile message
  rw [split, head?_solidLines begins, Option.map_some] at front
  rcases Option.map_eq_some_iff.mp front with ⟨line, found, same⟩
  have line_eq : strip line = strip ((c :: rest).takeWhile fun d => !endsLine d) := by
    rw [same, ← List.cons_append]
    by_cases whole : ∀ d ∈ c :: rest, (!endsLine d) = true
    · rw [List.takeWhile_append_of_pos whole, List.takeWhile_eq_self_iff.mpr whole]
      exact strip_append (fun d dMem => blank d ((List.takeWhile_prefix _).subset dMem)) _
    · rw [List.takeWhile_append, if_neg]
      intro complete
      apply whole
      apply List.takeWhile_eq_self_iff.mp
      exact (List.takeWhile_prefix _).eq_of_length complete
  rw [stripped, List.headD_eq_head?_getD, head?_solidLines begins, found, Option.getD_some,
    Option.bind_some]
  exact bumpOf_congr line_eq.symm

end Subject

end Release
