import Mathlib.Data.List.Forall2
import TelemetryPlatform.Library.Python

/-!
# Conditions of the OpenTelemetry transformation language

The conditions without parentheses and `not`: a disjunction of conjunctions of tests, where
a test compares what is at a path with a string or is a constant. A string has no escapes
here. What is at a path is known by the strings it is equal to, so that a path at which
there is nothing is unequal to every string.

`parse_and` and `parse_or` read back the conditions that are joined from tests.
-/

namespace Ottl

open Python

inductive Token where
  | word (name : Str)
  | text (value : Str)
  | dot
  | opening
  | closing
  | equal
  | unequal
deriving DecidableEq

/-- What the lexer is reading. -/
inductive Mode where
  | blank
  | word (read : Str)
  | text (read : Str)
  | operator (negated : Bool)
deriving DecidableEq

/-- The characters of names and constants. -/
def isWordChr : Chr → Bool
  | .char c => c.isAlphanum || c == '_'
  | .surrogate _ => false

/-- The character begins a token. -/
def begin (c : Chr) : Option (List Token × Mode) :=
  if c = .char ' ' then some ([], .blank)
  else if c = .char '"' then some ([], .text [])
  else if c = .char '.' then some ([.dot], .blank)
  else if c = .char '[' then some ([.opening], .blank)
  else if c = .char ']' then some ([.closing], .blank)
  else if c = .char '=' then some ([], .operator false)
  else if c = .char '!' then some ([], .operator true)
  else if isWordChr c then some ([], .word [c])
  else none

/-- The tokens that end at a character, and what is read behind it. -/
def next (c : Chr) : Mode → Option (List Token × Mode)
  | .blank => begin c
  | .word read =>
      if isWordChr c then some ([], .word (read ++ [c]))
      else (begin c).map fun begun => (.word read :: begun.1, begun.2)
  | .text read =>
      if c = .char '"' then some ([.text read], .blank)
      else if c = .char '\\' then none
      else some ([], .text (read ++ [c]))
  | .operator negated =>
      if c = .char '=' then some ([if negated then .unequal else .equal], .blank) else none

def run : Mode → Str → Option (List Token × Mode)
  | mode, [] => some ([], mode)
  | mode, c :: rest => do
      let (ended, mode) ← next c mode
      let (tokens, mode) ← run mode rest
      return (ended ++ tokens, mode)

/-- The tokens of a text. -/
def lex (text : Str) : Option (List Token) := do
  let (tokens, mode) ← run .blank text
  match mode with
  | .blank => return tokens
  | .word read => return tokens ++ [.word read]
  | .text _ | .operator _ => none

/-- `name.name["key"]`. -/
structure Path where
  names : List Str
  keys : List Str
deriving DecidableEq

inductive Test where
  | constant (value : Bool)
  | compare (negated : Bool) (path : Path) (value : Str)
deriving DecidableEq

/-- A disjunction of conjunctions. -/
abbrev Condition := List (List Test)

def parseKeys : List Token → List Str × List Token
  | .opening :: .text key :: .closing :: rest =>
      let (keys, rest) := parseKeys rest
      (key :: keys, rest)
  | rest => ([], rest)

def parseNames : List Token → List Str × List Token
  | .dot :: .word name :: rest =>
      let (names, rest) := parseNames rest
      (name :: names, rest)
  | rest => ([], rest)

def parsePath : List Token → Option (Path × List Token)
  | .word name :: rest =>
      let (names, rest) := parseNames rest
      let (keys, rest) := parseKeys rest
      some (⟨name :: names, keys⟩, rest)
  | _ => none

def parseTest (tokens : List Token) : Option Test :=
  if tokens = [.word (str "true")] then some (.constant true)
  else if tokens = [.word (str "false")] then some (.constant false)
  else
    match parsePath tokens with
    | some (path, [.equal, .text value]) => some (.compare false path value)
    | some (path, [.unequal, .text value]) => some (.compare true path value)
    | _ => none

def andToken : Token := .word (str "and")

def orToken : Token := .word (str "or")

def parse (text : Str) : Option Condition := do
  let tokens ← lex text
  (tokens.splitOn orToken).mapM fun part => (part.splitOn andToken).mapM parseTest

section Meaning

/-- Whether what is at a path is a string. -/
abbrev Reading := Path → Str → Bool

def Test.holds (is : Reading) : Test → Bool
  | .constant value => value
  | .compare negated path value => is path value != negated

def Condition.holds (is : Reading) (condition : Condition) : Bool :=
  condition.any fun tests => tests.all (Test.holds is)

end Meaning

section Texts

variable {mode middle : Mode} {first second value : Str} {tokens : List Token}

theorem run_trans {others : List Token} {last : Mode}
    (front : run mode first = some (tokens, middle))
    (behind : run middle second = some (others, last)) :
    run mode (first ++ second) = some (tokens ++ others, last) := by
  induction first generalizing mode tokens with
  | nil =>
      cases front
      exact behind
  | cons c first ih =>
      simp only [run, Option.bind_eq_bind, Option.bind_eq_some_iff] at front
      rcases front with ⟨ended, ended_eq, read, ran, same⟩
      cases same
      simp only [List.cons_append, run, ended_eq, Option.bind_eq_bind, Option.bind_some, ih ran]
      simp

/-- A text without quotes and escapes. -/
def Plain (text : Str) : Prop := ∀ c ∈ text, c ≠ .char '"' ∧ c ≠ .char '\\'

theorem run_text (plain : Plain value) (read : Str) :
    run (.text read) value = some ([], .text (read ++ value)) := by
  induction value generalizing read with
  | nil => simp [run]
  | cons c value ih =>
      have noQuote := (plain c List.mem_cons_self).1
      have noEscape := (plain c List.mem_cons_self).2
      have rest : Plain value := fun other otherMem => plain other (List.mem_cons_of_mem _ otherMem)
      simp only [run, next, if_neg noQuote, if_neg noEscape, Option.bind_eq_bind, Option.bind_some,
        ih rest]
      simp

/-- A string between quotes. -/
theorem run_quoted (front : run mode first = some (tokens, .text [])) (plain : Plain value) :
    run mode (first ++ (value ++ [.char '"'])) = some (tokens ++ [.text value], .blank) := by
  have closes : run (.text value) [.char '"'] = some ([.text value], .blank) := by
    simp [run, next]
  have inner := run_trans (run_text plain []) closes
  exact run_trans front inner

/-- The text of a test, which ends where the next token may begin. -/
def Reads (text : Str) (test : Test) : Prop :=
  ∃ tokens, run .blank text = some (tokens, .blank) ∧ parseTest tokens = some test ∧
    andToken ∉ tokens ∧ orToken ∉ tokens

end Texts

section Joined

variable {texts : List Str} {tests : List Test}

/-- The tokens of texts that are joined by a word. -/
theorem run_intercalate {word : Token} {separator : Str} {parts : List (List Token)}
    (separates : run .blank separator = some ([word], .blank))
    (read : List.Forall₂ (fun text tokens => run .blank text = some (tokens, .blank)) texts parts) :
    run .blank (separator.intercalate texts) = some ([word].intercalate parts, .blank) := by
  induction read with
  | nil => rfl
  | cons first others ih =>
      cases others with
      | nil => simpa using first
      | cons second others =>
          rw [List.intercalate_cons_cons, List.intercalate_cons_cons]
          exact run_trans (run_trans first separates) ih

theorem exists_parts (read : List.Forall₂ Reads texts tests) : ∃ parts,
    List.Forall₂ (fun text tokens => run .blank text = some (tokens, .blank)) texts parts ∧
      parts.mapM parseTest = some tests ∧ ∀ part ∈ parts, andToken ∉ part ∧ orToken ∉ part := by
  induction read with
  | nil => exact ⟨[], .nil, rfl, by simp⟩
  | cons first others ih =>
      rcases first with ⟨tokens, ran, parsed, noAnd, noOr⟩
      rcases ih with ⟨parts, rans, all, noWords⟩
      refine ⟨tokens :: parts, .cons ran rans, ?_, ?_⟩
      · simp [List.mapM_cons, parsed, all]
      · exact List.forall_mem_cons.mpr ⟨⟨noAnd, noOr⟩, noWords⟩

theorem not_mem_intercalate {word other : Token} (differs : other ≠ word)
    {parts : List (List Token)} (absent : ∀ part ∈ parts, other ∉ part) :
    other ∉ [word].intercalate parts := by
  induction parts with
  | nil => exact List.not_mem_nil
  | cons first parts ih =>
      rcases List.forall_mem_cons.mp absent with ⟨notFirst, rest⟩
      cases parts with
      | nil => simpa using notFirst
      | cons second parts =>
          rw [List.intercalate_cons_cons]
          simp only [List.mem_append, List.mem_singleton, not_or]
          exact ⟨⟨notFirst, differs⟩, ih rest⟩

theorem lex_of_run {text : Str} {tokens : List Token}
    (ran : run .blank text = some (tokens, .blank)) : lex text = some tokens := by
  simp [lex, ran]

/-- Tests joined by `and` are one conjunction. -/
theorem parse_and (read : List.Forall₂ Reads texts tests) (nonempty : texts ≠ []) :
    parse ((str " and ").intercalate texts) = some [tests] := by
  rcases exists_parts read with ⟨parts, rans, parsed, noWords⟩
  have ran := run_intercalate (show run .blank (str " and ") = some ([andToken], .blank) by decide)
    rans
  have partsNonempty : parts ≠ [] := by
    rintro rfl
    cases rans
    exact nonempty rfl
  have noOr : orToken ∉ [andToken].intercalate parts :=
    not_mem_intercalate (by decide) fun part partMem => (noWords part partMem).2
  have splits : ([andToken].intercalate parts).splitOn andToken = parts :=
    List.splitOn_intercalate andToken (fun part partMem => (noWords part partMem).1) partsNonempty
  simp [parse, lex_of_run ran, List.splitOn_eq_singleton noOr, splits, parsed]

/-- Tests joined by `or` are one disjunction. -/
theorem parse_or (read : List.Forall₂ Reads texts tests) (nonempty : texts ≠ []) :
    parse ((str " or ").intercalate texts) = some (tests.map fun test => [test]) := by
  rcases exists_parts read with ⟨parts, rans, parsed, noWords⟩
  have ran := run_intercalate (show run .blank (str " or ") = some ([orToken], .blank) by decide)
    rans
  have partsNonempty : parts ≠ [] := by
    rintro rfl
    cases rans
    exact nonempty rfl
  have splits : ([orToken].intercalate parts).splitOn orToken = parts :=
    List.splitOn_intercalate orToken (fun part partMem => (noWords part partMem).2) partsNonempty
  have single : parts.mapM (fun part => (part.splitOn andToken).mapM parseTest) =
      some (tests.map fun test => [test]) := by
    clear ran rans partsNonempty splits nonempty read
    induction parts generalizing tests with
    | nil =>
        cases parsed
        rfl
    | cons part parts ih =>
        rcases List.forall_mem_cons.mp noWords with ⟨⟨noAnd, -⟩, rest⟩
        simp only [List.mapM_cons, Option.bind_eq_bind, Option.bind_eq_some_iff] at parsed
        rcases parsed with ⟨test, parsedPart, others, parsedRest, same⟩
        cases same
        simp [List.mapM_cons, List.splitOn_eq_singleton noAnd, parsedPart, ih parsedRest rest]
  simp [parse, lex_of_run ran, splits, single]

end Joined

end Ottl
