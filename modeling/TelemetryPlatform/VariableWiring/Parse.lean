import TelemetryPlatform.Deploy.Partition
import TelemetryPlatform.Library.Dict
import TelemetryPlatform.Library.Hcl

/-!
# The variables of a module

`scripts/check_required_var_wiring.py` blanks the comments and strings of a
`variables.tf`, finds the headers of its `variable` blocks in what is left, reads
their names from the text and looks for a `default` attribute in each block.
-/

namespace VariableWiring

open Python
open Deploy (strLe)

section Masking

/-- What the scan of a text is in. -/
inductive Mode where
  | code
  | lineComment
  | blockComment
  | string

/-- What a character of a comment or a string is replaced by. -/
def blank (c : Chr) : Chr := if c = newline then newline else .char ' '

/-- The text from a place on, where the scan of what is in front of it ends in a mode. -/
def mask : Mode → Str → Str
  | _, [] => []
  | .code, .char '#' :: rest => .char ' ' :: mask .lineComment rest
  | .code, .char '/' :: .char '/' :: rest => .char ' ' :: .char ' ' :: mask .lineComment rest
  | .code, .char '/' :: .char '*' :: rest => .char ' ' :: .char ' ' :: mask .blockComment rest
  | .code, .char '"' :: rest => .char '"' :: mask .string rest
  | .code, c :: rest => c :: mask .code rest
  | .lineComment, .char '\n' :: rest => newline :: mask .code rest
  | .lineComment, _ :: rest => .char ' ' :: mask .lineComment rest
  | .blockComment, .char '*' :: .char '/' :: rest => .char ' ' :: .char ' ' :: mask .code rest
  | .blockComment, c :: rest => blank c :: mask .blockComment rest
  | .string, .char '"' :: rest => .char '"' :: mask .code rest
  | .string, .char '\\' :: _ :: rest => .char ' ' :: .char ' ' :: mask .string rest
  | .string, c :: rest => blank c :: mask .string rest

def maskHcl (text : Str) : Str := mask .code text

end Masking

section Parsing

def inName (c : Chr) : Bool := c ≠ quote ∧ c ≠ newline

/-- `variable\s+"[^"\n]*"\s*\{`, with the name as group 1. -/
def headerParts (name : Pattern) : List Pattern :=
  [.word (str "variable"), .oneOrMore (.one isSpace), .word [quote], name, .word [quote], .spaces,
    .word (str "\x7b")]

def variableHeader : Pattern := .sequence (headerParts (.many (.one inName)))

def variableName : Pattern := .sequence (headerParts (.group 1 (.many (.one inName))))

/-- `[A-Za-z0-9_]`. -/
def isDefaultToken (c : Chr) : Bool :=
  decide (0x41 ≤ c.code ∧ c.code ≤ 0x5a ∨ 0x61 ≤ c.code ∧ c.code ≤ 0x7a ∨
    0x30 ≤ c.code ∧ c.code ≤ 0x39 ∨ c.code = 0x5f)

def isBlank (c : Chr) : Bool := decide (c = .char ' ' ∨ c = .char '\t')

/-- Whether the attribute `default` stands in front of a text, with the character before it. -/
def startsDefault (before : Option Chr) (ahead : Str) : Bool :=
  match ahead.dropPrefix? (str "default") with
  | none => false
  | some after =>
      !before.any isDefaultToken && !after.head?.any isDefaultToken &&
        decide ((after.dropWhile isBlank).head? = some (.char '='))

/-- The scan of a block up to its closing brace, which may be missing. -/
def scanBlock : Option Chr → Nat → Bool → Str → Option Bool
  | _, 0, hasDefault, _ => some hasDefault
  | _, _ + 1, _, [] => none
  | before, depth + 1, hasDefault, c :: ahead =>
      if c = .char '\x7b' then scanBlock c (depth + 2) hasDefault ahead
      else if c = .char '\x7d' then scanBlock c depth hasDefault ahead
      else scanBlock c (depth + 1)
        (hasDefault || decide (depth = 0) && startsDefault before (c :: ahead)) ahead

/-- Why a file cannot be parsed: no name where a header is, or a block that is not closed. -/
inductive HclParseError where
  | noName
  | unbalanced (name : Str)

/-- The name and the kind of the variable that a header declares. -/
def readHeader (text masked : Str) (header : Match) : Except HclParseError (Str × Bool) :=
  match variableName.search ((text.take header.stopOffset).drop header.offset) with
  | none => .error .noName
  | some nameMatch =>
      let name := (nameMatch.group 1).getD []
      match scanBlock (masked.take header.stopOffset).getLast? 1 false
        (masked.drop header.stopOffset) with
      | none => .error (.unbalanced name)
      | some hasDefault => .ok (name, hasDefault)

def parseVariableBlocks (text : Str) : Except HclParseError (List (Str × Bool)) := do
  let declared ← (variableHeader.finditer (maskHcl text)).mapM (readHeader text (maskHcl text))
  return dictWrites [] declared

def newRequiredVariables (baseText : Option Str) (headText : Str) : List Str :=
  match parseVariableBlocks headText, (baseText.map parseVariableBlocks).getD (.ok []) with
  | .ok headVars, .ok baseVars =>
      ((headVars.filter fun entry => !entry.2 && decide (entry.1 ∉ baseVars.map Prod.fst)).map
        Prod.fst).mergeSort strLe
  | _, _ => []

end Parsing

end VariableWiring
