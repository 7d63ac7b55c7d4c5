import TelemetryPlatform.VariableWiring.Pieces

/-!
# The blocks of a file

A `variables.tf` is a sequence of attributes and blocks, with white space and
comments in front of each. `Body.headers` are the blocks that a scan takes for
declarations of variables, in the order of the text, and `Body.variables` those that
are.
-/

namespace VariableWiring

open Python

section Blocks

/-- White space or a comment. -/
def Piece.isWhite : Piece → Bool
  | .code c => isSpace c
  | .string _ => false
  | _ => true

/-- White space or a comment that may stand within a line. -/
def Piece.isInline : Piece → Bool
  | .code c => isBlank c
  | .blockComment _ => true
  | _ => false

/-- A character of an identifier. -/
def isIdent (c : Chr) : Bool :=
  isDefaultToken c || decide (c = .char '-') || decide (0x80 ≤ c.code) && !isSpace c

/-- A sequence of attributes and blocks. -/
inductive Body where
  | nil
  | attr (indent : List Piece) (name : Str) (gap expr : List Piece) (others : Body)
  | block (indent : List Piece) (type : Str) (labels : List (List Piece × List Letter))
      (gap : List Piece) (inner : Body) (close : List Piece) (others : Body)

def codeOf (text : Str) : List Piece := text.map .code

def labelPieces (labels : List (List Piece × List Letter)) : List Piece :=
  labels.flatMap fun label => label.1 ++ [.string label.2]

/-- A block up to its opening brace. -/
def headPieces (type : Str) (labels : List (List Piece × List Letter)) (gap : List Piece) :
    List Piece :=
  codeOf type ++ (labelPieces labels ++ (gap ++ [.code (.char '\x7b')]))

/-- An attribute. -/
def attributePieces (name : Str) (gap expr : List Piece) : List Piece :=
  codeOf name ++ (gap ++ .code (.char '=') :: expr)

def Body.pieces : Body → List Piece
  | .nil => []
  | .attr indent name gap expr others =>
      indent ++ (attributePieces name gap expr ++ others.pieces)
  | .block indent type labels gap inner close others =>
      indent ++ (headPieces type labels gap ++
        (inner.pieces ++ (close ++ .code (.char '\x7d') :: others.pieces)))

end Blocks

section WellFormed

/-- The depth of braces behind a piece. -/
def depthAfter (depth : Nat) (piece : Piece) : Option Nat :=
  match piece with
  | .code c =>
      if c = .char '\x7b' then some (depth + 1)
      else if c = .char '\x7d' then (if depth = 0 then none else some (depth - 1))
      else some depth
  | _ => some depth

/-- The depth of braces behind some pieces, if none is closed that was not opened. -/
def braces (depth : Nat) : List Piece → Option Nat
  | [] => some depth
  | piece :: pieces => (depthAfter depth piece).bind fun depth => braces depth pieces

/-- The first piece that is no white space. -/
def firstSolid (pieces : List Piece) : Option Piece := (pieces.dropWhile Piece.isWhite).head?

/-- Whether the pieces have a line break outside of brackets of any kind. -/
def breaksLine (depth : Nat) : List Piece → Bool
  | [] => false
  | .code c :: pieces =>
      if c = .char '(' ∨ c = .char '[' ∨ c = .char '\x7b' then breaksLine (depth + 1) pieces
      else if c = .char ')' ∨ c = .char ']' ∨ c = .char '\x7d' then breaksLine (depth - 1) pieces
      else decide (c = newline ∧ depth = 0) || breaksLine depth pieces
  | _ :: pieces => breaksLine depth pieces

/-- An expression: its braces match, it ends with its line unless a bracket is open, and no string
is in front of a brace. -/
structure IsExpr (expr : List Piece) : Prop where
  nonempty : firstSolid expr ≠ none
  balanced : braces 0 expr = some 0
  oneLine : breaksLine 0 expr = false
  noOpen : ∀ front content back, expr = front ++ .string content :: back →
    firstSolid back ≠ some (.code (.char '\x7b'))

def IsName (name : Str) : Prop := name ≠ [] ∧ ∀ c ∈ name, isIdent c = true

def AllWhite (pieces : List Piece) : Prop := ∀ piece ∈ pieces, piece.isWhite = true

def AllInline (pieces : List Piece) : Prop := ∀ piece ∈ pieces, piece.isInline = true

/-- The white space in front of an item, which has a line of its own unless it is the first. -/
def IsIndent (first : Bool) (indent : List Piece) : Prop :=
  AllWhite indent ∧ (first = true ∨ .code newline ∈ indent)

def Body.WellFormed (first : Bool) : Body → Prop
  | .nil => True
  | .attr indent name gap expr others =>
      IsIndent first indent ∧ IsName name ∧ AllInline gap ∧ IsExpr expr ∧ others.WellFormed false
  | .block indent type labels gap inner close others =>
      IsIndent first indent ∧ IsName type ∧ (∀ label ∈ labels, AllInline label.1) ∧ AllInline gap ∧
        inner.WellFormed true ∧ AllWhite close ∧ others.WellFormed false

end WellFormed

section Declarations

/-- The text of a label. -/
def labelText (content : List Letter) : Str := content.flatMap Letter.text

/-- The name of the variable that a block declares, if it is one of a variable. -/
def declaredName (type : Str) (labels : List (List Piece × List Letter)) : Option Str :=
  match labels with
  | [label] => if type = str "variable" then some (labelText label.2) else none
  | _ => none

/-- The variables that are declared at the top level, each with its block. -/
def Body.variables : Body → List (Str × Body)
  | .nil => []
  | .attr _ _ _ _ others => others.variables
  | .block _ type labels _ inner _ others =>
      ((declaredName type labels).map fun name => (name, inner)).toList ++ others.variables

/-- The attribute `default` is at the top level. -/
def Body.hasDefault : Body → Bool
  | .nil => false
  | .attr _ name _ _ others => decide (name = str "default") || others.hasDefault
  | .block _ _ _ _ _ _ others => others.hasDefault

/-- A file of variables with different names. -/
structure VariablesFile where
  body : Body
  tail : List Piece
  wellFormed : body.WellFormed true
  tailWhite : AllWhite tail
  lexed : Lexed (body.pieces ++ tail)
  named : ∀ variable' ∈ body.variables, IsName variable'.1
  distinct : (body.variables.map Prod.fst).Nodup

def VariablesFile.pieces (file : VariablesFile) : List Piece := file.body.pieces ++ file.tail

def VariablesFile.text (file : VariablesFile) : Str := VariableWiring.textOf file.pieces

end Declarations

section Headers

/-- The text of a header from the word `variable` on. -/
def headerText (label : List Piece × List Letter) (gap : List Piece) : Str :=
  str "variable" ++ (textOf label.1 ++ quote :: (labelText label.2 ++ quote ::
    (textOf gap ++ str "\x7b")))

/-- What a scan takes for the header of a variable: the type may be a longer word, but the label is
not to touch it. -/
def readHeaderText (type : Str) (labels : List (List Piece × List Letter)) (gap : List Piece) :
    Option Str :=
  match labels with
  | [label] =>
      if str "variable" <:+ type ∧ label.1 ≠ [] then some (headerText label gap) else none
  | _ => none

/-- The headers that a scan finds at any depth, each with its block. -/
def Body.headers : Body → List (Str × Body)
  | .nil => []
  | .attr _ _ _ _ others => others.headers
  | .block _ type labels gap inner _ others =>
      ((readHeaderText type labels gap).map fun header => (header, inner)).toList ++
        (inner.headers ++ others.headers)

/-- Whether some pieces read as an attribute `default` outside of their braces. -/
def defaultsIn : Option Chr → Nat → List Piece → Bool
  | _, _, [] => false
  | before, depth, piece :: pieces =>
      decide (depth = 0) && startsDefault before (maskedOf (piece :: pieces)) ||
        defaultsIn piece.masked.getLast? ((depthAfter depth piece).getD 0) pieces

/-- Whether an attribute at the top level reads as `default`. -/
def Body.readsDefault : Body → Bool
  | .nil => false
  | .attr _ name gap expr others =>
      defaultsIn none 0 (attributePieces name gap expr) || others.readsDefault
  | .block _ _ _ _ _ _ others => others.readsDefault

end Headers

end VariableWiring
