import TelemetryPlatform.Library.Hcl

/-!
# The parts of an HCL text

What each character of a text of HCL belongs to: code, a string or a comment. Strings
are quoted, or heredocs, and code may stand in them between `${` or `%{` and a closing
brace, with strings and comments of its own.
-/

namespace Hcl

open Python

section Roles

inductive Role where
  | code
  | string
  | hashComment
  | otherComment
  deriving DecidableEq

/-- What a place of a text is in, apart from the code of the file. -/
inductive Context where
  | next (role : Role)
  | hashComment
  | slashComment
  | blockComment
  | quoted
  | heredocStart (tag : Str)
  | heredoc (tag : Str)
  | heredocEnd
  | interpolation (braces : Nat)

/-- Which characters identifiers are made of. Beyond ASCII that depends on the Unicode tables. -/
def isIdentifier (idents : WordClass) (c : Chr) : Bool := idents.holds c || decide (c = .char '-')

variable (idents : WordClass)

/-- The tag of the heredoc that begins in front of a text, whose first character is the second one
of `<<`. -/
def heredocTag (ahead : Str) : Option Str :=
  match ahead with
  | .char '<' :: ahead =>
      let ahead := (ahead.dropPrefix? (str "-")).getD ahead
      let tag := ahead.takeWhile (isIdentifier idents)
      if tag.head?.any (fun c => idents.holds c && !decide (0x30 ≤ c.code ∧ c.code ≤ 0x39)) &&
          (ahead.drop tag.length).head? = some newline then
        some tag
      else none
  | _ => none

/-- What a character of code belongs to, and what follows it is in, innermost first. -/
def readCode (contexts : List Context) (c : Chr) (ahead : Str) : Role × List Context :=
  if c = .char '#' then (.hashComment, .hashComment :: contexts)
  else if c = .char '/' ∧ ahead.head? = some (.char '/') then
    (.otherComment, .slashComment :: contexts)
  else if c = .char '/' ∧ ahead.head? = some (.char '*') then
    (.otherComment, .next .otherComment :: .blockComment :: contexts)
  else if c = quote then (.string, .quoted :: contexts)
  else if c = .char '<' then
    match heredocTag idents ahead with
    | some tag => (.string, .heredocStart tag :: contexts)
    | none => (.code, contexts)
  else (.code, contexts)

/-- The same in a string: `${` and `%{` begin code, unless the first character stands there
twice. -/
def readTemplate (contexts : List Context) (c : Chr) (ahead : Str) : Role × List Context :=
  if c = .char '$' ∨ c = .char '%' then
    if [c, .char '\x7b'] <+: ahead then (.string, .next .string :: .next .string :: contexts)
    else if [.char '\x7b'] <+: ahead then
      (.string, .next .string :: .interpolation 0 :: contexts)
    else (.string, contexts)
  else (.string, contexts)

/-- The same for the newline before a line of a heredoc, or before the line that ends it. -/
def readHeredocLine (tag : Str) (contexts : List Context) (ahead : Str) : Role × List Context :=
  if strip (beforeFirst newline ahead) = tag then (.string, .heredocEnd :: contexts)
  else (.string, .heredoc tag :: contexts)

def read (contexts : List Context) (c : Chr) (ahead : Str) : Role × List Context :=
  match contexts with
  | [] => readCode idents [] c ahead
  | .next role :: outer => (role, outer)
  | .hashComment :: outer =>
      if c = newline then (.code, outer) else (.hashComment, .hashComment :: outer)
  | .slashComment :: outer =>
      if c = newline then (.code, outer) else (.otherComment, .slashComment :: outer)
  | .blockComment :: outer =>
      if c = .char '*' ∧ ahead.head? = some (.char '/') then
        (.otherComment, .next .otherComment :: outer)
      else (.otherComment, .blockComment :: outer)
  | .quoted :: outer =>
      if c = quote then (.string, outer)
      else if c = .char '\\' then (.string, .next .string :: .quoted :: outer)
      -- A quoted string is on one line.
      else if c = newline then (.code, outer)
      else readTemplate (.quoted :: outer) c ahead
  | .heredocStart tag :: outer =>
      if c = newline then readHeredocLine tag outer ahead
      else (.string, .heredocStart tag :: outer)
  | .heredoc tag :: outer =>
      if c = newline then readHeredocLine tag outer ahead
      else readTemplate (.heredoc tag :: outer) c ahead
  | .heredocEnd :: outer =>
      if c = newline then (.code, outer) else (.string, .heredocEnd :: outer)
  | .interpolation braces :: outer =>
      if c = .char '\x7b' then (.code, .interpolation (braces + 1) :: outer)
      else if c = .char '\x7d' then
        match braces with
        | 0 => (.string, outer)
        | braces + 1 => (.code, .interpolation braces :: outer)
      else readCode idents (.interpolation braces :: outer) c ahead

/-- The characters of a text with what they belong to. -/
def roles : List Context → Str → List (Chr × Role)
  | _, [] => []
  | contexts, c :: ahead =>
      let (role, contexts) := read idents contexts c ahead
      (c, role) :: roles contexts ahead

end Roles

end Hcl
