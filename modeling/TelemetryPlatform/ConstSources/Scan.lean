import TelemetryPlatform.Library.Hcl

/-!
# The guard of the child module sources

`scripts/tf_guard_const_sources.py` looks through the text of a `main.tf` for
`source` attributes and finds the module block of each by the last block header in
front of it. A module outside an external set has to take its source from a
variable, one inside it has to have a pinned string.
-/

namespace ConstSources

open Python

section Patterns

variable (words : WordClass)

def bareLiteralSourceRe : Pattern :=
  .sequence (Pattern.assignment (str "source") ++ Pattern.quotedText 1)

/-- `\s*var\.(\w+)`. -/
def variablePart : List Pattern :=
  [.spaces, .word (str "var."), .group 1 (.oneOrMore (.one words.holds))]

def varSourceRe : Pattern := .sequence (Pattern.assignment (str "source") ++ variablePart words)

/-- `\s+"(\w+)"\s*\{`. -/
def labelPart : List Pattern :=
  [.oneOrMore (.one isSpace), .word [quote], .group 1 (.oneOrMore (.one words.holds)),
    .word [quote], .spaces, .word (str "\x7b")]

def moduleBlockStartRe : Pattern :=
  .sequence ([.lineStart, .spaces, .word (str "module")] ++ labelPart words)

end Patterns

section Scan

/-- The settings of a scan: the names of the modules that keep external sources, the host of these
sources and the suffix of source variables. -/
structure Config where
  externalNames : List Str
  extHost : Str
  srcSuffix : Str

inductive FindingKind where
  | bareLiteral (sourceVal : Str)
  | variableized (moduleName varName : Str)

structure Finding where
  kind : FindingKind
  offset : Nat

variable (words : WordClass) (config : Config) (mainTf content : Str)

def lineNumber (offset : Nat) : Nat := (content.take offset).count newline + 1

/-- The message of a finding. -/
def Finding.text (finding : Finding) : Str :=
  let place := mainTf ++ str ":" ++ (Nat.toDigits 10 (lineNumber content finding.offset)).map .char
  match finding.kind with
  | .variableized moduleName varName =>
      str "ERROR: External terraform-modules source was variable-ized at " ++ place ++
        str "\n  Module '" ++ moduleName ++ str "' uses source = var." ++ varName ++
        str (" but external\n  terraform-modules sources must stay as hardcoded pinned literals\n" ++
          "  (spec section 4.7d).\n  Source var: var.") ++ varName ++
        str "\n  Remedy: replace var." ++ varName ++
        str " with the pinned literal git URL,\n  e.g. source = \"git::https://" ++
          config.extHost ++
        str ".git//...?ref=.../v<semver>\""
  | .bareLiteral sourceVal =>
      str "ERROR: Bare literal in-repo source at " ++ place ++ str "\n  source = \"" ++ sourceVal ++
        str "\"\n  In-repo child module sources must use source = var.<name>" ++ config.srcSuffix ++
        str "\n  (spec section 4.7a).\n  Remedy: declare a variable '<name>" ++ config.srcSuffix ++
        str ("' with const = true\n  and a relative-path default, then replace the literal with\n" ++
          "  source = var.<name>") ++ config.srcSuffix

/-- The name of the last block header in front of an offset. -/
def owningModuleName (offset : Nat) : Option Str :=
  ((moduleBlockStartRe words).finditer (content.take offset)).getLast?.bind (·.group 1)

/-- Whether the block of an offset is in the external set. -/
def OwnedExternally (offset : Nat) : Prop :=
  ∃ name ∈ owningModuleName words content offset, name ∈ config.externalNames

instance (offset : Nat) : Decidable (OwnedExternally words config content offset) :=
  inferInstanceAs (Decidable (∃ name ∈ _, _))

/-- The finding for a source that is a variable, if there is one. -/
def classD (found : Match) : Option Finding :=
  match owningModuleName words content found.offset with
  | some name =>
      if name ≠ [] ∧ name ∈ config.externalNames then
        some ⟨.variableized name ((found.group 1).getD []), found.offset⟩
      else none
  | none => none

/-- The finding for a source that is a string, if there is one. -/
def classA (found : Match) : Option Finding :=
  let sourceVal := (found.group 1).getD []
  if Contains config.extHost sourceVal ∧ OwnedExternally words config content found.offset then none
  else some ⟨.bareLiteral sourceVal, found.offset⟩

/-- A single finding is raised, any other number is returned. -/
def scanMainTf : Except Finding (List Finding) :=
  let classDFindings := ((varSourceRe words).finditer content).filterMap
    (classD words config content)
  let classAFindings := (bareLiteralSourceRe.finditer content).filterMap
    (classA words config content)
  match classDFindings ++ classAFindings with
  | [finding] => .error finding
  | findings => .ok findings

end Scan

end ConstSources
