import TelemetryPlatform.IdentityScan.Scan
import TelemetryPlatform.Library.HclRoles

/-!
# What a scan has to find

Each character of a file is marked with what it belongs to and whether it stands
between the braces of a `mock_outputs` block. A line has to be found by a rule if a
literal of the rule stands on it, outside of these blocks and of comments that begin
with `#`. An account is not looked for in the values of some assignments.
-/

namespace IdentityScan

open Python Hcl

section Marks

structure Mark where
  char : Chr
  role : Role
  inMock : Bool
  deriving DecidableEq

/-- How much of the header of a `mock_outputs` block stands directly in front of a place. -/
inductive Header where
  | none
  | name
  | assignment
  deriving DecidableEq

/-- What stands in front of a place: the part of an identifier, backwards, the part of a header, and
the open braces, innermost first, which are those of a `mock_outputs` block or others. -/
structure Nesting where
  identifier : Str
  header : Header
  braces : List Bool

def Nesting.start : Nesting := ⟨[], .none, []⟩

variable (idents : WordClass)

/-- The part of a header behind the identifier, if there is one. -/
def Nesting.headerBehind (nesting : Nesting) : Header :=
  if nesting.identifier = [] then nesting.header
  else if nesting.identifier.reverse = str "mock_outputs" then .name
  else .none

def isBlank (c : Chr) : Bool := decide (c = .char ' ' ∨ c = .char '\t')

def Nesting.next (nesting : Nesting) (c : Chr) (role : Role) : Nesting :=
  let header := nesting.headerBehind
  match role with
  | .string => ⟨[], .none, nesting.braces⟩
  | .hashComment => ⟨[], header, nesting.braces⟩
  | .otherComment => ⟨[], header, nesting.braces⟩
  | .code =>
      if isIdentifier idents c then ⟨c :: nesting.identifier, .none, nesting.braces⟩
      else if c = openBrace then ⟨[], .none, decide (header ≠ .none) :: nesting.braces⟩
      else if c = closeBrace then ⟨[], .none, nesting.braces.tail⟩
      else if isBlank c then ⟨[], header, nesting.braces⟩
      else if c = .char '=' ∧ header = .name then ⟨[], .assignment, nesting.braces⟩
      else ⟨[], .none, nesting.braces⟩

def marksFrom : Nesting → List (Chr × Role) → List Mark
  | _, [] => []
  | nesting, (c, role) :: rest =>
      ⟨c, role, nesting.braces.contains true⟩ :: marksFrom (nesting.next idents c role) rest

def marks (text : Str) : List Mark := marksFrom idents .start (roles idents [] text)

def charsOf (marked : List Mark) : Str := marked.map Mark.char

end Marks

section Literals

/-- The literals that a rule is about, for the rules about literals of their own. -/
def IsLiteral (digits : DigitClass) (rule : Rule) (text : Str) : Prop :=
  match rule with
  | .accountId =>
      ∃ id, text = quote :: (id ++ [quote]) ∧ id.length = 12 ∧ ∀ c ∈ id, digits.holds c = true
  | .region => text ∈ [str "us-east-1", str "useast1"].map fun name => quote :: (name ++ [quote])
  | .domainApex => text = str "telemetry.example.com"
  | .cidr =>
      ∃ n, text = quote :: (str "10." ++ (n ++ (str ".0.0/16" ++ [quote]))) ∧ n ≠ [] ∧
        ∀ c ∈ n, digits.holds c = true
  | .digitConfigPath => False
  | .declaredLocal => False

/-- A literal of a rule stands in a text. -/
def Shows (digits : DigitClass) (rule : Rule) (text : Str) : Prop :=
  ∃ front literal back, text = front ++ (literal ++ back) ∧ IsLiteral digits rule literal

end Literals

section Values

variable (idents : WordClass)

/-- The value of an attribute that begins in front of some characters goes on behind them, inside of
some brackets. -/
def GoesOn : Nat → List Mark → Prop
  | _, [] => True
  | depth, mark :: rest =>
      if mark.role ≠ .code then GoesOn depth rest
      else if mark.char ∈ str "([\x7b" then GoesOn (depth + 1) rest
      else if mark.char ∈ str ")]\x7d" then 0 < depth ∧ GoesOn (depth - 1) rest
      else (mark.char ∈ str ",\n" → 0 < depth) ∧ GoesOn depth rest

/-- The characters in front of a place end in the value of an assignment to a name. -/
def InValueOf (name : Str) (front : List Mark) : Prop :=
  ∃ before key gap equals value, front = before ++ (key ++ (gap ++ equals :: value)) ∧
    charsOf key = name ∧ (∀ mark ∈ key ++ gap, mark.role = .code) ∧
    (∀ mark ∈ before.getLast?, mark.role = .code → isIdentifier idents mark.char = false) ∧
    (∀ mark ∈ gap, isBlank mark.char = true) ∧ equals.role = .code ∧ equals.char = .char '=' ∧
    (∀ mark ∈ value.head?, mark.char ≠ .char '=') ∧ GoesOn 0 value

end Values

section Deserving

variable (idents : WordClass) (classes : CharClasses) (config : ScannerConfig) (text : Str)

/-- The values that a rule does not look at. -/
def ExemptFrom (rule : Rule) (front : List Mark) : Prop :=
  rule = .accountId ∧ ∃ name ∈ str "config_path" :: config.exemptAccountIdVarNames,
    InValueOf idents name front

/-- A literal of a rule stands on a line where the rule has to find it. -/
def Deserves (lineno : Nat) (rule : Rule) : Prop :=
  ∃ front literal back, marks idents text = front ++ (literal ++ back) ∧
    IsLiteral classes.digits rule (charsOf literal) ∧
    (∀ mark ∈ literal, mark.role ≠ .hashComment ∧ mark.inMock = false) ∧
    ¬ExemptFrom idents config rule front ∧ lineno = (charsOf front).count newline + 1

/-- Each literal that has to be found is a finding of its rule on its line. -/
def Complete (hclFile : Str) : Prop :=
  ∀ lineno rule, Deserves idents classes config text lineno rule →
    ∃ finding ∈ scanFile classes config hclFile text,
      finding.rule = rule ∧ finding.lineNumber = lineno

end Deserving

end IdentityScan
