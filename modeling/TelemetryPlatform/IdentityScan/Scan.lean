import TelemetryPlatform.Library.Hcl

/-!
# The scanner for hardcoded identities

`scripts/tg_no_hardcoded_identity.py` looks through the lines of an HCL file for
literals that give an account, a region, a domain or a network away. It passes over
comments, which begin at the first `#` of a line, and over `mock_outputs` blocks, whose
ends it finds by the braces on each line.
-/

namespace IdentityScan

open Python

section Patterns

/-- The classes `\w` and `\d`, where nothing of a word is white space. -/
structure CharClasses where
  words : WordClass
  digits : DigitClass
  solid : ∀ c, words.holds c = true → isSpace c = false

/-- The classes of ASCII. -/
def CharClasses.latin : CharClasses where
  words := .latin
  digits := .latin
  solid c isWord := by
    have := of_decide_eq_true isWord
    simp only [isSpace, List.mem_cons, List.not_mem_nil, or_false, decide_eq_false_iff_not]
    omega

variable (classes : CharClasses)

def openBrace : Chr := .char '\x7b'

def closeBrace : Chr := .char '\x7d'

def hash : Chr := .char '#'

/-- At most `n` matches, as many as possible first. -/
def atMost (n : Nat) (body : Pattern) : Pattern :=
  match n with
  | 0 => .empty
  | n + 1 => .either (.seq body (atMost n body)) .empty

def mockBlockStartRe : Pattern :=
  .either
    (.sequence [.wordEdge classes.words.holds, .word (str "mock_outputs"), .spaces, .word (str "="),
      .spaces, .word [openBrace]])
    (.sequence [.wordEdge classes.words.holds, .word (str "mock_outputs"), .spaces,
      .word [openBrace]])

/-- `"(\d{12})"`. -/
def accountIdInQuotesRe : Pattern :=
  .sequence [.word [quote], .group 1 (.sequence (List.replicate 12 (.one classes.digits.holds))),
    .word [quote]]

def regionLiteralRe : Pattern :=
  .sequence [.word [quote], .group 1 (.either (.word (str "us-east-1")) (.word (str "useast1"))),
    .word [quote]]

def domainApexRe : Pattern := .word (str "telemetry.example.com")

/-- `"10\.\d+\.0\.0/16"`. -/
def cidrLiteralRe : Pattern :=
  .sequence [.word (quote :: str "10."), .oneOrMore (.one classes.digits.holds),
    .word (str ".0.0/16" ++ [quote])]

/-- `\bconfig_path\s*=\s*"([^"]*)"`. -/
def configPathValueRe : Pattern :=
  .sequence [.wordEdge classes.words.holds, .word (str "config_path"), .spaces, .word (str "="),
    .spaces, .word [quote], .group 1 (.many (.one (· ≠ quote))), .word [quote]]

/-- `/(\d{1,11})(?:/|$)`. -/
def digitPathSegmentRe : Pattern :=
  .sequence [.word (str "/"),
    .group 1 (.seq (.one classes.digits.holds) (atMost 10 (.one classes.digits.holds))),
    .either (.word (str "/")) .lineEnd]

/-- `\bdeclared_\w+\s*=`. -/
def declaredLocalRe : Pattern :=
  .sequence [.wordEdge classes.words.holds, .word (str "declared_"),
    .oneOrMore (.one classes.words.holds), .spaces, .word (str "=")]

/-- `^\s*(\w+)\s*=`. -/
def assignmentVarNameRe : Pattern :=
  .sequence [.lineStart, .spaces, .group 1 (.oneOrMore (.one classes.words.holds)), .spaces,
    .word (str "=")]

end Patterns

section Findings

structure ScannerConfig where
  exemptAccountIdVarNames : List Str
  exemptConfigPathPatterns : List Pattern

/-- The settings of the scan of the repository: the names are those of the files that bootstrap the
state, the patterns `/\d{12}/` and `/bootstrap/`. -/
def buildDefaultConfig (classes : CharClasses) : ScannerConfig where
  exemptAccountIdVarNames := [str "sandbox_account_id", str "prod_account_id"]
  exemptConfigPathPatterns :=
    [.sequence [.word (str "/"), .sequence (List.replicate 12 (.one classes.digits.holds)),
      .word (str "/")],
    .word (str "/bootstrap/")]

inductive Rule where
  | accountId
  | region
  | domainApex
  | cidr
  | digitConfigPath
  | declaredLocal
  deriving DecidableEq

def Rule.name : Rule → Str
  | .accountId => str "account_id"
  | .region => str "region"
  | .domainApex => str "domain_apex"
  | .cidr => str "cidr"
  | .digitConfigPath => str "digit_config_path"
  | .declaredLocal => str "declared_local"

def Rule.remediation : Rule → Str
  | .accountId =>
      str ("Move the account id to common/accounts.json (keyed by account id) " ++
        "and derive it via basename(get_terragrunt_dir()) in account.hcl.")
  | .region =>
      str ("Derive the region from the directory basename via " ++
        "basename(get_terragrunt_dir()) in region.hcl; never hardcode a region string.")
  | .domainApex =>
      str ("Move the domain apex to common/domains.json (keyed by env-class) " ++
        "and read it through include.root.locals or the common resolver.")
  | .cidr =>
      str ("Move the CIDR block to common/networks.json (keyed by namespace) " ++
        "and read it through the common resolver.")
  | .digitConfigPath =>
      str ("Replace the hardcoded digit index with $\x7blocal.svc_instance\x7d " ++
        "(derived from basename(get_terragrunt_dir()) in service_instance.hcl) " ++
        "so copied service instances resolve same-tier dependencies at the correct index.")
  | .declaredLocal =>
      str ("Remove the declared_* identity guard. Derive the value from " ++
        "basename(get_terragrunt_dir()) and validate via common/accounts.json lookup " ++
        "instead of an inline comparison.")

structure Finding where
  filePath : Str
  lineNumber : Nat
  rule : Rule
  literal : Str
  remediation : Str

/-- The two lines of a report about a finding. -/
def Finding.text (finding : Finding) : List Str :=
  [str "  " ++ finding.filePath ++ str ":" ++ (Nat.toDigits 10 finding.lineNumber).map .char ++
      str ": [" ++ finding.rule.name ++ str "] '" ++ finding.literal ++ str "'",
    str "    Remediation: " ++ finding.remediation]

end Findings

section Checks

variable (classes : CharClasses) (config : ScannerConfig) (hclFile : Str) (lineno : Nat)
  (codePart : Str)

/-- The finding of a rule on a line. -/
def findingOf (rule : Rule) (literal : Str) : Finding :=
  ⟨hclFile, lineno, rule, literal, rule.remediation⟩

/-- The finding of a rule for the first match of its pattern, if there is one. -/
def checkPattern (pattern : Pattern) (rule : Rule) (literal : Match → Str) : List Finding :=
  match pattern.search codePart with
  | none => []
  | some found => [findingOf hclFile lineno rule (literal found)]

/-- `match.group(1)`. -/
def firstGroup (found : Match) : Str := (found.group 1).getD []

def checkAccountId : List Finding :=
  match (accountIdInQuotesRe classes).search codePart with
  | none => []
  | some found =>
      if ((configPathValueRe classes).search codePart).isSome then []
      else if ((assignmentVarNameRe classes).matchAt [] codePart).any fun assigned =>
          decide (firstGroup assigned ∈ config.exemptAccountIdVarNames) then []
      else [findingOf hclFile lineno .accountId (firstGroup found)]

def checkRegion : List Finding :=
  checkPattern hclFile lineno codePart regionLiteralRe .region firstGroup

def checkDomainApex : List Finding :=
  checkPattern hclFile lineno codePart domainApexRe .domainApex Match.text

def checkCidr : List Finding :=
  checkPattern hclFile lineno codePart (cidrLiteralRe classes) .cidr Match.text

def checkConfigPathDigitIndex : List Finding :=
  match (configPathValueRe classes).search codePart with
  | none => []
  | some pathMatch =>
      let pathValue := firstGroup pathMatch
      if config.exemptConfigPathPatterns.any fun pattern =>
        (pattern.search pathValue).isSome then []
      else
        match (digitPathSegmentRe classes).search pathValue with
        | none => []
        | some segMatch =>
            [findingOf hclFile lineno .digitConfigPath (str "/" ++ firstGroup segMatch)]

/-- `match.group(0).rstrip("= ").strip()`. -/
def declaredName (found : Match) : Str :=
  strip (found.text.rdropWhile fun c => decide (c = .char '=' ∨ c = .char ' '))

def checkDeclaredLocal : List Finding :=
  checkPattern hclFile lineno codePart (declaredLocalRe classes) .declaredLocal declaredName

/-- The findings of all rules on the code of a line. -/
def checkCode : List Finding :=
  checkAccountId classes config hclFile lineno codePart ++ checkRegion hclFile lineno codePart ++
    checkDomainApex hclFile lineno codePart ++ checkCidr classes hclFile lineno codePart ++
    checkConfigPathDigitIndex classes config hclFile lineno codePart ++
    checkDeclaredLocal classes hclFile lineno codePart

end Checks

section Scan

variable (classes : CharClasses)

/-- `line.split("#")[0]`. -/
def stripInlineComment (line : Str) : Str := beforeFirst hash line

structure MockState where
  inMockBlock : Bool
  mockBraceDepth : Int

def braceBalance (line : Str) : Int := line.count openBrace - line.count closeBrace

/-- A line that a `mock_outputs` block begins on. -/
def startsMock (line : Str) : Bool := ((mockBlockStartRe classes).search line).isSome

def MockState.enter (state : MockState) (line : Str) : MockState :=
  if startsMock classes line then ⟨true, 0⟩ else state

/-- What a line changes, which is in a block if the state says so when it has been entered. -/
def MockState.next (state : MockState) (line : Str) : MockState :=
  let entered := state.enter classes line
  if entered.inMockBlock then
    let depth := entered.mockBraceDepth + braceBalance line
    ⟨decide (0 < depth), depth⟩
  else entered

variable (config : ScannerConfig) (hclFile : Str)

def scanLines : Nat → MockState → List Str → List Finding
  | _, _, [] => []
  | lineno, state, line :: lines =>
      let others := scanLines (lineno + 1) (state.next classes line) lines
      if (state.enter classes line).inMockBlock then others
      else if [hash] <+: line.dropWhile isSpace then others
      else checkCode classes config hclFile lineno (stripInlineComment line) ++ others

/-- The findings in a file with some content. -/
def scanFile (content : Str) : List Finding :=
  scanLines classes config hclFile 1 ⟨false, 0⟩ (splitlines content)

end Scan

end IdentityScan
