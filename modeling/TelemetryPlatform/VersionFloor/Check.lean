import TelemetryPlatform.Library.Dotted
import TelemetryPlatform.Library.Hcl
import TelemetryPlatform.Library.Numeral

/-!
# The guard of the version floor

`scripts/tf_guard_version_floor.py` reads the constraints of a `versions.tf` with
regular expressions: the first `required_version`, and the first `version` behind the
source of the configured provider. A constraint meets a floor when it is `>=` some
numbers that are a greater tuple, or the same.
-/

namespace VersionFloor

open Python

section Patterns

/-- `name\s*=\s*"([^"]+)"`. -/
def settingRe (name : Str) : Pattern :=
  .sequence ([.word name, .spaces, .word (str "=")] ++ Pattern.quotedText 1)

def requiredVersionRe : Pattern := settingRe (str "required_version")

def providerVersionRe : Pattern := settingRe (str "version")

def providerSourceRe : Pattern := settingRe (str "source")

def pessimisticPrefix : Str := str "~>"

def gtePrefix : Str := str ">="

end Patterns

section Comparison

variable (digits : DecimalTable)

/-- The numbers of a version, without a value where one is not an integer. -/
def parseVersion (versionStr : Str) : Option (List Int) :=
  ((strip versionStr).splitOn (.char '.')).mapM (intOf digits)

def meetsFloor (constraint floor : Str) : Bool :=
  let constraint := strip constraint
  if pessimisticPrefix <+: constraint then false
  else if gtePrefix <+: constraint then
    match parseVersion digits (strip (constraint.drop gtePrefix.length)),
      parseVersion digits floor with
    | some declared, some floorTuple => decide (Dotted.TupleLe floorTuple declared)
    | _, _ => false
  else false

end Comparison

section Checks

structure FloorConfig where
  tfFloor : Str
  providerFloor : Str
  providerSource : Str

inductive VersionFloorError where
  | requiredVersionAbsent
  | requiredVersionBelow (line : Nat) (tfConstraint : Str)
  | providerAbsent
  | providerBelow (line : Nat) (verConstraint : Str)

/-- The message of an error. -/
def VersionFloorError.text (path : Str) (config : FloorConfig) (error : VersionFloorError) : Str :=
  let place (line : Nat) := path ++ str ":" ++ (Nat.toDigits 10 line).map .char ++ str ": ERROR: "
  match error with
  | .requiredVersionAbsent =>
      place 1 ++ str "required_version is absent.\n  Expected: required_version = \">= " ++
        config.tfFloor ++ str "\"\n  Remedy: add required_version = \">= " ++ config.tfFloor ++
        str "\" to the terraform block."
  | .requiredVersionBelow line tfConstraint =>
      place line ++ str "required_version \"" ++ tfConstraint ++
        str "\" is below the floor.\n  Floor: >= " ++ config.tfFloor ++
        str "\n  Remedy: change required_version to \">= " ++ config.tfFloor ++ str "\"."
  | .providerAbsent =>
      place 1 ++ str "AWS provider '" ++ config.providerSource ++
        str "' block is absent or has no version constraint.\n  Expected: version = \">= " ++
        config.providerFloor ++
        str "\"\n  Remedy: add the required_providers block with the AWS provider at \">= " ++
        config.providerFloor ++ str "\"."
  | .providerBelow line verConstraint =>
      place line ++ str "AWS provider version \"" ++ verConstraint ++
        str "\" is below the floor.\n  Floor: >= " ++ config.providerFloor ++
        str "\n  Remedy: change the provider version to \">= " ++ config.providerFloor ++ str "\"."

def findLineNumber (content : Str) (matchStart : Nat) : Nat :=
  (content.take matchStart).count newline + 1

variable (digits : DecimalTable) (config : FloorConfig) (content : Str)

/-- Whether the provider is there with a constraint, unless the constraint is below the floor. -/
def findProviderVersionInContent : Except VersionFloorError (Option Bool) :=
  match (providerSourceRe.finditer content).find? (·.group 1 = some config.providerSource) with
  | none => .ok none
  | some srcMatch =>
      match providerVersionRe.searchAfter content srcMatch.stopOffset with
      | none => .ok none
      | some verMatch =>
          let verConstraint := (verMatch.group 1).getD []
          if meetsFloor digits verConstraint config.providerFloor then .ok (some true)
          else .error (.providerBelow (findLineNumber content verMatch.offset) verConstraint)

def checkVersionsFile : Except VersionFloorError Unit :=
  match requiredVersionRe.search content with
  | none => .error .requiredVersionAbsent
  | some tfMatch =>
      let tfConstraint := (tfMatch.group 1).getD []
      if meetsFloor digits tfConstraint config.tfFloor then do
        match ← findProviderVersionInContent digits config content with
        | none => .error .providerAbsent
        | some _ => .ok ()
      else .error (.requiredVersionBelow (findLineNumber content tfMatch.offset) tfConstraint)

end Checks

end VersionFloor
