import TelemetryPlatform.VersionFloor.Mentions

/-!
# The floor of a provider

`FloorChecked` says that the guard accepts a file only where the provider has a
version constraint of its own that is at the floor, and that it accepts it where the
required version is at its floor as well. Versions are compared component by
component; a component that is not there counts as zero.
-/

namespace VersionFloor

open Python

section Constraints

/-- The components of a version. -/
def versionOf (text : Str) : Option (List Nat) := (text.splitOn (.char '.')).mapM decimal

/-- What follows the operator of a constraint `>= v`. -/
def lowerBound (constraint : Str) : Option Str :=
  if gtePrefix <+: strip constraint then some (strip ((strip constraint).drop gtePrefix.length))
  else none

/-- The constraint is `>= v`, where `v` is at least the floor. -/
def Declares (constraint floor : Str) : Prop :=
  ∃ text ∈ lowerBound constraint, ∃ declared ∈ versionOf text,
    ∃ least ∈ versionOf (strip floor), Dotted.AtMost least declared

/-- The version ends where the floor goes on with zeros. -/
def EndsEarly (constraint floor : Str) : Prop :=
  ∃ text ∈ lowerBound constraint, ∃ declared ∈ versionOf text,
    ∃ least ∈ versionOf (strip floor), Dotted.Padded least declared

/-- The components of a version have as many digits as `int` reads. -/
def ShortParts (text : Str) : Prop := ∀ part ∈ text.splitOn (.char '.'), part.length ≤ maxStrDigits

variable (digits : DecimalTable)

/-- The version or the floor is none, but all of their components are integers for `int`, and those
of the version are not less. -/
def Misread (constraint floor : Str) : Prop :=
  ∃ text ∈ lowerBound constraint, (versionOf text = none ∨ versionOf (strip floor) = none) ∧
    ∃ declared ∈ parseVersion digits text, ∃ least ∈ parseVersion digits floor,
      Dotted.TupleLe least declared

/-- The constraint is at the floor and does not end early, or is misread. -/
def Passes (constraint floor : Str) : Prop :=
  Misread digits constraint floor ∨
    (Declares constraint floor ∧ ¬EndsEarly constraint floor ∧
      (∀ text ∈ lowerBound constraint, ShortParts text) ∧ ShortParts (strip floor))

end Constraints

section Comparison

variable {digits : DecimalTable} {constraint floor text : Str}

/-- The guard reads the components of a version, unless one is too long. -/
theorem parseVersion_of_versionOf {version : List Nat}
    (isVersion : versionOf (strip text) = some version) :
    (ShortParts (strip text) ∧ parseVersion digits text = some (version.map Int.ofNat)) ∨
      (¬ShortParts (strip text) ∧ parseVersion digits text = none) := by
  rw [parseVersion, ShortParts]
  rw [versionOf] at isVersion
  generalize (strip text).splitOn (.char '.') = parts at isVersion ⊢
  induction parts generalizing version with
  | nil =>
      rw [List.mapM_nil] at isVersion
      cases isVersion
      exact .inl ⟨fun _ mem => absurd mem List.not_mem_nil, rfl⟩
  | cons part parts ih =>
      simp only [List.mapM_cons, Option.bind_eq_bind, Option.bind_eq_some_iff, Option.pure_def,
        Option.some.injEq] at isVersion
      rcases isVersion with ⟨n, isDecimal, others, otherParts, rfl⟩
      have first := intOf_decimal digits isDecimal
      rw [List.forall_mem_cons, List.mapM_cons, first]
      by_cases short : part.length ≤ maxStrDigits
      · rw [if_pos short]
        rcases ih otherParts with ⟨shorts, read⟩ | ⟨long, unread⟩
        · left
          rw [read]
          exact ⟨⟨short, shorts⟩, rfl⟩
        · right
          rw [unread]
          exact ⟨fun each => long each.2, rfl⟩
      · right
        rw [if_neg short]
        exact ⟨fun each => short each.1, rfl⟩

theorem lowerBound_strip {bound : Str} (isBound : bound ∈ lowerBound constraint) :
    strip bound = bound := by
  rw [lowerBound, Option.mem_def, Option.ite_none_right_eq_some] at isBound
  rcases isBound with ⟨-, same⟩
  cases same
  exact strip_strip _

theorem not_pessimistic (isGte : gtePrefix <+: text) : ¬pessimisticPrefix <+: text := by
  rintro ⟨back, rfl⟩
  rcases isGte with ⟨rest, same⟩
  cases same

theorem meetsFloor_eq_true : meetsFloor digits constraint floor = true ↔
    ∃ text ∈ lowerBound constraint, ∃ declared ∈ parseVersion digits text,
      ∃ least ∈ parseVersion digits floor, Dotted.TupleLe least declared := by
  rw [meetsFloor, lowerBound]
  by_cases isGte : gtePrefix <+: strip constraint
  · simp only [if_neg (not_pessimistic isGte), if_pos isGte, Option.mem_some_iff, exists_eq_left']
    cases parseVersion digits (strip ((strip constraint).drop gtePrefix.length)) with
    | none => simp
    | some declared =>
        cases parseVersion digits floor with
        | none => simp
        | some least => simp
  · simp [isGte]

/-- Which constraints meet a floor. -/
theorem meetsFloor_iff_passes : meetsFloor digits constraint floor = true ↔
    Passes digits constraint floor := by
  rw [meetsFloor_eq_true, Passes, Misread, Declares, EndsEarly]
  cases bound : lowerBound constraint with
  | none => simp
  | some text =>
      have stripped := lowerBound_strip bound
      simp only [Option.mem_some_iff, exists_eq_left', forall_eq']
      cases isVersion : versionOf text with
      | none => simp
      | some declared =>
          cases isFloor : versionOf (strip floor) with
          | none => simp
          | some least =>
              have readText := @parseVersion_of_versionOf digits text declared
                  (by rw [stripped, isVersion])
              have readFloor := @parseVersion_of_versionOf digits floor least isFloor
              rw [stripped] at readText
              have same : Dotted.TupleLe (least.map Int.ofNat) (declared.map Int.ofNat) ↔
                  Dotted.TupleLe least declared :=
                Dotted.tupleLe_map (fun _ _ => Int.ofNat_lt) (fun _ _ => Int.ofNat_inj)
              have order := @Dotted.tupleLe_iff_atMost Nat _ _ least declared
              rcases readText with ⟨short, read⟩ | ⟨long, unread⟩
              · rcases readFloor with ⟨short', read'⟩ | ⟨long', unread'⟩
                · simp [read, read', same, order, short, short']
                · simp [unread', long']
              · simp [unread, long]

end Comparison

section Providers

variable (digits : DecimalTable) (config : FloorConfig)

def Entry.HasSource (entry : Entry) (provider : Str) : Prop :=
  ∃ mention ∈ entry.mentions, mention.isAttribute = true ∧ mention.key = .source ∧
    mention.value = provider

/-- The entry has a version of its own that is at the floor. -/
def Entry.DeclaresFloor (entry : Entry) (floor : Str) : Prop :=
  ∃ mention ∈ entry.mentions, mention.isAttribute = true ∧ mention.key = .version ∧
    Declares mention.value floor

namespace VersionsFile

variable (file : VersionsFile)

/-- The configured provider has an entry, and its entries are at the floor. -/
def ProviderDeclares : Prop :=
  (∃ entry ∈ file.entries, entry.HasSource config.providerSource) ∧
    ∀ entry ∈ file.entries, entry.HasSource config.providerSource →
      entry.DeclaresFloor config.providerFloor

def RequiredDeclares : Prop :=
  ∃ mention ∈ file.head ++ file.foot, mention.isAttribute = true ∧ mention.key = .requiredVersion ∧
    Declares mention.value config.tfFloor

/-- The guard accepts a file where the provider is at the floor, and no other. -/
def FloorChecked : Prop :=
  (checkVersionsFile digits config file.text = .ok () → file.ProviderDeclares config) ∧
    (file.ProviderDeclares config → file.RequiredDeclares config →
      checkVersionsFile digits config file.text = .ok ())

def RequiredPasses : Prop := ∃ c ∈ file.requiredVersion, Passes digits c config.tfFloor

def PairedPasses : Prop :=
  ∃ c ∈ file.pairedVersion config.providerSource, Passes digits c config.providerFloor

/-- What the guard reads in place of the constraints is at the floors only where they are, and where
they are. -/
structure ReadsRight : Prop where
  borrowsNothing : file.RequiredPasses digits config → file.PairedPasses digits config →
    file.ProviderDeclares config
  missesNothing : file.ProviderDeclares config → file.RequiredDeclares config →
    file.RequiredPasses digits config ∧ file.PairedPasses digits config

end VersionsFile

variable {digits : DecimalTable} {config : FloorConfig}

theorem accepts_iff {file : VersionsFile} :
    checkVersionsFile digits config file.text = .ok () ↔
      file.RequiredPasses digits config ∧ file.PairedPasses digits config := by
  simp only [checkVersionsFile_eq_ok, meetsFloor_iff_passes, VersionsFile.RequiredPasses,
    VersionsFile.PairedPasses]

/-- When the guard checks the floor of a file. -/
theorem floorChecked_iff {file : VersionsFile} :
    file.FloorChecked digits config ↔ file.ReadsRight digits config := by
  constructor
  · rintro ⟨sound, complete⟩
    refine ⟨fun required paired => sound (accepts_iff.mpr ⟨required, paired⟩), ?_⟩
    intro provider required
    exact accepts_iff.mp (complete provider required)
  · rintro ⟨borrowsNothing, missesNothing⟩
    constructor
    · intro accepted
      rcases accepts_iff.mp accepted with ⟨required, paired⟩
      exact borrowsNothing required paired
    · intro provider required
      exact accepts_iff.mpr (missesNothing provider required)

end Providers

section OtherEntry

/-- The mentions of a text, where the names of attributes stand nowhere else. -/
def Once (mention : MentionText) : Prop :=
  ∀ other ∈ [Key.requiredVersion, .source, .version], ∀ n < mention.text.length,
    other.name <+: mention.text.drop n →
      mention.text.take n = mention.front ++ (mention.text.take n).drop mention.front.length ∧
        mention.key.name = (mention.text.take n).drop mention.front.length ++ other.name

instance (mention : MentionText) : Decidable (Once mention) :=
  inferInstanceAs (Decidable (∀ other ∈ _, ∀ n < _, _ → _))

theorem quote_not_mem_name (key : Key) : quote ∉ key.name := by cases key <;> decide

theorem only_of_once {mention : MentionText} (once : Once mention) {other : Key} {lines rest : Str}
    (opens : OpensAt other (mention.text ++ rest) lines)
    (long : lines.length < mention.text.length) :
    ∃ ahead, lines = mention.front ++ ahead ∧ mention.key.name = ahead ++ other.name := by
  rcases opens with ⟨gap, afterEquals, back, -, -, same⟩
  rcases take_drop_of_append same (Nat.le_of_lt long) with ⟨lines_eq, dropped⟩
  have lastQuote : ∃ front, mention.text.drop lines.length = front ++ [quote] := by
    have whole : mention.text = mention.front ++ (mention.key.name ++ (mention.gap ++ .char '=' ::
        (mention.afterEquals ++ quote :: mention.value))) ++ [quote] := by
      simp [MentionText.text, assigned]
    rw [whole, List.length_append, List.length_singleton] at long
    rw [whole, List.drop_append_of_le_length (Nat.lt_succ_iff.mp long)]
    exact ⟨_, rfl⟩
  rcases lastQuote with ⟨front, split⟩
  have begins : other.name <+: mention.text.drop lines.length := by
    rw [split]
    apply List.IsPrefix.trans ?_ (List.prefix_append front [quote])
    apply prefix_of_not_mem (quote_not_mem_name other)
    rw [split, List.append_assoc] at dropped
    exact ⟨_, dropped.symm⟩
  have known : other ∈ [Key.requiredVersion, .source, .version] := by cases other <;> decide
  rcases once other known lines.length long begins with ⟨front_eq, name_eq⟩
  rw [← lines_eq] at front_eq name_eq
  exact ⟨_, front_eq, name_eq⟩

/-- An attribute on a line of its own. -/
def ownLine (front : String) (key : Key) (value : String) (plain : quote ∉ str value)
    (once : Once ⟨str front, key, str " ", str " ", str value⟩) : Mention where
  front := str front
  key := key
  gap := str " "
  afterEquals := str " "
  value := str value
  isAttribute := true
  space := by decide
  plain := plain
  only := fun _ _ _ opens long => only_of_once once opens long

def awsEntry : Entry where
  mentions := [ownLine "\n\n  required_providers \x7b\n    aws = \x7b\n      " .version "~> 5.0"
    (by decide) (by decide +kernel), ownLine "\n      " .source "hashicorp/aws" (by decide)
    (by decide +kernel)]
  attributes := by decide

def randomEntry : Entry where
  mentions := [ownLine "\n    \x7d\n    random = \x7b\n      " .source "hashicorp/random"
    (by decide) (by decide +kernel), ownLine "\n      " .version ">= 6.50.0" (by decide)
    (by decide +kernel)]
  attributes := by decide

def otherEntryFile : VersionsFile where
  head := [ownLine "terraform \x7b\n  " .requiredVersion ">= 1.15.5" (by decide)
    (by decide +kernel)]
  entries := [awsEntry, randomEntry]
  foot := []
  tail := str "\n    \x7d\n  \x7d\n\x7d\n"
  attributes := by decide
  noMention := by
    rintro key lines ⟨gap, afterEquals, back, -, -, same⟩
    have quoteMem : quote ∈ str "\n    \x7d\n  \x7d\n\x7d\n" := by simp [same]
    exact absurd quoteMem (by decide)

def defaultConfig : FloorConfig where
  tfFloor := str "1.15.5"
  providerFloor := str "6.49.0"
  providerSource := str "hashicorp/aws"

/-- The version of another entry passes for that of the provider. -/
theorem not_floorChecked_otherEntry : ¬otherEntryFile.FloorChecked .latin defaultConfig := by
  rintro ⟨sound, -⟩
  have accepted : checkVersionsFile .latin defaultConfig otherEntryFile.text = .ok () := by
    apply checkVersionsFile_eq_ok.mpr
    exact ⟨⟨str ">= 1.15.5", by decide +kernel, by decide +kernel⟩,
      str ">= 6.50.0", by decide +kernel, by decide +kernel⟩
  have isSource : awsEntry.HasSource defaultConfig.providerSource :=
    ⟨_, List.mem_cons_of_mem _ List.mem_cons_self, rfl, rfl, rfl⟩
  rcases (sound accepted).2 awsEntry List.mem_cons_self isSource with
    ⟨mention, mentionMem, -, isVersion, declares⟩
  have value : mention.value = str "~> 5.0" := by
    simp only [awsEntry, List.mem_cons, List.not_mem_nil, or_false] at mentionMem
    rcases mentionMem with rfl | rfl
    · rfl
    · cases isVersion
  rcases declares with ⟨text, bound, -⟩
  have noBound : lowerBound (str "~> 5.0") = none := by decide +kernel
  rw [value, noBound] at bound
  cases bound

end OtherEntry
end VersionFloor
