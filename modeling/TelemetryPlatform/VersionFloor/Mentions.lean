import TelemetryPlatform.VersionFloor.Check

/-!
# The mentions of a file

A `versions.tf` is read as a sequence of mentions `name = "value"` with any text
between them: the attributes of its blocks, and those that only a comment has. The
guard finds the mentions that have a value, and `version` also in a
`required_version`.
-/

namespace VersionFloor

open Python

section Mentions

inductive Key where
  | requiredVersion
  | source
  | version
deriving DecidableEq

def Key.name : Key → Str
  | .requiredVersion => str "required_version"
  | .source => str "source"
  | .version => str "version"

/-- A mention of an attribute, with the text in front of it. -/
structure MentionText where
  front : Str
  key : Key
  gap : Str
  afterEquals : Str
  value : Str

/-- What follows the name of an attribute. -/
def assigned (gap afterEquals value : Str) : Str :=
  gap ++ .char '=' :: (afterEquals ++ quote :: (value ++ [quote]))

def MentionText.text (mention : MentionText) : Str :=
  mention.front ++ (mention.key.name ++ assigned mention.gap mention.afterEquals mention.value)

/-- A place of a text where the name of an attribute stands with an opened string. -/
def OpensAt (key : Key) (text lines : Str) : Prop :=
  ∃ gap afterEquals back, AllSpace gap ∧ AllSpace afterEquals ∧
    text = lines ++ (key.name ++ (gap ++ .char '=' :: (afterEquals ++ quote :: back)))

/-- Whatever follows it, a mention mentions nothing else. A mention that is no attribute stands in a
comment. -/
structure Mention extends MentionText where
  isAttribute : Bool
  space : AllSpace gap ∧ AllSpace afterEquals
  plain : quote ∉ value
  only : ∀ other lines rest, OpensAt other (toMentionText.text ++ rest) lines →
    lines.length < toMentionText.text.length →
      ∃ ahead, lines = front ++ ahead ∧ key.name = ahead ++ other.name

/-- The mention can be found under a name. -/
def Mention.Shows (mention : Mention) (key : Key) : Prop :=
  mention.value ≠ [] ∧ key.name <:+ mention.key.name

instance (mention : Mention) (key : Key) : Decidable (mention.Shows key) :=
  inferInstanceAs (Decidable (_ ∧ _))

/-- The text of some mentions. -/
def textOf (mentions : List Mention) : Str := mentions.flatMap fun mention => mention.text

/-- No attribute is mentioned in a text. -/
def NoMention (tail : Str) : Prop := ∀ key lines, ¬OpensAt key tail lines

end Mentions

section Matches

variable {mention : Mention} {key : Key} {passed rest text : Str} {found : Match}

theorem reads_setting {groups after : List (Nat × Str)} {name : Str} :
    (settingRe name).Reads passed text rest groups after ↔ ∃ gap afterEquals value,
      text = name ++ assigned gap afterEquals value ∧ AllSpace gap ∧ AllSpace afterEquals ∧
        value ≠ [] ∧ quote ∉ value ∧ after = (1, value) :: groups := by
  rw [settingRe, reads_append]
  simp only [reads_cons, reads_nil, reads_spaces, reads_word, reads_quotedText]
  constructor
  · rintro ⟨_, _, _, rfl, ⟨_, _, _, rfl, ⟨rfl, rfl⟩, gap, _, _, rfl, ⟨gapSpace, rfl⟩, _, _, _, rfl,
      ⟨rfl, rfl⟩, rfl, rfl⟩, afterEquals, value, rfl, afterSpace, nonempty, plain, rfl⟩
    exact ⟨gap, afterEquals, value, by simp [assigned, str], gapSpace, afterSpace, nonempty,
      plain, rfl⟩
  · rintro ⟨gap, afterEquals, value, rfl, gapSpace, afterSpace, nonempty, plain, rfl⟩
    exact ⟨name ++ (gap ++ str "="), _, groups, by simp [assigned, str],
      ⟨name, _, groups, rfl, ⟨rfl, rfl⟩, gap, _, groups, rfl, ⟨gapSpace, rfl⟩, str "=", [],
        groups, rfl, ⟨rfl, rfl⟩, rfl, rfl⟩, afterEquals, value, rfl, afterSpace, nonempty,
        plain, rfl⟩

theorem name_ne_nil (key : Key) : key.name ≠ [] := by cases key <;> decide

theorem opensAt_of_reads {before ahead : Str} {groups after : List (Nat × Str)}
    (reads : (settingRe key.name).Reads passed text ahead groups after) :
    OpensAt key (before ++ (text ++ ahead)) before := by
  rcases reads_setting.mp reads with ⟨gap, afterEquals, value, rfl, gapSpace, afterSpace, -, -, -⟩
  exact ⟨gap, afterEquals, value ++ quote :: ahead, gapSpace, afterSpace, by simp [assigned]⟩

/-- What is found at a place of a mention is its own value. -/
theorem place_of_mention {before after : Str} (split : mention.text = before ++ after)
    (nonempty : after ≠ [])
    (matched : (settingRe key.name).matchAt (before.reverse ++ passed) (after ++ rest) =
      some found) :
    mention.Shows key ∧ found.text = after ∧ found.group 1 = some mention.value := by
  rcases reads_of_matchAt matched with ⟨-, ahead, -, reads⟩
  have opens := @opensAt_of_reads key _ _ before _ _ _ reads
  rw [← ahead, ← List.append_assoc, ← split] at opens
  have long : before.length < mention.text.length := by
    rw [split, List.length_append]
    exact Nat.lt_add_of_pos_right (List.length_pos_iff.mpr nonempty)
  rcases mention.only key before rest opens long with ⟨ahead', rfl, name_eq⟩
  rcases reads_setting.mp reads with
    ⟨gap, afterEquals, value, whole, gapSpace, afterSpace, someValue, plain, groups⟩
  have same : mention.gap ++ .char '=' :: (mention.afterEquals ++ quote ::
      (mention.value ++ quote :: rest)) = gap ++ .char '=' :: (afterEquals ++ quote ::
      (value ++ quote :: found.stop.ahead)) := by
    have texts : mention.text ++ rest =
        mention.front ++ ahead' ++ (found.text ++ found.stop.ahead) := by
      rw [split, List.append_assoc (_ ++ ahead'), ahead]
    rw [MentionText.text, whole, name_eq] at texts
    simpa [assigned] using texts
  rcases span_cons_unique mention.space.1 gapSpace (by decide) (by decide) same with ⟨rfl, -, same⟩
  rcases span_cons_unique mention.space.2 afterSpace (by decide) (by decide)
    same with ⟨rfl, -, same⟩
  rcases span_cons_unique (ne_quote_of_plain mention.plain) (ne_quote_of_plain plain) (by simp)
    (by simp) same with ⟨rfl, -, -⟩
  refine ⟨⟨someValue, ahead', name_eq.symm⟩, ?_, ?_⟩
  · apply (List.append_right_inj (mention.front ++ ahead')).mp
    rw [← split, MentionText.text, whole, name_eq]
    simp
  · rw [Match.group, groups]
    rfl

/-- A mention is found under its name. -/
theorem matchAt_mention (someValue : mention.value ≠ []) (key : Key) (passed rest : Str) :
    ((settingRe key.name).matchAt passed
      (key.name ++ assigned mention.gap mention.afterEquals mention.value ++ rest)).isSome :=
  matchAt_isSome.mpr ⟨_, rest, [(1, mention.value)], rfl, reads_setting.mpr
    ⟨_, _, _, rfl, mention.space.1, mention.space.2, someValue, mention.plain, rfl⟩⟩

/-- A mention is found once, where it shows. -/
theorem findFrom_mention (mention : Mention) (key : Key) (passed rest : Str) :
    (¬mention.Shows key ∧
      (settingRe key.name).findFrom passed 0 (mention.text ++ rest) =
        (settingRe key.name).findFrom (mention.text.reverse ++ passed) 0 rest) ∨
    (mention.Shows key ∧ ∃ found, found.group 1 = some mention.value ∧
      found.stop.passed = mention.text.reverse ++ passed ∧
      (settingRe key.name).findFrom passed 0 (mention.text ++ rest) =
        found :: (settingRe key.name).findFrom (mention.text.reverse ++ passed) 0 rest) := by
  rcases avoids_or_first_within (settingRe key.name) passed mention.text rest with
    avoids | ⟨before, after, found, split, nonempty, avoids, matched⟩
  · refine .inl ⟨?_, findFrom_append avoids⟩
    rintro ⟨someValue, ahead, name_eq⟩
    have isSome := matchAt_mention someValue key ((mention.front ++ ahead).reverse ++ passed) rest
    have none := avoids (mention.front ++ ahead)
      (key.name ++ assigned mention.gap mention.afterEquals mention.value)
      (by rw [MentionText.text, ← name_eq]; simp) (by simp [name_ne_nil])
    rw [none] at isSome
    cases isSome
  · right
    rcases place_of_mention split nonempty matched with ⟨shows, whole, group⟩
    refine ⟨shows, found, group, ?_, ?_⟩
    · rw [(reads_of_matchAt matched).2.2.1, whole, split]
      simp
    · rw [split, List.append_assoc, findFrom_append avoids,
        findFrom_of_matchAt nonempty matched whole]
      simp

end Matches

section Files

variable {key : Key} {passed tail : Str} {mentions : List Mention}

theorem findFrom_tail (noMention : NoMention tail) :
    (settingRe key.name).findFrom passed 0 tail = [] := by
  apply List.eq_nil_iff_forall_not_mem.mpr
  intro found foundMem
  rcases mem_findFrom foundMem with ⟨front, back, rfl, matched⟩
  rcases reads_of_matchAt matched with ⟨-, ahead, -, reads⟩
  have opens := @opensAt_of_reads key _ _ front _ _ _ reads
  rw [← ahead] at opens
  exact noMention key front opens

/-- The value of the first mention that shows. -/
def firstValue (key : Key) (mentions : List Mention) : Option Str :=
  (mentions.find? fun mention => mention.Shows key).map (·.value)

/-- A search finds the first mention that shows. -/
theorem search_mentions (noMention : NoMention tail) :
    ((settingRe key.name).searchFrom passed (textOf mentions ++ tail)).map
      (fun found => (found.group 1).getD []) = firstValue key mentions := by
  rw [← head?_findFrom]
  induction mentions generalizing passed with
  | nil =>
      have nothing := @findFrom_tail key passed tail noMention
      rw [textOf, List.flatMap_nil, List.nil_append, nothing]
      rfl
  | cons mention mentions ih =>
      have split : textOf (mention :: mentions) ++ tail = mention.text ++
          (textOf mentions ++ tail) := by
        simp [textOf]
      rw [split]
      rcases findFrom_mention mention key passed (textOf mentions ++ tail) with
        ⟨hidden, skipped⟩ | ⟨shows, found, group, -, first⟩
      · rw [skipped, ih, firstValue, firstValue, List.find?_cons_of_neg (by simpa using hidden)]
      · rw [first, firstValue, List.find?_cons_of_pos (by simpa using shows)]
        simp [group]

/-- The mention of a provider's source. -/
def IsSourceOf (provider : Str) (mention : Mention) : Prop :=
  mention.Shows .source ∧ mention.value = provider

instance (provider : Str) (mention : Mention) : Decidable (IsSourceOf provider mention) :=
  inferInstanceAs (Decidable (_ ∧ _))

/-- The mentions up to the first of a provider's source, and those behind it. -/
def splitSource (provider : Str) : List Mention → Option (List Mention × List Mention)
  | [] => none
  | mention :: mentions =>
      if IsSourceOf provider mention then some ([mention], mentions)
      else (splitSource provider mentions).map fun parts => (mention :: parts.1, parts.2)

theorem eq_append_of_splitSource {provider : Str} {parts : List Mention × List Mention}
    (split : splitSource provider mentions = some parts) : mentions = parts.1 ++ parts.2 := by
  induction mentions generalizing parts with
  | nil => cases split
  | cons mention mentions ih =>
      rw [splitSource] at split
      split at split
      · cases split
        rfl
      · rcases Option.map_eq_some_iff.mp split with ⟨others, splitOthers, rfl⟩
        rw [ih splitOthers]
        rfl

/-- The first match with a provider's source ends where the mentions are split. -/
theorem find?_source {provider : Str} (noMention : NoMention tail) :
    ((providerSourceRe.findFrom passed 0 (textOf mentions ++ tail)).find?
        (·.group 1 = some provider)).map (·.stop.passed) =
      (splitSource provider mentions).map fun parts => (textOf parts.1).reverse ++ passed := by
  induction mentions generalizing passed with
  | nil =>
      have nothing := @findFrom_tail .source passed tail noMention
      rw [textOf, List.flatMap_nil, List.nil_append, providerSourceRe, splitSource]
      exact congrArg _ (congrArg _ nothing)
  | cons mention mentions ih =>
      have split : textOf (mention :: mentions) ++ tail = mention.text ++
          (textOf mentions ++ tail) := by
        simp [textOf]
      have goOn : (splitSource provider mentions).map
            (fun parts => (textOf parts.1).reverse ++ (mention.text.reverse ++ passed)) =
          ((splitSource provider mentions).map fun parts => (mention :: parts.1, parts.2)).map
            fun parts => (textOf parts.1).reverse ++ passed := by
        rw [Option.map_map]
        apply congrArg (Option.map · (splitSource provider mentions))
        funext parts
        simp [textOf]
      rw [split, splitSource]
      rcases findFrom_mention mention .source passed (textOf mentions ++ tail) with
        ⟨hidden, skipped⟩ | ⟨shows, found, group, stop, first⟩
      · rw [if_neg fun isSource => hidden isSource.1, ← goOn, ← ih]
        exact congrArg _ (congrArg _ skipped)
      · change ((settingRe Key.source.name).findFrom _ _ _ |>.find? _).map _ = _
        rw [first]
        by_cases same : mention.value = provider
        · rw [List.find?_cons_of_pos (by simp [group, same]), if_pos ⟨shows, same⟩]
          simpa [textOf] using stop
        · rw [List.find?_cons_of_neg (by simp [group, same]), if_neg fun isSource =>
            same isSource.2, ← goOn]
          exact ih

end Files

section Layout

/-- An entry of the provider block: its source and, before or behind it, maybe its version. -/
structure Entry where
  mentions : List Mention
  attributes : (mentions.filter (·.isAttribute)).map (·.key) ∈
    [[.source], [.source, .version], [.version, .source]]

/-- A file with a list of provider entries and maybe a required version, before or behind them. -/
structure VersionsFile where
  head : List Mention
  entries : List Entry
  foot : List Mention
  tail : Str
  attributes : ((head ++ foot).filter (·.isAttribute)).map (·.key) ∈ [[], [.requiredVersion]]
  noMention : NoMention tail

namespace VersionsFile

variable (file : VersionsFile)

def mentions : List Mention := file.head ++ (file.entries.flatMap (·.mentions) ++ file.foot)

def text : Str := textOf file.mentions ++ file.tail

/-- The first constraint of a required version. -/
def requiredVersion : Option Str := firstValue .requiredVersion file.mentions

/-- The first constraint of a version behind the first mention of a provider's source. -/
def pairedVersion (provider : Str) : Option Str :=
  (splitSource provider file.mentions).bind fun parts => firstValue .version parts.2

end VersionsFile

variable {digits : DecimalTable} {config : FloorConfig} {file : VersionsFile}

theorem text_eq {parts : List Mention × List Mention} (split : file.mentions = parts.1 ++ parts.2) :
    file.text = textOf parts.1 ++ (textOf parts.2 ++ file.tail) := by
  rw [VersionsFile.text, split]
  simp [textOf]

/-- What the guard finds behind the first mention of a provider's source. -/
theorem search_behind (provider : Str) :
    ((providerSourceRe.finditer file.text).find? (·.group 1 = some provider)).bind (fun srcMatch =>
        (providerVersionRe.searchAfter file.text srcMatch.stopOffset).map
          fun verMatch => (verMatch.group 1).getD []) = file.pairedVersion provider := by
  have found := @find?_source [] file.tail file.mentions provider file.noMention
  change ((providerSourceRe.finditer file.text).find? _).map _ = _ at found
  rw [VersionsFile.pairedVersion]
  cases split : splitSource provider file.mentions with
  | none =>
      rw [split] at found
      rw [Option.map_eq_none_iff.mp found]
      rfl
  | some parts =>
      rw [split] at found
      rcases Option.map_eq_some_iff.mp found with ⟨srcMatch, first, stop⟩
      have offset : srcMatch.stopOffset = (textOf parts.1).length := by
        rw [Match.stopOffset, stop]
        simp
      rw [first, Option.bind_some, Option.bind_some, Pattern.searchAfter, offset,
        text_eq (eq_append_of_splitSource split), List.take_left, List.drop_left]
      exact @search_mentions .version _ file.tail parts.2 file.noMention

theorem findProviderVersion_cases :
    (∃ c ∈ file.pairedVersion config.providerSource,
      meetsFloor digits c config.providerFloor = true ∧
        findProviderVersionInContent digits config file.text = .ok (some true)) ∨
    ((∀ c ∈ file.pairedVersion config.providerSource,
      meetsFloor digits c config.providerFloor = false) ∧
        ∀ found, findProviderVersionInContent digits config file.text ≠ .ok (some found)) := by
  have paired := @search_behind file config.providerSource
  rw [← paired, findProviderVersionInContent]
  cases (providerSourceRe.finditer file.text).find? (·.group 1 = some config.providerSource) with
  | none => simp
  | some srcMatch =>
      simp only [Option.bind_some]
      cases providerVersionRe.searchAfter file.text srcMatch.stopOffset with
      | none => simp
      | some verMatch =>
          simp only [Option.map_some, Option.mem_some_iff, exists_eq_left', forall_eq']
          cases meets : meetsFloor digits ((verMatch.group 1).getD []) config.providerFloor with
          | true => exact .inl ⟨rfl, rfl⟩
          | false => exact .inr ⟨rfl, by simp⟩

/-- The guard raises nothing where the first required version and the version that is paired with
the provider meet their floors. -/
theorem checkVersionsFile_eq_ok : checkVersionsFile digits config file.text = .ok () ↔
    (∃ c ∈ file.requiredVersion, meetsFloor digits c config.tfFloor = true) ∧
      ∃ c ∈ file.pairedVersion config.providerSource,
        meetsFloor digits c config.providerFloor = true := by
  have first := @search_mentions .requiredVersion [] file.tail file.mentions file.noMention
  change (requiredVersionRe.search file.text).map _ = file.requiredVersion at first
  rw [← first, checkVersionsFile]
  cases requiredVersionRe.search file.text with
  | none => simp
  | some tfMatch =>
      simp only [Option.map_some, Option.mem_some_iff, exists_eq_left']
      cases meetsFloor digits ((tfMatch.group 1).getD []) config.tfFloor with
      | false => simp
      | true =>
          rw [if_pos rfl, eq_self, true_and]
          rcases @findProviderVersion_cases digits config file with
            ⟨c, paired, meets, found⟩ | ⟨never, notFound⟩
          · rw [found]
            exact iff_of_true rfl ⟨c, paired, meets⟩
          · refine iff_of_false ?_ ?_
            · cases result : findProviderVersionInContent digits config file.text with
              | error error => simp [bind, Except.bind]
              | ok found =>
                  cases found with
                  | none => simp [bind, Except.bind]
                  | some found => exact absurd result (notFound found)
            · rintro ⟨c, paired, meets⟩
              rw [never c paired] at meets
              cases meets

end Layout

end VersionFloor
