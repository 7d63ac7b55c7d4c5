import TelemetryPlatform.Copyability.Closure

/-!
# The instance-relative paths of a text

An attribute `config_path` refers to another instance of the service when its value
ends in `${local.svc_instance}`. No two such attributes of a text overlap, so that
`finditer` finds the prefixes of all of them and nothing else.
-/

namespace Copyability

open Python

section Readings

/-- The attribute with an instance-relative path, with white space on both sides of its sign. -/
def configPath (gap gap' relPrefix : Str) : Str :=
  str "config_path" ++ (gap ++ (str "=" ++ gap')) ++
    quote :: (relPrefix ++ str "/$\x7blocal.svc_instance\x7d\"")

/-- The way up, and what else stands in front of the instance. -/
def IsRelPrefix (relPrefix : Str) : Prop :=
  ∃ more, relPrefix = str "../" ++ more ∧ more ≠ [] ∧ quote ∉ more ∧ .char '$' ∉ more

theorem IsRelPrefix.plain {relPrefix : Str} (path : IsRelPrefix relPrefix) :
    quote ∉ relPrefix ∧ .char '$' ∉ relPrefix := by
  rcases path with ⟨more, rfl, -, noQuote, noDollar⟩
  have front : quote ∉ str "../" ∧ Chr.char '$' ∉ str "../" := by decide
  rw [List.mem_append, List.mem_append]
  exact ⟨not_or.mpr ⟨front.1, noQuote⟩, not_or.mpr ⟨front.2, noDollar⟩⟩

theorem reads_relPrefix {passed text rest : Str} {groups after : List (Nat × Str)} :
    (Pattern.seq (.oneOrMore (.word (str "../")))
      (.oneOrMore (.one fun c => c ≠ quote && c ≠ .char '$'))).Reads passed text rest groups after ↔
      IsRelPrefix text ∧ after = groups := by
  have plain (value : Str) : (∀ c ∈ value, (decide (c ≠ quote) && decide (c ≠ .char '$')) = true) ↔
      quote ∉ value ∧ .char '$' ∉ value := by
    simp only [Bool.and_eq_true, decide_eq_true_eq, forall_and, ne_eq]
    exact and_congr List.forall_mem_ne' List.forall_mem_ne'
  constructor
  · rintro ⟨ways, value, _, rfl, ⟨first, others, _, rfl, readsFirst, readsOthers⟩, readsValue⟩
    rcases reads_word.mp readsFirst with ⟨rfl, rfl⟩
    rcases reads_oneOrMore_one.mp readsValue with ⟨nonempty, each, rfl⟩
    rcases mem_of_reads_many_word readsOthers with ⟨ways, rfl⟩
    rcases (plain value).mp each with ⟨noQuote, noDollar⟩
    refine ⟨⟨others ++ value, List.append_assoc _ _ _, by simp [nonempty], ?_, ?_⟩, rfl⟩
    · rw [List.mem_append]
      exact not_or.mpr ⟨fun quoteMem => absurd (ways quote quoteMem) (by decide), noQuote⟩
    · rw [List.mem_append]
      exact not_or.mpr ⟨fun dollarMem => absurd (ways _ dollarMem) (by decide), noDollar⟩
  · rintro ⟨⟨more, rfl, nonempty, noQuote, noDollar⟩, rfl⟩
    refine ⟨str "../", more, after, rfl,
      ⟨str "../", [], after, rfl, reads_word.mpr ⟨rfl, rfl⟩, .done⟩, ?_⟩
    exact reads_oneOrMore_one.mpr ⟨nonempty, (plain more).mpr ⟨noQuote, noDollar⟩, rfl⟩

theorem reads_instanceConfigPath {passed text rest : Str} {groups after : List (Nat × Str)} :
    instanceConfigPathPattern.Reads passed text rest groups after ↔
      ∃ gap gap' relPrefix, text = configPath gap gap' relPrefix ∧ AllSpace gap ∧ AllSpace gap' ∧
        IsRelPrefix relPrefix ∧ after = (1, relPrefix) :: groups := by
  rw [instanceConfigPathPattern]
  simp only [reads_cons, reads_nil, reads_spaces, reads_word, reads_group, reads_relPrefix]
  constructor
  · rintro ⟨_, _, _, rfl, ⟨rfl, rfl⟩, gap, _, _, rfl, ⟨gapSpace, rfl⟩, _, _, _, rfl, ⟨rfl, rfl⟩,
      gap', _, _, rfl, ⟨gapSpace', rfl⟩, _, _, _, rfl, ⟨rfl, rfl⟩, relPrefix, _, _, rfl,
      ⟨_, ⟨path, rfl⟩, rfl⟩, _, _, _, rfl, ⟨rfl, rfl⟩, rfl, rfl⟩
    exact ⟨gap, gap', relPrefix, by simp [configPath], gapSpace, gapSpace', path, rfl⟩
  · rintro ⟨gap, gap', relPrefix, rfl, gapSpace, gapSpace', path, rfl⟩
    refine ⟨str "config_path", _, _, ?_, ⟨rfl, rfl⟩, gap, _, _, rfl, ⟨gapSpace, rfl⟩, str "=", _, _,
      rfl, ⟨rfl, rfl⟩, gap', _, _, rfl, ⟨gapSpace', rfl⟩, [quote], _, _, rfl, ⟨rfl, rfl⟩,
      relPrefix, _, _, rfl, ⟨_, ⟨path, rfl⟩, rfl⟩, str "/$\x7blocal.svc_instance\x7d\"", [], _,
      rfl, ⟨rfl, rfl⟩, rfl, rfl⟩
    simp [configPath]

end Readings

section Overlaps

/-- A name and an equals sign have no other characters, with white space behind them. -/
theorem not_mem_key {name gap gap' : Str} (gapSpace : AllSpace gap) (gapSpace' : AllSpace gap')
    {c : Chr} (solid : isSpace c = false) (absent : c ∉ name ++ str "=") :
    c ∉ name ++ (gap ++ (str "=" ++ gap')) := by
  have notSpace {spaces : Str} (allSpace : AllSpace spaces) : c ∉ spaces := by
    intro cMem
    rw [allSpace c cMem] at solid
    cases solid
  simp only [List.mem_append, not_or] at absent ⊢
  exact ⟨absent.1, notSpace gapSpace, absent.2, notSpace gapSpace'⟩

theorem quote_not_mem_key {gap gap' : Str} (gapSpace : AllSpace gap) (gapSpace' : AllSpace gap') :
    quote ∉ str "config_path" ++ (gap ++ (str "=" ++ gap')) :=
  not_mem_key gapSpace gapSpace' (by decide) (by decide)

/-- A text is split at its first quote, or its first dollar, in one way. -/
theorem first_unique {front front' back back' : Str} {c : Chr} (absent : c ∉ front)
    (absent' : c ∉ front') (same : front ++ c :: back = front' ++ c :: back') :
    front = front' ∧ back = back' := by
  have stops : decide (c ≠ c) = false := by simp
  rcases span_cons_unique (all_ne_iff.mpr absent) (all_ne_iff.mpr absent') stops stops same with
    ⟨fronts, -, backs⟩
  exact ⟨fronts, backs⟩

variable {gap gap' other other' relPrefix relPrefix' : Str}

/-- An attribute that begins a text has one prefix. -/
theorem relPrefix_unique (gapSpace : AllSpace gap) (gapSpace' : AllSpace gap')
    (otherSpace : AllSpace other) (otherSpace' : AllSpace other') (path : IsRelPrefix relPrefix)
    (path' : IsRelPrefix relPrefix') {back back' : Str}
    (same : configPath gap gap' relPrefix ++ back = configPath other other' relPrefix' ++ back') :
    relPrefix = relPrefix' := by
  have noQuote := quote_not_mem_key gapSpace gapSpace'
  have noQuote' := quote_not_mem_key otherSpace otherSpace'
  have noDollar {own : Str} (ownPath : IsRelPrefix own) : Chr.char '$' ∉ own ++ str "/" := by
    rw [List.mem_append]
    exact not_or.mpr ⟨ownPath.plain.2, by decide⟩
  rw [configPath, configPath, List.append_assoc, List.append_assoc (str "config_path" ++ _),
    List.cons_append, List.cons_append] at same
  have values := (first_unique noQuote noQuote' same).2
  have atDollar (own rest : Str) : own ++ str "/$\x7blocal.svc_instance\x7d\"" ++ rest =
      own ++ str "/" ++ .char '$' :: (str "\x7blocal.svc_instance\x7d\"" ++ rest) := by
    rw [show str "/$\x7blocal.svc_instance\x7d\"" =
      str "/" ++ .char '$' :: str "\x7blocal.svc_instance\x7d\"" from rfl]
    simp
  rw [atDollar, atDollar] at values
  exact List.append_cancel_right (first_unique (noDollar path) (noDollar path') values).1

/-- No attribute begins in the value of another: only the last quote would be left to it, and a
brace stands in front of that. -/
theorem not_in_value (path : IsRelPrefix relPrefix) (otherSpace : AllSpace other)
    (otherSpace' : AllSpace other') {front inner back back' : Str}
    (split : relPrefix ++ str "/$\x7blocal.svc_instance\x7d\"" = front ++ inner)
    (unfinished : inner ≠ []) : inner ++ back ≠ configPath other other' relPrefix' ++ back' := by
  intro same
  rcases List.eq_nil_or_concat inner with rfl | ⟨inside, last, rfl⟩
  · exact unfinished rfl
  · have closing : str "/$\x7blocal.svc_instance\x7d\"" =
        str "/$\x7blocal.svc_instance" ++ [.char '\x7d'] ++ [quote] := rfl
    have whole : relPrefix ++ str "/$\x7blocal.svc_instance" ++ [.char '\x7d'] ++ [quote] =
        front ++ inside ++ [last] := by
      rw [List.append_assoc, List.append_assoc, ← List.append_assoc (str _), ← closing,
        List.append_assoc, ← List.concat_eq_append]
      exact split
    rcases List.append_inj' whole rfl with ⟨inside_eq, last_eq⟩
    cases last_eq
    have insideQuote : quote ∉ inside := by
      intro quoteMem
      have valueMem : quote ∈ relPrefix ++ str "/$\x7blocal.svc_instance" ++ [.char '\x7d'] :=
        inside_eq ▸ List.mem_append_right front quoteMem
      rw [List.append_assoc, List.mem_append] at valueMem
      exact valueMem.elim path.plain.1 (by decide)
    rw [configPath, List.concat_eq_append, List.append_assoc, List.append_assoc, List.cons_append,
      List.cons_append] at same
    rw [(first_unique insideQuote (quote_not_mem_key otherSpace otherSpace') same).1] at inside_eq
    have lasts := congrArg List.getLast? inside_eq
    rw [List.getLast?_concat, List.getLast?_append_of_ne_nil _
      (List.append_ne_nil_of_left_ne_nil (by decide) _)] at lasts
    exact not_mem_key otherSpace otherSpace' (by decide) (by decide)
      (List.mem_of_getLast? lasts.symm)

/-- No attribute begins in the key of another: the first letter of the key occurs in it once. -/
theorem not_in_key (gapSpace : AllSpace gap) (gapSpace' : AllSpace gap')
    (otherSpace : AllSpace other) (otherSpace' : AllSpace other') {front inner value back' : Str}
    (split : str "config_path" ++ (gap ++ (str "=" ++ gap')) = front ++ inner)
    (begun : front ≠ []) :
    inner ++ quote :: value ≠ configPath other other' relPrefix' ++ back' := by
  intro same
  have noQuote := quote_not_mem_key gapSpace gapSpace'
  have innerQuote : quote ∉ inner := by
    intro quoteMem
    exact noQuote (split ▸ List.mem_append_right front quoteMem)
  rw [configPath, List.append_assoc, List.cons_append] at same
  rw [(first_unique innerQuote (quote_not_mem_key otherSpace otherSpace') same).1] at split
  cases front with
  | nil => exact begun rfl
  | cons c front =>
      have tail : str "onfig_path" ++ (gap ++ (str "=" ++ gap')) =
          front ++ (str "config_path" ++ (other ++ (str "=" ++ other'))) := (List.cons.inj split).2
      have letterMem : Chr.char 'c' ∈ str "onfig_path" ++ (gap ++ (str "=" ++ gap')) := by
        rw [tail]
        exact List.mem_append_right front (List.mem_append_left _ (by decide))
      exact not_mem_key gapSpace gapSpace' (by decide) (by decide) letterMem

/-- No attribute begins inside of another. -/
theorem not_inside (gapSpace : AllSpace gap) (gapSpace' : AllSpace gap')
    (otherSpace : AllSpace other) (otherSpace' : AllSpace other') (path : IsRelPrefix relPrefix)
    {front inner back back' : Str} (split : configPath gap gap' relPrefix = front ++ inner)
    (begun : front ≠ []) (unfinished : inner ≠ []) :
    inner ++ back ≠ configPath other other' relPrefix' ++ back' := by
  rw [configPath] at split
  rcases List.append_eq_append_iff.mp split with
    ⟨more, -, value_eq⟩ | ⟨more, key_eq, inner_eq⟩
  · cases more with
    | nil =>
        intro same
        rw [List.nil_append] at value_eq
        rw [← value_eq, List.cons_append] at same
        exact absurd (List.cons.inj same).1 (by decide)
    | cons c more =>
        exact not_in_value path otherSpace otherSpace' (List.cons.inj value_eq).2 unfinished
  · rw [inner_eq, List.append_assoc, List.cons_append]
    exact not_in_key gapSpace gapSpace' otherSpace otherSpace' key_eq begun

end Overlaps

/-- The prefixes that are found are those of the attributes in the text. -/
theorem mem_configPathPrefixes {text relPrefix : Str} :
    relPrefix ∈ configPathPrefixes text ↔ ∃ front gap gap' back,
      text = front ++ (configPath gap gap' relPrefix ++ back) ∧ AllSpace gap ∧ AllSpace gap' ∧
        IsRelPrefix relPrefix := by
  constructor
  · intro prefixMem
    rcases List.mem_filterMap.mp prefixMem with ⟨found, foundMem, grouped⟩
    rcases finds_of_mem_finditer foundMem with ⟨front, middle, back, rfl, reads⟩
    rcases reads_instanceConfigPath.mp reads with
      ⟨gap, gap', own, rfl, gapSpace, gapSpace', path, groups⟩
    rw [Match.group, groups] at grouped
    cases grouped
    exact ⟨front, gap, gap', back, rfl, gapSpace, gapSpace', path⟩
  · rintro ⟨front, gap, gap', back, rfl, gapSpace, gapSpace', path⟩
    have here : (instanceConfigPathPattern.matchAt (front.reverse ++ [])
        (configPath gap gap' relPrefix ++ back)).isSome = true :=
      matchAt_isSome.mpr ⟨_, back, _, rfl,
        reads_instanceConfigPath.mpr ⟨gap, gap', relPrefix, rfl, gapSpace, gapSpace', path, rfl⟩⟩
    rcases Option.isSome_iff_exists.mp here with ⟨found, matched⟩
    apply List.mem_filterMap.mpr
    refine ⟨found, mem_findFrom_of_clears ?_ (Nat.zero_le _) matched, ?_⟩
    · rintro before after earlier rfl some earlierMatched
      rcases reads_of_matchAt earlierMatched with ⟨-, split, -, reads⟩
      rcases reads_instanceConfigPath.mp reads with
        ⟨other, other', own, text_eq, otherSpace, otherSpace', ownPath, -⟩
      rcases List.append_eq_append_iff.mp split with ⟨inner, own_eq, rest⟩ | ⟨rest, after_eq, -⟩
      · by_cases finished : inner = []
        · rw [own_eq, finished, List.append_nil]
        · exact absurd rest.symm (not_inside otherSpace otherSpace' gapSpace gapSpace' ownPath
            (text_eq.symm.trans own_eq) some finished)
      · rw [after_eq, List.length_append]
        exact Nat.le_add_right _ _
    · rcases reads_of_matchAt matched with ⟨-, split, -, reads⟩
      rcases reads_instanceConfigPath.mp reads with
        ⟨other, other', own, text_eq, otherSpace, otherSpace', path', groups⟩
      rw [text_eq] at split
      rw [Match.group, groups,
        relPrefix_unique gapSpace gapSpace' otherSpace otherSpace' path path' split]
      rfl

end Copyability
