import TelemetryPlatform.Library.Regex

/-!
# Attributes of HCL files

The patterns with which scripts look for attributes in the text of Terraform and
Terragrunt files, and what they match: a line that begins with a name and an equals
sign, and a string in double quotes.
-/

namespace Python

section Spans

variable {α : Type} {holds : α → Bool}

/-- A text has one longest beginning of characters of a kind. -/
theorem span_unique {front front' back back' : List α} (each : ∀ c ∈ front, holds c = true)
    (each' : ∀ c ∈ front', holds c = true) (stops : ∀ c ∈ back.head?, holds c = false)
    (stops' : ∀ c ∈ back'.head?, holds c = false) (same : front ++ back = front' ++ back') :
    front = front' ∧ back = back' := by
  have whole {front back : List α} (each : ∀ c ∈ front, holds c = true)
      (stops : ∀ c ∈ back.head?, holds c = false) :
      (front ++ back).takeWhile holds = front := by
    rw [List.takeWhile_append_of_pos each]
    cases back with
    | nil => simp
    | cons c back => rw [List.takeWhile_cons_of_neg (by simp [stops c rfl]), List.append_nil]
  have fronts : front = front' := by rw [← whole each stops, same, whole each' stops']
  rw [fronts] at same
  exact ⟨fronts, List.append_cancel_left same⟩

theorem span_cons_unique {front front' back back' : List α} {c c' : α}
    (each : ∀ c ∈ front, holds c = true) (each' : ∀ c ∈ front', holds c = true)
    (stops : holds c = false) (stops' : holds c' = false)
    (same : front ++ c :: back = front' ++ c' :: back') : front = front' ∧ c = c' ∧
        back = back' := by
  rcases span_unique each each' (by simpa using stops) (by simpa using stops') same with
    ⟨fronts, backs⟩
  exact ⟨fronts, List.cons.inj backs⟩

/-- A text without a separator that begins a text ends in front of the separator. -/
theorem prefix_of_not_mem {text front back : List α} {separator : α} (absent : separator ∉ text)
    (begins : text <+: front ++ separator :: back) : text <+: front := by
  rcases begins with ⟨rest, same⟩
  rcases List.append_eq_append_iff.mp same with ⟨more, front_eq, -⟩ | ⟨more, rfl, more_eq⟩
  · exact ⟨more, front_eq.symm⟩
  · cases more with
    | nil => exact ⟨[], by simp⟩
    | cons c more =>
        cases more_eq
        exact absurd (by simp) absent

/-- The first that is not of a kind is in the front, if there is one. -/
theorem head?_dropWhile_append (front back : List α) :
    ((front ++ back).dropWhile holds).head? =
      (front.dropWhile holds).head?.or (back.dropWhile holds).head? := by
  induction front with
  | nil => rfl
  | cons c front ih =>
      by_cases here : holds c = true
      · rwa [List.cons_append, List.dropWhile_cons_of_pos here, List.dropWhile_cons_of_pos here]
      · rw [List.cons_append, List.dropWhile_cons_of_neg here, List.dropWhile_cons_of_neg here]
        rfl

/-- Of two texts with different first separators one has that of the other in front of its own. -/
theorem mem_or_mem_of_append {front front' back back' : List α} {separator separator' : α}
    (other : separator ≠ separator')
    (same : front ++ separator :: back = front' ++ separator' :: back') :
    separator' ∈ front ∨ separator ∈ front' := by
  rcases List.append_eq_append_iff.mp same with ⟨more, rfl, more_eq⟩ | ⟨more, rfl, more_eq⟩
  · cases more with
    | nil => exact absurd (List.cons.inj more_eq).1 other
    | cons c more =>
        rw [List.cons_append, List.cons.injEq] at more_eq
        right
        simp [more_eq.1]
  · cases more with
    | nil => exact absurd (List.cons.inj more_eq).1.symm other
    | cons c more =>
        rw [List.cons_append, List.cons.injEq] at more_eq
        left
        simp [more_eq.1]

/-- A text whose front is another text, both cut where the front of the other ends. -/
theorem take_drop_of_append {text rest front back : List α} (same : text ++ rest = front ++ back)
    (long : front.length ≤ text.length) :
    front = text.take front.length ∧ text.drop front.length ++ rest = back := by
  constructor
  · have taken := congrArg (List.take front.length) same
    rw [List.take_append_of_le_length long, List.take_left] at taken
    exact taken.symm
  · have dropped := congrArg (List.drop front.length) same
    rwa [List.drop_append_of_le_length long, List.drop_left] at dropped

/-- The same from the end. -/
theorem span_unique_right {front front' back back' : List α} (each : ∀ c ∈ back, holds c = true)
    (each' : ∀ c ∈ back', holds c = true) (stops : ∀ c ∈ front.getLast?, holds c = false)
    (stops' : ∀ c ∈ front'.getLast?, holds c = false) (same : front ++ back = front' ++ back') :
    front = front' ∧ back = back' := by
  have reversed : back.reverse ++ front.reverse = back'.reverse ++ front'.reverse := by
    rw [← List.reverse_append, ← List.reverse_append, same]
  rcases span_unique (by simpa using each) (by simpa using each') (by simpa using stops)
    (by simpa using stops') reversed with ⟨backs, fronts⟩
  exact ⟨List.reverse_injective fronts, List.reverse_injective backs⟩

end Spans

def quote : Chr := .char '"'

def AllSpace (text : Str) : Prop := ∀ c ∈ text, isSpace c = true

instance (text : Str) : Decidable (AllSpace text) := inferInstanceAs (Decidable (∀ c ∈ _, _))

/-- A text stands at the start of a line, apart from white space. -/
def BeginsLine (front : Str) : Prop :=
  ∃ lines indent, front = lines ++ indent ∧ (lines = [] ∨ lines.getLast? = newline) ∧
    AllSpace indent

/-- Nothing but white space follows on the line. -/
def EndsLine (back : Str) : Prop :=
  ∃ space rest, back = space ++ rest ∧ AllSpace space ∧ (rest = [] ∨ rest.head? = newline)

namespace Pattern

/-- `^\s*name\s*=`. -/
def assignment (name : Str) : List Pattern :=
  [.lineStart, .spaces, .word name, .spaces, .word (str "=")]

/-- `\s*"([^"]+)"`. -/
def quotedText (index : Nat) : List Pattern :=
  [.spaces, .word [quote], .group index (.oneOrMore (.one (· ≠ quote))), .word [quote]]

end Pattern

section Readings

variable {passed text rest : Str} {groups after : List (Nat × Str)}

theorem reads_nil : (Pattern.sequence []).Reads passed text rest groups after ↔
    text = [] ∧ after = groups := and_congr_right fun _ => and_iff_left trivial

theorem reads_cons {first : Pattern} {others : List Pattern} :
    (Pattern.sequence (first :: others)).Reads passed text rest groups after ↔
      ∃ front back between, text = front ++ back ∧
        first.Reads passed front (back ++ rest) groups between ∧
        (Pattern.sequence others).Reads (front.reverse ++ passed) back rest between after := Iff.rfl

theorem reads_append {first second : List Pattern} :
    (Pattern.sequence (first ++ second)).Reads passed text rest groups after ↔
      ∃ front back between, text = front ++ back ∧
        (Pattern.sequence first).Reads passed front (back ++ rest) groups between ∧
        (Pattern.sequence second).Reads (front.reverse ++ passed) back rest between after := by
  induction first generalizing passed text groups with
  | nil =>
      constructor
      · intro reads
        exact ⟨[], text, groups, rfl, reads_nil.mpr ⟨rfl, rfl⟩, reads⟩
      · rintro ⟨front, back, between, rfl, nothing, reads⟩
        rcases reads_nil.mp nothing with ⟨rfl, rfl⟩
        exact reads
  | cons pattern first ih =>
      rw [List.cons_append, reads_cons]
      constructor
      · rintro ⟨front, others, between, rfl, readsPattern, readsOthers⟩
        rcases ih.mp readsOthers with ⟨middle, back, between', rfl, readsFirst, readsSecond⟩
        refine ⟨front ++ middle, back, between', by rw [List.append_assoc],
          reads_cons.mpr ⟨front, middle, between, rfl, ?_, readsFirst⟩, ?_⟩
        · rwa [← List.append_assoc]
        · rwa [List.reverse_append, List.append_assoc]
      · rintro ⟨others, back, between', rfl, readsBoth, readsSecond⟩
        rcases reads_cons.mp readsBoth with ⟨front, middle, between, rfl, readsPattern, readsFirst⟩
        refine ⟨front, middle ++ back, between, by rw [List.append_assoc], ?_,
          ih.mpr ⟨middle, back, between', rfl, readsFirst, ?_⟩⟩
        · rwa [List.append_assoc]
        · rwa [List.reverse_append, List.append_assoc] at readsSecond

theorem reads_lineStart : Pattern.lineStart.Reads passed text rest groups after ↔
    text = [] ∧ after = groups ∧ (passed = [] ∨ passed.head? = newline) := Iff.rfl

theorem reads_lineEnd : Pattern.lineEnd.Reads passed text rest groups after ↔
    text = [] ∧ after = groups ∧ (rest = [] ∨ rest.head? = newline) := Iff.rfl

theorem reads_spaces : Pattern.spaces.Reads passed text rest groups after ↔
    AllSpace text ∧ after = groups := reads_many_one

theorem reads_group {index : Nat} {body : Pattern} :
    (body.group index).Reads passed text rest groups after ↔
      ∃ inner, body.Reads passed text rest groups inner ∧ after = (index, text) :: inner := Iff.rfl

theorem reads_wordEdge {isWord : Chr → Bool} :
    (Pattern.wordEdge isWord).Reads passed text rest groups after ↔
      text = [] ∧ after = groups ∧ passed.head?.any isWord ≠ rest.head?.any isWord := Iff.rfl

theorem reads_either {first second : Pattern} :
    (first.either second).Reads passed text rest groups after ↔
      first.Reads passed text rest groups after ∨ second.Reads passed text rest groups after :=
        Iff.rfl

/-- A name that begins at the edge of a word. -/
theorem reads_name {isWord : Chr → Bool} {c : Chr} {name : Str} {parts : List Pattern}
    (wordly : isWord c = true) :
    (Pattern.sequence (.wordEdge isWord :: .word (c :: name) :: parts)).Reads passed text
      rest groups
        after ↔
      (∀ d ∈ passed.head?, isWord d = false) ∧ ∃ back, text = c :: name ++ back ∧
        (Pattern.sequence parts).Reads ((c :: name).reverse ++ passed) back rest groups after := by
  have atEdge (ahead : Str) :
      (passed.head?.any isWord ≠ (c :: ahead).head?.any isWord) ↔
        ∀ d ∈ passed.head?, isWord d = false := by
    cases passed.head? with
    | none => simp [wordly]
    | some d => simp [wordly]
  simp only [reads_cons, reads_wordEdge, reads_word]
  constructor
  · rintro ⟨_, _, _, rfl, ⟨rfl, rfl, edge⟩, _, back, _, rfl, ⟨rfl, rfl⟩, reads⟩
    exact ⟨(atEdge _).mp edge, back, rfl, reads⟩
  · rintro ⟨edge, back, rfl, reads⟩
    exact ⟨[], _, _, rfl, ⟨rfl, rfl, (atEdge _).mpr edge⟩, c :: name, back, _, rfl,
      ⟨rfl, rfl⟩, reads⟩

theorem reads_assignment {name : Str} :
    (Pattern.sequence (Pattern.assignment name)).Reads passed text rest groups after ↔
      (passed = [] ∨ passed.head? = newline) ∧ after = groups ∧ ∃ indent gap,
        text = indent ++ (name ++ (gap ++ str "=")) ∧ AllSpace indent ∧ AllSpace gap := by
  simp only [Pattern.assignment, reads_cons, reads_nil, reads_lineStart, reads_spaces, reads_word]
  constructor
  · rintro ⟨_, _, _, rfl, ⟨rfl, rfl, starts⟩, indent, _, _, rfl, ⟨indentSpace, rfl⟩, _, _, _, rfl,
      ⟨rfl, rfl⟩, gap, _, _, rfl, ⟨gapSpace, rfl⟩, _, _, _, rfl, ⟨rfl, rfl⟩, rfl, rfl⟩
    exact ⟨starts, rfl, indent, gap, by simp, indentSpace, gapSpace⟩
  · rintro ⟨starts, rfl, indent, gap, rfl, indentSpace, gapSpace⟩
    exact ⟨[], _, _, rfl, ⟨rfl, rfl, starts⟩, indent, _, _, rfl, ⟨indentSpace, rfl⟩,
      name, _, _, rfl, ⟨rfl, rfl⟩, gap, _, _, rfl, ⟨gapSpace, rfl⟩, str "=", [], _, rfl,
      ⟨rfl, rfl⟩, rfl, rfl⟩

theorem reads_quotedText {index : Nat} :
    (Pattern.sequence (Pattern.quotedText index)).Reads passed text rest groups after ↔
      ∃ gap value, text = gap ++ quote :: (value ++ [quote]) ∧ AllSpace gap ∧ value ≠ [] ∧
        quote ∉ value ∧ after = (index, value) :: groups := by
  have notQuote (value : Str) :
      (∀ c ∈ value, decide (c ≠ quote) = true) ↔ quote ∉ value := by
    simp only [decide_eq_true_eq]
    exact ⟨fun each quoteMem => each quote quoteMem rfl, fun plain c cMem same =>
      plain (same ▸ cMem)⟩
  simp only [Pattern.quotedText, reads_cons, reads_nil, reads_spaces, reads_word, reads_group,
    reads_oneOrMore_one, notQuote]
  constructor
  · rintro ⟨gap, _, _, rfl, ⟨gapSpace, rfl⟩, _, _, _, rfl, ⟨rfl, rfl⟩, value, _, _, rfl,
      ⟨_, ⟨nonempty, plain, rfl⟩, rfl⟩, _, _, _, rfl, ⟨rfl, rfl⟩, rfl, rfl⟩
    exact ⟨gap, value, by simp, gapSpace, nonempty, plain, rfl⟩
  · rintro ⟨gap, value, rfl, gapSpace, nonempty, plain, rfl⟩
    exact ⟨gap, _, _, rfl, ⟨gapSpace, rfl⟩, [quote], _, _, rfl, ⟨rfl, rfl⟩, value, _, _, rfl,
      ⟨_, ⟨nonempty, plain, rfl⟩, rfl⟩, [quote], [], _, rfl, ⟨rfl, rfl⟩, rfl, rfl⟩

/-- A text begins with a match of some parts. -/
def Begins (parts : List Pattern) (passed text : Str) (groups after : List (Nat × Str)) : Prop :=
  ∃ middle back, text = middle ++ back ∧
    (Pattern.sequence parts).Reads passed middle back groups after

theorem begins_nil : Begins [] passed text groups after ↔ after = groups := by
  constructor
  · rintro ⟨middle, back, -, reads⟩
    exact (reads_nil.mp reads).2
  · rintro rfl
    exact ⟨[], text, rfl, reads_nil.mpr ⟨rfl, rfl⟩⟩

theorem begins_append {first second : List Pattern} :
    Begins (first ++ second) passed text groups after ↔ ∃ front back between, text = front ++ back ∧
      (Pattern.sequence first).Reads passed front back groups between ∧
      Begins second (front.reverse ++ passed) back between after := by
  constructor
  · rintro ⟨middle, back, rfl, reads⟩
    rcases reads_append.mp reads with ⟨front, middle, between, rfl, readsFirst, readsSecond⟩
    exact ⟨front, middle ++ back, between, by rw [List.append_assoc], readsFirst, middle, back, rfl,
      readsSecond⟩
  · rintro ⟨front, rest, between, rfl, readsFirst, middle, back, rfl, readsSecond⟩
    exact ⟨front ++ middle, back, by rw [List.append_assoc],
      reads_append.mpr ⟨front, middle, between, rfl, readsFirst, readsSecond⟩⟩

theorem begins_spaces {parts : List Pattern} :
    Begins (.spaces :: parts) passed text groups after ↔ ∃ gap back, text = gap ++ back ∧
      AllSpace gap ∧ Begins parts (gap.reverse ++ passed) back groups after := by
  rw [← List.singleton_append, begins_append]
  simp only [reads_cons, reads_nil, reads_spaces]
  constructor
  · rintro ⟨_, back, _, rfl, ⟨gap, _, _, rfl, ⟨gapSpace, rfl⟩, rfl, rfl⟩, begins⟩
    exact ⟨gap, back, by simp, gapSpace, by simpa using begins⟩
  · rintro ⟨gap, back, rfl, gapSpace, begins⟩
    exact ⟨gap, back, groups, rfl, ⟨gap, [], groups, by simp, ⟨gapSpace, rfl⟩, rfl, rfl⟩, begins⟩

theorem begins_word {word : Str} {parts : List Pattern} :
    Begins (.word word :: parts) passed text groups after ↔ ∃ back, text = word ++ back ∧
      Begins parts (word.reverse ++ passed) back groups after := by
  rw [← List.singleton_append, begins_append]
  simp only [reads_cons, reads_nil, reads_word]
  constructor
  · rintro ⟨_, back, _, rfl, ⟨_, _, _, rfl, ⟨rfl, rfl⟩, rfl, rfl⟩, begins⟩
    exact ⟨back, by simp, by simpa using begins⟩
  · rintro ⟨back, rfl, begins⟩
    exact ⟨word, back, groups, rfl, ⟨word, [], groups, by simp, ⟨rfl, rfl⟩, rfl, rfl⟩, begins⟩

/-- White space and a character that is none. -/
theorem begins_spaces_word {c other : Chr} {gap back : Str} {parts : List Pattern}
    (gapSpace : AllSpace gap) (solid : isSpace c = false) (solid' : isSpace other = false) :
    Begins (.spaces :: .word [c] :: parts) passed (gap ++ other :: back) groups after ↔
      c = other ∧ Begins parts ((gap ++ [c]).reverse ++ passed) back groups after := by
  rw [begins_spaces]
  simp only [begins_word]
  constructor
  · rintro ⟨gap', _, same, gapSpace', rest, rfl, begins⟩
    rcases span_cons_unique gapSpace gapSpace' solid' solid same with ⟨rfl, rfl, rfl⟩
    refine ⟨rfl, ?_⟩
    simpa using begins
  · rintro ⟨rfl, begins⟩
    exact ⟨gap, _, rfl, gapSpace, back, rfl, by simpa using begins⟩

theorem all_ne_iff {c : Chr} {text : Str} : (∀ d ∈ text, decide (d ≠ c) = true) ↔ c ∉ text := by
  simp only [decide_eq_true_eq]
  exact ⟨fun each cMem => each c cMem rfl, fun absent d dMem same => absent (same ▸ dMem)⟩

theorem ne_quote_of_plain {text : Str} (plain : quote ∉ text) :
    ∀ c ∈ text, decide (c ≠ quote) = true := all_ne_iff.mpr plain

theorem begins_quotedText {index : Nat} {gap value back : Str} {parts : List Pattern}
    (gapSpace : AllSpace gap) (plain : quote ∉ value) :
    Begins (Pattern.quotedText index ++ parts) passed (gap ++ quote ::
      (value ++ quote :: back)) groups
        after ↔
      value ≠ [] ∧ Begins parts ((gap ++ quote :: (value ++ [quote])).reverse ++ passed) back
        ((index, value) :: groups) after := by
  have solid : isSpace quote = false := by decide
  rw [begins_append]
  constructor
  · rintro ⟨front, rest, between, same, reads, begins⟩
    rcases reads_quotedText.mp reads with ⟨gap', value', rfl, gapSpace', nonempty, plain', rfl⟩
    simp only [List.append_assoc, List.cons_append, List.nil_append] at same
    rcases span_cons_unique gapSpace gapSpace' solid solid same with ⟨rfl, -, inner⟩
    rcases span_cons_unique (ne_quote_of_plain plain) (ne_quote_of_plain plain') (by simp) (by simp)
      inner with ⟨rfl, -, rfl⟩
    exact ⟨nonempty, begins⟩
  · rintro ⟨nonempty, begins⟩
    exact ⟨gap ++ quote :: (value ++ [quote]), back, _, by simp,
      reads_quotedText.mpr ⟨gap, value, rfl, gapSpace, nonempty, plain, rfl⟩, begins⟩

/-- A string begins with a quotation mark. -/
theorem eq_quote_of_begins {index : Nat} {gap back : Str} {other : Chr} {parts : List Pattern}
    (gapSpace : AllSpace gap) (solid : isSpace other = false)
    (begins : Begins (Pattern.quotedText index ++ parts) passed (gap ++ other :: back)
      groups after) :
    other = quote := by
  rcases begins_append.mp begins with ⟨_, rest, between, same, reads, -⟩
  rcases reads_quotedText.mp reads with ⟨gap', value, rfl, gapSpace', -, -, -⟩
  simp only [List.append_assoc, List.cons_append] at same
  exact (span_cons_unique gapSpace gapSpace' solid (by decide) same).2.1

/-- A string cannot begin with another character than a quotation mark. -/
theorem not_begins_quotedText {index : Nat} {other : Chr} {front back : Str} {parts : List Pattern}
    (plain : quote ∉ front) (otherMem : other ∈ front) (solid : isSpace other = false) :
    ¬Begins (Pattern.quotedText index ++ parts) passed (front ++ quote :: back) groups after := by
  rw [begins_append]
  rintro ⟨_, rest, between, same, reads, -⟩
  rcases reads_quotedText.mp reads with ⟨gap, value, rfl, gapSpace, -, -, -⟩
  simp only [List.append_assoc, List.cons_append] at same
  have plainGap : quote ∉ gap := by
    intro quoteMem
    exact absurd (gapSpace quote quoteMem) (by decide)
  rcases span_cons_unique (ne_quote_of_plain plain) (ne_quote_of_plain plainGap) (by simp) (by simp)
    same with ⟨rfl, -, -⟩
  rw [gapSpace other otherMem] at solid
  cases solid

end Readings

section Headers

/-- The header of a block with a label in quotation marks. -/
def blockHeader (keyword labelGap label braceGap : Str) : Str :=
  keyword ++ (labelGap ++ quote :: (label ++ quote :: (braceGap ++ str "\x7b")))

variable {keyword labelGap label braceGap labelGap' label' braceGap' back back' : Str}

/-- A text begins with one header of a keyword at most. -/
theorem blockHeader_unique (labelSpace : AllSpace labelGap) (labelSpace' : AllSpace labelGap')
    (noQuote : quote ∉ label) (noQuote' : quote ∉ label') (braceSpace : AllSpace braceGap)
    (braceSpace' : AllSpace braceGap')
    (same : blockHeader keyword labelGap label braceGap ++ back =
      blockHeader keyword labelGap' label' braceGap' ++ back') :
    labelGap = labelGap' ∧ label = label' ∧ braceGap = braceGap' ∧ back = back' := by
  simp only [blockHeader, List.append_assoc, List.cons_append] at same
  have solidQuote : isSpace quote = false := by decide
  have solidBrace : isSpace (.char '\x7b') = false := by decide
  rcases span_cons_unique labelSpace labelSpace' solidQuote solidQuote
    (List.append_cancel_left same) with ⟨labelGaps, -, labels⟩
  rcases span_cons_unique (ne_quote_of_plain noQuote) (ne_quote_of_plain noQuote') (by simp)
    (by simp) labels with ⟨labels, -, braces⟩
  have opens : braceGap ++ .char '\x7b' :: back = braceGap' ++ .char '\x7b' :: back' := braces
  rcases span_cons_unique braceSpace braceSpace' solidBrace solidBrace opens with
    ⟨braceGaps, -, backs⟩
  exact ⟨labelGaps, labels, braceGaps, backs⟩

end Headers

section OnlyAssignment

/-- A text with an assignment to a name, backwards up to the equals sign. -/
def assignmentFront (before name gap : Str) : Str := before ++ (name ++ (gap ++ str "="))

/-- The only assignment to a name that a line of a text begins with, if any, is the one between
`before` and `value`. -/
structure OnlyAssignment (name before gap value : Str) : Prop where
  gapSpace : AllSpace gap
  only : ∀ lines indent gap' back,
    assignmentFront before name gap ++ value =
      lines ++ (indent ++ (name ++ (gap' ++ (str "=" ++ back)))) →
    (lines = [] ∨ lines.getLast? = newline) → AllSpace indent → AllSpace gap' → back = value

variable {name before gap value : Str} {parts : List Pattern} {groups : List (Nat × Str)}

/-- It is the only one where the name stands nowhere else. -/
theorem OnlyAssignment.of_once (gapSpace : AllSpace gap)
    (once : ∀ n < (assignmentFront before name gap ++ value).length,
      name <+: (assignmentFront before name gap ++ value).drop n → n = before.length) :
    OnlyAssignment name before gap value := by
  refine ⟨gapSpace, fun lines indent gap' back same _ _ gapSpace' => ?_⟩
  have cut : (assignmentFront before name gap ++ value).drop (lines ++ indent).length =
      name ++ (gap' ++ (str "=" ++ back)) := by
    rw [same, ← List.append_assoc, List.drop_left]
  have atName : (lines ++ indent).length = before.length := by
    apply once
    · rw [same]
      simp only [str, String.reduceToList, List.map_cons, List.length_append, List.length_cons]
      omega
    · rw [cut]
      exact List.prefix_append _ _
  rw [atName, assignmentFront, List.append_assoc, List.drop_left, List.append_assoc] at cut
  have rest := List.append_cancel_left cut
  rw [List.append_assoc] at rest
  exact (span_cons_unique gapSpace gapSpace' (by decide) (by decide) rest).2.2.symm

theorem finds_assignment (only : OnlyAssignment name before gap value) (nonempty : name ≠ [])
    (solid : ∀ c ∈ name.getLast?, isSpace c = false) :
    (Pattern.sequence (Pattern.assignment name ++ parts)).Finds
        (assignmentFront before name gap ++ value) groups ↔
      BeginsLine before ∧
        Begins parts (assignmentFront before name gap).reverse value [] groups := by
  have starts {lines : Str} : (lines.reverse = [] ∨ lines.reverse.head? = newline) ↔
      (lines = [] ∨ lines.getLast? = newline) := by
    rw [List.reverse_eq_nil_iff, List.head?_reverse]
  constructor
  · rintro ⟨front, middle, back, same, reads⟩
    rcases reads_append.mp reads with ⟨head, middle, between, rfl, readsHead, readsParts⟩
    rcases reads_assignment.mp readsHead with ⟨atStart, rfl, indent, gap', rfl,
      indentSpace, gapSpace⟩
    rw [starts] at atStart
    have value_eq : middle ++ back = value := by
      apply only.only front indent gap' _ _ atStart indentSpace gapSpace
      simpa using same
    rw [← value_eq] at same ⊢
    have fronts : before ++ name ++ gap = (front ++ indent) ++ name ++ gap' := by
      apply (List.append_left_inj (str "=" ++ (middle ++ back))).mp
      simpa [assignmentFront] using same
    have ends (text : Str) : ∀ c ∈ (text ++ name).getLast?, isSpace c = false := by
      rw [List.getLast?_append_of_ne_nil text nonempty]
      exact solid
    rcases span_unique_right only.gapSpace gapSpace (ends before) (ends (front ++ indent)) fronts
      with ⟨sameNames, rfl⟩
    have before_eq := List.append_cancel_right sameNames
    refine ⟨⟨front, indent, before_eq, atStart, indentSpace⟩, middle, back, rfl, ?_⟩
    rw [before_eq]
    simpa [assignmentFront] using readsParts
  · rintro ⟨⟨lines, indent, rfl, atStart, indentSpace⟩, middle, back, rfl, readsParts⟩
    refine ⟨lines, (indent ++ (name ++ (gap ++ str "="))) ++ middle,
      back, by simp [assignmentFront], reads_append.mpr ⟨_, middle, [], rfl,
        reads_assignment.mpr ⟨starts.mpr atStart, rfl, indent, gap, rfl, indentSpace,
        only.gapSpace⟩, ?_⟩⟩
    simpa [assignmentFront] using readsParts

end OnlyAssignment

end Python
