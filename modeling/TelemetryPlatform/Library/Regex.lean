import Mathlib.Data.List.TakeWhile
import Mathlib.Logic.Relation
import TelemetryPlatform.Library.Text

/-!
# Regular expressions

The patterns of the module `re`, with the ends of their matches in the order in which
its matcher tries them: the first branch before the second, more repetitions before
fewer. `search` takes the first place that matches and the first end from there, and
`finditer` goes on after the end.
-/

namespace Python

section Patterns

inductive Pattern where
  | empty
  | one (accepts : Chr → Bool)
  | seq (first second : Pattern)
  | either (first second : Pattern)
  | many (body : Pattern)
  | group (index : Nat) (body : Pattern)
  | lineStart
  | lineEnd
  | wordEdge (isWord : Chr → Bool)

/-- A place in a text, with the text in front of it backwards, and the groups matched so far, the
last one first. -/
structure Cursor where
  passed : Str
  ahead : Str
  groups : List (Nat × Str)

/-- The place `n` characters on. -/
def Cursor.move (cursor : Cursor) (n : Nat) : Cursor :=
  { cursor with
    passed := (cursor.ahead.take n).reverse ++ cursor.passed
    ahead := cursor.ahead.drop n }

/-- The text from one place to a later one. -/
def Cursor.upTo (cursor later : Cursor) : Str :=
  cursor.ahead.take (cursor.ahead.length - later.ahead.length)

def newline : Chr := .char '\n'

def Cursor.atLineStart (cursor : Cursor) : Bool :=
  cursor.passed.isEmpty || cursor.passed.head? = some newline

def Cursor.atLineEnd (cursor : Cursor) : Bool :=
  cursor.ahead.isEmpty || cursor.ahead.head? = some newline

/-- Any number of steps that leave less ahead, as many as possible first. -/
def repeated (step : Cursor → List Cursor) : Nat → Cursor → List Cursor
  | 0, cursor => [cursor]
  | fuel + 1, cursor =>
      ((step cursor).filter fun later => later.ahead.length < cursor.ahead.length).flatMap
        (repeated step fuel) ++ [cursor]

/-- Where the matches that begin at a place end. -/
def Pattern.ends : Pattern → Cursor → List Cursor
  | .empty, cursor => [cursor]
  | .one accepts, cursor =>
      match cursor.ahead with
      | [] => []
      | c :: _ => if accepts c then [cursor.move 1] else []
  | .seq first second, cursor => (first.ends cursor).flatMap second.ends
  | .either first second, cursor => first.ends cursor ++ second.ends cursor
  | .many body, cursor => repeated body.ends cursor.ahead.length cursor
  | .group index body, cursor =>
      (body.ends cursor).map fun later =>
        { later with groups := (index, cursor.upTo later) :: later.groups }
  | .lineStart, cursor => if cursor.atLineStart then [cursor] else []
  | .lineEnd, cursor => if cursor.atLineEnd then [cursor] else []
  | .wordEdge isWord, cursor =>
      if cursor.passed.head?.any isWord = cursor.ahead.head?.any isWord then [] else [cursor]

structure Match where
  start : Cursor
  stop : Cursor

/-- `found.group(index)`. -/
def Match.group (found : Match) (index : Nat) : Option Str := found.stop.groups.lookup index

/-- `found.group()`. -/
def Match.text (found : Match) : Str := found.start.upTo found.stop

/-- `found.start()`. -/
def Match.offset (found : Match) : Nat := found.start.passed.length

/-- `found.end()`. -/
def Match.stopOffset (found : Match) : Nat := found.stop.passed.length

namespace Pattern

variable (pattern : Pattern)

/-- The match at a place, `pattern.match(text, place)`. -/
def matchAt (passed ahead : Str) : Option Match :=
  (pattern.ends ⟨passed, ahead, []⟩).head?.map (Match.mk ⟨passed, ahead, []⟩)

/-- The first match at a place or after it. -/
def searchFrom (passed : Str) : Str → Option Match
  | [] => pattern.matchAt passed []
  | c :: ahead =>
      match pattern.matchAt passed (c :: ahead) with
      | some found => some found
      | none => searchFrom (c :: passed) ahead

/-- `pattern.search(text)`. -/
def search (text : Str) : Option Match := pattern.searchFrom [] text

/-- `pattern.search(text, place)`. -/
def searchAfter (text : Str) (place : Nat) : Option Match :=
  pattern.searchFrom (text.take place).reverse (text.drop place)

/-- The matches at a place or after it, where those that begin among the next `skip` characters
overlap the last one. -/
def findFrom (passed : Str) (skip : Nat) : Str → List Match
  | [] => if skip = 0 then (pattern.matchAt passed []).toList else []
  | c :: ahead =>
      match skip with
      | skip + 1 => findFrom (c :: passed) skip ahead
      | 0 =>
          match pattern.matchAt passed (c :: ahead) with
          | none => findFrom (c :: passed) 0 ahead
          | some found => found :: findFrom (c :: passed) (found.text.length - 1) ahead

/-- `pattern.finditer(text)`, for a pattern without empty matches. -/
def finditer (text : Str) : List Match := pattern.findFrom [] 0 text

/-- One or more. -/
def oneOrMore (body : Pattern) : Pattern := .seq body (.many body)

/-- The characters of a text. -/
def word (text : Str) : Pattern := text.foldr (fun c rest => .seq (.one (· = c)) rest) .empty

def spaces : Pattern := .many (.one isSpace)

/-- One after the other. -/
def sequence (parts : List Pattern) : Pattern := parts.foldr .seq .empty

end Pattern

/-- The class `\w`. Which characters beyond ASCII belong to words depends on the interpreter. -/
structure WordClass where
  holds : Chr → Bool
  ascii : ∀ c : Chr, c.code < 0x80 → holds c =
    decide (0x30 ≤ c.code ∧ c.code ≤ 0x39 ∨ 0x41 ≤ c.code ∧ c.code ≤ 0x5a ∨ c.code = 0x5f ∨
      0x61 ≤ c.code ∧ c.code ≤ 0x7a)

/-- The letters and digits of ASCII and the underscore. -/
def WordClass.latin : WordClass where
  holds c := decide (0x30 ≤ c.code ∧ c.code ≤ 0x39 ∨ 0x41 ≤ c.code ∧ c.code ≤ 0x5a ∨
    c.code = 0x5f ∨ 0x61 ≤ c.code ∧ c.code ≤ 0x7a)
  ascii _ _ := rfl

end Patterns

section Language

/-- A relation between the text in front, the text of a match, the text behind, and the groups
before and after. -/
abbrev Reading := Str → Str → Str → List (Nat × Str) → List (Nat × Str) → Prop

/-- The reading of no text, at the places that satisfy a condition. -/
def Stays (holds : Str → Str → Prop) : Reading := fun passed text rest groups after =>
  text = [] ∧ after = groups ∧ holds passed rest

/-- Any number of readings of some text, one after the other. -/
inductive Iterated (reads : Reading) : Reading
  | done {passed rest : Str} {groups : List (Nat × Str)} :
      Iterated reads passed [] rest groups groups
  | more {passed front middle rest : Str} {groups between after : List (Nat × Str)} :
      front ≠ [] → reads passed front (middle ++ rest) groups between →
      Iterated reads (front.reverse ++ passed) middle rest between after →
      Iterated reads passed (front ++ middle) rest groups after

/-- What a pattern matches. -/
def Pattern.Reads : Pattern → Reading
  | .empty => Stays fun _ _ => True
  | .one accepts => fun _ text _ groups after =>
      ∃ c, text = [c] ∧ accepts c = true ∧ after = groups
  | .seq first second => fun passed text rest groups after =>
      ∃ front back between, text = front ++ back ∧
        first.Reads passed front (back ++ rest) groups between ∧
        second.Reads (front.reverse ++ passed) back rest between after
  | .either first second => fun passed text rest groups after =>
      first.Reads passed text rest groups after ∨ second.Reads passed text rest groups after
  | .many body => Iterated body.Reads
  | .group index body => fun passed text rest groups after =>
      ∃ inner, body.Reads passed text rest groups inner ∧ after = (index, text) :: inner
  | .lineStart => Stays fun passed _ => passed = [] ∨ passed.head? = newline
  | .lineEnd => Stays fun _ rest => rest = [] ∨ rest.head? = newline
  | .wordEdge isWord => Stays fun passed rest => passed.head?.any isWord ≠ rest.head?.any isWord

/-- Whether a match of `reads` goes from a place to a later one. -/
def Cursor.Reaches (reads : Reading) (cursor later : Cursor) : Prop :=
  ∃ text, cursor.ahead = text ++ later.ahead ∧ later.passed = text.reverse ++ cursor.passed ∧
    reads cursor.passed text later.ahead cursor.groups later.groups

variable {reads : Reading}

theorem Cursor.upTo_eq {cursor later : Cursor} {text : Str}
    (ahead : cursor.ahead = text ++ later.ahead) : cursor.upTo later = text := by
  rw [Cursor.upTo, ahead, List.length_append, Nat.add_sub_cancel, List.take_left]

theorem iterated_iff {passed text rest : Str} {groups after : List (Nat × Str)} :
    Iterated reads passed text rest groups after ↔
      (text = [] ∧ after = groups) ∨
        ∃ front middle between, text = front ++ middle ∧ front ≠ [] ∧
          reads passed front (middle ++ rest) groups between ∧
          Iterated reads (front.reverse ++ passed) middle rest between after := by
  constructor
  · intro iterated
    cases iterated with
    | done => exact .inl ⟨rfl, rfl⟩
    | @more _ front middle _ _ between _ some readsFront others =>
        exact .inr ⟨front, middle, between, rfl, some, readsFront, others⟩
  · rintro (⟨rfl, rfl⟩ | ⟨front, middle, between, rfl, some, readsFront, others⟩)
    · exact .done
    · exact .more some readsFront others

theorem reaches_stays {holds : Str → Str → Prop} {cursor later : Cursor} :
    cursor.Reaches (Stays holds) later ↔ later = cursor ∧ holds cursor.passed cursor.ahead := by
  constructor
  · rintro ⟨text, ahead, passed, rfl, groups, here⟩
    rw [List.nil_append] at ahead
    rw [List.reverse_nil, List.nil_append] at passed
    rw [← ahead] at here
    refine ⟨?_, here⟩
    rcases cursor with ⟨_, _, _⟩
    rcases later with ⟨_, _, _⟩
    simp only [Cursor.mk.injEq]
    exact ⟨passed, ahead.symm, groups⟩
  · rintro ⟨rfl, here⟩
    exact ⟨[], rfl, rfl, rfl, rfl, here⟩

/-- One match after another. -/
theorem reaches_seq {first second : Pattern} {cursor later : Cursor} :
    cursor.Reaches (first.seq second).Reads later ↔
      ∃ between, cursor.Reaches first.Reads between ∧ between.Reaches second.Reads later := by
  constructor
  · rintro ⟨text, ahead, passed, front, back, groups, rfl, readsFirst, readsSecond⟩
    rw [List.append_assoc] at ahead
    rw [List.reverse_append, List.append_assoc] at passed
    exact ⟨⟨front.reverse ++ cursor.passed, back ++ later.ahead, groups⟩,
      ⟨front, ahead, rfl, readsFirst⟩, ⟨back, rfl, passed, readsSecond⟩⟩
  · rintro ⟨between, ⟨front, ahead, passed, readsFirst⟩, ⟨back, ahead', passed', readsSecond⟩⟩
    refine ⟨front ++ back, ?_, ?_, front, back, between.groups, rfl, ?_, ?_⟩
    · rw [ahead, ahead', List.append_assoc]
    · rw [passed', passed, List.reverse_append, List.append_assoc]
    · rwa [← ahead']
    · rwa [← passed]

theorem reaches_iterated {cursor later : Cursor} :
    cursor.Reaches (Iterated reads) later ↔ later = cursor ∨
      ∃ between, between.ahead.length < cursor.ahead.length ∧ cursor.Reaches reads between ∧
        between.Reaches (Iterated reads) later := by
  constructor
  · rintro ⟨text, ahead, passed, iterated⟩
    rcases iterated_iff.mp iterated with
      ⟨rfl, groups⟩ | ⟨front, middle, groups, rfl, some, readsFront, others⟩
    · exact .inl (reaches_stays.mp (⟨[], ahead, passed, rfl, groups, trivial⟩ :
        cursor.Reaches (Stays fun _ _ => True) later)).1
    · rw [List.append_assoc] at ahead
      rw [List.reverse_append, List.append_assoc] at passed
      refine .inr ⟨⟨front.reverse ++ cursor.passed, middle ++ later.ahead, groups⟩, ?_,
        ⟨front, ahead, rfl, readsFront⟩, ⟨middle, rfl, passed, others⟩⟩
      have positive := List.length_pos_iff.mpr some
      rw [ahead, @List.length_append _ front]
      exact Nat.lt_add_of_pos_left positive
  · rintro (rfl | ⟨between, shorter, ⟨front, ahead, passed, readsFront⟩,
      ⟨middle, ahead', passed', others⟩⟩)
    · exact ⟨[], rfl, rfl, .done⟩
    · refine ⟨front ++ middle, ?_, ?_,
        iterated_iff.mpr (.inr ⟨front, middle, between.groups, rfl, ?_, ?_, ?_⟩)⟩
      · rw [ahead, ahead', List.append_assoc]
      · rw [passed', passed, List.reverse_append, List.append_assoc]
      · rintro rfl
        rw [ahead, List.nil_append] at shorter
        exact lt_irrefl _ shorter
      · rwa [← ahead']
      · rwa [← passed]

theorem mem_repeated {step : Cursor → List Cursor}
    (steps : ∀ cursor later, later ∈ step cursor ↔ cursor.Reaches reads later) {fuel : Nat}
    {cursor later : Cursor} (enough : cursor.ahead.length ≤ fuel) :
    later ∈ repeated step fuel cursor ↔ cursor.Reaches (Iterated reads) later := by
  induction fuel generalizing cursor with
  | zero =>
      rw [repeated, List.mem_singleton, reaches_iterated]
      apply (or_iff_left _).symm
      rintro ⟨between, shorter, -⟩
      omega
  | succ fuel ih =>
      rw [repeated, List.mem_append, List.mem_flatMap, List.mem_singleton, reaches_iterated,
        or_comm]
      apply or_congr_right
      apply exists_congr
      intro between
      rw [List.mem_filter, decide_eq_true_eq, steps, and_assoc, and_left_comm]
      apply and_congr_right
      intro shorter
      rw [ih (by omega)]

theorem reaches_one {accepts : Chr → Bool} {cursor later : Cursor} :
    cursor.Reaches (Pattern.one accepts).Reads later ↔
      ∃ c rest, cursor.ahead = c :: rest ∧ accepts c = true ∧ later = cursor.move 1 := by
  constructor
  · rintro ⟨text, ahead, passed, c, rfl, accepted, groups⟩
    refine ⟨c, later.ahead, ahead, accepted, ?_⟩
    rcases later with ⟨_, _, _⟩
    simp only [Cursor.move, Cursor.mk.injEq, ahead]
    exact ⟨passed, rfl, groups⟩
  · rintro ⟨c, rest, ahead, accepted, rfl⟩
    exact ⟨[c], by simp [Cursor.move, ahead], by simp [Cursor.move, ahead], c, rfl, accepted, rfl⟩

theorem reaches_group {index : Nat} {body : Pattern} {cursor later : Cursor} :
    cursor.Reaches (body.group index).Reads later ↔ ∃ inner, cursor.Reaches body.Reads inner ∧
      later = { inner with groups := (index, cursor.upTo inner) :: inner.groups } := by
  constructor
  · rintro ⟨text, ahead, passed, groups, readsBody, after⟩
    refine ⟨{ later with groups }, ⟨text, ahead, passed, readsBody⟩, ?_⟩
    have taken : cursor.upTo { later with groups } = text := Cursor.upTo_eq ahead
    rw [taken, ← after]
  · rintro ⟨inner, ⟨text, ahead, passed, readsBody⟩, rfl⟩
    rw [Cursor.upTo_eq ahead]
    exact ⟨text, ahead, passed, inner.groups, readsBody, rfl⟩

/-- The matcher finds the matches of a pattern and no others. -/
theorem Pattern.mem_ends (pattern : Pattern) (cursor later : Cursor) :
    later ∈ pattern.ends cursor ↔ cursor.Reaches pattern.Reads later := by
  induction pattern generalizing cursor later with
  | empty => rw [ends, List.mem_singleton, Reads, reaches_stays, and_iff_left trivial]
  | one accepts =>
      rw [reaches_one, ends]
      cases ahead : cursor.ahead with
      | nil => simp
      | cons c rest => simp [and_comm]
  | seq first second firstIh secondIh =>
      simp only [ends, List.mem_flatMap, firstIh, secondIh, reaches_seq]
  | either first second firstIh secondIh =>
      simp only [ends, List.mem_append, firstIh, secondIh, Cursor.Reaches, Reads, ← exists_or,
        ← and_or_left]
  | many body ih => exact mem_repeated ih le_rfl
  | group index body ih => simp only [ends, List.mem_map, ih, reaches_group, eq_comm]
  | lineStart => simp [ends, Reads, reaches_stays, Cursor.atLineStart, and_comm]
  | lineEnd => simp [ends, Reads, reaches_stays, Cursor.atLineEnd, and_comm]
  | wordEdge isWord =>
      rw [ends, Reads, reaches_stays]
      split
      · next same => simp [same]
      · next differ => simp [differ]

@[simp]
theorem reads_one {accepts : Chr → Bool} {passed text rest : Str}
    {groups after : List (Nat × Str)} :
    (Pattern.one accepts).Reads passed text rest groups after ↔
      ∃ c, text = [c] ∧ accepts c = true ∧ after = groups := Iff.rfl

theorem reads_many_one {accepts : Chr → Bool} {passed text rest : Str}
    {groups after : List (Nat × Str)} :
    (Pattern.one accepts).many.Reads passed text rest groups after ↔
      (∀ c ∈ text, accepts c = true) ∧ after = groups := by
  constructor
  · intro iterated
    change Iterated (Pattern.one accepts).Reads passed text rest groups after at iterated
    induction iterated with
    | done => simp
    | more some readsFront others ih =>
        rcases readsFront with ⟨c, rfl, accepted, rfl⟩
        exact ⟨List.forall_mem_cons.mpr ⟨accepted, ih.1⟩, ih.2⟩
  · rintro ⟨each, rfl⟩
    change Iterated (Pattern.one accepts).Reads passed text rest after after
    induction text generalizing passed with
    | nil => exact .done
    | cons c text ih =>
        rcases List.forall_mem_cons.mp each with ⟨accepted, others⟩
        exact iterated_iff.mpr (.inr ⟨[c], text, after, rfl, List.cons_ne_nil c [],
          ⟨c, rfl, accepted, rfl⟩, ih others⟩)

theorem reads_oneOrMore_one {accepts : Chr → Bool} {passed text rest : Str}
    {groups after : List (Nat × Str)} :
    (Pattern.one accepts).oneOrMore.Reads passed text rest groups after ↔
      text ≠ [] ∧ (∀ c ∈ text, accepts c = true) ∧ after = groups := by
  constructor
  · rintro ⟨front, back, between, rfl, ⟨c, rfl, accepted, rfl⟩, readsOthers⟩
    rcases reads_many_one.mp readsOthers with ⟨others, rfl⟩
    exact ⟨List.cons_ne_nil c back, List.forall_mem_cons.mpr ⟨accepted, others⟩, rfl⟩
  · rintro ⟨some, each, rfl⟩
    cases text with
    | nil => exact absurd rfl some
    | cons c text =>
        rcases List.forall_mem_cons.mp each with ⟨accepted, others⟩
        exact ⟨[c], text, after, rfl, ⟨c, rfl, accepted, rfl⟩, reads_many_one.mpr ⟨others, rfl⟩⟩

theorem reads_word {word passed text rest : Str} {groups after : List (Nat × Str)} :
    (Pattern.word word).Reads passed text rest groups after ↔ text = word ∧ after = groups := by
  induction word generalizing passed text with
  | nil => exact and_congr_right fun _ => and_iff_left trivial
  | cons c word ih =>
      constructor
      · rintro ⟨front, back, between, rfl, ⟨other, rfl, same, rfl⟩, readsOthers⟩
        rcases ih.mp readsOthers with ⟨rfl, rfl⟩
        rw [of_decide_eq_true same]
        exact ⟨rfl, rfl⟩
      · rintro ⟨rfl, rfl⟩
        exact ⟨[c], word, after, rfl, ⟨c, rfl, decide_eq_true rfl, rfl⟩, ih.mpr ⟨rfl, rfl⟩⟩

/-- A text of repetitions of a word has no other characters than the word. -/
theorem mem_of_reads_many_word {word passed text rest : Str} {groups after : List (Nat × Str)}
    (reads : (Pattern.word word).many.Reads passed text rest groups after) :
    (∀ c ∈ text, c ∈ word) ∧ after = groups := by
  change Iterated (Pattern.word word).Reads passed text rest groups after at reads
  induction reads with
  | done => exact ⟨by simp, rfl⟩
  | more _ readsWord _ ih =>
      rcases reads_word.mp readsWord with ⟨rfl, rfl⟩
      refine ⟨?_, ih.2⟩
      intro c cMem
      rcases List.mem_append.mp cMem with cMem | cMem
      · exact cMem
      · exact ih.1 c cMem

end Language

section Search

variable {pattern : Pattern} {passed ahead text : Str} {found : Match}

theorem matchAt_eq_none : pattern.matchAt passed ahead = none ↔
    ∀ text rest after, ahead = text ++ rest → ¬pattern.Reads passed text rest [] after := by
  rw [Pattern.matchAt, Option.map_eq_none_iff, List.head?_eq_none_iff,
    List.eq_nil_iff_forall_not_mem]
  constructor
  · rintro nowhere text rest after rfl reads
    exact nowhere ⟨text.reverse ++ passed, rest, after⟩
      ((pattern.mem_ends _ _).mpr ⟨text, rfl, rfl, reads⟩)
  · intro never later laterMem
    rcases (pattern.mem_ends _ _).mp laterMem with ⟨text, ahead, -, reads⟩
    exact never text later.ahead later.groups ahead reads

theorem reads_of_matchAt (matched : pattern.matchAt passed ahead = some found) :
    found.start = ⟨passed, ahead, []⟩ ∧ ahead = found.text ++ found.stop.ahead ∧
      found.stop.passed = found.text.reverse ++ passed ∧
      pattern.Reads passed found.text found.stop.ahead [] found.stop.groups := by
  rcases Option.map_eq_some_iff.mp matched with ⟨later, first, rfl⟩
  rcases (pattern.mem_ends _ _).mp (List.mem_of_mem_head? first) with ⟨text, ahead, passed, reads⟩
  rw [Match.text, Cursor.upTo_eq ahead]
  exact ⟨rfl, ahead, passed, reads⟩

theorem matchAt_isSome : (pattern.matchAt passed ahead).isSome ↔
    ∃ text rest after, ahead = text ++ rest ∧ pattern.Reads passed text rest [] after := by
  rw [Option.isSome_iff_ne_none, Ne, matchAt_eq_none]
  simp only [not_forall, not_not, exists_prop]

/-- Whether no match begins in the text in front of a place. -/
def Pattern.Avoids (pattern : Pattern) (passed front back : Str) : Prop :=
  ∀ before after, front = before ++ after → after ≠ [] →
    pattern.matchAt (before.reverse ++ passed) (after ++ back) = none

theorem avoids_nil {back : Str} : pattern.Avoids passed [] back := by
  intro before after split some
  exact absurd (List.append_eq_nil_iff.mp split.symm).2 some

theorem avoids_cons {c : Chr} {front back : Str} : pattern.Avoids passed (c :: front) back ↔
    pattern.matchAt passed (c :: front ++ back) = none ∧
        pattern.Avoids (c :: passed) front back := by
  constructor
  · intro avoids
    refine ⟨avoids [] (c :: front) rfl (List.cons_ne_nil c front), ?_⟩
    rintro before after rfl some
    have none := avoids (c :: before) after rfl some
    rwa [List.reverse_cons, List.append_assoc] at none
  · rintro ⟨here, later⟩ before after split some
    cases before with
    | nil =>
        rw [List.nil_append] at split
        rw [← split]
        exact here
    | cons _ before =>
        rw [List.cons_append, List.cons.injEq] at split
        rcases split with ⟨rfl, split⟩
        rw [List.reverse_cons, List.append_assoc]
        exact later before after split some

theorem avoids_append {front middle back : Str} : pattern.Avoids passed (front ++ middle) back ↔
    pattern.Avoids passed front (middle ++ back) ∧
      pattern.Avoids (front.reverse ++ passed) middle back := by
  induction front generalizing passed with
  | nil => exact (and_iff_right avoids_nil).symm
  | cons c front ih =>
      rw [List.cons_append, avoids_cons, ih, avoids_cons, and_assoc, List.reverse_cons,
        List.append_assoc, List.cons_append, List.cons_append, List.append_assoc]
      rfl

theorem searchFrom_append {front back : Str} (avoids : pattern.Avoids passed front back) :
    pattern.searchFrom passed (front ++ back) = pattern.searchFrom
        (front.reverse ++ passed) back := by
  induction front generalizing passed with
  | nil => rfl
  | cons c front ih =>
      rcases avoids_cons.mp avoids with ⟨here, later⟩
      rw [List.cons_append] at here
      rw [List.cons_append, Pattern.searchFrom, here, ih later, List.reverse_cons,
        List.append_assoc]
      rfl

theorem findFrom_append {front back : Str} (avoids : pattern.Avoids passed front back) :
    pattern.findFrom passed 0 (front ++ back) = pattern.findFrom (front.reverse ++ passed)
        0 back := by
  induction front generalizing passed with
  | nil => rfl
  | cons c front ih =>
      rcases avoids_cons.mp avoids with ⟨here, later⟩
      rw [List.cons_append] at here
      rw [List.cons_append, Pattern.findFrom, here, ih later, List.reverse_cons, List.append_assoc]
      rfl

theorem findFrom_skip {front back : Str} :
    pattern.findFrom passed front.length (front ++ back) =
      pattern.findFrom (front.reverse ++ passed) 0 back := by
  induction front generalizing passed with
  | nil => rfl
  | cons c front ih =>
      rw [List.length_cons, List.cons_append, Pattern.findFrom, ih, List.reverse_cons,
        List.append_assoc]
      rfl

/-- After a match the search goes on behind it. -/
theorem findFrom_of_matchAt {back : Str} (nonempty : text ≠ [])
    (matched : pattern.matchAt passed (text ++ back) = some found) (whole : found.text = text) :
    pattern.findFrom passed 0 (text ++ back) =
      found :: pattern.findFrom (text.reverse ++ passed) 0 back := by
  cases text with
  | nil => exact absurd rfl nonempty
  | cons c text =>
      rw [List.cons_append] at matched
      rw [List.cons_append, Pattern.findFrom, matched]
      change found :: _ = _
      rw [whole, List.length_cons, Nat.add_sub_cancel, findFrom_skip, List.reverse_cons,
        List.append_assoc]
      rfl

/-- The first match that begins in a text, where it ends there and no other begins behind it. -/
theorem findFrom_single {before middle after back : Str} (nonempty : middle ≠ [])
    (first : pattern.Avoids passed before (middle ++ after ++ back))
    (matched : pattern.matchAt (before.reverse ++ passed) (middle ++ after ++ back) = some found)
    (whole : found.text = middle)
    (last : pattern.Avoids (middle.reverse ++ (before.reverse ++ passed)) after back) :
    pattern.findFrom passed 0 (before ++ (middle ++ after ++ back)) =
      found :: pattern.findFrom (after.reverse ++ (middle.reverse ++ (before.reverse ++ passed))) 0
        back := by
  rw [findFrom_append first]
  rw [List.append_assoc] at matched ⊢
  rw [findFrom_of_matchAt nonempty matched whole, findFrom_append last]

theorem searchFrom_of_matchAt (matched : pattern.matchAt passed ahead = some found) :
    pattern.searchFrom passed ahead = some found := by
  cases ahead with
  | nil => exact matched
  | cons c ahead => rw [Pattern.searchFrom, matched]

/-- The first of all matches is the one that a search finds. -/
theorem head?_findFrom {ahead : Str} :
    (pattern.findFrom passed 0 ahead).head? = pattern.searchFrom passed ahead := by
  induction ahead generalizing passed with
  | nil =>
      rw [Pattern.findFrom, if_pos rfl, Pattern.searchFrom]
      cases pattern.matchAt passed [] <;> rfl
  | cons c ahead ih =>
      rw [Pattern.findFrom, Pattern.searchFrom]
      cases pattern.matchAt passed (c :: ahead) with
      | some found => rfl
      | none => exact ih

/-- Either no match begins in a text, or there is a first. -/
theorem avoids_or_first_within (pattern : Pattern) (passed front back : Str) :
    pattern.Avoids passed front back ∨
      ∃ before after found, front = before ++ after ∧ after ≠ [] ∧
        pattern.Avoids passed before (after ++ back) ∧
        pattern.matchAt (before.reverse ++ passed) (after ++ back) = some found := by
  induction front generalizing passed with
  | nil => exact .inl avoids_nil
  | cons c front ih =>
      cases matched : pattern.matchAt passed (c :: front ++ back) with
      | some found =>
          exact .inr ⟨[], c :: front, found, rfl, List.cons_ne_nil c front, avoids_nil, matched⟩
      | none =>
          rcases ih (c :: passed) with avoids | ⟨before, after, found, rfl, nonempty, avoids, first⟩
          · exact .inl (avoids_cons.mpr ⟨matched, avoids⟩)
          · refine .inr ⟨c :: before, after, found, rfl, nonempty, avoids_cons.mpr ⟨?_, avoids⟩, ?_⟩
            · rwa [List.cons_append, ← List.append_assoc]
            · rwa [List.reverse_cons, List.append_assoc]

/-- Either no match begins at a place or after it, or there is a first. -/
theorem avoids_or_first (pattern : Pattern) (passed ahead : Str) :
    (pattern.Avoids passed ahead [] ∧ pattern.matchAt (ahead.reverse ++ passed) [] = none) ∨
      ∃ front back found, ahead = front ++ back ∧ pattern.Avoids passed front back ∧
        pattern.matchAt (front.reverse ++ passed) back = some found := by
  rcases avoids_or_first_within pattern passed ahead [] with
    avoids | ⟨front, back, found, split, -, avoids, first⟩
  · cases atEnd : pattern.matchAt (ahead.reverse ++ passed) [] with
    | none => exact .inl ⟨avoids, rfl⟩
    | some found => exact .inr ⟨ahead, [], found, (List.append_nil ahead).symm, avoids, atEnd⟩
  · rw [List.append_nil] at avoids first
    exact .inr ⟨front, back, found, split, avoids, first⟩

/-- A pattern matches somewhere in a text, with these groups. -/
def Pattern.Finds (pattern : Pattern) (text : Str) (groups : List (Nat × Str)) : Prop :=
  ∃ front middle back, text = front ++ (middle ++ back) ∧
    pattern.Reads front.reverse middle back [] groups

theorem finds_of_matchAt {front back : Str}
    (matched : pattern.matchAt (front.reverse ++ []) back = some found) :
    pattern.Finds (front ++ back) found.stop.groups := by
  rcases reads_of_matchAt matched with ⟨-, ahead, -, reads⟩
  rw [List.append_nil] at reads
  exact ⟨front, found.text, found.stop.ahead, by rw [← ahead], reads⟩

theorem not_finds_of_avoids {text : Str} {groups : List (Nat × Str)}
    (avoids : pattern.Avoids [] text [])
    (atEnd : pattern.matchAt (text.reverse ++ []) [] = none) : ¬pattern.Finds text groups := by
  rintro ⟨front, middle, back, rfl, reads⟩
  have here : pattern.matchAt front.reverse (middle ++ back) = none := by
    by_cases nothing : middle ++ back = []
    · rw [nothing, List.append_nil, List.append_nil] at atEnd
      rw [nothing]
      exact atEnd
    · have none := avoids front (middle ++ back) rfl nothing
      rwa [List.append_nil, List.append_nil] at none
  exact matchAt_eq_none.mp here middle back groups rfl reads

theorem search_isSome {text : Str} :
    (pattern.search text).isSome ↔ ∃ groups, pattern.Finds text groups := by
  rcases avoids_or_first pattern [] text with
    ⟨avoids, atEnd⟩ | ⟨front, back, found, rfl, avoids, first⟩
  · have nowhere : pattern.search text = none := by
      rw [Pattern.search, ← List.append_nil text, searchFrom_append avoids]
      exact atEnd
    rw [nowhere]
    refine iff_of_false (by simp) ?_
    rintro ⟨groups, finds⟩
    exact not_finds_of_avoids avoids atEnd finds
  · have somewhere : pattern.search (front ++ back) = some found := by
      rw [Pattern.search, searchFrom_append avoids]
      exact searchFrom_of_matchAt first
    rw [somewhere]
    exact iff_of_true rfl ⟨found.stop.groups, finds_of_matchAt first⟩

theorem mem_findFrom {passed ahead : Str} {skip : Nat}
    (foundMem : found ∈ pattern.findFrom passed skip ahead) :
    ∃ front back, ahead = front ++ back ∧
      pattern.matchAt (front.reverse ++ passed) back = some found := by
  induction ahead generalizing passed skip with
  | nil =>
      rw [Pattern.findFrom] at foundMem
      split at foundMem
      · exact ⟨[], [], rfl, Option.mem_toList.mp foundMem⟩
      · cases foundMem
  | cons c ahead ih =>
      have later {skip : Nat} (foundMem : found ∈ pattern.findFrom (c :: passed) skip ahead) :
          ∃ front back, c :: ahead = front ++ back ∧
            pattern.matchAt (front.reverse ++ passed) back = some found := by
        rcases ih foundMem with ⟨front, back, rfl, matched⟩
        refine ⟨c :: front, back, rfl, ?_⟩
        rwa [List.reverse_cons, List.append_assoc]
      cases skip with
      | succ skip => exact later foundMem
      | zero =>
          rw [Pattern.findFrom] at foundMem
          cases here : pattern.matchAt passed (c :: ahead) with
          | none =>
              rw [here] at foundMem
              exact later foundMem
          | some first =>
              rw [here] at foundMem
              rcases List.mem_cons.mp foundMem with rfl | foundMem
              · exact ⟨[], c :: ahead, rfl, here⟩
              · exact later foundMem

/-- No match that begins in the text in front of a place goes beyond the place. -/
def Pattern.Clears (pattern : Pattern) (passed front back : Str) : Prop :=
  ∀ before after earlier, front = before ++ after → after ≠ [] →
    pattern.matchAt (before.reverse ++ passed) (after ++ back) = some earlier →
      earlier.text.length ≤ after.length

theorem clears_cons {c : Chr} {front back : Str}
    (clears : pattern.Clears passed (c :: front) back) :
    (∀ earlier, pattern.matchAt passed (c :: (front ++ back)) = some earlier →
      earlier.text.length ≤ front.length + 1) ∧ pattern.Clears (c :: passed) front back := by
  constructor
  · intro earlier matched
    exact clears [] (c :: front) earlier rfl (List.cons_ne_nil c front) matched
  · rintro before after earlier rfl some matched
    apply clears (c :: before) after earlier rfl some
    rwa [List.reverse_cons, List.append_assoc]

/-- A match is found where no earlier one overlaps it. -/
theorem mem_findFrom_of_clears {front back : Str} {skip : Nat}
    (clears : pattern.Clears passed front back) (within : skip ≤ front.length)
    (matched : pattern.matchAt (front.reverse ++ passed) back = some found) :
    found ∈ pattern.findFrom passed skip (front ++ back) := by
  induction front generalizing passed skip with
  | nil =>
      rw [List.length_nil, Nat.le_zero] at within
      rw [within]
      change pattern.matchAt passed back = some found at matched
      cases back with
      | nil =>
          change found ∈ pattern.findFrom passed 0 []
          rw [Pattern.findFrom, if_pos rfl, matched]
          exact List.mem_singleton_self found
      | cons c back =>
          change found ∈ pattern.findFrom passed 0 (c :: back)
          rw [Pattern.findFrom, matched]
          exact List.mem_cons_self
  | cons c front ih =>
      rcases clears_cons clears with ⟨short, later⟩
      rw [List.reverse_cons, List.append_assoc] at matched
      rw [List.cons_append]
      cases skip with
      | succ skip => exact ih later (Nat.le_of_succ_le_succ within) matched
      | zero =>
          rw [Pattern.findFrom]
          cases here : pattern.matchAt passed (c :: (front ++ back)) with
          | none => exact ih later (Nat.zero_le _) matched
          | some earlier =>
              have length := short earlier here
              exact List.mem_cons_of_mem _ (ih later (by omega) matched)

theorem finds_of_mem_finditer {text : Str} (foundMem : found ∈ pattern.finditer text) :
    pattern.Finds text found.stop.groups := by
  rcases mem_findFrom foundMem with ⟨front, back, rfl, matched⟩
  exact finds_of_matchAt matched

/-- `finditer` yields something where `search` does. -/
theorem finditer_ne_nil {text : Str} :
    pattern.finditer text ≠ [] ↔ ∃ groups, pattern.Finds text groups := by
  rcases avoids_or_first pattern [] text with
    ⟨avoids, atEnd⟩ | ⟨front, back, found, rfl, avoids, first⟩
  · have nothing : pattern.finditer text = [] := by
      rw [Pattern.finditer, ← List.append_nil text, findFrom_append avoids, Pattern.findFrom,
        if_pos rfl, atEnd]
      rfl
    refine iff_of_false (by simp [nothing]) ?_
    rintro ⟨groups, finds⟩
    exact not_finds_of_avoids avoids atEnd finds
  · refine iff_of_true ?_ ⟨found.stop.groups, finds_of_matchAt first⟩
    rw [Pattern.finditer, findFrom_append avoids]
    cases back with
    | nil =>
        rw [Pattern.findFrom, if_pos rfl, first]
        exact List.cons_ne_nil found []
    | cons c back =>
        rw [Pattern.findFrom, first]
        exact List.cons_ne_nil found _

end Search

end Python
