import TelemetryPlatform.Library.Hcl

/-!
# The match that is found

Of all matches at a place the matcher yields the first in its order. For a sequence
of patterns that is the first match of the later ones behind some match of the
earlier ones, and a repetition takes as many characters as the patterns behind it
leave to it.

`finditer` yields a match of a text, or one that ends with it, if no match in front of
the text goes on into it and ends there. `sub` replaces the matches of a pattern.
-/

namespace Python

section First

variable {α β : Type} {f : α → List β} {items : List α} {result : β}

theorem exists_head?_flatMap (first : (items.flatMap f).head? = some result) :
    ∃ item ∈ items, (f item).head? = some result := by
  induction items with
  | nil => cases first
  | cons item items ih =>
      rw [List.flatMap_cons, List.head?_append] at first
      cases here : (f item).head? with
      | some other =>
          rw [here] at first
          exact ⟨item, List.mem_cons_self, first ▸ here⟩
      | none =>
          rw [here] at first
          rcases ih first with ⟨later, laterMem, isFirst⟩
          exact ⟨later, List.mem_cons_of_mem item laterMem, isFirst⟩

variable {cursor later : Cursor} {front back : List Pattern}

/-- The first match of a sequence is the first one of its end behind a match of its beginning. -/
theorem exists_head?_append
    (first : ((Pattern.sequence (front ++ back)).ends cursor).head? = some later) :
    ∃ between, cursor.Reaches (Pattern.sequence front).Reads between ∧
      ((Pattern.sequence back).ends between).head? = some later := by
  induction front generalizing cursor with
  | nil => exact ⟨cursor, reaches_stays.mpr ⟨rfl, trivial⟩, first⟩
  | cons pattern front ih =>
      rcases exists_head?_flatMap first with ⟨between, betweenMem, isFirst⟩
      rcases ih isFirst with ⟨between', reaches, last⟩
      exact ⟨between', reaches_seq.mpr ⟨between, (pattern.mem_ends _ _).mp betweenMem, reaches⟩,
        last⟩

end First

section Greedy

variable {accepts : Chr → Bool} {back : Pattern} {passed ahead : Str} {groups : List (Nat × Str)}
  {later : Cursor}

/-- What a pattern matches behind a repetition, where the repetition takes all it can. -/
structure Longest (accepts : Chr → Bool) (back : Pattern) (passed ahead : Str)
    (groups : List (Nat × Str)) (later : Cursor) (taken rest : Str) : Prop where
  split : ahead = taken ++ rest
  accepted : ∀ c ∈ taken, accepts c = true
  first : (back.ends ⟨taken.reverse ++ passed, rest, groups⟩).head? = some later
  maximal : ∀ more rest', rest = more ++ rest' → more ≠ [] → (∀ c ∈ more, accepts c = true) →
    back.ends ⟨more.reverse ++ (taken.reverse ++ passed), rest', groups⟩ = []

theorem ends_one_of_ahead {c : Chr} : (Pattern.one accepts).ends ⟨passed, c :: ahead, groups⟩ =
    if accepts c then [⟨c :: passed, ahead, groups⟩] else [] := rfl

/-- With enough turns, a repetition of single characters takes one and goes on, or stays. -/
theorem repeated_one {c : Chr} {fuel : Nat} :
    repeated (Pattern.one accepts).ends (fuel + 1) ⟨passed, c :: ahead, groups⟩ =
      (if accepts c then repeated (Pattern.one accepts).ends fuel ⟨c :: passed, ahead, groups⟩
        else []) ++ [⟨passed, c :: ahead, groups⟩] := by
  rw [repeated, ends_one_of_ahead]
  by_cases accepted : accepts c = true
  · rw [if_pos accepted, if_pos accepted]
    simp
  · rw [if_neg accepted, if_neg accepted]
    rfl

theorem longest_of_repeated {fuel : Nat} (enough : ahead.length ≤ fuel)
    (first : ((repeated (Pattern.one accepts).ends fuel ⟨passed, ahead, groups⟩).flatMap
      back.ends).head? = some later) :
    ∃ taken rest, Longest accepts back passed ahead groups later taken rest := by
  induction ahead generalizing passed fuel with
  | nil =>
      have stays : repeated (Pattern.one accepts).ends fuel ⟨passed, [], groups⟩ =
          [⟨passed, [], groups⟩] := by
        cases fuel <;> rfl
      rw [stays, List.flatMap_singleton] at first
      refine ⟨[], [], rfl, by simp, first, ?_⟩
      intro more rest' split some
      exact absurd (List.append_eq_nil_iff.mp split.symm).1 some
  | cons c ahead ih =>
      rcases fuel with _ | fuel
      · cases enough
      · rw [repeated_one, List.flatMap_append, List.flatMap_singleton, List.head?_append] at first
        by_cases accepted : accepts c = true
        · rw [if_pos accepted] at first
          cases further : ((repeated (Pattern.one accepts).ends fuel
              ⟨c :: passed, ahead, groups⟩).flatMap back.ends).head? with
          | some other =>
              rw [further] at first
              cases first
              rcases ih (Nat.le_of_succ_le_succ enough) further with ⟨taken, rest, longest⟩
              refine ⟨c :: taken, rest, by rw [longest.split, List.cons_append],
                List.forall_mem_cons.mpr ⟨accepted, longest.accepted⟩, ?_, ?_⟩
              · rw [List.reverse_cons, List.append_assoc]
                exact longest.first
              · rw [List.reverse_cons, List.append_assoc]
                exact longest.maximal
          | none =>
              rw [further, Option.none_or] at first
              refine ⟨[], c :: ahead, rfl, by simp, first, ?_⟩
              intro more rest' split some each
              rcases more with _ | ⟨d, more⟩
              · exact absurd rfl some
              rw [List.cons_append, List.cons.injEq] at split
              rcases split with ⟨rfl, rfl⟩
              -- the matcher has tried every longer repetition before
              have tried := List.head?_eq_none_iff.mp further
              rw [List.flatMap_eq_nil_iff] at tried
              apply tried
              have reached : (⟨more.reverse ++ (c :: passed), rest', groups⟩ : Cursor) ∈
                  (Pattern.one accepts).many.ends ⟨c :: passed, more ++ rest', groups⟩ := by
                rw [Pattern.mem_ends]
                exact ⟨more, rfl, rfl, reads_many_one.mpr
                  ⟨(List.forall_mem_cons.mp each).2, rfl⟩⟩
              have steps := (Pattern.one accepts).mem_ends
              rw [Pattern.ends, mem_repeated steps le_rfl,
                ← mem_repeated steps (Nat.le_of_succ_le_succ enough)] at reached
              simpa using reached
        · rw [if_neg accepted] at first
          refine ⟨[], c :: ahead, rfl, by simp, first, ?_⟩
          intro more rest' split some each
          rcases more with _ | ⟨d, more⟩
          · exact absurd rfl some
          rw [List.cons_append, List.cons.injEq] at split
          rw [split.1] at accepted
          exact absurd (each d List.mem_cons_self) accepted

/-- The first match of a repetition and what is behind it. -/
theorem exists_longest
    (first : (((Pattern.one accepts).many.seq back).ends ⟨passed, ahead, groups⟩).head? =
      some later) :
    ∃ taken rest, Longest accepts back passed ahead groups later taken rest :=
  longest_of_repeated le_rfl first

end Greedy

section Reached

/-- What the pattern matches in front of a text ends in front of it too, or where the text does. -/
def Pattern.ComesTo (pattern : Pattern) (front whole behind : Str) : Prop :=
  ∀ earlier rest found, front = earlier ++ rest → rest ≠ [] →
    pattern.matchAt earlier.reverse (rest ++ (whole ++ behind)) = some found →
    found.text <+: rest ∨ found.text = rest ++ whole

variable {pattern : Pattern} {front whole behind : Str} {holds : Match → Prop}

theorem exists_mem_findFrom
    (nonempty : ∀ passed ahead found, pattern.matchAt passed ahead = some found → found.text ≠ [])
    (comes : pattern.ComesTo front whole behind)
    (here : ∃ found, pattern.matchAt front.reverse (whole ++ behind) = some found ∧
      found.text = whole)
    (ends : ∀ earlier rest found, pattern.matchAt earlier (rest ++ (whole ++ behind)) = some found →
      found.text = rest ++ whole → holds found)
    (rest : Str) {earlier : Str} (split : front = earlier ++ rest) :
    ∃ found ∈ pattern.findFrom earlier.reverse 0 (rest ++ (whole ++ behind)), holds found := by
  induction length : rest.length using Nat.strong_induction_on generalizing rest earlier with
  | h n ih =>
      rcases rest with _ | ⟨c, rest⟩
      · rcases here with ⟨found, matched, text_eq⟩
        rw [split, List.append_nil] at matched
        refine ⟨found, ?_, ends _ [] found matched text_eq⟩
        rw [List.nil_append,
          findFrom_of_matchAt (text_eq ▸ nonempty _ _ found matched) matched text_eq]
        exact List.mem_cons_self
      · cases matched : pattern.matchAt earlier.reverse (c :: rest ++ (whole ++ behind)) with
        | none =>
            have shorter : rest.length < n := by
              rw [← length]
              exact Nat.lt_succ_self _
            rcases @ih rest.length shorter rest (earlier ++ [c]) (by simpa using split) rfl with
              ⟨found, foundMem, isFound⟩
            refine ⟨found, ?_, isFound⟩
            rw [List.reverse_append] at foundMem
            rw [List.cons_append] at matched ⊢
            rw [Pattern.findFrom, matched]
            exact foundMem
        | some found =>
            have some := nonempty _ _ found matched
            rcases comes earlier (c :: rest) found split (List.cons_ne_nil c rest) matched with
              ⟨tail, rest_eq⟩ | text_eq
            · have shorter : tail.length < n := by
                have positive := List.length_pos_iff.mpr some
                rw [← length, ← rest_eq, List.length_append]
                omega
              rcases @ih tail.length shorter tail (earlier ++ found.text)
                (by rw [split, ← rest_eq, List.append_assoc]) rfl with ⟨later, laterMem, isFound⟩
              refine ⟨later, ?_, isFound⟩
              rw [List.reverse_append] at laterMem
              rw [← rest_eq, List.append_assoc] at matched ⊢
              rw [findFrom_of_matchAt some matched rfl]
              exact List.mem_cons_of_mem _ laterMem
            · refine ⟨found, ?_, ends _ (c :: rest) found matched text_eq⟩
              rw [← List.append_assoc] at matched ⊢
              rw [findFrom_of_matchAt (text_eq ▸ some) matched text_eq]
              exact List.mem_cons_self

/-- The search comes to a text that the pattern matches, or past it with a match that ends there. -/
theorem exists_mem_finditer
    (nonempty : ∀ passed ahead found, pattern.matchAt passed ahead = some found → found.text ≠ [])
    (comes : pattern.ComesTo front whole behind)
    (here : ∃ found, pattern.matchAt front.reverse (whole ++ behind) = some found ∧
      found.text = whole)
    (ends : ∀ earlier rest found, pattern.matchAt earlier (rest ++ (whole ++ behind)) = some found →
      found.text = rest ++ whole → holds found) :
    ∃ found ∈ pattern.finditer (front ++ (whole ++ behind)), holds found := by
  have fromStart : front = [] ++ front := rfl
  exact exists_mem_findFrom nonempty comes here ends front fromStart

end Reached

section Substitution

/-- The text with another text for each match, where the next `skip` characters belong to the last
match. -/
def Pattern.subFrom (pattern : Pattern) (new passed : Str) (skip : Nat) : Str → Str
  | [] => []
  | c :: ahead =>
      match skip with
      | skip + 1 => pattern.subFrom new (c :: passed) skip ahead
      | 0 =>
          match pattern.matchAt passed (c :: ahead) with
          | none => c :: pattern.subFrom new (c :: passed) 0 ahead
          | some found => new ++ pattern.subFrom new (c :: passed) (found.text.length - 1) ahead

/-- `pattern.sub(new, text)`, for a pattern without empty matches. -/
def Pattern.sub (pattern : Pattern) (new text : Str) : Str := pattern.subFrom new [] 0 text

variable {pattern : Pattern} {new passed text rest : Str} {found : Match}

theorem subFrom_skip :
    pattern.subFrom new passed text.length (text ++ rest) =
      pattern.subFrom new (text.reverse ++ passed) 0 rest := by
  induction text generalizing passed with
  | nil => rfl
  | cons c text ih =>
      rw [List.length_cons, List.cons_append, Pattern.subFrom, ih, List.reverse_cons,
        List.append_assoc]
      rfl

theorem subFrom_of_none {c : Chr} (none : pattern.matchAt passed (c :: rest) = none) :
    pattern.subFrom new passed 0 (c :: rest) = c :: pattern.subFrom new (c :: passed) 0 rest := by
  rw [Pattern.subFrom, none]

theorem subFrom_of_matchAt (nonempty : text ≠ [])
    (matched : pattern.matchAt passed (text ++ rest) = some found) (whole : found.text = text) :
    pattern.subFrom new passed 0 (text ++ rest) =
      new ++ pattern.subFrom new (text.reverse ++ passed) 0 rest := by
  rcases text with _ | ⟨c, text⟩
  · exact absurd rfl nonempty
  · rw [List.cons_append] at matched
    rw [List.cons_append, Pattern.subFrom, matched]
    change new ++ _ = _
    rw [whole, List.length_cons, Nat.add_sub_cancel, subFrom_skip, List.reverse_cons,
      List.append_assoc]
    rfl

end Substitution

end Python
