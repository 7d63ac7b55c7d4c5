import Mathlib.Data.Finset.Card
import Mathlib.Data.List.Nodup
import Mathlib.Logic.Relation

/-!
# Worklists

The search of a graph from a root. What is found is queued and expanded in turn, and
known by its key, so that nothing is found twice. To expand something or to enter what
it refers to may fail, which ends the search.

`Represents` connects a search with a relation on the keys. A search that ends without
a failure has found what can be reached, each key once; one that fails has met a
reachable key that is not solid. It ends when the keys that are entered are finitely
many.
-/

namespace Worklist

variable {α κ ε : Type}

structure Search (α κ ε : Type) where
  key : α → κ
  expand : α → Except ε (List α)
  enter : α → α → Except ε Unit

/-- What was found, in this order, and the part of it that is not expanded. -/
structure State (α : Type) where
  found : List α
  queue : List α

variable [DecidableEq κ] (search : Search α κ ε)

/-- The loop over what `current` refers to. -/
def visit (current : α) : List α → State α → Except ε (State α)
  | [], state => .ok state
  | next :: rest, state =>
      if search.key next ∈ state.found.map search.key then visit current rest state
      else
        match search.enter current next with
        | .ok () => visit current rest ⟨state.found ++ [next], state.queue ++ [next]⟩
        | .error error => .error error

/-- The loop over the queue, at most so many times; nothing when that is too few. -/
def traverse : Nat → State α → Option (Except ε (List α))
  | _, ⟨found, []⟩ => some (.ok found)
  | 0, ⟨_, _ :: _⟩ => none
  | fuel + 1, ⟨found, current :: queue⟩ =>
      match search.expand current with
      | .error error => some (.error error)
      | .ok nexts =>
          match visit search current nexts ⟨found, queue⟩ with
          | .error error => some (.error error)
          | .ok state => traverse fuel state

/-- The search from a root. -/
def searchFrom (fuel : Nat) (root : α) : Option (Except ε (List α)) :=
  traverse search fuel ⟨[root], [root]⟩

/-- What a search reads off its graph. -/
structure Represents (edge : κ → κ → Prop) (solid : κ → Prop) (valid : α → Prop)
    (bound : Finset κ) : Prop where
  expanded : ∀ current nexts, valid current → search.expand current = .ok nexts →
    solid (search.key current) ∧ (∀ next ∈ nexts, valid next) ∧
      ∀ key, edge (search.key current) key ↔ key ∈ nexts.map search.key
  failed : ∀ current error, valid current → search.expand current = .error error →
    ¬solid (search.key current)
  entered : ∀ current next, search.enter current next = .ok () → search.key next ∈ bound
  refused : ∀ current next error, search.enter current next = .error error →
    ¬solid (search.key next)

variable {search} {edge : κ → κ → Prop} {solid : κ → Prop} {valid : α → Prop} {bound : Finset κ}
  {root : α}

/-- What holds of the things a search has found. -/
structure Sound (search : Search α κ ε) (edge : κ → κ → Prop) (valid : α → Prop)
    (bound : Finset κ) (root : α) (found : List α) : Prop where
  rooted : ∃ others, found = root :: others ∧ ∀ other ∈ others, search.key other ∈ bound
  distinct : (found.map search.key).Nodup
  valid : ∀ thing ∈ found, valid thing
  reached : ∀ thing ∈ found, Relation.ReflTransGen edge (search.key root) (search.key thing)

/-- A part of what was found is expanded. -/
def Expanded (search : Search α κ ε) (edge : κ → κ → Prop) (solid : κ → Prop)
    (part found : List α) : Prop :=
  ∀ thing ∈ part, solid (search.key thing) ∧
    ∀ key, edge (search.key thing) key → key ∈ found.map search.key

/-- No more is found than there is. -/
theorem Sound.length_le {found : List α} (sound : Sound search edge valid bound root found) :
    found.length ≤ bound.card + 1 := by
  rcases sound.rooted with ⟨others, rfl, within⟩
  have distinct := (List.nodup_cons.mp sound.distinct).2
  have sub : (others.map search.key).toFinset ⊆ bound := by
    intro key keyMem
    rw [List.mem_toFinset, List.mem_map] at keyMem
    rcases keyMem with ⟨other, otherMem, rfl⟩
    exact within other otherMem
  have count := Finset.card_le_card sub
  rw [List.toFinset_card_of_nodup distinct, List.length_map] at count
  rw [List.length_cons]
  omega

omit [DecidableEq κ] in
theorem Sound.extend {found : List α} (sound : Sound search edge valid bound root found)
    {next : α} (fresh : search.key next ∉ found.map search.key) (nextValid : valid next)
    (within : search.key next ∈ bound)
    (reached : Relation.ReflTransGen edge (search.key root) (search.key next)) :
    Sound search edge valid bound root (found ++ [next]) where
  rooted := by
    rcases sound.rooted with ⟨others, rfl, othersWithin⟩
    refine ⟨others ++ [next], rfl, ?_⟩
    intro other otherMem
    rcases List.mem_append.mp otherMem with old | new
    · exact othersWithin other old
    · rw [List.mem_singleton.mp new]
      exact within
  distinct := by
    rw [List.map_append, List.map_singleton]
    apply sound.distinct.append (List.nodup_singleton _)
    rwa [List.disjoint_singleton]
  valid := by
    intro thing thingMem
    rcases List.mem_append.mp thingMem with old | new
    · exact sound.valid thing old
    · rw [List.mem_singleton.mp new]
      exact nextValid
  reached := by
    intro thing thingMem
    rcases List.mem_append.mp thingMem with old | new
    · exact sound.reached thing old
    · rw [List.mem_singleton.mp new]
      exact reached

/-- What the loop over the references of something leaves. -/
theorem visit_ok (represents : Represents search edge solid valid bound) {current : α}
    {nexts : List α} {before after : State α}
    (sound : Sound search edge valid bound root before.found)
    (nextsValid : ∀ next ∈ nexts, valid next)
    (reached : ∀ next ∈ nexts,
      Relation.ReflTransGen edge (search.key root) (search.key next))
    (visited : visit search current nexts before = .ok after) :
    Sound search edge valid bound root after.found ∧
      (∃ more, after.found = before.found ++ more ∧ after.queue = before.queue ++ more) ∧
      ∀ next ∈ nexts, search.key next ∈ after.found.map search.key := by
  induction nexts generalizing before with
  | nil =>
      cases visited
      exact ⟨sound, ⟨[], by simp, by simp⟩, by simp⟩
  | cons next rest ih =>
      have restValid : ∀ next ∈ rest, valid next := fun other otherMem =>
        nextsValid other (List.mem_cons_of_mem next otherMem)
      have restReached : ∀ next ∈ rest,
          Relation.ReflTransGen edge (search.key root) (search.key next) :=
        fun other otherMem => reached other (List.mem_cons_of_mem next otherMem)
      rw [visit] at visited
      split_ifs at visited with known
      · rcases ih sound restValid restReached visited with ⟨soundAfter, ⟨more, found, queue⟩, all⟩
        refine ⟨soundAfter, ⟨more, found, queue⟩, ?_⟩
        intro other otherMem
        rcases List.mem_cons.mp otherMem with rfl | later
        · rw [found, List.map_append]
          exact List.mem_append_left _ known
        · exact all other later
      · cases entry : search.enter current next with
        | error error =>
            rw [entry] at visited
            cases visited
        | ok _ =>
            rw [entry] at visited
            have extended := sound.extend known (nextsValid next List.mem_cons_self)
              (represents.entered current next entry) (reached next List.mem_cons_self)
            rcases ih extended restValid restReached visited with
              ⟨soundAfter, ⟨more, found, queue⟩, all⟩
            refine ⟨soundAfter, ⟨next :: more, by simp [found], by simp [queue]⟩, ?_⟩
            intro other otherMem
            rcases List.mem_cons.mp otherMem with rfl | later
            · rw [found, List.map_append, List.map_append]
              apply List.mem_append_left
              exact List.mem_append_right _ (List.mem_singleton_self _)
            · exact all other later

/-- The loop fails at a reference that is not solid. -/
theorem visit_error (represents : Represents search edge solid valid bound) {current : α}
    {nexts : List α} {before : State α} {error : ε}
    (failed : visit search current nexts before = .error error) :
    ∃ next ∈ nexts, ¬solid (search.key next) := by
  induction nexts generalizing before with
  | nil => cases failed
  | cons next rest ih =>
      rw [visit] at failed
      split_ifs at failed with known
      · rcases ih failed with ⟨other, otherMem, hollow⟩
        exact ⟨other, List.mem_cons_of_mem next otherMem, hollow⟩
      · cases entry : search.enter current next with
        | error own => exact ⟨next, List.mem_cons_self, represents.refused _ _ _ entry⟩
        | ok _ =>
            rw [entry] at failed
            rcases ih failed with ⟨other, otherMem, hollow⟩
            exact ⟨other, List.mem_cons_of_mem next otherMem, hollow⟩

/-- What a search has to show for itself. -/
structure Complete (search : Search α κ ε) (edge : κ → κ → Prop) (solid : κ → Prop)
    (valid : α → Prop) (root : α) (result : Except ε (List α)) : Prop where
  found : ∀ found, result = .ok found → found.head? = some root ∧
    (found.map search.key).Nodup ∧ (∀ thing ∈ found, valid thing) ∧
    (∀ thing ∈ found, solid (search.key thing)) ∧
    ∀ key, key ∈ found.map search.key ↔ Relation.ReflTransGen edge (search.key root) key
  failed : ∀ error, result = .error error →
    ∃ key, Relation.ReflTransGen edge (search.key root) key ∧ ¬solid key

omit [DecidableEq κ] in
/-- When the queue is empty everything was found. -/
theorem complete_of_expanded {found : List α}
    (sound : Sound search edge valid bound root found)
    (expanded : Expanded search edge solid found found) :
    Complete search edge solid valid root (.ok found) where
  found := by
    intro own ok
    cases ok
    rcases sound.rooted with ⟨others, rootFirst, _⟩
    refine ⟨by rw [rootFirst]; rfl, sound.distinct, sound.valid,
      fun thing thingMem => (expanded thing thingMem).1, ?_⟩
    intro key
    constructor
    · intro keyMem
      rcases List.mem_map.mp keyMem with ⟨thing, thingMem, rfl⟩
      exact sound.reached thing thingMem
    · intro reached
      induction reached with
      | refl =>
          rw [rootFirst]
          exact List.mem_cons_self
      | tail _ step ih =>
          rcases List.mem_map.mp ih with ⟨thing, thingMem, rfl⟩
          exact (expanded thing thingMem).2 _ step
  failed := by
    intro error failed
    cases failed

/-- One turn of the loop for each thing that can be found is enough. -/
theorem traverse_complete (represents : Represents search edge solid valid bound) {fuel : Nat}
    {state : State α} (done : List α)
    (sound : Sound search edge valid bound root state.found)
    (split : state.found = done ++ state.queue)
    (expanded : Expanded search edge solid done state.found)
    (enough : bound.card + 1 ≤ fuel + done.length) :
    ∃ result, traverse search fuel state = some result ∧
      Complete search edge solid valid root result := by
  have finish (done : List α) (found : List α) (sound : Sound search edge valid bound root found)
      (split : found = done ++ []) (expanded : Expanded search edge solid done found) :
      Complete search edge solid valid root (.ok found) := by
    rw [List.append_nil] at split
    subst split
    exact complete_of_expanded sound expanded
  induction fuel generalizing state done with
  | zero =>
      rcases state with ⟨found, _ | ⟨current, queue⟩⟩
      · exact ⟨.ok found, rfl, finish done found sound split expanded⟩
      · have most := sound.length_le
        dsimp only at split most
        rw [split, List.length_append, List.length_cons] at most
        omega
  | succ fuel ih =>
      rcases state with ⟨found, _ | ⟨current, queue⟩⟩
      · exact ⟨.ok found, rfl, finish done found sound split expanded⟩
      · dsimp only at split sound expanded
        have currentMem : current ∈ found := by
          rw [split]
          exact List.mem_append_right done List.mem_cons_self
        have currentValid := sound.valid current currentMem
        have currentReached := sound.reached current currentMem
        rw [traverse]
        cases expansion : search.expand current with
        | error error =>
            refine ⟨_, rfl, ?_, ?_⟩
            · intro own ok
              cases ok
            · intro own failed
              exact ⟨_, currentReached, represents.failed _ _ currentValid expansion⟩
        | ok nexts =>
            rcases represents.expanded _ _ currentValid expansion with
              ⟨currentSolid, nextsValid, edges⟩
            have nextsReached : ∀ next ∈ nexts,
                Relation.ReflTransGen edge (search.key root) (search.key next) := by
              intro next nextMem
              exact currentReached.tail ((edges _).mpr (List.mem_map_of_mem nextMem))
            dsimp only
            cases visited : visit search current nexts ⟨found, queue⟩ with
            | error error =>
                refine ⟨_, rfl, ?_, ?_⟩
                · intro own ok
                  cases ok
                · intro own failed
                  rcases visit_error represents visited with ⟨next, nextMem, hollow⟩
                  exact ⟨_, nextsReached next nextMem, hollow⟩
            | ok after =>
                rcases visit_ok represents sound nextsValid nextsReached visited with
                  ⟨soundAfter, ⟨more, foundAfter, queueAfter⟩, all⟩
                dsimp only at foundAfter queueAfter
                apply ih (done ++ [current]) soundAfter
                · rw [foundAfter, queueAfter, split]
                  simp
                · intro thing thingMem
                  rcases List.mem_append.mp thingMem with old | new
                  · refine ⟨(expanded thing old).1, ?_⟩
                    intro key step
                    rw [foundAfter, List.map_append]
                    exact List.mem_append_left _ ((expanded thing old).2 key step)
                  · rw [List.mem_singleton.mp new]
                    refine ⟨currentSolid, ?_⟩
                    intro key step
                    rcases List.mem_map.mp ((edges key).mp step) with ⟨next, nextMem, rfl⟩
                    exact all next nextMem
                · rw [List.length_append, List.length_singleton]
                  omega

/-- The search ends, and is complete, when each key that can be entered has its turn. -/
theorem searchFrom_complete (represents : Represents search edge solid valid bound)
    (rootValid : valid root) {fuel : Nat} (enough : bound.card + 1 ≤ fuel) :
    ∃ result, searchFrom search fuel root = some result ∧
      Complete search edge solid valid root result := by
  apply traverse_complete represents []
  · refine ⟨⟨[], rfl, by simp⟩, by simp, ?_, ?_⟩
    · intro thing thingMem
      rw [List.mem_singleton.mp thingMem]
      exact rootValid
    · intro thing thingMem
      rw [List.mem_singleton.mp thingMem]
  · rfl
  · intro thing thingMem
    cases thingMem
  · exact enough

end Worklist
