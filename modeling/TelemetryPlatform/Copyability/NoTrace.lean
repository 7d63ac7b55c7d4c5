import TelemetryPlatform.Copyability.Scope
import TelemetryPlatform.Copyability.SeedUndo
import TelemetryPlatform.Library.WholeRuntime

/-!
# What a run leaves behind

A run of `_copy_and_seed_scope` should leave the live tree and the files of `common/`
as it found them. The rows are always taken back. The zone id is put back as it was
when it is a string. A copy leaves nothing when its destination did not exist in a
directory that did; where it completes otherwise, what was at the destination is lost or
the directories that were made above it stay, and a copy that fails leaves what it has
made.
-/

namespace Copyability

open Python Rollback

section Copies

variable {faults : Faults} {tree after left : Tree} {src dst place : Place}

theorem clear_node_of_below (below : dst <:+ place) : (tree.clear dst).node place = none :=
  if_pos below

theorem clear_node_of_not_below (beside : ¬dst <:+ place) :
    (tree.clear dst).node place = tree.node place := if_neg beside

/-- There is nothing below a place where there is nothing. -/
theorem node_below_none (missing : tree.node dst = none) (below : dst <:+ place) :
    tree.node place = none := by
  rcases below with ⟨rest, rfl⟩
  induction rest with
  | nil => exact missing
  | cons name rest ih =>
      by_contra present
      rw [← ne_eq, Option.ne_none_iff_isSome] at present
      have dir := tree.rooted name (rest ++ dst) present
      rw [ih] at dir
      cases dir

/-- The places above something are directories. -/
theorem node_above (present : (tree.node dst).isSome) (above : place <:+ dst) :
    place = dst ∨ tree.node place = some .dir := by
  induction dst with
  | nil => exact Or.inl (List.suffix_nil.mp above)
  | cons name dir ih =>
      have isDir := tree.rooted name dir present
      rcases List.suffix_cons_iff.mp above with same | higher
      · exact Or.inl same
      · rcases ih (Option.isSome_of_eq_some isDir) higher with rfl | found
        · exact Or.inr isDir
        · exact Or.inr found

theorem within_refl (tree : Tree) (dst : Place) : Within tree tree dst := fun _ _ => Or.inl rfl

theorem within_copied (ready : tree.Ready src dst) : Within tree (tree.copied src dst) dst := by
  intro place beside
  change (if dst <:+ place then _ else if place <:+ dst then some Node.dir else tree.node place) =
    _ ∨ _
  rw [if_neg beside]
  by_cases above : place <:+ dst
  · rw [if_pos above]
    rcases ready.2.2 place ((List.mem_tails _ _).mpr above) with missing | isDir
    · exact Or.inr ⟨missing, above, if_neg beside |>.trans (if_pos above)⟩
    · exact Or.inl isDir.symm
  · rw [if_neg above]
    exact Or.inl rfl

/-- A copy changes what is at its destination and makes directories above it. -/
theorem copytree_within {outcome : Except CopyExc Unit}
    (copied : copytree faults src dst tree = (outcome, after)) : Within tree after dst := by
  unfold copytree at copied
  cases fault : faults.copy tree src dst with
  | some left =>
      rw [fault] at copied
      cases copied
      exact faults.within tree src dst after fault
  | none =>
      rw [fault] at copied
      dsimp only at copied
      split_ifs at copied with ready
      · cases copied
        exact within_copied ready
      · cases copied
        exact within_refl tree dst

/-- A copy that completes has made its destination. -/
theorem copytree_ok (copied : copytree faults src dst tree = (.ok (), after)) :
    after = tree.copied src dst ∧ tree.Ready src dst := by
  unfold copytree at copied
  cases fault : faults.copy tree src dst with
  | some left =>
      rw [fault] at copied
      cases copied
  | none =>
      rw [fault] at copied
      dsimp only at copied
      split_ifs at copied with ready
      · cases copied
        exact ⟨rfl, ready⟩
      · cases copied

/-- A turn of the loop is a copy to a destination that was cleared, or changes nothing. -/
theorem copyScope_cases (faults : Faults) (copy : Place × Place) (tree : Tree) :
    (tree.node copy.2 = none ∧
      copyScope faults copy tree = copytree faults copy.1 copy.2 tree) ∨
    (tree.node copy.2 = some .dir ∧
      copyScope faults copy tree = copytree faults copy.1 copy.2 (tree.clear copy.2)) ∨
    ∃ error, copyScope faults copy tree = (.error error, tree) := by
  unfold copyScope Tree.rmtree
  cases found : tree.node copy.2 with
  | none => exact Or.inl ⟨rfl, rfl⟩
  | some node =>
      cases node with
      | dir => exact Or.inr (Or.inl ⟨rfl, rfl⟩)
      | file content => exact Or.inr (Or.inr ⟨_, rfl⟩)

theorem copyScope_within {copy : Place × Place} {outcome : Except CopyExc Unit}
    (copied : copyScope faults copy tree = (outcome, after)) : Within tree after copy.2 := by
  rcases copyScope_cases faults copy tree with ⟨_, same⟩ | ⟨_, same⟩ | ⟨error, same⟩
  · rw [same] at copied
    exact copytree_within copied
  · rw [same] at copied
    intro place beside
    have made := copytree_within copied place beside
    rwa [clear_node_of_not_below beside] at made
  · rw [same] at copied
    cases copied
    exact within_refl tree copy.2

/-- A copy that completes has made its destination, which is not the root. -/
theorem copyScope_ok {copy : Place × Place}
    (copied : copyScope faults copy tree = (.ok (), after)) :
    after.node copy.2 = some .dir ∧ copy.2 ≠ [] := by
  have made {from_ : Tree} (ready : from_.Ready copy.1 copy.2) :
      (from_.copied copy.1 copy.2).node copy.2 = some .dir ∧ copy.2 ≠ [] := by
    constructor
    · change (if copy.2 <:+ copy.2 then _ else _) = _
      rw [if_pos List.suffix_rfl, Nat.sub_self, List.take_zero, List.nil_append]
      exact ready.1
    · intro root
      have missing := ready.2.1
      rw [root] at missing
      have nothing := node_below_none missing (List.nil_suffix (l := copy.1))
      rw [ready.1] at nothing
      cases nothing
  rcases copyScope_cases faults copy tree with ⟨_, same⟩ | ⟨_, same⟩ | ⟨error, same⟩
  · rw [same] at copied
    rcases copytree_ok copied with ⟨rfl, ready⟩
    exact made ready
  · rw [same] at copied
    rcases copytree_ok copied with ⟨rfl, ready⟩
    exact made ready
  · rw [same] at copied
    cases copied

/-- Each copy that completes has a destination that was missing in a directory that was not, and
a copy that fails leaves the tree as it was. -/
def CopiesLeaveNothing (faults : Faults) : List (Place × Place) → Tree → Prop
  | [], _ => True
  | copy :: rest, tree =>
      match copyScope faults copy tree with
      | (.ok _, after) =>
          tree.node copy.2 = none ∧ (tree.node copy.2.tail).isSome ∧
            CopiesLeaveNothing faults rest after
      | (.error _, after) => after = tree

theorem above_tail (above : place <:+ dst) (beside : ¬dst <:+ place) : place <:+ dst.tail := by
  cases dst with
  | nil => exact absurd (List.nil_suffix) beside
  | cons name dir =>
      rcases List.suffix_cons_iff.mp above with rfl | higher
      · exact absurd List.suffix_rfl beside
      · exact higher

/-- To clear a destination undoes a copy to it when nothing was there and its directory was. -/
theorem clear_of_within (within : Within tree after dst) (missing : tree.node dst = none)
    (parent : (tree.node dst.tail).isSome) : after.clear dst = tree := by
  apply Tree.ext
  funext place
  by_cases below : dst <:+ place
  · rw [clear_node_of_below below, node_below_none missing below]
  · rw [clear_node_of_not_below below]
    rcases within place below with same | ⟨nothing, above, _⟩
    · exact same
    · rcases node_above parent (above_tail above below) with rfl | isDir
      · rw [nothing] at parent
        cases parent
      · rw [nothing] at isDir
        cases isDir

theorem removeCopy_dir {copy : Place × Place} (isDir : tree.node copy.2 = some .dir) :
    removeCopy copy tree = (.ok (), tree.clear copy.2) := by
  unfold removeCopy Tree.rmtree
  rw [isDir]
  rfl

/-- Copies that leave nothing are undone one after the other. -/
theorem undoable_copies {copies : List (Place × Place)}
    (leaveNothing : CopiesLeaveNothing faults copies tree) :
    Undoable (copyScope faults) removeCopy id copies tree := by
  induction copies generalizing tree with
  | nil => exact trivial
  | cons copy rest ih =>
      rw [CopiesLeaveNothing] at leaveNothing
      rw [Undoable]
      cases copied : copyScope faults copy tree with
      | mk outcome after =>
          rw [copied] at leaveNothing
          cases outcome with
          | error error => exact leaveNothing
          | ok _ =>
              rcases leaveNothing with ⟨missing, parent, others⟩
              refine ⟨?_, ih others⟩
              rw [id, id, removeCopy_dir (copyScope_ok copied).1,
                clear_of_within (copyScope_within copied) missing parent]

variable (faults) in
/-- Copies leave alone what is beside their destinations, unless it is missing above one. -/
theorem perform_frame {copies : List (Place × Place)}
    (beside : ∀ copy ∈ copies, ¬copy.2 <:+ place)
    (kept : (tree.node place).isSome ∨ ∀ copy ∈ copies, ¬place <:+ copy.2) :
    (perform (copyScope faults) copies [] tree).2.1.node place = tree.node place := by
  induction copies generalizing tree with
  | nil => rfl
  | cons copy rest ih =>
      have besideRest : ∀ copy ∈ rest, ¬copy.2 <:+ place := fun other otherMem =>
        beside other (List.mem_cons_of_mem copy otherMem)
      cases copied : copyScope faults copy tree with
      | mk outcome after =>
          have same : after.node place = tree.node place := by
            rcases copyScope_within copied place (beside copy List.mem_cons_self) with
              same | ⟨missing, above, _⟩
            · exact same
            · rcases kept with present | notAbove
              · rw [missing] at present
                cases present
              · exact absurd above (notAbove copy List.mem_cons_self)
          cases outcome with
          | error error =>
              rw [perform_cons_error rest copied]
              exact same
          | ok _ =>
              rw [perform_cons_ok rest copied]
              refine (ih besideRest ?_).trans same
              rw [same]
              rcases kept with present | notAbove
              · exact Or.inl present
              · exact Or.inr fun other otherMem =>
                  notAbove other (List.mem_cons_of_mem copy otherMem)

variable (tree) in
theorem removeCopy_node {copy : Place × Place} (beside : ¬copy.2 <:+ place) :
    (removeCopy copy tree).2.node place = tree.node place := by
  unfold removeCopy Tree.rmtree
  split_ifs
  · split
    · exact clear_node_of_not_below beside
    · rfl
  · rfl

/-- Removing copies leaves alone what is beside them. -/
theorem rollback_frame {copies : List (Place × Place)}
    (beside : ∀ copy ∈ copies, ¬copy.2 <:+ place) :
    (rollback removeCopy copies tree).2.node place = tree.node place := by
  induction copies generalizing tree with
  | nil => rfl
  | cons copy rest ih =>
      have besideRest : ∀ copy ∈ rest, ¬copy.2 <:+ place := fun other otherMem =>
        beside other (List.mem_cons_of_mem copy otherMem)
      have same := removeCopy_node tree (beside copy List.mem_cons_self)
      rw [rollback]
      cases removed : removeCopy copy tree with
      | mk outcome after =>
          rw [removed] at same
          cases outcome with
          | error error => exact same
          | ok _ => exact (ih besideRest).trans same

/-- Copies none of which is a file are removed. -/
theorem rollback_ok {copies : List (Place × Place)}
    (noFile : ∀ copy ∈ copies, tree.node copy.2 = none ∨ tree.node copy.2 = some .dir) :
    ∃ removed, rollback removeCopy copies tree = (.ok (), removed) := by
  induction copies generalizing tree with
  | nil => exact ⟨tree, rfl⟩
  | cons copy rest ih =>
      have restNoFile : ∀ copy ∈ rest, tree.node copy.2 = none ∨ tree.node copy.2 = some .dir :=
        fun other otherMem => noFile other (List.mem_cons_of_mem copy otherMem)
      rw [rollback]
      rcases noFile copy List.mem_cons_self with missing | isDir
      · have nothing : removeCopy copy tree = (.ok (), tree) := by
          unfold removeCopy
          rw [missing]
          rfl
        rw [nothing]
        exact ih restNoFile
      · rw [removeCopy_dir isDir]
        apply ih
        intro other otherMem
        by_cases below : copy.2 <:+ other.2
        · exact Or.inl (clear_node_of_below below)
        · rw [clear_node_of_not_below below]
          exact restNoFile other otherMem

/-- No destination is inside another. -/
def Apart (copies : List (Place × Place)) : Prop :=
  copies.Pairwise fun first second => ¬first.2 <:+ second.2 ∧ ¬second.2 <:+ first.2

variable (faults tree) in
/-- What was copied is there when the loop is over, and is one of the copies. -/
theorem copied_dirs {copies : List (Place × Place)} (apart : Apart copies) :
    ∀ copy ∈ (perform (copyScope faults) copies [] tree).2.2, copy ∈ copies ∧
      (perform (copyScope faults) copies [] tree).2.1.node copy.2 = some .dir := by
  induction copies generalizing tree with
  | nil =>
      intro copy copyMem
      cases copyMem
  | cons copy rest ih =>
      rcases List.pairwise_cons.mp apart with ⟨apartCopy, apartRest⟩
      cases copied : copyScope faults copy tree with
      | mk outcome after =>
          cases outcome with
          | error error =>
              rw [perform_cons_error rest copied]
              intro other otherMem
              cases otherMem
          | ok _ =>
              rw [perform_cons_ok rest copied]
              intro other otherMem
              rcases List.mem_cons.mp otherMem with rfl | laterMem
              · have made := (copyScope_ok copied).1
                refine ⟨List.mem_cons_self, (perform_frame faults ?_ ?_).trans made⟩
                · exact fun another anotherMem => (apartCopy another anotherMem).2
                · exact Or.inl (Option.isSome_of_eq_some made)
              · rcases ih after apartRest other laterMem with ⟨otherRest, isDir⟩
                exact ⟨List.mem_cons_of_mem copy otherRest, isDir⟩

variable (faults after) in
/-- What is left when the copies after one are removed again: what that one had left. -/
theorem rollback_rest {copy : Place × Place} {rest : List (Place × Place)}
    (apart : Apart (copy :: rest)) : ∃ removed,
    rollback removeCopy (perform (copyScope faults) rest [] after).2.2.reverse
      (perform (copyScope faults) rest [] after).2.1 = (.ok (), removed) ∧
    (∀ place, (∀ other ∈ rest, ¬other.2 <:+ place) →
      (after.node place).isSome ∨ (∀ other ∈ rest, ¬place <:+ other.2) →
        removed.node place = after.node place) := by
  have dirs := copied_dirs faults after (List.pairwise_cons.mp apart).2
  have noFile : ∀ other ∈ (perform (copyScope faults) rest [] after).2.2.reverse,
      (perform (copyScope faults) rest [] after).2.1.node other.2 = none ∨
        (perform (copyScope faults) rest [] after).2.1.node other.2 = some .dir :=
    fun other otherMem => Or.inr (dirs other (List.mem_reverse.mp otherMem)).2
  rcases rollback_ok noFile with ⟨removed, removing⟩
  refine ⟨removed, removing, ?_⟩
  intro place beside kept
  rw [← perform_frame faults beside kept]
  have framed : (rollback removeCopy (perform (copyScope faults) rest [] after).2.2.reverse
      (perform (copyScope faults) rest [] after).2.1).2.node place =
        (perform (copyScope faults) rest [] after).2.1.node place := by
    apply rollback_frame
    intro other otherMem
    exact beside other (dirs other (List.mem_reverse.mp otherMem)).1
  rwa [removing] at framed

/-- Copies that are apart and left nothing were such as leave nothing. -/
theorem copiesLeaveNothing_of_restored {copies : List (Place × Place)} (apart : Apart copies)
    (restored : (rollback removeCopy (perform (copyScope faults) copies [] tree).2.2.reverse
      (perform (copyScope faults) copies [] tree).2.1).2 = tree) :
    CopiesLeaveNothing faults copies tree := by
  induction copies generalizing tree with
  | nil => trivial
  | cons copy rest ih =>
      rcases List.pairwise_cons.mp apart with ⟨apartCopy, apartRest⟩
      rw [CopiesLeaveNothing]
      cases copied : copyScope faults copy tree with
      | mk outcome after =>
          cases outcome with
          | error error =>
              rw [perform_cons_error rest copied] at restored
              exact restored
          | ok _ =>
              rw [perform_cons_ok rest copied, List.reverse_cons] at restored
              dsimp only at restored ⊢
              have made := copyScope_ok copied
              rcases rollback_rest faults after apart with ⟨removed, removing, frame⟩
              have stillThere : removed.node copy.2 = some .dir := by
                rw [frame copy.2 (fun other otherMem => (apartCopy other otherMem).2)
                  (Or.inl (Option.isSome_of_eq_some made.1)), made.1]
              rw [rollback_append_ok removing, rollback, removeCopy_dir stillThere] at restored
              change removed.clear copy.2 = tree at restored
              have missing : tree.node copy.2 = none := by
                rw [← restored]
                exact clear_node_of_below List.suffix_rfl
              have parent : (tree.node copy.2.tail).isSome := by
                rw [← restored]
                cases named : copy.2 with
                | nil => exact absurd named made.2
                | cons name dir =>
                    have madeDir : after.node dir = some .dir := by
                      apply after.rooted name dir
                      rw [← named, made.1]
                      rfl
                    have beside : ∀ other ∈ rest, ¬other.2 <:+ dir := by
                      intro other otherMem inside
                      apply (apartCopy other otherMem).2
                      rw [named]
                      exact inside.trans (List.suffix_cons name dir)
                    rw [List.tail_cons, clear_node_of_not_below (cons_not_suffix name dir),
                      frame dir beside (Or.inl (Option.isSome_of_eq_some madeDir)), madeDir]
                    rfl
              refine ⟨missing, parent, ih apartRest ?_⟩
              rw [removing]
              have cleared := clear_of_within (copyScope_within copied) missing parent
              apply Tree.ext
              funext place
              by_cases below : copy.2 <:+ place
              · apply frame place
                · intro other otherMem inside
                  rcases List.suffix_or_suffix_of_suffix below inside with outer | inner
                  · exact (apartCopy other otherMem).1 outer
                  · exact (apartCopy other otherMem).2 inner
                · exact Or.inr fun other otherMem inside =>
                    (apartCopy other otherMem).1 (below.trans inside)
              · have removedHere : (removed.clear copy.2).node place = removed.node place :=
                  clear_node_of_not_below below
                rw [← removedHere, restored, ← cleared]
                exact clear_node_of_not_below below

/-- What a run may leave of itself at a place: what was at a destination that was there before is
gone, and a directory above a destination that was missing is there. -/
inductive Trace (copies : List (Place × Place)) (before after : Tree) (place : Place) : Prop where
  | same (unchanged : after.node place = before.node place)
  | gone (copy : Place × Place) (copyMem : copy ∈ copies)
      (existed : before.node copy.2 = some .dir) (below : copy.2 <:+ place)
      (missing : after.node place = none)
  | made (copy : Place × Place) (copyMem : copy ∈ copies) (missing : before.node place = none)
      (above : place <:+ copy.2) (proper : place ≠ copy.2)
      (isDir : after.node place = some .dir)

/-- A copy that fails has made nothing. -/
def Faults.Clean (faults : Faults) : Prop :=
  ∀ tree src dst left, faults.copy tree src dst = some left → left = tree

/-- A turn of the loop that fails has cleared the destination at most. -/
theorem copyScope_error (clean : faults.Clean) {copy : Place × Place} {error : CopyExc}
    (failed : copyScope faults copy tree = (.error error, after)) :
    after = tree ∨ tree.node copy.2 = some .dir ∧ after = tree.clear copy.2 := by
  have unchanged {from_ : Tree}
      (failed : copytree faults copy.1 copy.2 from_ = (.error error, after)) :
      after = from_ := by
    unfold copytree at failed
    cases fault : faults.copy from_ copy.1 copy.2 with
    | some left =>
        rw [fault] at failed
        cases failed
        exact clean _ _ _ _ fault
    | none =>
        rw [fault] at failed
        dsimp only at failed
        split_ifs at failed with ready
        · cases failed
        · cases failed
          rfl
  rcases copyScope_cases faults copy tree with ⟨_, same⟩ | ⟨existed, same⟩ | ⟨own, same⟩
  · rw [same] at failed
    exact Or.inl (unchanged failed)
  · rw [same] at failed
    exact Or.inr ⟨existed, unchanged failed⟩
  · rw [same] at failed
    cases failed
    exact Or.inl rfl

/-- A turn of the loop that completes did not find a file at its destination. -/
theorem existed_of_copyScope_ok {copy : Place × Place}
    (copied : copyScope faults copy tree = (.ok (), after)) (existed : (tree.node copy.2).isSome) :
    tree.node copy.2 = some .dir := by
  rcases copyScope_cases faults copy tree with ⟨missing, _⟩ | ⟨isDir, _⟩ | ⟨error, same⟩
  · rw [missing] at existed
    cases existed
  · exact isDir
  · rw [same] at copied
    cases copied

/-- Where no file stands, a removal clears the place. -/
theorem removeCopy_clear {copy : Place × Place}
    (noFile : tree.node copy.2 = none ∨ tree.node copy.2 = some .dir) :
    removeCopy copy tree = (.ok (), tree.clear copy.2) := by
  rcases noFile with missing | isDir
  · have cleared : tree.clear copy.2 = tree := by
      apply Tree.ext
      funext place
      by_cases below : copy.2 <:+ place
      · rw [clear_node_of_below below, node_below_none missing below]
      · exact clear_node_of_not_below below
    unfold removeCopy
    rw [missing, cleared]
    rfl
  · exact removeCopy_dir isDir

/-- What is below the destination of a copy that completes is gone, or was not there. -/
theorem trace_below {copy : Place × Place} {rest : List (Place × Place)} {final : Tree}
    (copied : copyScope faults copy tree = (.ok (), after)) (below : copy.2 <:+ place)
    (missing : final.node place = none) : Trace (copy :: rest) tree final place := by
  cases found : tree.node place with
  | none => exact .same (missing.trans found.symm)
  | some node =>
      have existed : (tree.node copy.2).isSome := by
        rcases node_above (Option.isSome_of_eq_some found) below with same | isDir
        · rw [same, found]
          rfl
        · exact Option.isSome_of_eq_some isDir
      exact .gone copy List.mem_cons_self (existed_of_copyScope_ok copied existed) below missing

/-- A copy that completes adds its own traces to those of the copies after it. -/
theorem trace_cons {copy : Place × Place} {rest : List (Place × Place)} {removed : Tree}
    (copied : copyScope faults copy tree = (.ok (), after))
    (trace : Trace rest after removed place) :
    Trace (copy :: rest) tree (removed.clear copy.2) place := by
  by_cases below : copy.2 <:+ place
  · exact trace_below copied below (clear_node_of_below below)
  · have cleared : (removed.clear copy.2).node place = removed.node place :=
      clear_node_of_not_below below
    have within := copyScope_within copied
    rcases trace with unchanged | ⟨other, otherMem, existed, inside, missing⟩ |
      ⟨other, otherMem, missing, above, proper, isDir⟩
    · rcases within place below with same | ⟨nothing, above, made⟩
      · exact .same (cleared.trans (unchanged.trans same))
      · refine .made copy List.mem_cons_self nothing above ?_ (cleared.trans (unchanged.trans made))
        rintro rfl
        exact below List.suffix_rfl
    · cases found : tree.node place with
      | none => exact .same (cleared.trans (missing.trans found.symm))
      | some node =>
          have there : tree.node other.2 = some .dir := by
            rcases within other.2 (fun outer => below (outer.trans inside)) with
              same | ⟨nothing, _, _⟩
            · exact same.symm.trans existed
            · rw [node_below_none nothing inside] at found
              cases found
          exact .gone other (List.mem_cons_of_mem copy otherMem) there inside
            (cleared.trans missing)
    · have nothing : tree.node place = none := by
        rcases within place below with same | ⟨nothing, _, _⟩
        · exact same.symm.trans missing
        · exact nothing
      exact .made other (List.mem_cons_of_mem copy otherMem) nothing above proper
        (cleared.trans isDir)

/-- There are no traces when the destinations were missing in directories that were there. -/
theorem eq_of_trace {copies : List (Place × Place)}
    (fresh : ∀ copy ∈ copies, tree.node copy.2 = none ∧ (tree.node copy.2.tail).isSome)
    (traces : ∀ place, Trace copies tree after place) : after = tree := by
  apply Tree.ext
  funext place
  rcases traces place with unchanged | ⟨copy, copyMem, existed, _, _⟩ |
    ⟨copy, copyMem, missing, above, proper, _⟩
  · exact unchanged
  · rw [(fresh copy copyMem).1] at existed
    cases existed
  · have parent := (fresh copy copyMem).2
    have beside : ¬copy.2 <:+ place := fun outer =>
      proper (above.eq_of_length_le outer.length_le)
    rcases node_above parent (above_tail above beside) with same | isDir
    · rw [← same, missing] at parent
      cases parent
    · rw [missing] at isDir
      cases isDir

/-- What the loops over the copies leave when copies fail without having made anything. -/
theorem trace_copies (clean : faults.Clean) (copies : List (Place × Place)) (tree : Tree) :
    ∃ final, rollback removeCopy (perform (copyScope faults) copies [] tree).2.2.reverse
        (perform (copyScope faults) copies [] tree).2.1 = (.ok (), final) ∧
      ∀ place, Trace copies tree final place := by
  induction copies generalizing tree with
  | nil => exact ⟨tree, rfl, fun place => .same rfl⟩
  | cons copy rest ih =>
      cases copied : copyScope faults copy tree with
      | mk outcome after =>
          cases outcome with
          | error error =>
              rw [perform_cons_error rest copied]
              refine ⟨after, rfl, ?_⟩
              intro place
              rcases copyScope_error clean copied with rfl | ⟨existed, rfl⟩
              · exact .same rfl
              · by_cases below : copy.2 <:+ place
                · exact .gone copy List.mem_cons_self existed below (clear_node_of_below below)
                · exact .same (clear_node_of_not_below below)
          | ok _ =>
              rw [perform_cons_ok rest copied]
              rcases ih after with ⟨removed, removing, traces⟩
              have made := (copyScope_ok copied).1
              have noFile : removed.node copy.2 = none ∨ removed.node copy.2 = some .dir := by
                rcases traces copy.2 with unchanged | ⟨_, _, _, _, missing⟩ | ⟨_, _, missing, _⟩
                · exact Or.inr (unchanged.trans made)
                · exact Or.inl missing
                · rw [made] at missing
                  cases missing
              refine ⟨removed.clear copy.2, ?_, ?_⟩
              · dsimp only
                rw [List.reverse_cons, rollback_append_ok removing, rollback,
                  removeCopy_clear noFile]
                rfl
              · exact fun place => trace_cons copied (traces place)

end Copies

section Rows

variable {rt : Runtime} {accountsJson : PosixPath} {common : Common rt}

/-- Seeds are undone one after the other, also when the zone id was put back before. -/
theorem undoable_seeds (zone : Str) (seeds : List (SeedSpec rt))
    (zoned : common.Zoned accountsJson) :
    Undoable seedStep restoreStep (fun own => own.withZone accountsJson zone) seeds common := by
  induction seeds generalizing common with
  | nil => exact trivial
  | cons spec rest ih =>
      rw [Undoable, seedStep]
      cases seeding : seedCommonRow spec common with
      | error error => rfl
      | ok seeded =>
          rcases restoreCommonRow_seedCommonRow zone zoned seeding with ⟨zonedThen, restored⟩
          refine ⟨?_, ih zonedThen⟩
          rw [restoreStep, restored]

/-- The zone id can still be put back when the seeds are there. -/
theorem zoned_seeds (seeds : List (SeedSpec rt)) (zoned : common.Zoned accountsJson) :
    (perform seedStep seeds [] common).2.1.Zoned accountsJson := by
  induction seeds generalizing common with
  | nil => exact zoned
  | cons spec rest ih =>
      cases seeding : seedCommonRow spec common with
      | error error =>
          have taken : seedStep spec common = (.error error, common) := by
            rw [seedStep, seeding]
          rw [perform_cons_error rest taken]
          exact zoned
      | ok seeded =>
          have taken : seedStep spec common = (.ok (), seeded) := by
            rw [seedStep, seeding]
          rw [perform_cons_ok rest taken]
          exact ih (restoreCommonRow_seedCommonRow [] zoned seeding).1

/-- The files of `common/` hold an object for the account that owns the zone. -/
def OwnerEntry (accountsJson : PosixPath) (common : Common rt)
    (entries owner : List (Str × rt.Value)) : Prop :=
  common accountsJson = some (.parsed (.obj entries)) ∧
    dictGet? entries dnsOwnerAccountId = some (.obj owner)

variable {entries owner : List (Str × rt.Value)}

theorem patch_of_ownerEntry (entry : OwnerEntry accountsJson common entries owner) :
    patchDnsOwnerZoneId accountsJson common =
      (ofPython (rt.strOf ((dictGet? owner dnsOwnerZoneId).getD (.str []))),
        common.withZone accountsJson syntheticZoneId) := by
  have contained : (Json.obj entries : rt.Value).contains dnsOwnerAccountId = .ok true := by
    rw [Json.contains, entry.2]
    rfl
  have found : (Json.obj entries : rt.Value).subscript dnsOwnerAccountId = .ok (.obj owner) := by
    rw [Json.subscript, entry.2]
  have patched : patchDoc accountsJson (.obj entries) =
      .ok ((dictGet? owner dnsOwnerZoneId).getD (.str []),
        withZone syntheticZoneId (.obj entries)) := by
    rw [patchDoc, contained, found, setZone_eq _ entry.2, withZone_eq _ entry.2]
    rfl
  rw [patchDnsOwnerZoneId, loadDoc, entry.1, withZone_parsed _ entry.1]
  dsimp only
  rw [ok_bind, patched]

/-- A document that can be patched has an object for the account. -/
theorem entry_of_patchDoc {data original patched : rt.Value}
    (patching : patchDoc accountsJson data = .ok (original, patched)) :
    ∃ entries owner, data = .obj entries ∧
      dictGet? entries dnsOwnerAccountId = some (.obj owner) := by
  unfold patchDoc at patching
  rcases bind_eq_ok.mp patching with ⟨present, _, rest⟩
  cases present with
  | false => cases rest
  | true =>
      rcases bind_eq_ok.mp rest with ⟨account, subscripted, rest⟩
      rcases bind_eq_ok.mp rest with ⟨zoneId, gotten, _⟩
      have read := ofPython_eq_ok.mp subscripted
      cases data with
      | obj entries =>
          unfold Json.subscript at read
          dsimp only at read
          cases found : dictGet? entries dnsOwnerAccountId with
          | none =>
              rw [found] at read
              cases read
          | some own =>
              rw [found] at read
              cases read
              cases account with
              | obj owner => exact ⟨entries, owner, rfl, found⟩
              | _ => cases ofPython_eq_ok.mp gotten
      | _ => cases read

theorem patch_of_not_ownerEntry
    (noEntry : ∀ entries owner, ¬OwnerEntry accountsJson common entries owner) :
    ∃ error, patchDnsOwnerZoneId accountsJson common = (.error error, common) := by
  rw [patchDnsOwnerZoneId]
  cases patching : loadDoc common accountsJson >>= patchDoc accountsJson with
  | error error => exact ⟨error, rfl⟩
  | ok result =>
      rcases bind_eq_ok.mp patching with ⟨data, loaded, patched⟩
      rcases entry_of_patchDoc patched with ⟨entries, owner, rfl, account⟩
      exact absurd ⟨loadDoc_parsed.mp loaded, account⟩ (noEntry entries owner)

/-- The account has its object when another zone id is set. -/
theorem ownerEntry_withZone (entry : OwnerEntry accountsJson common entries owner) (zone : Str) :
    OwnerEntry accountsJson (common.withZone accountsJson zone)
      (dictSet entries dnsOwnerAccountId (.obj (dictSet owner dnsOwnerZoneId (.str zone))))
      (dictSet owner dnsOwnerZoneId (.str zone)) := by
  constructor
  · rw [withZone_parsed zone entry.1, withZone_eq zone entry.2, write_self]
  · rw [dictGet?_dictSet, if_pos rfl]

theorem zoned_patched (entry : OwnerEntry accountsJson common entries owner) (zone : Str) :
    (common.withZone accountsJson zone).Zoned accountsJson := by
  have entryThen := ownerEntry_withZone entry zone
  refine ⟨_, entryThen.1, _, _, rfl, entryThen.2, ?_⟩
  rw [dictGet?_dictSet, if_pos rfl]
  rfl

/-- The zone id that was set last stays. -/
theorem withZone_withZone (entry : OwnerEntry accountsJson common entries owner)
    (zone last : Str) :
    (common.withZone accountsJson zone).withZone accountsJson last =
      common.withZone accountsJson last := by
  have entryThen := ownerEntry_withZone entry zone
  rw [withZone_parsed last entryThen.1, withZone_eq last entryThen.2,
    withZone_parsed zone entry.1, write_write, withZone_parsed last entry.1,
    withZone_eq last entry.2, dictSet_dictSet, dictSet_dictSet]

/-- Setting the zone id changes nothing when it is the zone id that is there. -/
theorem withZone_eq_self_iff (entry : OwnerEntry accountsJson common entries owner)
    (zone : Str) : common.withZone accountsJson zone = common ↔
      dictGet? owner dnsOwnerZoneId = some (.str zone) := by
  constructor
  · intro same
    have entryThen := ownerEntry_withZone entry zone
    rw [same] at entryThen
    have sameEntries := entry.1.symm.trans entryThen.1
    rw [Option.some.injEq, Content.parsed.injEq, Json.obj.injEq] at sameEntries
    have account := entryThen.2
    rw [← sameEntries, entry.2, Option.some.injEq, Json.obj.injEq] at account
    rw [account, dictGet?_dictSet, if_pos rfl]
  · intro found
    rw [withZone_parsed zone entry.1, withZone_eq zone entry.2, dictSet_same found,
      dictSet_same entry.2, write_same entry.1]

end Rows

section Runs

variable {rt : Runtime} {faults : Faults} {source destination : Place}
  {seedSpecs : List (SeedSpec rt)} {accountsJson : PosixPath}
  {extraCopies : Option (List (Place × Place))} {s : Scope rt}

/-- The copies of a run. -/
def allCopies (source destination : Place) (extraCopies : Option (List (Place × Place))) :
    List (Place × Place) := (source, destination) :: extraCopies.getD []

/-- The live tree a run leaves when it has begun to copy. -/
def liveAfter (faults : Faults) (copies : List (Place × Place)) (live : Tree) : Tree :=
  (rollback removeCopy (perform (copyScope faults) copies [] live).2.2.reverse
    (perform (copyScope faults) copies [] live).2.1).2

/-- What the clean-up leaves when the rows are taken back. -/
theorem cleanUp_snd {originalZoneId : Str} {seeded : List (SeedSpec rt)}
    {copied : List (Place × Place)} (outcome : Except CopyExc Unit) {between after : Common rt}
    (restored : restoreDnsOwnerZoneId accountsJson originalZoneId s.common = .ok between)
    (undone : rollback restoreStep seeded.reverse between = (.ok (), after)) :
    (cleanUp accountsJson originalZoneId seeded copied outcome s).2 =
      ⟨(rollback removeCopy copied.reverse s.live).2, after⟩ := by
  unfold cleanUp
  rw [restored]
  dsimp only
  rw [undone]
  dsimp only
  rcases rollback removeCopy copied.reverse s.live with ⟨_ | _, live⟩ <;> rfl

/-- What a run leaves that gets past the patch of the zone id. -/
theorem copyAndSeedScope_snd {entries owner : List (Str × rt.Value)} {original : Str}
    (entry : OwnerEntry accountsJson s.common entries owner)
    (patched : rt.strOf ((dictGet? owner dnsOwnerZoneId).getD (.str [])) = .ok original) :
    (copyAndSeedScope faults source destination seedSpecs accountsJson extraCopies s).2 =
      ⟨liveAfter faults (allCopies source destination extraCopies) s.live,
        s.common.withZone accountsJson original⟩ := by
  have zoned := zoned_patched entry syntheticZoneId
  have last := withZone_withZone entry syntheticZoneId original
  unfold copyAndSeedScope liveAfter allCopies
  rw [patch_of_ownerEntry entry, patched]
  dsimp only [ofPython, Except.mapError]
  rcases perform (copyScope faults) ((source, destination) :: extraCopies.getD []) [] s.live with
    ⟨copying, live, copied⟩
  cases copying with
  | error error =>
      dsimp only
      refine cleanUp_snd _ (restoreDnsOwnerZoneId_zoned original zoned) ?_
      rw [last]
      rfl
  | ok _ =>
      dsimp only
      refine cleanUp_snd _ (restoreDnsOwnerZoneId_zoned original (zoned_seeds seedSpecs zoned)) ?_
      rw [rollback_perform (undoable_seeds original seedSpecs zoned), last]

/-- A run leaves no trace. -/
def NoTrace (faults : Faults) (source destination : Place) (seedSpecs : List (SeedSpec rt))
    (accountsJson : PosixPath) (extraCopies : Option (List (Place × Place))) (s : Scope rt) :
    Prop :=
  (copyAndSeedScope faults source destination seedSpecs accountsJson extraCopies s).2 = s

/-- When the account that owns the zone has an object: its zone id is a string, and the copies
leave nothing. -/
def Harmless (faults : Faults) (source destination : Place) (accountsJson : PosixPath)
    (extraCopies : Option (List (Place × Place))) (s : Scope rt) : Prop :=
  ∀ entries owner, OwnerEntry accountsJson s.common entries owner →
    (∃ zone, dictGet? owner dnsOwnerZoneId = some (.str zone)) ∧
      CopiesLeaveNothing faults (allCopies source destination extraCopies) s.live

/-- A zone id that is put back as it was is a string. -/
theorem strOf_zone {owner : List (Str × rt.Value)} {zone : Str}
    (found : dictGet? owner dnsOwnerZoneId = some (.str zone)) :
    rt.strOf ((dictGet? owner dnsOwnerZoneId).getD (.str [])) = .ok zone := by
  rw [found]
  rfl

/-- A run changes nothing that finds no object for the account. -/
theorem copyAndSeedScope_of_not_ownerEntry
    (noEntry : ∀ entries owner, ¬OwnerEntry accountsJson s.common entries owner) :
    (copyAndSeedScope faults source destination seedSpecs accountsJson extraCopies s).2 = s := by
  rcases patch_of_not_ownerEntry noEntry with ⟨error, patching⟩
  unfold copyAndSeedScope
  rw [patching]

/-- What is harmless leaves no trace. -/
theorem noTrace_of_harmless
    (harmless : Harmless faults source destination accountsJson extraCopies s) :
    NoTrace faults source destination seedSpecs accountsJson extraCopies s := by
  rw [NoTrace]
  by_cases entryThere : ∃ entries owner, OwnerEntry accountsJson s.common entries owner
  · rcases entryThere with ⟨entries, owner, entry⟩
    rcases harmless entries owner entry with ⟨⟨zone, found⟩, leaveNothing⟩
    rw [copyAndSeedScope_snd entry (strOf_zone found), (withZone_eq_self_iff entry zone).mpr found]
    have undone := rollback_perform (undoable_copies leaveNothing)
    rw [id, id] at undone
    rw [liveAfter, undone]
  · simp only [not_exists] at entryThere
    exact copyAndSeedScope_of_not_ownerEntry entryThere

/-- What leaves no trace, with destinations that are apart, is harmless. -/
theorem harmless_of_noTrace (apart : Apart (allCopies source destination extraCopies))
    (noTrace : NoTrace faults source destination seedSpecs accountsJson extraCopies s) :
    Harmless faults source destination accountsJson extraCopies s := by
  intro entries owner entry
  rw [NoTrace] at noTrace
  cases patched : rt.strOf ((dictGet? owner dnsOwnerZoneId).getD (.str [])) with
  | error exc =>
      unfold copyAndSeedScope at noTrace
      rw [patch_of_ownerEntry entry, patched] at noTrace
      have sameCommon := congrArg Scope.common noTrace
      have found := (withZone_eq_self_iff entry syntheticZoneId).mp sameCommon
      rw [strOf_zone found] at patched
      cases patched
  | ok original =>
      rw [copyAndSeedScope_snd entry patched] at noTrace
      have sameCommon := congrArg Scope.common noTrace
      have sameLive := congrArg Scope.live noTrace
      exact ⟨⟨original, (withZone_eq_self_iff entry original).mp sameCommon⟩,
        copiesLeaveNothing_of_restored apart sameLive⟩

/-- A run leaves no trace when it is harmless, and, with destinations that are apart, only then. -/
theorem noTrace_iff_harmless (faults : Faults) (source destination : Place)
    (seedSpecs : List (SeedSpec rt)) (accountsJson : PosixPath)
    (extraCopies : Option (List (Place × Place))) (s : Scope rt) :
    (Harmless faults source destination accountsJson extraCopies s →
      NoTrace faults source destination seedSpecs accountsJson extraCopies s) ∧
    (Apart (allCopies source destination extraCopies) →
      NoTrace faults source destination seedSpecs accountsJson extraCopies s →
        Harmless faults source destination accountsJson extraCopies s) :=
  ⟨noTrace_of_harmless, harmless_of_noTrace⟩

/-- A run whose copies fail clean leaves the files of `common/` as they were, and in the live
tree no more than the traces of its copies: the destinations that were there are gone, and
the directories above the others may have been made. -/
theorem copyAndSeedScope_trace (clean : faults.Clean)
    (zoned : ∀ entries owner, OwnerEntry accountsJson s.common entries owner →
      ∃ zone, dictGet? owner dnsOwnerZoneId = some (.str zone)) :
    (copyAndSeedScope faults source destination seedSpecs accountsJson extraCopies s).2.common =
      s.common ∧
    (∀ place, Trace (allCopies source destination extraCopies) s.live
      (copyAndSeedScope faults source destination seedSpecs accountsJson extraCopies s).2.live
      place) ∧
    ((∀ copy ∈ allCopies source destination extraCopies,
      s.live.node copy.2 = none ∧ (s.live.node copy.2.tail).isSome) →
        NoTrace faults source destination seedSpecs accountsJson extraCopies s) := by
  by_cases entryThere : ∃ entries owner, OwnerEntry accountsJson s.common entries owner
  · rcases entryThere with ⟨entries, owner, entry⟩
    rcases zoned entries owner entry with ⟨zone, found⟩
    rcases trace_copies clean (allCopies source destination extraCopies) s.live with
      ⟨final, removing, traces⟩
    have live : liveAfter faults (allCopies source destination extraCopies) s.live = final := by
      rw [liveAfter, removing]
    rw [NoTrace, copyAndSeedScope_snd entry (strOf_zone found), live,
      (withZone_eq_self_iff entry zone).mpr found]
    refine ⟨rfl, traces, ?_⟩
    intro fresh
    rw [eq_of_trace fresh traces]
  · simp only [not_exists] at entryThere
    rw [NoTrace, copyAndSeedScope_of_not_ownerEntry entryThere]
    exact ⟨rfl, fun place => .same rfl, fun _ => rfl⟩

end Runs

namespace Sample

/-- A tree of directories. -/
def directories (dirs : List Place) (closed : ∀ dir ∈ dirs, dir.tail ∈ dirs) : Tree where
  node place := if place ∈ dirs then some .dir else none
  rooted := by
    intro name dir present
    split_ifs at present with dirMem
    · exact if_pos (closed (name :: dir) dirMem)
    · cases present

def root : Part := ⟨str "live", by decide⟩
def unit : Place := [⟨str "000", by decide⟩, root]
def copy : Place := [⟨str "cpytst-001", by decide⟩, root]

/-- Nothing goes wrong. -/
def noFaults : Faults where
  copy _ _ _ := none
  within := by
    intro tree src dst left none
    cases none
  body := none

def accounts : PosixPath := .ofText (str "/common/accounts.json")

def entries : List (Str × Runtime.whole.Value) :=
  [(dnsOwnerAccountId, .obj [(dnsOwnerZoneId, .str (str "<REAL_Z_ID>"))])]

def common : Common Runtime.whole := fun file =>
  if file = accounts then some (.parsed (.obj entries)) else none

def row : SeedSpec Runtime.whole where
  jsonFile := accounts
  key := str "cpytst-111111111111"
  value := .str (str "cpytst")
  parentKey := none

/-- A unit, and no copy of it. -/
def before : Scope Runtime.whole :=
  ⟨directories [[], [root], unit] (by decide), common⟩

/-- A unit, and a directory that has the name of the copy. -/
def occupied : Scope Runtime.whole :=
  ⟨directories [[], [root], unit, copy] (by decide), common⟩

theorem entry (live : Tree) : OwnerEntry accounts (⟨live, common⟩ : Scope Runtime.whole).common
    entries [(dnsOwnerZoneId, .str (str "<REAL_Z_ID>"))] := by
  constructor
  · change (if accounts = accounts then some (Content.parsed (.obj entries)) else none) = _
    rw [if_pos rfl]
  · rfl

end Sample

/-- A unit is copied beside itself without a trace, though the second seed raises. -/
theorem noTrace_sample :
    NoTrace Sample.noFaults Sample.unit Sample.copy [Sample.row, Sample.row] Sample.accounts none
      Sample.before := by
  have clean : Sample.noFaults.Clean := by
    intro tree src dst left none
    cases none
  refine (copyAndSeedScope_trace clean ?_).2.2 (by decide +kernel)
  intro entries owner entry
  have sample := Sample.entry Sample.before.live
  cases sample.1.symm.trans entry.1
  cases sample.2.symm.trans entry.2
  exact ⟨_, rfl⟩

/-- A directory that stood at the destination is gone. -/
theorem not_noTrace_occupied : ¬NoTrace Sample.noFaults Sample.unit Sample.copy
    ([] : List (SeedSpec Runtime.whole)) Sample.accounts none Sample.occupied := by
  intro noTrace
  rw [NoTrace, Sample.occupied, copyAndSeedScope_snd (Sample.entry _) rfl] at noTrace
  have there := congrArg (fun s => s.live.node Sample.copy) noTrace
  revert there
  decide +kernel

end Copyability
