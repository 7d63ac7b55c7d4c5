import Mathlib.Data.List.Basic

/-!
# Rollback

A loop that takes steps and records each step it has completed, and a second loop that
undoes what is recorded, the last step first. A step may fail and then has no record,
and an undo that fails ends the second loop.

A run is `Undoable` when each step that completes is undone by its undo and a step that
fails changes nothing. Between the two loops something else may be put right, as long
as the undos do not depend on it.
-/

namespace Rollback

variable {ι σ ε : Type}

/-- The loop that takes steps; `done` are the steps that are recorded. -/
def perform (step : ι → σ → Except ε Unit × σ) : List ι → List ι → σ →
    Except ε Unit × σ × List ι
  | [], done, s => (.ok (), s, done)
  | item :: rest, done, s =>
      match step item s with
      | (.ok _, s') => perform step rest (done ++ [item]) s'
      | (.error error, s') => (.error error, s', done)

/-- The loop that undoes steps. -/
def rollback (undo : ι → σ → Except ε Unit × σ) : List ι → σ → Except ε Unit × σ
  | [], s => (.ok (), s)
  | item :: rest, s =>
      match undo item s with
      | (.ok _, s') => rollback undo rest s'
      | (.error error, s') => (.error error, s')

variable {step undo : ι → σ → Except ε Unit × σ} {amend : σ → σ} {s : σ}

/-- Each step that completes can be undone once its state is amended, and a step that fails
changes nothing. -/
def Undoable (step undo : ι → σ → Except ε Unit × σ) (amend : σ → σ) : List ι → σ → Prop
  | [], _ => True
  | item :: rest, s =>
      match step item s with
      | (.ok _, s') => undo item (amend s') = (.ok (), amend s) ∧ Undoable step undo amend rest s'
      | (.error _, s') => s' = s

theorem rollback_append_ok {first second : List ι} {s' : σ}
    (undone : rollback undo first s = (.ok (), s')) :
    rollback undo (first ++ second) s = rollback undo second s' := by
  induction first generalizing s with
  | nil =>
      cases undone
      rfl
  | cons item rest ih =>
      rw [rollback] at undone
      rw [List.cons_append, rollback]
      cases undoing : undo item s with
      | mk outcome between =>
          rw [undoing] at undone
          cases outcome with
          | error error => cases undone
          | ok _ => exact ih undone

/-- What is recorded before goes in front. -/
theorem perform_done (items done : List ι) (s : σ) :
    perform step items done s = ((perform step items [] s).1, (perform step items [] s).2.1,
      done ++ (perform step items [] s).2.2) := by
  induction items generalizing s done with
  | nil => simp [perform]
  | cons item rest ih =>
      rw [perform, perform]
      cases taken : step item s with
      | mk outcome s' =>
          cases outcome with
          | error error => simp
          | ok _ =>
              dsimp only
              rw [ih (done ++ [item]), ih ([] ++ [item])]
              simp

theorem perform_cons_ok {item : ι} {s' : σ} (rest : List ι) (taken : step item s = (.ok (), s')) :
    perform step (item :: rest) [] s = ((perform step rest [] s').1,
      (perform step rest [] s').2.1, item :: (perform step rest [] s').2.2) := by
  rw [perform, taken]
  exact perform_done rest [item] s'

theorem perform_cons_error {item : ι} {s' : σ} {error : ε} (rest : List ι)
    (taken : step item s = (.error error, s')) :
    perform step (item :: rest) [] s = (.error error, s', []) := by
  rw [perform, taken]

/-- What an undoable run has recorded is undone. -/
theorem rollback_perform {items : List ι} (undoable : Undoable step undo amend items s) :
    rollback undo (perform step items [] s).2.2.reverse (amend (perform step items [] s).2.1) =
      (.ok (), amend s) := by
  induction items generalizing s with
  | nil => rfl
  | cons item rest ih =>
      rw [Undoable] at undoable
      cases taken : step item s with
      | mk outcome s' =>
          rw [taken] at undoable
          cases outcome with
          | error error =>
              rw [perform_cons_error rest taken]
              dsimp only at undoable ⊢
              rw [undoable]
              rfl
          | ok _ =>
              rw [perform_cons_ok rest taken]
              dsimp only
              rw [List.reverse_cons, rollback_append_ok (ih undoable.2), rollback, undoable.1]
              rfl

end Rollback
