import Mathlib.Data.List.Basic

/-!
# Labelled transitions

A relation `rel before label after` generates paths, which remember only their
labels, and traces, which remember every state they pass through. Paths are the
view of a component that reacts to requests; traces are the view of a system
whose states a property is about. The invariant rules carry a fact about single
transitions to whole paths and traces.
-/

namespace Transition

variable {σ ℓ : Type*}

/-- The labels of a sequence of transitions from one state to another. -/
def Path (rel : σ → ℓ → σ → Prop) : σ → List ℓ → σ → Prop
  | before, [], after => after = before
  | before, label :: rest, after => ∃ middle, rel before label middle ∧ Path rel middle rest after

section Paths

variable {rel : σ → ℓ → σ → Prop} {before after : σ}

@[simp]
theorem path_nil : Path rel before [] after ↔ after = before := Iff.rfl

@[simp]
theorem path_cons {label : ℓ} {rest : List ℓ} :
    Path rel before (label :: rest) after ↔
      ∃ middle, rel before label middle ∧ Path rel middle rest after := Iff.rfl

theorem path_append {first second : List ℓ} :
    Path rel before (first ++ second) after ↔
      ∃ middle, Path rel before first middle ∧ Path rel middle second after := by
  induction first generalizing before with
  | nil => simp
  | cons label rest ih =>
      simp only [List.cons_append, path_cons, ih]
      constructor
      · rintro ⟨next, stepped, middle, ran, tail⟩
        exact ⟨middle, ⟨next, stepped, ran⟩, tail⟩
      · rintro ⟨middle, ⟨next, stepped, ran⟩, tail⟩
        exact ⟨next, stepped, middle, ran, tail⟩

/-- What every transition with an allowed label preserves, a path of them preserves. -/
theorem Path.invariant (inv : σ → Prop) (allowed : ℓ → Prop)
    (keeps : ∀ {s label s'}, allowed label → inv s → rel s label s' → inv s')
    {labels : List ℓ} (allAllowed : ∀ label ∈ labels, allowed label)
    (ran : Path rel before labels after) (initially : inv before) : inv after := by
  induction labels generalizing before with
  | nil =>
      rw [path_nil] at ran
      rw [ran]
      exact initially
  | cons label rest ih =>
      rcases ran with ⟨middle, stepped, ran⟩
      apply ih (fun other otherMem => allAllowed other (List.mem_cons_of_mem _ otherMem)) ran
      exact keeps (allAllowed label List.mem_cons_self) initially stepped

end Paths

/-- One transition of a trace. -/
structure Step (σ ℓ : Type*) where
  before : σ
  label : ℓ
  after : σ

/-- A sequence of transitions that starts in a given state. -/
def Trace (rel : σ → ℓ → σ → Prop) : σ → List (Step σ ℓ) → Prop
  | _, [] => True
  | start, step :: rest =>
      step.before = start ∧ rel step.before step.label step.after ∧ Trace rel step.after rest

section Traces

variable {rel : σ → ℓ → σ → Prop} {start : σ} {steps : List (Step σ ℓ)}

theorem Trace.rel_of_mem (trace : Trace rel start steps) {step : Step σ ℓ}
    (stepMem : step ∈ steps) : rel step.before step.label step.after := by
  induction steps generalizing start with
  | nil => exact absurd stepMem List.not_mem_nil
  | cons head rest ih =>
      rcases trace with ⟨_, stepped, trace⟩
      rcases List.mem_cons.mp stepMem with rfl | stepMem
      · exact stepped
      · exact ih trace stepMem

/-- The state in which a sequence of steps from `start` ends. -/
def finish : σ → List (Step σ ℓ) → σ
  | start, [] => start
  | _, step :: rest => finish step.after rest

theorem trace_append {first second : List (Step σ ℓ)} :
    Trace rel start (first ++ second) ↔
      Trace rel start first ∧ Trace rel (finish start first) second := by
  induction first generalizing start with
  | nil => simp [Trace, finish]
  | cons step rest ih => simp [Trace, finish, ih, and_assoc]

theorem finish_append {first second : List (Step σ ℓ)} :
    finish start (first ++ second) = finish (finish start first) second := by
  induction first generalizing start with
  | nil => rfl
  | cons step rest ih => exact ih

theorem exists_last_step (start : σ) {steps : List (Step σ ℓ)} (nonempty : steps ≠ []) :
    ∃ step ∈ steps, step.after = finish start steps := by
  induction steps generalizing start with
  | nil => exact absurd rfl nonempty
  | cons step rest ih =>
      by_cases alone : rest = []
      · subst alone
        exact ⟨step, List.mem_cons_self, rfl⟩
      · rcases ih step.after alone with ⟨last, lastMem, after_eq⟩
        exact ⟨last, List.mem_cons_of_mem _ lastMem, after_eq⟩

/--
An invariant of the steps that meet a condition holds before and after every
step of a trace all of whose steps meet it.
-/
theorem Trace.invariant (inv : σ → Prop) {allowed : Step σ ℓ → Prop}
    (keeps : ∀ step : Step σ ℓ, allowed step → inv step.before →
      rel step.before step.label step.after → inv step.after)
    (initially : inv start) (trace : Trace rel start steps)
    (allAllowed : ∀ step ∈ steps, allowed step) :
    ∀ step ∈ steps, inv step.before ∧ inv step.after := by
  induction steps generalizing start with
  | nil => simp
  | cons head rest ih =>
      rcases trace with ⟨rfl, stepped, trace⟩
      have headAfter : inv head.after :=
        keeps head (allAllowed head List.mem_cons_self) initially stepped
      intro step stepMem
      rcases List.mem_cons.mp stepMem with rfl | stepMem
      · exact ⟨initially, headAfter⟩
      · exact ih headAfter trace
          (fun other otherMem => allAllowed other (List.mem_cons_of_mem _ otherMem)) step stepMem

end Traces

end Transition
