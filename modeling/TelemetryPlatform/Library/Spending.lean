import Mathlib.Algebra.GroupWithZero.Nat
import Mathlib.Algebra.BigOperators.Group.Finset.Piecewise
import Mathlib.Algebra.Order.BigOperators.Group.Finset
import TelemetryPlatform.Library.Concurrent
import TelemetryPlatform.Library.Watching

/-!
# What programs spend

Each call that a service answers has a cost. `Program.Spends` bounds what a program
has spent by the way it ends, whatever the replies are, and follows the text of the
program. When the cost of an action is how far it raises a level of the shared state,
the level that an interleaving reaches is bounded by what its processes spend
(`level_le_of_trace`).
-/

namespace Interaction

open Transition

variable {σ ι Call : Type} {Reply : Call → Type} {Err Err' α β : Type}

namespace Program

/-- What has been spent after an event. -/
def spend (cost : Event Call Reply → Nat) (spent : Nat) (event : Event Call Reply) : Nat :=
  spent + cost event

/-- Whatever the replies, the program ends in a way and at a total cost that satisfy `post`. -/
abbrev Spends (cost : Event Call Reply → Nat) (post : Except Err α → Nat → Prop)
    (program : Program Call Reply Err α) (spent : Nat) : Prop :=
  program.Watched (spend cost) post spent

section Rules

variable {cost : Event Call Reply → Nat} {post : Except Err α → Nat → Prop}
  {program : Program Call Reply Err α} {spent : Nat}

/-- Calls that cost nothing. -/
theorem IssuesOnly.spends {allowed : Call → Prop} (issues : program.IssuesOnly allowed)
    (free : ∀ event : Event Call Reply, allowed event.request → cost event = 0) (spent : Nat) :
    program.Spends cost (fun _ total => total = spent) spent := by
  apply issues.watched
  intro spent event isAllowed
  rw [spend, free event isAllowed, Nat.add_zero]

/-- A program that can still end has spent no more than it will have in the end. -/
theorem Spends.le [∀ request, Nonempty (Reply request)] {bound : Nat}
    (spends : program.Spends cost post spent)
    (bounded : ∀ outcome total, post outcome total → total ≤ bound) : spent ≤ bound := by
  rcases Watched.exists_post spends with ⟨outcome, log, holds⟩
  have grows (log : List (Event Call Reply)) (total : Nat) :
      total ≤ log.foldl (spend cost) total := by
    induction log generalizing total with
    | nil => exact le_rfl
    | cons event log ih => exact (Nat.le_add_right total (cost event)).trans (ih _)
  exact (grows log spent).trans (bounded outcome _ holds)

theorem Spends.post_of_outcome {outcome : Except Err α} (spends : program.Spends cost post spent)
    (ended : program.outcome? = some outcome) : post outcome spent := by
  cases program with
  | ret value =>
      cases ended
      exact spends
  | raise error =>
      cases ended
      exact spends
  | call request next => cases ended

end Rules

end Program

section Costs

variable (cost : Event Call Reply → Nat)

/-- What an action costs. -/
def Act.total : Act ι Call Reply → Nat
  | .call _ event => cost event
  | .outside => 0

/-- What an action costs a process. -/
def Act.costOf [DecidableEq ι] (i : ι) : Act ι Call Reply → Nat
  | .call j event => if j = i then cost event else 0
  | .outside => 0

/-- Whether an action is one of the outside, as a number. -/
def Act.outsides : Act ι Call Reply → Nat
  | .call _ _ => 0
  | .outside => 1

theorem Act.sum_costOf [DecidableEq ι] [Fintype ι] (act : Act ι Call Reply) :
    ∑ i, act.costOf cost i = act.total cost := by
  cases act with
  | call j event =>
      simp only [costOf, total]
      exact Fintype.sum_ite_eq j fun _ => cost event
  | outside =>
      simp only [costOf, total]
      exact Finset.sum_const_zero

end Costs

namespace Serving

variable [DecidableEq ι] {serving : Serving σ Call Reply} {cost : Event Call Reply → Nat}

section Steps

variable {before after : Config σ ι Call Reply Err α} {act : Act ι Call Reply}
  {post : Except Err α → Nat → Prop}

theorem Step.spends {i : ι} {spent : Nat} (stepped : serving.Step before act after)
    (spends : (before.process i).Spends cost post spent) :
    (after.process i).Spends cost post (spent + act.costOf cost i) := by
  cases stepped with
  | @call j event next shared waits served =>
      by_cases same : j = i
      · subst same
        rw [waits] at spends
        simp only [Act.costOf, if_pos, Function.update_self]
        exact spends event.reply
      · have unmoved : Function.update before.process j (next event.reply) i =
            before.process i := Function.update_of_ne (Ne.symm same) _ _
        simp only [Act.costOf, if_neg same, unmoved]
        exact spends
  | outside acted => exact spends

/-- An action raises a level by what it costs. -/
theorem Step.level_le {level : σ → Nat} {extra : Nat} (stepped : serving.Step before act after)
    (own : ∀ {s event s'}, serving.serve s event s' → level s' ≤ level s + cost event)
    (others : ∀ {s s'}, serving.outside s s' → level s' ≤ level s + extra) :
    level after.shared ≤ level before.shared + act.total cost + extra * act.outsides := by
  cases stepped with
  | call waits served =>
      have raised := own served
      simp only [Act.total, Act.outsides]
      omega
  | outside acted =>
      have raised := others acted
      simp only [Act.total, Act.outsides]
      omega

end Steps

section Traces

variable {start : Config σ ι Call Reply Err α}
variable {steps : List (Transition.Step (Config σ ι Call Reply Err α) (Act ι Call Reply))}

variable (cost) in
/-- What a process spends. -/
def costOf (i : ι)
    (steps : List (Transition.Step (Config σ ι Call Reply Err α) (Act ι Call Reply))) : Nat :=
  (steps.map fun step => step.label.costOf cost i).sum

/-- How often the outside acts. -/
def outsides
    (steps : List (Transition.Step (Config σ ι Call Reply Err α) (Act ι Call Reply))) : Nat :=
  (steps.map fun step => step.label.outsides).sum

theorem spends_of_trace {post : Except Err α → Nat → Prop} {i : ι} {spent : Nat}
    (trace : Trace serving.Step start steps)
    (spends : (start.process i).Spends cost post spent) :
    ((finish start steps).process i).Spends cost post (spent + costOf cost i steps) := by
  induction steps generalizing start spent with
  | nil => exact spends
  | cons step rest ih =>
      rcases trace with ⟨rfl, stepped, trace⟩
      have later := ih trace (stepped.spends spends)
      rwa [Nat.add_assoc] at later

/-- What a process has spent when it has ended. -/
theorem post_costOf_of_trace {post : Except Err α → Nat → Prop} {i : ι} {outcome : Except Err α}
    (trace : Trace serving.Step start steps) (spends : (start.process i).Spends cost post 0)
    (ended : ((finish start steps).process i).outcome? = some outcome) :
    post outcome (costOf cost i steps) := by
  have total := (spends_of_trace trace spends).post_of_outcome ended
  rwa [Nat.zero_add] at total

theorem costOf_le_of_trace [∀ request, Nonempty (Reply request)]
    {post : Except Err α → Nat → Prop} {i : ι} {bound : Nat}
    (trace : Trace serving.Step start steps) (spends : (start.process i).Spends cost post 0)
    (bounded : ∀ outcome total, post outcome total → total ≤ bound) :
    costOf cost i steps ≤ bound := by
  have total := (spends_of_trace trace spends).le bounded
  rwa [Nat.zero_add] at total

/-- The level that an interleaving reaches. -/
theorem level_le_of_trace [Fintype ι] (level : σ → Nat) {extra : Nat}
    (trace : Trace serving.Step start steps)
    (own : ∀ {s event s'}, serving.serve s event s' → level s' ≤ level s + cost event)
    (others : ∀ {s s'}, serving.outside s s' → level s' ≤ level s + extra) :
    level (finish start steps).shared ≤
      level start.shared + ∑ i, costOf cost i steps + extra * outsides steps := by
  induction steps generalizing start with
  | nil => exact (Nat.le_add_right _ _).trans (Nat.le_add_right _ _)
  | cons step rest ih =>
      rcases trace with ⟨rfl, stepped, trace⟩
      have later := ih trace
      have now := stepped.level_le own others
      have spent : ∑ i, costOf cost i (step :: rest) =
          step.label.total cost + ∑ i, costOf cost i rest := by
        rw [← Act.sum_costOf cost step.label, ← Finset.sum_add_distrib]
        rfl
      have acted : extra * outsides (step :: rest) =
          extra * step.label.outsides + extra * outsides rest := Nat.mul_add _ _ _
      rw [spent, acted]
      change level (finish step.after rest).shared ≤ _
      omega

/-- All processes but one spend so much at most. -/
theorem sum_costOf_le [Fintype ι] {i : ι} (unspent : costOf cost i steps = 0)
    (each : ∀ j, costOf cost j steps ≤ 1) : ∑ j, costOf cost j steps + 1 ≤ Fintype.card ι := by
  rw [← Finset.add_sum_erase Finset.univ _ (Finset.mem_univ i), unspent, Nat.zero_add]
  have others := Finset.sum_le_card_nsmul (Finset.univ.erase i) (fun j => costOf cost j steps) 1
    fun j _ => each j
  rw [Finset.card_erase_of_mem (Finset.mem_univ i), Finset.card_univ, Nat.nsmul_eq_mul,
    Nat.mul_one] at others
  have some : 0 < Fintype.card ι := Fintype.card_pos_iff.mpr ⟨i⟩
  omega

end Traces

end Serving

/-- The outside does not act when the processes are played by a schedule. -/
theorem outsides_play [DecidableEq ι] {answer : σ → (request : Call) → Reply request × σ}
    (config : Config σ ι Call Reply Err α) (schedule : List ι) :
    Serving.outsides (config.play answer schedule) = 0 := by
  induction schedule generalizing config with
  | nil => rfl
  | cons i rest ih =>
      unfold Config.play Config.next?
      cases config.process i with
      | ret value => exact ih config
      | raise error => exact ih config
      | call request next =>
          have rest := ih ⟨(answer config.shared request).2,
            Function.update config.process i (next (answer config.shared request).1)⟩
          simp only [Serving.outsides, List.map_cons, List.sum_cons, Act.outsides, Nat.zero_add]
          exact rest

end Interaction
