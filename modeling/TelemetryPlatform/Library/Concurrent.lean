import Mathlib.Algebra.GroupWithZero.Nat
import Mathlib.Logic.Function.Basic
import TelemetryPlatform.Library.Program
import TelemetryPlatform.Library.Transition

/-!
# Programs that run side by side

The processes of a system are programs that call one service. Between any two
calls of a process the other processes and the outside may act, so a fact about
the shared state is worth keeping only if they all respect it.

`Program.Safe` is the rely/guarantee condition for one process: whatever the
others do within `rely`, each call of the process stays within `own`, and the
way it ends satisfies a postcondition. Its rules follow the text of the program.
`safe_of_trace` puts the processes together: when what each of them does to the
shared state is within what the others rely on, every interleaving of them is
safe.
-/

namespace Interaction

open Transition

variable {σ ι Call : Type} {Reply : Call → Type} {Err Err' α β : Type}

/-- The shared state, and what each process still has to do. -/
structure Config (σ ι Call : Type) (Reply : Call → Type) (Err α : Type) where
  shared : σ
  process : ι → Program Call Reply Err α

/-- A process makes a call, or the outside acts. -/
inductive Act (ι Call : Type) (Reply : Call → Type) where
  | call (i : ι) (event : Event Call Reply)
  | outside

/-- The number of calls of a process that an action is. -/
def Act.callsOf [DecidableEq ι] (i : ι) : Act ι Call Reply → Nat
  | .call j _ => if j = i then 1 else 0
  | .outside => 0

/-- The calls a service answers, and what else may happen to its state. -/
structure Serving (σ Call : Type) (Reply : Call → Type) where
  serve : σ → Event Call Reply → σ → Prop
  outside : σ → σ → Prop

namespace Program

/-- The way a program has ended. -/
def outcome? : Program Call Reply Err α → Option (Except Err α)
  | .ret value => some (.ok value)
  | .raise error => some (.error error)
  | .call _ _ => none

/-- A program makes at most `n` calls. -/
def Within : Program Call Reply Err α → Nat → Prop
  | .ret _, _ => True
  | .raise _, _ => True
  | .call _ _, 0 => False
  | .call _ next, n + 1 => ∀ reply, (next reply).Within n

section Within

variable {n m : Nat}

theorem Within.mono {program : Program Call Reply Err α} (within : program.Within n)
    (le : n ≤ m) : program.Within m := by
  induction program generalizing n m with
  | ret value => trivial
  | raise error => trivial
  | call request next ih =>
      cases n with
      | zero => exact False.elim within
      | succ n =>
          cases m with
          | zero => exact absurd le (by omega)
          | succ m => exact fun reply => ih reply (within reply) (by omega)

theorem Within.bind {program : Program Call Reply Err α}
    {next : α → Program Call Reply Err β} (first : program.Within n)
    (second : ∀ value, (next value).Within m) : (program >>= next).Within (n + m) := by
  induction program generalizing n with
  | ret value => exact (second value).mono (Nat.le_add_left m n)
  | raise error => trivial
  | call request continue_ ih =>
      cases n with
      | zero => exact False.elim first
      | succ n =>
          rw [Nat.add_right_comm]
          exact fun reply => ih reply (first reply)

theorem Within.handle {program : Program Call Reply Err α}
    {handler : Err → Program Call Reply Err' α} (first : program.Within n)
    (second : ∀ error, (handler error).Within m) : (program.handle handler).Within (n + m) := by
  induction program generalizing n with
  | ret value => trivial
  | raise error => exact (second error).mono (Nat.le_add_left m n)
  | call request next ih =>
      cases n with
      | zero => exact False.elim first
      | succ n =>
          rw [Nat.add_right_comm]
          exact fun reply => ih reply (first reply)

end Within

/--
Whatever happens within `rely` between its calls, the program keeps each of them
within `own` and ends in a way and a state that satisfy `post`.
-/
def Safe (serve : σ → Event Call Reply → σ → Prop) (rely own : σ → σ → Prop)
    (post : Except Err α → σ → Prop) : Program Call Reply Err α → σ → Prop
  | .ret value, s => ∀ s', rely s s' → post (.ok value) s'
  | .raise error, s => ∀ s', rely s s' → post (.error error) s'
  | .call request next, s => ∀ s', rely s s' → ∀ reply s'', serve s' ⟨request, reply⟩ s'' →
      own s' s'' ∧ (next reply).Safe serve rely own post s''

section Safe

variable {serve : σ → Event Call Reply → σ → Prop} {rely own : σ → σ → Prop}
variable {post : Except Err α → σ → Prop} {program : Program Call Reply Err α} {s s' : σ}

/-- Safety survives what the others may do. -/
theorem Safe.stable (trans : ∀ {a b c}, rely a b → rely b c → rely a c)
    (safe : program.Safe serve rely own post s) (moved : rely s s') :
    program.Safe serve rely own post s' := by
  cases program with
  | ret value => exact fun later next => safe later (trans moved next)
  | raise error => exact fun later next => safe later (trans moved next)
  | call request next => exact fun later more => safe later (trans moved more)

theorem Safe.mono {post' : Except Err α → σ → Prop}
    (safe : program.Safe serve rely own post s)
    (weaker : ∀ outcome s', post outcome s' → post' outcome s') :
    program.Safe serve rely own post' s := by
  induction program generalizing s with
  | ret value => exact fun later moved => weaker _ _ (safe later moved)
  | raise error => exact fun later moved => weaker _ _ (safe later moved)
  | call request next ih =>
      intro later moved reply after served
      rcases safe later moved reply after served with ⟨kept, safe⟩
      exact ⟨kept, ih reply safe⟩

theorem Safe.bind {next : α → Program Call Reply Err β} {post' : Except Err β → σ → Prop}
    (refl : ∀ a, rely a a) (first : program.Safe serve rely own post s)
    (second : ∀ value s', post (.ok value) s' → (next value).Safe serve rely own post' s')
    (stopped : ∀ error s', post (.error error) s' → post' (.error error) s') :
    (program >>= next).Safe serve rely own post' s := by
  induction program generalizing s with
  | ret value => exact second value s (first s (refl s))
  | raise error => exact fun later moved => stopped error later (first later moved)
  | call request continue_ ih =>
      intro later moved reply after served
      rcases first later moved reply after served with ⟨kept, first⟩
      exact ⟨kept, ih reply first⟩

theorem Safe.handle {handler : Err → Program Call Reply Err' α}
    {post' : Except Err' α → σ → Prop} (refl : ∀ a, rely a a)
    (first : program.Safe serve rely own post s)
    (returned : ∀ value s', post (.ok value) s' → post' (.ok value) s')
    (second : ∀ error s', post (.error error) s' →
      (handler error).Safe serve rely own post' s') :
    (program.handle handler).Safe serve rely own post' s := by
  induction program generalizing s with
  | ret value => exact fun later moved => returned value later (first later moved)
  | raise error => exact second error s (first s (refl s))
  | call request next ih =>
      intro later moved reply after served
      rcases first later moved reply after served with ⟨kept, first⟩
      exact ⟨kept, ih reply first⟩

end Safe

end Program

namespace Serving

/--
The processes keep their calls within what the others rely on, and so does the
outside; what they rely on may happen any number of times.
-/
structure Respected (serving : Serving σ Call Reply) (rely own : ι → σ → σ → Prop) : Prop where
  refl : ∀ i s, rely i s s
  trans : ∀ {i a b c}, rely i a b → rely i b c → rely i a c
  others : ∀ {i j a b}, i ≠ j → own j a b → rely i a b
  calm : ∀ {i a b}, serving.outside a b → rely i a b

/-- Every process of a configuration is safe in its shared state. -/
def AllSafe (serving : Serving σ Call Reply) (rely own : ι → σ → σ → Prop)
    (post : ι → Except Err α → σ → Prop) (config : Config σ ι Call Reply Err α) : Prop :=
  ∀ i, (config.process i).Safe serving.serve (rely i) (own i) (post i) config.shared

variable {serving : Serving σ Call Reply} {rely own : ι → σ → σ → Prop}
variable {post : ι → Except Err α → σ → Prop}

/-- A process that has ended satisfies its postcondition in the state reached. -/
theorem AllSafe.post_of_outcome {config : Config σ ι Call Reply Err α}
    (safe : serving.AllSafe rely own post config) (respected : serving.Respected rely own) {i : ι}
    {outcome : Except Err α} (ended : (config.process i).outcome? = some outcome) :
    post i outcome config.shared := by
  have mine := safe i
  cases waiting : config.process i with
  | ret value =>
      rw [waiting] at ended mine
      cases ended
      exact mine _ (respected.refl i _)
  | raise error =>
      rw [waiting] at ended mine
      cases ended
      exact mine _ (respected.refl i _)
  | call request next =>
      rw [waiting] at ended
      cases ended

section Steps

variable [DecidableEq ι] (serving)

/-- One action of the system. -/
inductive Step : Config σ ι Call Reply Err α → Act ι Call Reply →
    Config σ ι Call Reply Err α → Prop where
  | call {before : Config σ ι Call Reply Err α} {i : ι} {event : Event Call Reply}
      {next : Reply event.request → Program Call Reply Err α} {after : σ}
      (waits : before.process i = .call event.request next)
      (served : serving.serve before.shared event after) :
      Step before (.call i event)
        ⟨after, Function.update before.process i (next event.reply)⟩
  | outside {before : Config σ ι Call Reply Err α} {after : σ}
      (acted : serving.outside before.shared after) :
      Step before .outside ⟨after, before.process⟩

variable {serving} {before after : Config σ ι Call Reply Err α} {act : Act ι Call Reply}

/-- An action of one process is safe for that process, and within what the others rely on. -/
theorem Step.allSafe (stepped : serving.Step before act after)
    (respected : serving.Respected rely own) (safe : serving.AllSafe rely own post before) :
    serving.AllSafe rely own post after := by
  intro i
  cases stepped with
  | @call j event next shared waits served =>
      have caller := safe j
      rw [waits] at caller
      rcases caller before.shared (respected.refl j _) event.reply shared served with
        ⟨kept, caller⟩
      by_cases same : i = j
      · subst same
        simpa only [Function.update_self] using caller
      · have unmoved : Function.update before.process j (next event.reply) i =
            before.process i := Function.update_of_ne same _ _
        simp only [unmoved]
        exact (safe i).stable respected.trans (respected.others same kept)
  | outside acted => exact (safe i).stable respected.trans (respected.calm acted)

/-- What the processes and the outside may do, an action does. -/
theorem Step.moved {moved : σ → σ → Prop} (stepped : serving.Step before act after)
    (respected : serving.Respected rely own) (safe : serving.AllSafe rely own post before)
    (ownMoves : ∀ {i a b}, own i a b → moved a b)
    (outsideMoves : ∀ {a b}, serving.outside a b → moved a b) :
    moved before.shared after.shared := by
  cases stepped with
  | @call j event next shared waits served =>
      have caller := safe j
      rw [waits] at caller
      exact ownMoves (caller before.shared (respected.refl j _) event.reply shared served).1
  | outside acted => exact outsideMoves acted

theorem Step.within {i : ι} {n : Nat} (stepped : serving.Step before act after)
    (within : (before.process i).Within n) :
    act.callsOf i ≤ n ∧ (after.process i).Within (n - act.callsOf i) := by
  cases stepped with
  | @call j event next shared waits served =>
      by_cases same : j = i
      · subst same
        rw [waits] at within
        cases n with
        | zero => exact False.elim within
        | succ n =>
            simp only [Act.callsOf, if_pos, Function.update_self, Nat.add_sub_cancel]
            exact ⟨by omega, within event.reply⟩
      · have unmoved : Function.update before.process j (next event.reply) i =
            before.process i := Function.update_of_ne (Ne.symm same) _ _
        simp only [Act.callsOf, if_neg same, unmoved]
        exact ⟨Nat.zero_le n, within⟩
  | outside acted => exact ⟨Nat.zero_le n, within⟩

end Steps

section Traces

variable [DecidableEq ι] {start : Config σ ι Call Reply Err α}
variable {steps : List (Transition.Step (Config σ ι Call Reply Err α) (Act ι Call Reply))}

/-- Processes that respect each other are safe in every interleaving. -/
theorem safe_of_trace (respected : serving.Respected rely own)
    (trace : Trace serving.Step start steps) (initially : serving.AllSafe rely own post start) :
    serving.AllSafe rely own post (finish start steps) := by
  induction steps generalizing start with
  | nil => exact initially
  | cons step rest ih =>
      rcases trace with ⟨rfl, stepped, trace⟩
      exact ih trace (stepped.allSafe respected initially)

/-- What every action relates, the two ends of an interleaving are related by. -/
theorem shared_of_trace {moved : σ → σ → Prop} (respected : serving.Respected rely own)
    (refl : ∀ a, moved a a) (trans : ∀ {a b c}, moved a b → moved b c → moved a c)
    (ownMoves : ∀ {i a b}, own i a b → moved a b)
    (outsideMoves : ∀ {a b}, serving.outside a b → moved a b)
    (trace : Trace serving.Step start steps) (initially : serving.AllSafe rely own post start) :
    moved start.shared (finish start steps).shared := by
  induction steps generalizing start with
  | nil => exact refl _
  | cons step rest ih =>
      rcases trace with ⟨rfl, stepped, trace⟩
      have later := ih trace (stepped.allSafe respected initially)
      exact trans (stepped.moved respected initially ownMoves outsideMoves) later

/-- The number of calls a process makes. -/
def callsOf (i : ι)
    (steps : List (Transition.Step (Config σ ι Call Reply Err α) (Act ι Call Reply))) : Nat :=
  (steps.map fun step => step.label.callsOf i).sum

theorem within_of_trace {i : ι} {n : Nat} (trace : Trace serving.Step start steps)
    (within : (start.process i).Within n) :
    ((finish start steps).process i).Within (n - callsOf i steps) := by
  induction steps generalizing start n with
  | nil => exact within
  | cons step rest ih =>
      rcases trace with ⟨rfl, stepped, trace⟩
      have left := ih trace (stepped.within within).2
      rwa [Nat.sub_sub] at left

/-- A process that makes at most `n` calls has ended once it has made `n` of them. -/
theorem ended_of_callsOf {i : ι} {n : Nat} (trace : Trace serving.Step start steps)
    (within : (start.process i).Within n) (made : n ≤ callsOf i steps) :
    ∃ outcome, ((finish start steps).process i).outcome? = some outcome := by
  have left := within_of_trace trace within
  rw [Nat.sub_eq_zero_of_le made] at left
  cases waiting : (finish start steps).process i with
  | ret value => exact ⟨_, rfl⟩
  | raise error => exact ⟨_, rfl⟩
  | call request next =>
      rw [waiting] at left
      exact False.elim left

end Traces

end Serving

section Schedules

variable [DecidableEq ι] (answer : σ → (request : Call) → Reply request × σ)

/-- The next call of a process, answered. -/
def Config.next? (config : Config σ ι Call Reply Err α) (i : ι) :
    Option (Transition.Step (Config σ ι Call Reply Err α) (Act ι Call Reply)) :=
  match config.process i with
  | .call request next =>
      some ⟨config, .call i ⟨request, (answer config.shared request).1⟩,
        ⟨(answer config.shared request).2,
          Function.update config.process i (next (answer config.shared request).1)⟩⟩
  | .ret _ => none
  | .raise _ => none

/-- The interleaving in which the processes make their calls in the order of a schedule. -/
def Config.play : Config σ ι Call Reply Err α → List ι →
    List (Transition.Step (Config σ ι Call Reply Err α) (Act ι Call Reply))
  | _, [] => []
  | config, i :: rest =>
      match config.next? answer i with
      | some step => step :: play step.after rest
      | none => play config rest

variable {answer}

theorem trace_play {serving : Serving σ Call Reply}
    (serves : ∀ s request,
      serving.serve s ⟨request, (answer s request).1⟩ (answer s request).2)
    (config : Config σ ι Call Reply Err α) (schedule : List ι) :
    Trace serving.Step config (config.play answer schedule) := by
  induction schedule generalizing config with
  | nil => trivial
  | cons i rest ih =>
      unfold Config.play Config.next?
      cases waits : config.process i with
      | ret value => exact ih config
      | raise error => exact ih config
      | call request next => exact ⟨rfl, .call waits (serves config.shared request), ih _⟩

end Schedules

end Interaction
