import TelemetryPlatform.Library.Program

/-!
# Programs under watch

An observer of a program updates what it has seen at every request and reply.
`Program.Watched` says that whatever the replies are, the way the program ends and what
the observer has seen by then satisfy a postcondition. Its rules follow the text of the program,
and `watched_iff` says that it is a statement about all runs.
-/

namespace Interaction

variable {σ Call : Type} {Reply : Call → Type} {Err Err' α β : Type}

namespace Program

/-- Whatever the replies, the program ends in a way and with things seen that satisfy `post`. -/
def Watched (watch : σ → Event Call Reply → σ) (post : Except Err α → σ → Prop) :
    Program Call Reply Err α → σ → Prop
  | .ret value, seen => post (.ok value) seen
  | .raise error, seen => post (.error error) seen
  | .call request next, seen =>
      ∀ reply, (next reply).Watched watch post (watch seen ⟨request, reply⟩)

variable {watch : σ → Event Call Reply → σ} {post : Except Err α → σ → Prop}
  {program : Program Call Reply Err α} {seen : σ}

theorem Watched.mono {post' : Except Err α → σ → Prop} (watched : program.Watched watch post seen)
    (weaker : ∀ outcome seen', post outcome seen' → post' outcome seen') :
    program.Watched watch post' seen := by
  induction program generalizing seen with
  | ret value => exact weaker _ _ watched
  | raise error => exact weaker _ _ watched
  | call request next ih => exact fun reply => ih reply (watched reply)

theorem Watched.bind {next : α → Program Call Reply Err β} {post' : Except Err β → σ → Prop}
    (first : program.Watched watch post seen)
    (second : ∀ value seen', post (.ok value) seen' → (next value).Watched watch post' seen')
    (stopped : ∀ error seen', post (.error error) seen' → post' (.error error) seen') :
    (program >>= next).Watched watch post' seen := by
  induction program generalizing seen with
  | ret value => exact second value seen first
  | raise error => exact stopped error seen first
  | call request continue_ ih => exact fun reply => ih reply (first reply)

theorem Watched.handle {handler : Err → Program Call Reply Err' α}
    {post' : Except Err' α → σ → Prop} (first : program.Watched watch post seen)
    (returned : ∀ value seen', post (.ok value) seen' → post' (.ok value) seen')
    (second : ∀ error seen', post (.error error) seen' →
      (handler error).Watched watch post' seen') :
    (program.handle handler).Watched watch post' seen := by
  induction program generalizing seen with
  | ret value => exact returned value seen first
  | raise error => exact second error seen first
  | call request next ih => exact fun reply => ih reply (first reply)

/-- The observer does not mind some of the requests. -/
theorem IssuesOnly.watched {allowed : Call → Prop} (issues : program.IssuesOnly allowed)
    (unseen : ∀ (seen : σ) (event : Event Call Reply), allowed event.request →
      watch seen event = seen) (seen : σ) :
    program.Watched watch (fun _ seen' => seen' = seen) seen := by
  induction program with
  | ret value => rfl
  | raise error => rfl
  | call request next ih =>
      rcases issuesOnly_call.mp issues with ⟨isAllowed, rest⟩
      intro reply
      rw [unseen seen ⟨request, reply⟩ isAllowed]
      exact ih reply (rest reply)

/-- What the observer sees of a run. -/
theorem watched_iff : program.Watched watch post seen ↔
    ∀ log outcome, program.Runs log outcome → post outcome (log.foldl watch seen) := by
  induction program generalizing seen with
  | ret value =>
      constructor
      · rintro watched log outcome ⟨rfl, rfl⟩
        exact watched
      · intro holds
        exact holds [] _ ⟨rfl, rfl⟩
  | raise error =>
      constructor
      · rintro watched log outcome ⟨rfl, rfl⟩
        exact watched
      · intro holds
        exact holds [] _ ⟨rfl, rfl⟩
  | call request next ih =>
      constructor
      · rintro watched log outcome ⟨reply, rest, rfl, ran⟩
        exact (ih reply).mp (watched reply) rest outcome ran
      · intro holds reply
        apply (ih reply).mpr
        intro rest outcome ran
        exact holds (⟨request, reply⟩ :: rest) outcome ⟨reply, rest, rfl, ran⟩

/-- A program that can still end. -/
theorem Watched.exists_post [∀ request, Nonempty (Reply request)]
    (watched : program.Watched watch post seen) :
    ∃ (outcome : Except Err α) (log : List (Event Call Reply)),
      post outcome (log.foldl watch seen) := by
  induction program generalizing seen with
  | ret value => exact ⟨.ok value, [], watched⟩
  | raise error => exact ⟨.error error, [], watched⟩
  | call request next ih =>
      obtain ⟨reply⟩ : Nonempty (Reply request) := inferInstance
      rcases ih reply (watched reply) with ⟨outcome, log, holds⟩
      exact ⟨outcome, ⟨request, reply⟩ :: log, holds⟩

end Program

end Interaction
