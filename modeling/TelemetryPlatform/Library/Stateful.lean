import TelemetryPlatform.Library.Program

/-!
# Programs alone with a service

A service has a state, and answers every request with a reply and a new state. When
nobody else uses it, a program that is run against it ends in one way and leaves one
state behind. `Program.serve` computes both, and its rules follow the text of the
program.
-/

namespace Interaction

namespace Program

variable {σ Call : Type} {Reply : Call → Type} {Err Err' α β : Type}

/-- The outcome of a program that is alone with a service, and the state it leaves. -/
def serve (answer : σ → (request : Call) → Reply request × σ) :
    Program Call Reply Err α → σ → Except Err α × σ
  | .ret value, s => (.ok value, s)
  | .raise error, s => (.error error, s)
  | .call request next, s =>
      (next (answer s request).1).serve answer (answer s request).2

variable {answer : σ → (request : Call) → Reply request × σ} {s : σ}

@[simp]
theorem serve_ret (value : α) :
    (ret value : Program Call Reply Err α).serve answer s = (.ok value, s) := rfl

@[simp]
theorem serve_raise (error : Err) :
    (raise error : Program Call Reply Err α).serve answer s = (.error error, s) := rfl

@[simp]
theorem serve_call (request : Call) (next : Reply request → Program Call Reply Err α) :
    (call request next).serve answer s =
      (next (answer s request).1).serve answer (answer s request).2 := rfl

/-- What follows a program that returns is run in the state it leaves. -/
theorem serve_bind_ok {program : Program Call Reply Err α} {next : α → Program Call Reply Err β}
    {value : α} {s' : σ} (returned : program.serve answer s = (.ok value, s')) :
    (program >>= next).serve answer s = (next value).serve answer s' := by
  induction program generalizing s with
  | ret own =>
      cases returned
      rfl
  | raise error => cases returned
  | call request continue_ ih => exact ih (answer s request).1 returned

/-- Nothing follows a program that raises. -/
theorem serve_bind_error {program : Program Call Reply Err α}
    {next : α → Program Call Reply Err β} {error : Err} {s' : σ}
    (raised : program.serve answer s = (.error error, s')) :
    (program >>= next).serve answer s = (.error error, s') := by
  induction program generalizing s with
  | ret own => cases raised
  | raise own =>
      cases raised
      rfl
  | call request continue_ ih => exact ih (answer s request).1 raised

theorem serve_handle_ok {program : Program Call Reply Err α}
    {handler : Err → Program Call Reply Err' α} {value : α} {s' : σ}
    (returned : program.serve answer s = (.ok value, s')) :
    (program.handle handler).serve answer s = (.ok value, s') := by
  induction program generalizing s with
  | ret own =>
      cases returned
      rfl
  | raise error => cases returned
  | call request continue_ ih => exact ih (answer s request).1 returned

theorem serve_handle_error {program : Program Call Reply Err α}
    {handler : Err → Program Call Reply Err' α} {error : Err} {s' : σ}
    (raised : program.serve answer s = (.error error, s')) :
    (program.handle handler).serve answer s = (handler error).serve answer s' := by
  induction program generalizing s with
  | ret own => cases raised
  | raise own =>
      cases raised
      rfl
  | call request continue_ ih => exact ih (answer s request).1 raised

@[simp]
theorem serve_ofExcept (result : Except Err α) :
    (ofExcept result : Program Call Reply Err α).serve answer s = (result, s) := by
  cases result <;> rfl

end Program

end Interaction
