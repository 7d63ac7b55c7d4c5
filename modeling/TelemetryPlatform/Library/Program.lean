import Mathlib.Data.List.Basic

/-!
# Programs that talk to an environment

A `Program` is a computation that returns a value, raises an error, or issues a
request and continues with the reply. The environment is not part of the
program: `Program.Runs` relates a program to every log of requests and replies
it can produce, whatever the replies are, together with the way it ended. A
statement about all runs is therefore a statement about every behaviour of the
services the program talks to.

The rules below decompose the runs of sequencing, exception handling and loops,
so that proofs about a program follow its text and never unfold the semantics.
-/

namespace Interaction

/-- One request together with the reply it received. -/
structure Event (Call : Type) (Reply : Call → Type) where
  request : Call
  reply : Reply request

/-- A computation that returns, raises, or continues with the reply to a request. -/
inductive Program (Call : Type) (Reply : Call → Type) (Err α : Type) where
  | ret (value : α)
  | raise (error : Err)
  | call (request : Call) (next : Reply request → Program Call Reply Err α)

namespace Program

variable {Call : Type} {Reply : Call → Type} {Err Err' α β γ : Type}

/-- Run a program and continue with its value. -/
def bind : Program Call Reply Err α → (α → Program Call Reply Err β) →
    Program Call Reply Err β
  | .ret value, next => next value
  | .raise error, _ => .raise error
  | .call request continue_, next => .call request fun reply => (continue_ reply).bind next

/-- Run a program and recover from the error it raises. -/
def handle : Program Call Reply Err α → (Err → Program Call Reply Err' α) →
    Program Call Reply Err' α
  | .ret value, _ => .ret value
  | .raise error, handler => handler error
  | .call request next, handler => .call request fun reply => (next reply).handle handler

/-- The program that issues one request and returns its reply. -/
def perform (request : Call) : Program Call Reply Err (Reply request) :=
  .call request .ret

instance : Monad (Program Call Reply Err) where
  pure := .ret
  bind := .bind

instance : MonadExcept Err (Program Call Reply Err) where
  throw := .raise
  tryCatch := .handle

/-- A computation without requests, seen as a program. -/
def ofExcept : Except Err α → Program Call Reply Err α
  | .ok value => .ret value
  | .error error => .raise error

@[simp]
theorem pure_eq_ret (value : α) :
    (pure value : Program Call Reply Err α) = .ret value := rfl

@[simp]
theorem throw_eq_raise (error : Err) :
    (throw error : Program Call Reply Err α) = .raise error := rfl

@[simp]
theorem ret_bind (value : α) (next : α → Program Call Reply Err β) :
    (ret value >>= next : Program Call Reply Err β) = next value := rfl

@[simp]
theorem raise_bind (error : Err) (next : α → Program Call Reply Err β) :
    (raise error >>= next : Program Call Reply Err β) = .raise error := rfl

@[simp]
theorem call_bind (request : Call) (continue_ : Reply request → Program Call Reply Err α)
    (next : α → Program Call Reply Err β) :
    (call request continue_ >>= next : Program Call Reply Err β) =
      .call request fun reply => continue_ reply >>= next := rfl

@[simp]
theorem perform_bind (request : Call) (next : Reply request → Program Call Reply Err β) :
    (perform request >>= next : Program Call Reply Err β) = .call request next := rfl

@[simp]
theorem tryCatch_eq_handle (program : Program Call Reply Err α)
    (handler : Err → Program Call Reply Err α) :
    tryCatch program handler = program.handle handler := rfl

theorem bind_ret (program : Program Call Reply Err α) : program.bind .ret = program := by
  induction program with
  | ret value => rfl
  | raise error => rfl
  | call request next ih => simp only [bind, ih]

theorem bind_bind (program : Program Call Reply Err α) (first : α → Program Call Reply Err β)
    (second : β → Program Call Reply Err γ) :
    (program.bind first).bind second =
      program.bind fun value => (first value).bind second := by
  induction program with
  | ret value => rfl
  | raise error => rfl
  | call request next ih => simp only [bind, ih]

instance : LawfulMonad (Program Call Reply Err) :=
  LawfulMonad.mk' _ bind_ret (fun _ _ => rfl) bind_bind

/-- The logs a program can produce and the outcome each of them ends in. -/
def Runs : Program Call Reply Err α → List (Event Call Reply) → Except Err α → Prop
  | .ret value, log, outcome => log = [] ∧ outcome = .ok value
  | .raise error, log, outcome => log = [] ∧ outcome = .error error
  | .call request next, log, outcome =>
      ∃ reply rest, log = ⟨request, reply⟩ :: rest ∧ (next reply).Runs rest outcome

@[simp]
theorem runs_ret {value : α} {log : List (Event Call Reply)} {outcome : Except Err α} :
    (ret value : Program Call Reply Err α).Runs log outcome ↔
      log = [] ∧ outcome = .ok value := Iff.rfl

@[simp]
theorem runs_raise {error : Err} {log : List (Event Call Reply)} {outcome : Except Err α} :
    (raise error : Program Call Reply Err α).Runs log outcome ↔
      log = [] ∧ outcome = .error error := Iff.rfl

@[simp]
theorem runs_call {request : Call} {next : Reply request → Program Call Reply Err α}
    {log : List (Event Call Reply)} {outcome : Except Err α} :
    (call request next).Runs log outcome ↔
      ∃ reply rest, log = ⟨request, reply⟩ :: rest ∧ (next reply).Runs rest outcome := Iff.rfl

@[simp]
theorem runs_perform {request : Call} {log : List (Event Call Reply)}
    {outcome : Except Err (Reply request)} :
    (perform request : Program Call Reply Err _).Runs log outcome ↔
      ∃ reply, log = [⟨request, reply⟩] ∧ outcome = .ok reply := by
  simp [perform]

@[simp]
theorem runs_ofExcept {result : Except Err α} {log : List (Event Call Reply)}
    {outcome : Except Err α} :
    (ofExcept result : Program Call Reply Err α).Runs log outcome ↔
      log = [] ∧ outcome = result := by
  cases result <;> simp [ofExcept]

theorem runs_ofExcept_bind {result : Except Err α} {next : α → Program Call Reply Err β}
    {log : List (Event Call Reply)} {outcome : Except Err β} :
    (ofExcept result >>= next : Program Call Reply Err β).Runs log outcome ↔
      (∃ error, result = .error error ∧ log = [] ∧ outcome = .error error) ∨
        ∃ value, result = .ok value ∧ (next value).Runs log outcome := by
  cases result <;> simp [ofExcept]

/-- A run of a sequence stops in its first part or passes through it. -/
theorem runs_bind {program : Program Call Reply Err α} {next : α → Program Call Reply Err β}
    {log : List (Event Call Reply)} {outcome : Except Err β} :
    (program >>= next).Runs log outcome ↔
      (∃ error, outcome = .error error ∧ program.Runs log (.error error)) ∨
        ∃ value first second, log = first ++ second ∧ program.Runs first (.ok value) ∧
          (next value).Runs second outcome := by
  induction program generalizing log with
  | ret value => simp
  | raise error => simp [and_comm]
  | call request continue_ ih =>
      simp only [call_bind, runs_call, ih]
      constructor
      · rintro ⟨reply, rest, rfl, ⟨error, rfl, stopped⟩ | ⟨value, first, second, rfl, ran, tail⟩⟩
        · exact Or.inl ⟨error, rfl, reply, rest, rfl, stopped⟩
        · exact Or.inr ⟨value, ⟨request, reply⟩ :: first, second, rfl,
            ⟨reply, first, rfl, ran⟩, tail⟩
      · rintro (⟨error, rfl, reply, rest, rfl, stopped⟩ |
          ⟨value, _, second, rfl, ⟨reply, first, rfl, ran⟩, tail⟩)
        · exact ⟨reply, rest, rfl, Or.inl ⟨error, rfl, stopped⟩⟩
        · exact ⟨reply, first ++ second, rfl, Or.inr ⟨value, first, second, rfl, ran, tail⟩⟩

theorem runs_bind_ok {program : Program Call Reply Err α}
    {next : α → Program Call Reply Err β} {log : List (Event Call Reply)} {value : β} :
    (program >>= next).Runs log (.ok value) ↔
      ∃ middle first second, log = first ++ second ∧ program.Runs first (.ok middle) ∧
        (next middle).Runs second (.ok value) := by
  simp [runs_bind]

/-- A run under an exception handler returns, or passes through the handler. -/
theorem runs_handle {program : Program Call Reply Err α}
    {handler : Err → Program Call Reply Err' α} {log : List (Event Call Reply)}
    {outcome : Except Err' α} :
    (program.handle handler).Runs log outcome ↔
      (∃ value, outcome = .ok value ∧ program.Runs log (.ok value)) ∨
        ∃ error first second, log = first ++ second ∧ program.Runs first (.error error) ∧
          (handler error).Runs second outcome := by
  induction program generalizing log with
  | ret value => simp [handle, and_comm]
  | raise error => simp [handle]
  | call request next ih =>
      simp only [handle, runs_call, ih]
      constructor
      · rintro ⟨reply, rest, rfl, ⟨value, rfl, ran⟩ | ⟨error, first, second, rfl, ran, tail⟩⟩
        · exact Or.inl ⟨value, rfl, reply, rest, rfl, ran⟩
        · exact Or.inr ⟨error, ⟨request, reply⟩ :: first, second, rfl,
            ⟨reply, first, rfl, ran⟩, tail⟩
      · rintro (⟨value, rfl, reply, rest, rfl, ran⟩ |
          ⟨error, _, second, rfl, ⟨reply, first, rfl, ran⟩, tail⟩)
        · exact ⟨reply, rest, rfl, Or.inl ⟨value, rfl, ran⟩⟩
        · exact ⟨reply, first ++ second, rfl, Or.inr ⟨error, first, second, rfl, ran, tail⟩⟩

/-- One iteration of a loop: what it was given, the part of the log it made, its value. -/
structure Piece (Call : Type) (Reply : Call → Type) (α β : Type) where
  input : α
  log : List (Event Call Reply)
  value : β

/-- A loop returns when every iteration of it does, one after the other. -/
theorem runs_mapM_ok {body : α → Program Call Reply Err β} {inputs : List α}
    {log : List (Event Call Reply)} {values : List β} :
    (inputs.mapM body).Runs log (.ok values) ↔
      ∃ pieces : List (Piece Call Reply α β), pieces.map Piece.input = inputs ∧
        pieces.flatMap Piece.log = log ∧ pieces.map Piece.value = values ∧
        ∀ piece ∈ pieces, (body piece.input).Runs piece.log (.ok piece.value) := by
  induction inputs generalizing log values with
  | nil =>
      constructor
      · rintro ⟨rfl, returned⟩
        cases returned
        exact ⟨[], rfl, rfl, rfl, by simp⟩
      · rintro ⟨pieces, empty, rfl, rfl, _⟩
        rw [List.map_eq_nil_iff] at empty
        subst empty
        exact ⟨rfl, rfl⟩
  | cons input inputs ih =>
      simp only [List.mapM_cons, runs_bind_ok, pure_eq_ret, runs_ret]
      constructor
      · rintro ⟨value, first, _, rfl, ran, rest, second, _, rfl, others, rfl, returned⟩
        cases returned
        rcases ih.mp others with ⟨pieces, rfl, rfl, rfl, all⟩
        refine ⟨⟨input, first, value⟩ :: pieces, rfl, by simp, rfl, ?_⟩
        intro piece pieceMem
        rcases List.mem_cons.mp pieceMem with rfl | pieceMem
        · exact ran
        · exact all piece pieceMem
      · rintro ⟨pieces, inputs_eq, rfl, rfl, all⟩
        cases pieces with
        | nil => cases inputs_eq
        | cons piece pieces =>
            rcases List.cons.inj inputs_eq with ⟨rfl, rfl⟩
            have others := ih.mpr ⟨pieces, rfl, rfl, rfl, fun other otherMem =>
              all other (List.mem_cons_of_mem _ otherMem)⟩
            exact ⟨piece.value, piece.log, _, rfl, all piece List.mem_cons_self, _, _, [],
              (List.append_nil _).symm, others, rfl, rfl⟩

/-- A loop that raises does so in one of its iterations. -/
theorem runs_mapM_error {body : α → Program Call Reply Err β} {inputs : List α}
    {log : List (Event Call Reply)} {error : Err}
    (ran : (inputs.mapM body).Runs log (.error error)) :
    ∃ input ∈ inputs, ∃ part, (body input).Runs part (.error error) := by
  induction inputs generalizing log with
  | nil => cases ran.2
  | cons input inputs ih =>
      simp only [List.mapM_cons, runs_bind, pure_eq_ret, runs_ret] at ran
      rcases ran with ⟨_, same, stopped⟩ | ⟨value, first, rest, rfl, _, ⟨_, same, later⟩ | last⟩
      · cases same
        exact ⟨input, List.mem_cons_self, log, stopped⟩
      · cases same
        rcases ih later with ⟨other, otherMem, part, raised⟩
        exact ⟨other, List.mem_cons_of_mem _ otherMem, part, raised⟩
      · rcases last with ⟨_, _, _, _, _, _, impossible⟩
        cases impossible

/-- A loop runs through some of its iterations; it returns after all of them or one raises. -/
theorem runs_mapM {body : α → Program Call Reply Err β} {inputs : List α}
    {log : List (Event Call Reply)} {outcome : Except Err (List β)}
    (ran : (inputs.mapM body).Runs log outcome) :
    ∃ (pieces : List (Piece Call Reply α β)) (rest : List α) (last : List (Event Call Reply)),
      inputs = pieces.map Piece.input ++ rest ∧ log = pieces.flatMap Piece.log ++ last ∧
        (∀ piece ∈ pieces, (body piece.input).Runs piece.log (.ok piece.value)) ∧
        (rest = [] ∧ last = [] ∧ outcome = .ok (pieces.map Piece.value) ∨
          ∃ input others error, rest = input :: others ∧ outcome = .error error ∧
            (body input).Runs last (.error error)) := by
  induction inputs generalizing log outcome with
  | nil =>
      rcases ran with ⟨rfl, rfl⟩
      exact ⟨[], [], [], rfl, rfl, by simp, Or.inl ⟨rfl, rfl, rfl⟩⟩
  | cons input inputs ih =>
      simp only [List.mapM_cons, pure_eq_ret] at ran
      rcases runs_bind.mp ran with ⟨error, rfl, stopped⟩ | ⟨value, first, tail, rfl, returned, ran⟩
      · exact ⟨[], input :: inputs, log, rfl, rfl, by simp,
          Or.inr ⟨input, inputs, error, rfl, rfl, stopped⟩⟩
      have continued : ∃ others, (inputs.mapM body).Runs tail others ∧
          outcome = others.map (value :: ·) := by
        rcases runs_bind.mp ran with
          ⟨error, rfl, stopped⟩ | ⟨values, front, back, rfl, collected, emptied, same⟩
        · exact ⟨.error error, stopped, rfl⟩
        · refine ⟨.ok values, ?_, same⟩
          rw [emptied, List.append_nil]
          exact collected
      rcases continued with ⟨others, othersRan, rfl⟩
      rcases ih othersRan with ⟨pieces, rest, last, rfl, rfl, each, ending⟩
      refine ⟨⟨input, first, value⟩ :: pieces, rest, last, rfl, by simp, ?_, ?_⟩
      · intro piece pieceMem
        rcases List.mem_cons.mp pieceMem with rfl | pieceMem
        · exact returned
        · exact each piece pieceMem
      · rcases ending with ⟨rfl, rfl, rfl⟩ | ⟨stopped, more, error, rfl, rfl, raised⟩
        · exact Or.inl ⟨rfl, rfl, rfl⟩
        · exact Or.inr ⟨stopped, more, error, rfl, rfl, raised⟩

/--
A loop with an accumulator: what every iteration preserves, about the items done, the log so far
and the accumulator, holds when the loop returns and when an iteration raises.
-/
theorem runs_foldlM {σ : Type} {step : σ → α → Program Call Reply Err σ}
    (inv : List α → List (Event Call Reply) → σ → Prop)
    (preserved : ∀ done before state item part next, inv done before state →
      (step state item).Runs part (.ok next) → inv (done ++ [item]) (before ++ part) next)
    {done items : List α} {before log : List (Event Call Reply)} {state : σ}
    {outcome : Except Err σ} (holds : inv done before state)
    (ran : (items.foldlM step state).Runs log outcome) :
    (∃ final, outcome = .ok final ∧ inv (done ++ items) (before ++ log) final) ∨
      ∃ front item rest middle first last error, items = front ++ item :: rest ∧
        log = first ++ last ∧ inv (done ++ front) (before ++ first) middle ∧
        (step middle item).Runs last (.error error) ∧ outcome = .error error := by
  induction items generalizing done before log state with
  | nil =>
      rcases ran with ⟨rfl, rfl⟩
      refine Or.inl ⟨state, rfl, ?_⟩
      simpa using holds
  | cons item items ih =>
      rw [List.foldlM_cons] at ran
      rcases runs_bind.mp ran with ⟨error, rfl, stopped⟩ | ⟨next, first, rest, rfl, stepped, ran⟩
      · refine Or.inr ⟨[], item, items, state, [], log, error, rfl, rfl, ?_, stopped, rfl⟩
        simpa using holds
      · rcases ih (preserved _ _ _ _ _ _ holds stepped) ran with ⟨final, rfl, holds⟩ |
          ⟨front, other, rest', middle, first', last, error, rfl, rfl, holds, stopped, rfl⟩
        · refine Or.inl ⟨final, rfl, ?_⟩
          simpa using holds
        · refine Or.inr ⟨item :: front, other, rest', middle, first ++ first', last, error, rfl,
            by simp, ?_, stopped, rfl⟩
          simpa using holds

/-- Every request the program can issue is allowed. -/
def IssuesOnly (allowed : Call → Prop) : Program Call Reply Err α → Prop
  | .ret _ => True
  | .raise _ => True
  | .call request next => allowed request ∧ ∀ reply, (next reply).IssuesOnly allowed

section IssuesOnly

variable {allowed : Call → Prop}

@[simp]
theorem issuesOnly_ret {value : α} :
    (ret value : Program Call Reply Err α).IssuesOnly allowed := trivial

@[simp]
theorem issuesOnly_raise {error : Err} :
    (raise error : Program Call Reply Err α).IssuesOnly allowed := trivial

@[simp]
theorem issuesOnly_call {request : Call} {next : Reply request → Program Call Reply Err α} :
    (call request next).IssuesOnly allowed ↔
      allowed request ∧ ∀ reply, (next reply).IssuesOnly allowed := Iff.rfl

@[simp]
theorem issuesOnly_ofExcept {result : Except Err α} :
    (ofExcept result : Program Call Reply Err α).IssuesOnly allowed := by
  cases result <;> exact trivial

@[simp]
theorem issuesOnly_ite {condition : Prop} [Decidable condition]
    {program other : Program Call Reply Err α} :
    (if condition then program else other).IssuesOnly allowed ↔
      (condition → program.IssuesOnly allowed) ∧ (¬condition → other.IssuesOnly allowed) := by
  split <;> simp_all

@[simp]
theorem issuesOnly_ofExcept_bind {result : Except Err α}
    {next : α → Program Call Reply Err β} :
    (ofExcept result >>= next : Program Call Reply Err β).IssuesOnly allowed ↔
      ∀ value, result = .ok value → (next value).IssuesOnly allowed := by
  cases result <;> simp [ofExcept]

theorem IssuesOnly.mono {other : Call → Prop} {program : Program Call Reply Err α}
    (only : program.IssuesOnly allowed) (weaker : ∀ request, allowed request → other request) :
    program.IssuesOnly other := by
  induction program with
  | ret value => trivial
  | raise error => trivial
  | call request next ih =>
      exact ⟨weaker request only.1, fun reply => ih reply (only.2 reply)⟩

theorem IssuesOnly.bind {program : Program Call Reply Err α}
    {next : α → Program Call Reply Err β} (first : program.IssuesOnly allowed)
    (second : ∀ value, (next value).IssuesOnly allowed) :
    (program >>= next).IssuesOnly allowed := by
  induction program with
  | ret value => exact second value
  | raise error => trivial
  | call request continue_ ih => exact ⟨first.1, fun reply => ih reply (first.2 reply)⟩

theorem issuesOnly_mapM {body : α → Program Call Reply Err β} {inputs : List α}
    (each : ∀ input ∈ inputs, (body input).IssuesOnly allowed) :
    (inputs.mapM body).IssuesOnly allowed := by
  induction inputs with
  | nil => trivial
  | cons input inputs ih =>
      rw [List.mapM_cons]
      refine IssuesOnly.bind (each input List.mem_cons_self) fun value => ?_
      refine IssuesOnly.bind (ih fun other otherMem => ?_) fun values => trivial
      exact each other (List.mem_cons_of_mem _ otherMem)

theorem issuesOnly_foldlM {σ : Type} {step : σ → α → Program Call Reply Err σ}
    {inputs : List α} {state : σ} (each : ∀ state input, (step state input).IssuesOnly allowed) :
    (inputs.foldlM step state).IssuesOnly allowed := by
  induction inputs generalizing state with
  | nil => trivial
  | cons input inputs ih =>
      rw [List.foldlM_cons]
      exact IssuesOnly.bind (each state input) fun next => ih

theorem IssuesOnly.handle {program : Program Call Reply Err α}
    {handler : Err → Program Call Reply Err' α} (first : program.IssuesOnly allowed)
    (second : ∀ error, (handler error).IssuesOnly allowed) :
    (program.handle handler).IssuesOnly allowed := by
  induction program with
  | ret value => trivial
  | raise error => exact second error
  | call request next ih => exact ⟨first.1, fun reply => ih reply (first.2 reply)⟩

theorem IssuesOnly.allowed_of_runs {program : Program Call Reply Err α}
    (only : program.IssuesOnly allowed) {log : List (Event Call Reply)}
    {outcome : Except Err α} (ran : program.Runs log outcome) :
    ∀ event ∈ log, allowed event.request := by
  induction program generalizing log with
  | ret value => simp [ran.1]
  | raise error => simp [ran.1]
  | call request next ih =>
      rcases ran with ⟨reply, rest, rfl, ran⟩
      intro event eventMem
      rcases List.mem_cons.mp eventMem with rfl | eventMem
      · exact only.1
      · exact ih reply (only.2 reply) ran event eventMem

/-- A request that the first part of a sequence does not issue is one of the second part. -/
theorem runs_bind_of_mem {program : Program Call Reply Err α}
    {next : α → Program Call Reply Err β} {log : List (Event Call Reply)}
    {outcome : Except Err β} {event : Event Call Reply} (only : program.IssuesOnly allowed)
    (ran : (program >>= next).Runs log outcome) (eventMem : event ∈ log)
    (other : ¬allowed event.request) :
    ∃ value first second, log = first ++ second ∧ program.Runs first (.ok value) ∧
      (next value).Runs second outcome ∧ event ∈ second := by
  rcases runs_bind.mp ran with ⟨error, _, stopped⟩ | ⟨value, first, second, rfl, ran, rest⟩
  · exact absurd (only.allowed_of_runs stopped event eventMem) other
  · refine ⟨value, first, second, rfl, ran, rest, ?_⟩
    rcases List.mem_append.mp eventMem with early | late
    · exact absurd (only.allowed_of_runs ran event early) other
    · exact late

end IssuesOnly

/-- No critical request is issued before an event that clears it. -/
def Guarded (critical : Call → Prop) (clears : Event Call Reply → Prop) :
    Program Call Reply Err α → Prop
  | .ret _ => True
  | .raise _ => True
  | .call request next =>
      ¬critical request ∧
        ∀ reply, clears ⟨request, reply⟩ ∨ (next reply).Guarded critical clears

/-- The program does not return before an event of a kind has happened. -/
def Ensures (happens : Event Call Reply → Prop) : Program Call Reply Err α → Prop
  | .ret _ => False
  | .raise _ => True
  | .call request next => ∀ reply, happens ⟨request, reply⟩ ∨ (next reply).Ensures happens

section Guarded

variable {critical : Call → Prop} {clears happens : Event Call Reply → Prop}

theorem IssuesOnly.guarded_bind {allowed : Call → Prop} {program : Program Call Reply Err α}
    {next : α → Program Call Reply Err β} (first : program.IssuesOnly allowed)
    (harmless : ∀ request, allowed request → ¬critical request)
    (second : ∀ value, (next value).Guarded critical clears) :
    (program >>= next).Guarded critical clears := by
  induction program with
  | ret value => exact second value
  | raise error => trivial
  | call request continue_ ih =>
      exact ⟨harmless request first.1, fun reply => Or.inr (ih reply (first.2 reply))⟩

@[simp]
theorem guarded_ofExcept_bind {result : Except Err α}
    {next : α → Program Call Reply Err β} :
    (ofExcept result >>= next : Program Call Reply Err β).Guarded critical clears ↔
      ∀ value, result = .ok value → (next value).Guarded critical clears := by
  cases result <;> simp [ofExcept, Guarded]

theorem Ensures.bind {program : Program Call Reply Err α} {next : α → Program Call Reply Err β}
    (first : program.Ensures happens) : (program >>= next).Ensures happens := by
  induction program with
  | ret value => exact False.elim first
  | raise error => trivial
  | call request continue_ ih =>
      intro reply
      rcases first reply with happened | first
      · exact Or.inl happened
      · exact Or.inr (ih reply first)

theorem ensures_bind_right {program : Program Call Reply Err α}
    {next : α → Program Call Reply Err β} (second : ∀ value, (next value).Ensures happens) :
    (program >>= next).Ensures happens := by
  induction program with
  | ret value => exact second value
  | raise error => trivial
  | call request continue_ ih => exact fun reply => Or.inr (ih reply)

theorem Ensures.exists_of_runs {program : Program Call Reply Err α}
    (ensures : program.Ensures happens) {log : List (Event Call Reply)} {value : α}
    (ran : program.Runs log (.ok value)) : ∃ event ∈ log, happens event := by
  induction program generalizing log with
  | ret value => exact False.elim ensures
  | raise error => cases ran.2
  | call request next ih =>
      rcases ran with ⟨reply, rest, rfl, ran⟩
      rcases ensures reply with happened | ensures
      · exact ⟨_, List.mem_cons_self, happened⟩
      · rcases ih reply ensures ran with ⟨event, eventMem, happened⟩
        exact ⟨event, List.mem_cons_of_mem _ eventMem, happened⟩

end Guarded

/-- The replies fix a run: among the beginnings of a log at most one is a run of a program, and it
ends in one way. -/
theorem runs_unique_of_append {program : Program Call Reply Err α}
    {first first' rest rest' : List (Event Call Reply)} {left right : Except Err α}
    (leftRuns : program.Runs first left) (rightRuns : program.Runs first' right)
    (same : first ++ rest = first' ++ rest') : first = first' ∧ rest = rest' ∧ left = right := by
  induction program generalizing first first' with
  | ret value =>
      rcases leftRuns with ⟨rfl, rfl⟩
      rcases rightRuns with ⟨rfl, rfl⟩
      exact ⟨rfl, same, rfl⟩
  | raise error =>
      rcases leftRuns with ⟨rfl, rfl⟩
      rcases rightRuns with ⟨rfl, rfl⟩
      exact ⟨rfl, same, rfl⟩
  | call request next ih =>
      rcases leftRuns with ⟨reply, tail, rfl, leftRuns⟩
      rcases rightRuns with ⟨reply', tail', rfl, rightRuns⟩
      simp only [List.cons_append, List.cons.injEq, Event.mk.injEq, heq_eq_eq, true_and] at same
      rcases same with ⟨rfl, same⟩
      rcases ih reply leftRuns rightRuns same with ⟨rfl, rest_eq, outcome_eq⟩
      exact ⟨rfl, rest_eq, outcome_eq⟩

/-- The run in which a fixed function answers every request. -/
def answer (reply : (request : Call) → Reply request) :
    Program Call Reply Err α → List (Event Call Reply) × Except Err α
  | .ret value => ([], .ok value)
  | .raise error => ([], .error error)
  | .call request next =>
      let rest := (next (reply request)).answer reply
      (⟨request, reply request⟩ :: rest.1, rest.2)

theorem runs_answer (reply : (request : Call) → Reply request)
    (program : Program Call Reply Err α) :
    program.Runs (program.answer reply).1 (program.answer reply).2 := by
  induction program with
  | ret value => exact ⟨rfl, rfl⟩
  | raise error => exact ⟨rfl, rfl⟩
  | call request next ih => exact ⟨reply request, _, rfl, ih (reply request)⟩

theorem answer_replies (reply : (request : Call) → Reply request)
    (program : Program Call Reply Err α) :
    ∀ event ∈ (program.answer reply).1, event.reply = reply event.request := by
  induction program with
  | ret value => simp [answer]
  | raise error => simp [answer]
  | call request next ih =>
      intro event eventMem
      simp only [answer, List.mem_cons] at eventMem
      rcases eventMem with rfl | eventMem
      · rfl
      · exact ih (reply request) event eventMem

/-- A run in which a fixed function answers every request, where the way it ends is evaluated. -/
theorem exists_run (reply : (request : Call) → Reply request) (program : Program Call Reply Err α)
    (ends : Except Err α → Prop) (ended : ends (program.answer reply).2) :
    ∃ log outcome, program.Runs log outcome ∧ ends outcome ∧
      ∀ event ∈ log, event.reply = reply event.request :=
  ⟨_, _, runs_answer reply program, ended, answer_replies reply program⟩

end Program

end Interaction
