import UplinkShaper.Failure

/-!
Procedures: what a program does between its commands. A procedure is either done, or
it has a command to run and goes on with the reply. It carries the state that other
procedures share, and gives it away while a command runs: whoever answers a command
may change that state in the meantime.

An operation is a procedure that waits for a state. Operations form a monad in which
failures are thrown and caught; the state stays as it was at the throw.
-/

namespace UplinkShaper

inductive Reply
  | finished (code : Int) (output errors : Option String)
  | refused (text : String)
  | interrupted (interruption : Interruption)
deriving DecidableEq, Repr

inductive Procedure (σ α : Type)
  | done (state : σ) (result : Except Failure α)
  | command (state : σ) (words : List String) (resume : σ → Reply → Procedure σ α)

namespace Procedure

/-- One procedure after another, which gets the result even where it is a failure. -/
def andThen (first : Procedure σ α) (next : σ → Except Failure α → Procedure σ β) :
    Procedure σ β :=
  match first with
  | .done state result => next state result
  | .command state words resume =>
      .command state words fun state reply => (resume state reply).andThen next

@[simp]
theorem done_andThen (state : σ) (result : Except Failure α)
    (next : σ → Except Failure α → Procedure σ β) :
    (done state result).andThen next = next state result := rfl

@[simp]
theorem command_andThen (state : σ) (words : List String)
    (resume : σ → Reply → Procedure σ α) (next : σ → Except Failure α → Procedure σ β) :
    (command state words resume).andThen next =
      command state words fun state reply => (resume state reply).andThen next := rfl

@[simp]
theorem andThen_done (procedure : Procedure σ α) : procedure.andThen done = procedure := by
  induction procedure with
  | done => rfl
  | command state words resume induction => simp [induction]

theorem andThen_assoc (first : Procedure σ α) (second : σ → Except Failure α → Procedure σ β)
    (third : σ → Except Failure β → Procedure σ γ) :
    (first.andThen second).andThen third =
      first.andThen fun state result => (second state result).andThen third := by
  induction first with
  | done => rfl
  | command state words resume induction => simp [induction]

/-! ## Running -/

/-- Someone who answers commands, with a memory of its own and a hand on the state. -/
abbrev Responder (ρ σ : Type) := ρ → σ → List String → ρ × σ × Reply

/-- The end of a procedure whose commands are answered. -/
def run (responder : Responder ρ σ) (memory : ρ) : Procedure σ α → ρ × σ × Except Failure α
  | .done state result => (memory, state, result)
  | .command state words resume =>
      let (memory, state, reply) := responder memory state words
      (resume state reply).run responder memory

theorem run_andThen (responder : Responder ρ σ) (memory : ρ) (first : Procedure σ α)
    (next : σ → Except Failure α → Procedure σ β) :
    (first.andThen next).run responder memory =
      let (memory, state, result) := first.run responder memory
      (next state result).run responder memory := by
  induction first generalizing memory with
  | done => rfl
  | command state words resume induction => simp [run, induction]

end Procedure

/-! ## Operations -/

def Operation (σ α : Type) : Type :=
  σ → Procedure σ α

namespace Operation

def run (operation : Operation σ α) (responder : Procedure.Responder ρ σ) (memory : ρ)
    (state : σ) : ρ × σ × Except Failure α :=
  (operation state).run responder memory

def ofResult (result : Except Failure α) : Operation σ α := fun state =>
  .done state result

/-- Go on with what comes out, failure or not. -/
def andThen (first : Operation σ α) (next : Except Failure α → Operation σ β) :
    Operation σ β := fun state =>
  (first state).andThen fun state result => next result state

instance : Monad (Operation σ) where
  pure value := ofResult (.ok value)
  bind first next := first.andThen fun
    | .ok value => next value
    | .error failure => ofResult (.error failure)

instance : MonadExceptOf Failure (Operation σ) where
  throw failure := ofResult (.error failure)
  tryCatch body handle := body.andThen fun
    | .ok value => ofResult (.ok value)
    | .error failure => handle failure

instance : MonadStateOf σ (Operation σ) where
  get := fun state => .done state (.ok state)
  set state := fun _ => .done state (.ok ())
  modifyGet change := fun state =>
    let (value, state) := change state
    .done state (.ok value)

instance : MonadLift (Except Failure) (Operation σ) where
  monadLift := ofResult

theorem bind_pure_eq (operation : Operation σ α) : operation >>= pure = operation := by
  funext state
  change (operation state).andThen _ = operation state
  conv => rhs; rw [← Procedure.andThen_done (operation state)]
  congr 1
  funext state result
  cases result <;> rfl

theorem bind_bind_eq (operation : Operation σ α) (next : α → Operation σ β)
    (last : β → Operation σ γ) :
    operation >>= next >>= last = operation >>= fun value => next value >>= last := by
  funext state
  change ((operation state).andThen _).andThen _ = (operation state).andThen _
  rw [Procedure.andThen_assoc]
  congr 1
  funext state result
  cases result <;> rfl

instance : LawfulMonad (Operation σ) :=
  LawfulMonad.mk' (Operation σ) bind_pure_eq (fun _ _ => rfl) bind_bind_eq

def command (words : List String) : Operation σ Reply := fun state =>
  .command state words fun state reply => .done state (.ok reply)

def attempt (operation : Operation σ α) : Operation σ (Except Failure α) :=
  operation.andThen fun result => ofResult (.ok result)

/-- An operation that is followed by another one, whether it fails or not. A failure of
the other one counts first. -/
def ensuring (operation : Operation σ α) (last : Operation σ Unit) : Operation σ α :=
  operation.andThen fun result => do
    last
    ofResult result

end Operation

end UplinkShaper
