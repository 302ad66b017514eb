import UplinkShaper.Backend.Execution

/-!
Runners: those who answer commands and see nothing else of a program. What a program says
to a runner and hears from it can be written down as a list of exchanges.
-/

namespace UplinkShaper

open Procedure

/-- Someone who answers commands without looking at them from more than outside. -/
abbrev Runner (ρ : Type) := ρ → List String → ρ × Reply

/-- A command that was given to a runner, and the reply to it. -/
structure Exchange where
  words : List String
  reply : Reply
deriving DecidableEq, Repr

namespace Exchange

/-- What went wrong with a command that counts as run. -/
def failure? (exchange : Exchange) : Option CommandFailure :=
  match exchange.reply with
  | .finished code _ errors =>
      if code = 0 then none else some ⟨exchange.words, code, errors.getD ""⟩
  | .refused text | .interrupted (.subprocess text) | .interrupted (.timeout text) =>
      some ⟨exchange.words, notRun, text⟩
  | .interrupted _ => none

end Exchange

/-- A reply at which a program goes on, with a failure or without one. -/
def Reply.isHandled : Reply → Bool
  | .interrupted (.runtime _) | .interrupted .keyboard => false
  | _ => true

namespace Runner

variable {ρ : Type}

/-- A runner that interrupts no program. -/
def IsHandled (runner : Runner ρ) : Prop :=
  ∀ memory words, (runner memory words).2.isHandled = true

end Runner

variable {ρ : Type}

/-- Answers of a runner, with nobody else around. -/
def undisturbed (runner : Runner ρ) : Responder ρ Host := fun memory host words =>
  let (memory, reply) := runner memory words
  (memory, host, reply)

/-- Answers of a runner, written down. -/
def recording (runner : Runner ρ) : Responder (ρ × List Exchange) Host :=
  fun (memory, exchanges) host words =>
    let (memory, reply) := runner memory words
    ((memory, exchanges ++ [⟨words, reply⟩]), host, reply)

/-- What is handled counts as run, and the record tells its failure. -/
theorem Reply.exists_completion {reply : Reply} (isHandled : reply.isHandled = true)
    (words : List String) : ∃ completion, Completion.ofReply words reply = .ok completion ∧
      (⟨words, reply⟩ : Exchange).failure? =
        if completion.isSuccess then none else some completion.failure := by
  cases reply with
  | finished code output errors =>
      refine ⟨_, rfl, ?_⟩
      simp only [Exchange.failure?, Completion.isSuccess, decide_eq_true_eq]
      rfl
  | refused text => exact ⟨_, rfl, rfl⟩
  | interrupted interruption =>
      cases interruption with
      | subprocess text => exact ⟨_, rfl, rfl⟩
      | timeout text => exact ⟨_, rfl, rfl⟩
      | runtime text => cases isHandled
      | keyboard => cases isHandled

/-- What holds of all exchanges of a runner holds of all that are written down. -/
theorem Runner.recorded {runner : Runner ρ} {holds : Exchange → Prop}
    (each : ∀ memory words, holds ⟨words, (runner memory words).2⟩)
    (procedure : Procedure Host α) (memory : ρ) (exchanges : List Exchange)
    (all : ∀ exchange ∈ exchanges, holds exchange) :
    ∀ exchange ∈ (procedure.run (recording runner) (memory, exchanges)).1.2,
      holds exchange := by
  induction procedure generalizing memory exchanges with
  | done state result => exact all
  | command state words resume induction =>
      apply induction
      intro exchange member
      rcases List.mem_append.mp member with old | isNew
      · exact all exchange old
      · rw [List.mem_singleton.mp isNew]
        exact each memory words

end UplinkShaper
