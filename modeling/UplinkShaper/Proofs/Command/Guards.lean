import UplinkShaper.Proofs.Command.Quiet

/-!
What holds of an operation whoever answers its commands. While a command runs the state is
in other hands: the operation guarantees something of what it gives away, and relies on
some changes not being made in the meantime.
-/

namespace UplinkShaper

/-- What is guaranteed of a state that is given away, and what it may come back as. -/
structure Terms (σ : Type) where
  guarantee : σ → Prop
  rely : σ → σ → Prop

/-- Terms under which anything may happen to a state that is given away. -/
def Terms.loose : Terms σ where
  guarantee _ := True
  rely _ _ := True

namespace Procedure

variable {σ α β : Type} {terms : Terms σ}

/-- A procedure keeps the guarantee at every command, and something holds at its end. -/
def Keeps (terms : Terms σ) (after : σ → Except Failure α → Prop) : Procedure σ α → Prop
  | .done state result => after state result
  | .command state _ resume =>
      terms.guarantee state ∧
        ∀ state' reply, terms.rely state state' → (resume state' reply).Keeps terms after

theorem Keeps.andThen {first : Procedure σ α} {next : σ → Except Failure α → Procedure σ β}
    {middle : σ → Except Failure α → Prop} {after : σ → Except Failure β → Prop}
    (keeps : first.Keeps terms middle)
    (goesOn : ∀ state result, middle state result → (next state result).Keeps terms after) :
    (first.andThen next).Keeps terms after := by
  induction first with
  | done state result => exact goesOn state result keeps
  | command state words resume induction =>
      refine ⟨keeps.1, fun state' reply relied => ?_⟩
      exact induction state' reply (keeps.2 state' reply relied)

theorem Keeps.weaken {procedure : Procedure σ α} {middle after : σ → Except Failure α → Prop}
    (keeps : procedure.Keeps terms middle)
    (weaker : ∀ state result, middle state result → after state result) :
    procedure.Keeps terms after := by
  rw [← procedure.andThen_done]
  exact keeps.andThen weaker

theorem Keeps.and {procedure : Procedure σ α} {left right : σ → Except Failure α → Prop}
    (keeps : procedure.Keeps terms left) (keepsToo : procedure.Keeps terms right) :
    procedure.Keeps terms fun state result => left state result ∧ right state result := by
  induction procedure with
  | done state result => exact ⟨keeps, keepsToo⟩
  | command state words resume induction =>
      refine ⟨keeps.1, fun state' reply relied => ?_⟩
      exact induction state' reply (keeps.2 state' reply relied) (keepsToo.2 state' reply relied)

/-- What holds at the end of a run whose commands are answered by someone reliable. -/
theorem Keeps.run {procedure : Procedure σ α} {after : σ → Except Failure α → Prop}
    (keeps : procedure.Keeps terms after) (responder : Responder ρ σ)
    (isReliable : ∀ memory state words, terms.guarantee state →
      terms.rely state (responder memory state words).2.1) (memory : ρ) :
    after (procedure.run responder memory).2.1 (procedure.run responder memory).2.2 := by
  induction procedure generalizing memory with
  | done state result => exact keeps
  | command state words resume induction =>
      exact induction _ _ (keeps.2 _ _ (isReliable memory state words keeps.1)) _

end Procedure

namespace Operation

variable {σ α β : Type} {terms : Terms σ} {state : σ}

def Keeps (terms : Terms σ) (state : σ) (operation : Operation σ α)
    (after : σ → Except Failure α → Prop) : Prop :=
  (operation state).Keeps terms after

theorem Keeps.weaken {operation : Operation σ α} {middle after : σ → Except Failure α → Prop}
    (keeps : operation.Keeps terms state middle)
    (weaker : ∀ state result, middle state result → after state result) :
    operation.Keeps terms state after :=
  Procedure.Keeps.weaken keeps weaker

theorem Keeps.andThen {first : Operation σ α} {next : Except Failure α → Operation σ β}
    {middle : σ → Except Failure α → Prop} {after : σ → Except Failure β → Prop}
    (keeps : first.Keeps terms state middle)
    (goesOn : ∀ state result, middle state result → (next result).Keeps terms state after) :
    (first.andThen next).Keeps terms state after :=
  Procedure.Keeps.andThen keeps goesOn

theorem Keeps.bind {first : Operation σ α} {next : α → Operation σ β}
    {middle : σ → Except Failure α → Prop} {after : σ → Except Failure β → Prop}
    (keeps : first.Keeps terms state middle)
    (goesOn : ∀ state value, middle state (.ok value) → (next value).Keeps terms state after)
    (fails : ∀ state failure, middle state (.error failure) → after state (.error failure)) :
    (first >>= next).Keeps terms state after := by
  refine Keeps.andThen keeps fun state result holds => ?_
  cases result with
  | ok value => exact goesOn state value holds
  | error failure => exact fails state failure holds

theorem Keeps.tryCatch {body : Operation σ α} {handle : Failure → Operation σ α}
    {middle after : σ → Except Failure α → Prop} (keeps : body.Keeps terms state middle)
    (succeeds : ∀ state value, middle state (.ok value) → after state (.ok value))
    (fails : ∀ state failure, middle state (.error failure) →
      (handle failure).Keeps terms state after) :
    (tryCatch body handle).Keeps terms state after := by
  refine Keeps.andThen keeps fun state result holds => ?_
  cases result with
  | ok value => exact succeeds state value holds
  | error failure => exact fails state failure holds

theorem keeps_get_bind {next : σ → Operation σ β} {after : σ → Except Failure β → Prop} :
    (get >>= next).Keeps terms state after ↔ (next state).Keeps terms state after :=
  Iff.rfl

theorem keeps_command {words : List String} {after : σ → Except Failure Reply → Prop}
    (guaranteed : terms.guarantee state)
    (answered : ∀ state' reply, terms.rely state state' → after state' (.ok reply)) :
    (command words).Keeps terms state after :=
  ⟨guaranteed, answered⟩

end Operation

/-! ## Operations without commands -/

namespace Procedure

/-- Refuses every command, and counts. -/
def counting : Responder Nat σ := fun count state _ => (count + 1, state, .refused "")

theorem le_run_counting (procedure : Procedure σ α) (count : Nat) :
    count ≤ (procedure.run counting count).1 := by
  induction procedure generalizing count with
  | done state result => exact Nat.le_refl count
  | command state words resume induction =>
      exact Nat.le_trans (Nat.le_succ count) (induction state (.refused "") (count + 1))

end Procedure

namespace Operation

/-- What runs no command is done at once. -/
theorem IsQuiet.exists_done {operation : HostOperation α} (quiet : operation.IsQuiet)
    (host : Host) : ∃ host' result, operation host = .done host' result ∧
      host'.sessions = host.sessions := by
  rcases quiet Nat Procedure.counting 0 host with ⟨uncounted, same⟩
  unfold run at uncounted same
  cases asked : operation host with
  | done host' result =>
      rw [asked] at same
      exact ⟨host', result, rfl, same⟩
  | command state words resume =>
      rw [asked] at uncounted
      have counted := Procedure.le_run_counting (resume state (.refused "")) 1
      change (Procedure.run _ 1 _).1 = 0 at uncounted
      rw [uncounted] at counted
      exact absurd counted (Nat.not_succ_le_zero 0)

section Done

variable {first : HostOperation α} {next : α → HostOperation β} {host host' : Host}

/-- What follows an operation that succeeds at once. -/
theorem bind_of_ok {value : α} (done : first host = .done host' (.ok value)) :
    (first >>= next) host = next value host' := by
  change (first host).andThen _ = _
  rw [done]
  rfl

theorem bind_of_error {failure : Failure} (done : first host = .done host' (.error failure)) :
    (first >>= next) host = .done host' (.error failure) := by
  change (first host).andThen _ = _
  rw [done]
  rfl

theorem get_bind_apply {next : Host → HostOperation β} : (get >>= next) host = next host host :=
  rfl

theorem set_bind_apply {next : PUnit → HostOperation β} :
    (set host' >>= next) host = next ⟨⟩ host' :=
  rfl

end Done

end Operation

end UplinkShaper
