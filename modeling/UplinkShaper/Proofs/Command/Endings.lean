import UplinkShaper.Command.Procedure

/-!
What holds where an operation ends. An operation is followed part by part: each part has
a relation between the memory of whoever answers its commands, the state and the result,
and the next part goes on from there.
-/

namespace UplinkShaper

namespace Operation

variable {ρ σ α β : Type} {responder : Procedure.Responder ρ σ} {memory : ρ} {state : σ}

/-- What follows an operation in three parts, whatever came of it, may follow it as one. -/
theorem andThen_three {γ δ : Type} {first : Operation σ α}
    {second : Except Failure α → Operation σ β} {third : Except Failure β → Operation σ γ}
    {fourth : Except Failure γ → Operation σ δ} {next : Except Failure α → Operation σ δ}
    (same : ∀ found, ((second found).andThen third).andThen fourth = next found) :
    ((first.andThen second).andThen third).andThen fourth = first.andThen next := by
  funext state
  change ((Procedure.andThen (first state) _).andThen _).andThen _ = Procedure.andThen _ _
  rw [Procedure.andThen_assoc, Procedure.andThen_assoc]
  apply congrArg
  funext state found
  rw [← same found]
  exact (Procedure.andThen_assoc ..).symm

/-- Where an operation ends, something holds of the memory, the state and the result. -/
def Ends (responder : Procedure.Responder ρ σ) (memory : ρ) (state : σ)
    (operation : Operation σ α) (after : ρ → σ → Except Failure α → Prop) : Prop :=
  let ending := operation.run responder memory state
  after ending.1 ending.2.1 ending.2.2

theorem Ends.weaken {operation : Operation σ α} {middle after : ρ → σ → Except Failure α → Prop}
    (ends : operation.Ends responder memory state middle)
    (weaker : ∀ memory state result, middle memory state result → after memory state result) :
    operation.Ends responder memory state after :=
  weaker _ _ _ ends

theorem Ends.and {operation : Operation σ α} {left right : ρ → σ → Except Failure α → Prop}
    (ends : operation.Ends responder memory state left)
    (endsToo : operation.Ends responder memory state right) :
    operation.Ends responder memory state fun memory state result =>
      left memory state result ∧ right memory state result :=
  ⟨ends, endsToo⟩

theorem ends_andThen {first : Operation σ α} {next : Except Failure α → Operation σ β}
    {after : ρ → σ → Except Failure β → Prop} :
    (first.andThen next).Ends responder memory state after ↔
      first.Ends responder memory state fun memory state result =>
        (next result).Ends responder memory state after := by
  simp only [Ends, run, andThen, Procedure.run_andThen]

/-! ## Parts of operations -/

theorem Ends.bind {first : Operation σ α} {next : α → Operation σ β}
    {middle : ρ → σ → Except Failure α → Prop} {after : ρ → σ → Except Failure β → Prop}
    (ends : first.Ends responder memory state middle)
    (goesOn : ∀ memory state value, middle memory state (.ok value) →
      (next value).Ends responder memory state after)
    (fails : ∀ memory state failure, middle memory state (.error failure) →
      after memory state (.error failure)) :
    (first >>= next).Ends responder memory state after := by
  refine ends_andThen.mpr (ends.weaken fun memory state result holds => ?_)
  cases result with
  | ok value => exact goesOn memory state value holds
  | error failure => exact fails memory state failure holds

/-- What follows an operation that does not fail. -/
theorem Ends.bind_ok {first : Operation σ α} {next : α → Operation σ β} {value : α}
    {middle : ρ → σ → Except Failure α → Prop} {after : ρ → σ → Except Failure β → Prop}
    (ends : first.Ends responder memory state middle)
    (succeeds : ∀ memory state result, middle memory state result → result = .ok value)
    (goesOn : ∀ memory state, middle memory state (.ok value) →
      (next value).Ends responder memory state after) :
    (first >>= next).Ends responder memory state after := by
  apply ends.bind
  · intro memory state found holds
    cases succeeds memory state _ holds
    exact goesOn memory state holds
  · intro memory state failure holds
    cases succeeds memory state _ holds

/-- What follows an operation that fails is not begun. -/
theorem Ends.bind_error {first : Operation σ α} {next : α → Operation σ β}
    {after : ρ → σ → Except Failure β → Prop}
    (ends : first.Ends responder memory state fun memory state result =>
      ∃ failure, result = .error failure ∧ after memory state (.error failure)) :
    (first >>= next).Ends responder memory state after := by
  apply ends.bind
  · rintro _ _ _ ⟨_, ⟨⟩, _⟩
  · rintro _ _ _ ⟨_, ⟨⟩, holds⟩
    exact holds

theorem Ends.tryCatch {body : Operation σ α} {handle : Failure → Operation σ α}
    {middle after : ρ → σ → Except Failure α → Prop}
    (ends : body.Ends responder memory state middle)
    (succeeds : ∀ memory state value, middle memory state (.ok value) →
      after memory state (.ok value))
    (fails : ∀ memory state failure, middle memory state (.error failure) →
      (handle failure).Ends responder memory state after) :
    (tryCatch body handle).Ends responder memory state after := by
  refine ends_andThen.mpr (ends.weaken fun memory state result holds => ?_)
  cases result with
  | ok value => exact succeeds memory state value holds
  | error failure => exact fails memory state failure holds

theorem ends_get_bind {next : σ → Operation σ β} {after : ρ → σ → Except Failure β → Prop} :
    (get >>= next).Ends responder memory state after ↔
      (next state).Ends responder memory state after :=
  Iff.rfl

theorem ends_set_bind {next : PUnit → Operation σ β} {after : ρ → σ → Except Failure β → Prop}
    {state' : σ} :
    (set state' >>= next).Ends responder memory state after ↔
      (next ⟨⟩).Ends responder memory state' after :=
  Iff.rfl

theorem ends_modify {change : σ → σ} {after : ρ → σ → Except Failure PUnit → Prop} :
    (modify change : Operation σ PUnit).Ends responder memory state after ↔
      after memory (change state) (.ok ⟨⟩) :=
  Iff.rfl

/-- A result that is known needs no relation of its own. -/
theorem ends_lift_bind {result : Except Failure α} {value : α} {next : α → Operation σ β}
    {after : ρ → σ → Except Failure β → Prop} (succeeded : result = .ok value) :
    ((liftM result : Operation σ α) >>= next).Ends responder memory state after ↔
      (next value).Ends responder memory state after := by
  rw [succeeded]
  rfl

/-- What follows an operation has to succeed, whatever the operation comes to. -/
theorem Ends.ensuring {operation : Operation σ α} {last : Operation σ Unit}
    {middle after : ρ → σ → Except Failure α → Prop}
    (ends : operation.Ends responder memory state middle)
    (follows : ∀ memory state result, middle memory state result →
      last.Ends responder memory state fun memory state done =>
        done = .ok () ∧ after memory state result) :
    (operation.ensuring last).Ends responder memory state after := by
  refine ends_andThen.mpr (ends.weaken fun memory state result holds => ?_)
  refine (follows memory state result holds).bind (fun _ _ _ finished => finished.2) ?_
  rintro _ _ _ ⟨impossible, _⟩
  cases impossible

end Operation

end UplinkShaper
