import UplinkShaper.Proofs.Backend.Steps
import UplinkShaper.Proofs.Command.Runners

/-!
Runs in which something is raised at one command, which is done all the same or is not done.
Before and after that command nothing is different. What counts as a failed command ends a step
or is passed over where a removal was tried; anything else goes through. Either way nothing of
the kernel changes but the part of the backends.
-/

namespace UplinkShaper

open Kernel

namespace Reply

/-- A reply that stands for something that was raised. -/
def isRaised : Reply → Bool
  | .finished .. => false
  | _ => true

/-- What is raised and handled counts as the failure of a command. -/
theorem fails_of_isHandled {reply : Reply} (isRaised : reply.isRaised = true)
    (isHandled : reply.isHandled = true) : reply.Fails := by
  intro words
  cases reply with
  | finished code output errors => cases isRaised
  | refused text => exact ⟨_, rfl, rfl⟩
  | interrupted interruption =>
      cases interruption with
      | subprocess text => exact ⟨_, rfl, rfl⟩
      | timeout text => exact ⟨_, rfl, rfl⟩
      | runtime text => cases isHandled
      | keyboard => cases isHandled

/-- What is not handled goes through. -/
theorem exists_interruption {reply : Reply} (unhandled : reply.isHandled = false) :
    ∃ interruption, ∀ words, Completion.ofReply words reply =
      .error (.interrupted interruption) := by
  cases reply with
  | finished code output errors => cases unhandled
  | refused text => cases unhandled
  | interrupted interruption =>
      cases interruption with
      | subprocess text => cases unhandled
      | timeout text => cases unhandled
      | runtime text => exact ⟨_, fun _ => rfl⟩
      | keyboard => exact ⟨_, fun _ => rfl⟩

end Reply

namespace Machine

/-- Raises something at one command, by its number, which is done or not done. -/
def interrupting (index : Nat) (isDone : Bool) (raised : Reply) :
    Procedure.Responder Machine Host :=
  fun machine host words =>
    let answered := answer .none machine host words
    if machine.count = index then
      ({ answered.1 with kernel := if isDone then answered.1.kernel else machine.kernel },
        answered.2.1, raised)
    else answered

variable {index : Nat} {isDone : Bool} {raised : Reply} {machine : Machine} {host : Host}
  {words : List String}

theorem interrupting_of_ne (other : machine.count ≠ index) :
    interrupting index isDone raised machine host words = answer .none machine host words :=
  if_neg other

/-- Where nothing fails, a command takes effect if it can. -/
theorem answer_none {command : Command} (asked : Command.ofWords? words = some command) :
    answer .none machine host words =
      ({ kernel := (machine.kernel.after command).getD machine.kernel,
         count := machine.count + 1, previous := some command }, host,
        if (machine.kernel.after command).isSome then success else refusal) := by
  have unscripted : (if command.isChange machine.previous then
      FailureScript.none.reply? machine.count else none) = none := ite_self _
  rw [answer_of_asked asked, reply, unscripted]
  cases machine.kernel.after command with
  | none => rfl
  | some next => rfl

theorem interrupting_self {command : Command} (asked : Command.ofWords? words = some command) :
    interrupting machine.count isDone raised machine host words =
      ({ kernel := if isDone then (machine.kernel.after command).getD machine.kernel
           else machine.kernel,
         count := machine.count + 1, previous := some command }, host, raised) := by
  rw [interrupting, answer_none asked]
  exact if_pos rfl

theorem answers_of_ne {command : Command} (other : machine.count ≠ index)
    (asked : Command.ofWords? words = some command) (host : Host) :
    interrupting index isDone raised machine host words =
      ({ kernel := (machine.kernel.after command).getD machine.kernel,
         count := machine.count + 1, previous := some command }, host,
        if (machine.kernel.after command).isSome then success else refusal) :=
  (interrupting_of_ne other).trans (answer_none asked)

/-- What is answered where nothing is raised counts as run. -/
theorem exists_counted (words : List String) (hasEffect : Bool) :
    ∃ completion, Completion.ofReply words (if hasEffect then success else refusal) =
      .ok completion ∧ completion.isSuccess = hasEffect := by
  cases hasEffect with
  | true => exact ⟨_, rfl, rfl⟩
  | false => exact ⟨_, rfl, rfl⟩

/-! ## Before and after -/

/-- Every command is counted. -/
def Counts (responder : Procedure.Responder Machine Host) : Prop :=
  ∀ machine host words, (responder machine host words).1.count = machine.count + 1

theorem counts_answer : Counts (answer .none) :=
  fun _ _ _ => rfl

theorem counts_interrupting : Counts (interrupting index isDone raised) := by
  intro machine host words
  by_cases hit : machine.count = index
  · rw [interrupting, if_pos hit]
    rfl
  · rw [interrupting_of_ne hit]
    rfl

section Counted

variable {left right : Procedure.Responder Machine Host}

theorem Counts.le_run (counts : Counts left) (procedure : Procedure Host α) (machine : Machine) :
    machine.count ≤ (procedure.run left machine).1.count := by
  induction procedure generalizing machine with
  | done state result => exact Nat.le_refl _
  | command state words resume induction =>
      have later := induction (left machine state words).2.1 (left machine state words).2.2
        (left machine state words).1
      rw [counts] at later
      exact Nat.le_trans (Nat.le_succ _) later

theorem Counts.ends_le (counts : Counts left) (operation : HostOperation α) :
    operation.Ends left machine host fun machine' _ _ => machine.count ≤ machine'.count :=
  counts.le_run (operation host) machine

/-- Who answers alike but for one command answers alike where that command is over, or does
not come. -/
theorem Counts.run_congr (counts : Counts left)
    (agree : ∀ machine host words, machine.count ≠ index →
      left machine host words = right machine host words)
    (procedure : Procedure Host α) (machine : Machine)
    (apart : index < machine.count ∨ (procedure.run left machine).1.count ≤ index) :
    procedure.run left machine = procedure.run right machine := by
  induction procedure generalizing machine with
  | done state result => rfl
  | command state words resume induction =>
      have later : machine.count + 1 ≤
          ((Procedure.command state words resume).run left machine).1.count := by
        rw [← counts machine state words]
        exact counts.le_run _ _
      have same : left machine state words = right machine state words := by
        apply agree
        omega
      have goesOn := induction (left machine state words).2.1 (left machine state words).2.2
        (left machine state words).1
      rw [counts] at goesOn
      change _ = (resume _ _).run right (right machine state words).1
      rw [← same]
      exact goesOn (apart.imp_left Nat.lt_succ_of_lt)

end Counted

section Apart

variable {operation : HostOperation α} {after : Machine → Host → Except Failure α → Prop}

theorem ends_of_past (past : index < machine.count)
    (ends : operation.Ends (answer .none) machine host after) :
    operation.Ends (interrupting index isDone raised) machine host after := by
  unfold Operation.Ends Operation.run
  rw [counts_interrupting.run_congr (fun _ _ _ other => interrupting_of_ne other) _ _ (.inl past)]
  exact ends

/-- An operation that is over before the command comes. -/
theorem ends_of_short
    (short : operation.Ends (answer .none) machine host fun machine' _ _ =>
      machine'.count ≤ index)
    (ends : operation.Ends (answer .none) machine host after) :
    operation.Ends (interrupting index isDone raised) machine host after := by
  unfold Operation.Ends Operation.run
  rw [← counts_answer.run_congr (fun _ _ _ other => (interrupting_of_ne other).symm) _ _
    (.inr short)]
  exact ends

/-- If the command has not come where an operation is over, nothing is different. -/
theorem ends_unless_reached (ends : operation.Ends (answer .none) machine host after) :
    operation.Ends (interrupting index isDone raised) machine host fun machine' host' result =>
      machine'.count ≤ index → after machine' host' result := by
  intro short
  unfold Operation.run
  rw [counts_interrupting.run_congr (fun _ _ _ other => interrupting_of_ne other) _ _
    (.inr short)]
  exact ends

end Apart

/-! ## Single commands -/

section Single

variable {responder : Procedure.Responder Machine Host} {machine' : Machine} {reply : Reply}

/-- A command came to something, and nothing else happened. -/
def ComesTo (result : Except Failure α) (host : Host) (machine' memory : Machine) (host' : Host)
    (found : Except Failure α) : Prop :=
  (memory = machine' ∧ host'.sessions = host.sessions) ∧ found = result

theorem ends_execute_of_answers {result : Except Failure Completion}
    (answers : ∀ host, responder machine host words = (machine', host, reply))
    (counted : Completion.ofReply words reply = result) :
    (Host.execute words).Ends responder machine host (ComesTo result host machine') := by
  rw [ends_execute, answers]
  exact ⟨⟨rfl, host.logged_sessions _⟩, counted⟩

/-- A change whose command counts as run. -/
theorem ends_change_of_answers {completion : Completion}
    (answers : ∀ host, responder machine host words = (machine', host, reply))
    (counted : Completion.ofReply words reply = .ok completion) :
    (Host.change words).Ends responder machine host (ComesTo
      (if completion.isSuccess then .ok () else .error (.apply completion.failure)) host
        machine') := by
  apply (ends_execute_of_answers answers counted).bind_ok fun _ _ _ => And.right
  rintro _ host₁ ⟨ended, _⟩
  cases completion.isSuccess with
  | true => exact ⟨ended, rfl⟩
  | false => exact ⟨ended, rfl⟩

/-- A removal whose command counts as run. -/
theorem ends_discard_of_answers {completion : Completion}
    (answers : ∀ host, responder machine host words = (machine', host, reply))
    (counted : Completion.ofReply words reply = .ok completion) :
    (Host.discard words).Ends responder machine host
      (ComesTo (.ok completion.isSuccess) host machine') := by
  apply (ends_execute_of_answers answers counted).bind_ok fun _ _ _ => And.right
  rintro _ host₁ ⟨⟨same, sessions⟩, _⟩
  cases completion.isSuccess with
  | true => exact ⟨⟨same, sessions⟩, rfl⟩
  | false => exact ⟨⟨same, (host₁.logged_sessions _).trans sessions⟩, rfl⟩

end Single

/-! ## Steps that are interrupted -/

variable {settings : Settings} {base : Kernel} {part : Part}

/-- A change that cannot take effect fails. -/
theorem ends_change_refused {command : Command}
    (holds : machine.kernel = base.holding settings.device settings.chain part)
    (asked : Command.ofWords? words = some command)
    (noEffect : (base.holding settings.device settings.chain part).after command = none) :
    (Host.change words).Ends (answer .none) machine host fun machine' host' result =>
      host'.sessions = host.sessions ∧ machine.count < machine'.count ∧
        machine'.kernel = base.holding settings.device settings.chain part ∧
          ∃ failure, result = .error (.apply failure) := by
  rcases exists_counted words
    (machine.kernel.after command).isSome with ⟨completion, counted, succeeded⟩
  apply (ends_change_of_answers (fun _ => answer_none asked) counted).weaken
  rintro _ host₁ _ ⟨⟨rfl, sessions⟩, rfl⟩
  rw [succeeded, holds, noEffect]
  exact ⟨sessions, Nat.lt_succ_self _, rfl, _, rfl⟩

/-- The command at which something is raised is over. -/
def IsPast (index : Nat) (machine : Machine) : Prop :=
  index < machine.count

theorem ends_change_interrupting {command : Command} {next : Part} (fails : raised.Fails)
    (holds : machine.kernel = base.holding settings.device settings.chain part)
    (asked : Command.ofWords? words = some command)
    (effect : (base.holding settings.device settings.chain part).after command =
      some (base.holding settings.device settings.chain next)) :
    (Host.change words).Ends (interrupting index isDone raised) machine host
      (Reaches (IsPast index) settings base host next) := by
  by_cases hit : machine.count = index
  · subst hit
    rcases fails words with ⟨completion, counted, failed⟩
    apply (ends_change_of_answers (fun _ => interrupting_self asked) counted).weaken
    rintro _ host₁ _ ⟨⟨rfl, sessions⟩, rfl⟩
    rw [failed]
    refine ⟨sessions, .inr ⟨⟨Nat.lt_succ_self _, _, rfl⟩, ?_⟩⟩
    rw [holds, effect]
    cases isDone with
    | true => exact ⟨next, rfl⟩
    | false => exact ⟨part, rfl⟩
  · rcases exists_counted words
      (machine.kernel.after command).isSome with ⟨completion, counted, succeeded⟩
    apply (ends_change_of_answers (answers_of_ne hit asked) counted).weaken
    rintro _ host₁ _ ⟨⟨rfl, sessions⟩, rfl⟩
    rw [succeeded, holds, effect]
    exact ⟨sessions, .inl ⟨rfl, rfl⟩⟩

/-- A removal does not fail; it has its effect, or what was raised is in the past. -/
theorem ends_discard_interrupting {command : Command} {next : Part} (fails : raised.Fails)
    (holds : machine.kernel = base.holding settings.device settings.chain part)
    (asked : Command.ofWords? words = some command)
    (effect : ((base.holding settings.device settings.chain part).after command).getD
        (base.holding settings.device settings.chain part) =
      base.holding settings.device settings.chain next) :
    (Host.discard words).Ends (interrupting index isDone raised) machine host
      fun machine' host' result => host'.sessions = host.sessions ∧
        (∃ removed, result = .ok removed) ∧
          (machine'.kernel = base.holding settings.device settings.chain next ∨
            IsPast index machine' ∧
              machine'.kernel = base.holding settings.device settings.chain part) := by
  by_cases hit : machine.count = index
  · subst hit
    rcases fails words with ⟨completion, counted, failed⟩
    apply (ends_discard_of_answers (fun _ => interrupting_self asked) counted).weaken
    rintro _ host₁ _ ⟨⟨rfl, sessions⟩, rfl⟩
    refine ⟨sessions, ⟨_, rfl⟩, ?_⟩
    rw [holds, effect]
    cases isDone with
    | true => exact .inl rfl
    | false => exact .inr ⟨Nat.lt_succ_self _, rfl⟩
  · rcases exists_counted words
      (machine.kernel.after command).isSome with ⟨completion, counted, _⟩
    apply (ends_discard_of_answers (answers_of_ne hit asked) counted).weaken
    rintro _ host₁ _ ⟨⟨rfl, sessions⟩, rfl⟩
    refine ⟨sessions, ⟨_, rfl⟩, .inl ?_⟩
    rw [holds]
    exact effect

/-- Where there is no hook, looking for hooks changes nothing. -/
theorem ends_unhook_interrupting (fails : raised.Fails) (free : base.IsFree settings.chain)
    (unhooked : part.isHooked = false)
    (holds : machine.kernel = base.holding settings.device settings.chain part) :
    settings.marking.unhook.Ends (interrupting index isDone raised) machine host
      (Leaves settings base host part) := by
  have noEffect := after_unhook_of_unhooked settings.device free unhooked
  have stops : (Host.discard settings.marking.detach).Ends (interrupting index isDone raised)
      machine host fun machine' host' result =>
        (host'.sessions = host.sessions ∧
          machine'.kernel = base.holding settings.device settings.chain part) ∧
            result = .ok false := by
    by_cases hit : machine.count = index
    · subst hit
      rcases fails settings.marking.detach with ⟨completion, counted, failed⟩
      apply (ends_discard_of_answers (fun _ => interrupting_self settings.ofWords?_detach)
        counted).weaken
      rintro _ host₁ _ ⟨⟨rfl, sessions⟩, rfl⟩
      rw [holds, noEffect, failed]
      exact ⟨⟨sessions, ite_self _⟩, rfl⟩
    · rcases exists_counted settings.marking.detach (machine.kernel.after
        (.unhook settings.device settings.chain)).isSome with ⟨completion, counted, succeeded⟩
      apply (ends_discard_of_answers (answers_of_ne hit settings.ofWords?_detach) counted).weaken
      rintro _ host₁ _ ⟨⟨rfl, sessions⟩, rfl⟩
      rw [succeeded, holds, noEffect]
      exact ⟨⟨sessions, rfl⟩, rfl⟩
  apply stops.bind_ok fun _ _ _ => And.right
  rintro machine₁ host₁ ⟨⟨sessions, holds₁⟩, _⟩
  exact ⟨sessions, rfl, holds₁⟩

theorem ends_clear_interrupting {tree : Option QueueTree} (fails : raised.Fails)
    (free : base.IsFree settings.chain)
    (holds : machine.kernel = base.holding settings.device settings.chain ⟨tree, none, false⟩) :
    settings.marking.clear.Ends (interrupting index isDone raised) machine host
      (Reaches (IsPast index) settings base host ⟨tree, some [], false⟩) := by
  have created : (base.holding settings.device settings.chain ⟨tree, none, false⟩).after
      (.create settings.chain) = some (base.holding settings.device settings.chain
        ⟨tree, some [], false⟩) := after_create free rfl
  apply (ends_discard_interrupting fails holds settings.ofWords?_create
    (by rw [created]; rfl)).bind
  · rintro machine₁ host₁ _ ⟨sessions₁, _, holds₁ | ⟨past, holds₁⟩⟩
    · have builds : (do Host.change settings.marking.empty; settings.marking.unhook :
          HostOperation Unit).Ends (interrupting index isDone raised) machine₁ host₁
            (Reaches (IsPast index) settings base host₁ ⟨tree, some [], false⟩) := by
        apply Reaches.bind (ends_change_interrupting fails holds₁ settings.ofWords?_empty
          (after_empty rfl))
        intro machine₂ host₂ holds₂
        apply (ends_unhook_interrupting fails free rfl holds₂).weaken
        exact fun _ _ _ ended => ⟨ended.1, .inl ended.2⟩
      apply builds.weaken
      exact fun _ _ _ ended => ⟨ended.1.trans sessions₁, ended.2⟩
    -- The chain that was not created cannot be emptied.
    · apply ends_of_past past
      apply Operation.Ends.bind_error
      apply (ends_change_refused holds₁ settings.ofWords?_empty (after_empty_of_absent rfl)).weaken
      rintro machine₂ host₂ _ ⟨sessions₂, later, holds₂, failure, rfl⟩
      exact ⟨_, rfl, sessions₂.trans sessions₁, .inr ⟨⟨past.trans later, _, rfl⟩, _, holds₂⟩⟩
  · rintro _ _ _ ⟨_, ⟨_, ⟨⟩⟩, _⟩

theorem permits_interrupting (fails : raised.Fails) (free : base.IsFree settings.chain) :
    Permits (interrupting index isDone raised) (IsPast index) settings base where
  change := ends_change_interrupting fails
  clear := ends_clear_interrupting fails free

end Machine

end UplinkShaper
