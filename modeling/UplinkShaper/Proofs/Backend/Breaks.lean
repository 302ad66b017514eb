import UplinkShaper.Proofs.Backend.Interruptions

/-!
Commands to be chosen. Something is raised at one command of an operation, so that it ends in a
certain way: what comes before that command and what comes after it goes as it always does. What
is not handled breaks off a plan after its first step; what is handled makes a teardown pass over
something that stays.
-/

namespace UplinkShaper

open Kernel

namespace Machine

/-- There is a command of an operation at which something can be raised, so that it ends so. -/
def CanEnd (raised : Reply) (machine : Machine) (host : Host) (operation : HostOperation α)
    (after : Machine → Host → Except Failure α → Prop) : Prop :=
  ∃ index, machine.count ≤ index ∧ operation.Ends (interrupting index false raised) machine host
    fun machine' host' result => IsPast index machine' ∧ after machine' host' result

variable {raised : Reply} {machine : Machine} {host : Host} {words : List String}

/-- The next command is not done. -/
theorem answers_raised (host : Host) :
    interrupting machine.count false raised machine host words =
      ({ kernel := machine.kernel, count := machine.count + 1,
         previous := Command.ofWords? words }, host, raised) :=
  if_pos rfl

namespace CanEnd

theorem weaken {operation : HostOperation α}
    {middle after : Machine → Host → Except Failure α → Prop}
    (canEnd : CanEnd raised machine host operation middle)
    (weaker : ∀ machine host result, middle machine host result → after machine host result) :
    CanEnd raised machine host operation after := by
  rcases canEnd with ⟨index, later, ends⟩
  exact ⟨index, later, ends.weaken fun _ _ _ ended => ⟨ended.1, weaker _ _ _ ended.2⟩⟩

/-- The command is one of the second operation. -/
theorem andThen_of_ends {first : HostOperation α} {next : Except Failure α → HostOperation β}
    {middle : Machine → Host → Except Failure α → Prop}
    {after : Machine → Host → Except Failure β → Prop}
    (ends : first.Ends (answer .none) machine host middle)
    (goesOn : ∀ machine' host' result, middle machine' host' result →
      CanEnd raised machine' host' (next result) after) :
    CanEnd raised machine host (first.andThen next) after := by
  rcases goesOn _ _ _ ends with ⟨index, later, endsToo⟩
  refine ⟨index, (counts_answer.le_run (first host) machine).trans later, ?_⟩
  apply Operation.ends_andThen.mpr
  exact ends_of_short later endsToo

/-- The command is one of the first operation. -/
theorem andThen_of_canEnd {first : HostOperation α} {next : Except Failure α → HostOperation β}
    {middle : Machine → Host → Except Failure α → Prop}
    {after : Machine → Host → Except Failure β → Prop}
    (canEnd : CanEnd raised machine host first middle)
    (goesOn : ∀ machine' host' result, middle machine' host' result →
      (next result).Ends (answer .none) machine' host' after) :
    CanEnd raised machine host (first.andThen next) after := by
  rcases canEnd with ⟨index, later, ends⟩
  refine ⟨index, later, Operation.ends_andThen.mpr (ends.weaken ?_)⟩
  rintro machine' host' result ⟨past, ended⟩
  apply ends_of_past past
  apply ((goesOn machine' host' result ended).and (counts_answer.ends_le _)).weaken
  rintro machine'' _ _ ⟨endedToo, notBefore⟩
  exact ⟨Nat.lt_of_lt_of_le past notBefore, endedToo⟩

theorem bind_of_ends {first : HostOperation α} {next : α → HostOperation β} {value : α}
    {middle : Machine → Host → Except Failure α → Prop}
    {after : Machine → Host → Except Failure β → Prop}
    (ends : first.Ends (answer .none) machine host middle)
    (succeeds : ∀ machine host result, middle machine host result → result = .ok value)
    (goesOn : ∀ machine' host', middle machine' host' (.ok value) →
      CanEnd raised machine' host' (next value) after) :
    CanEnd raised machine host (first >>= next) after := by
  apply andThen_of_ends ends
  intro machine' host' result ended
  cases succeeds machine' host' result ended
  exact goesOn machine' host' ended

theorem bind_of_canEnd {first : HostOperation α} {next : α → HostOperation β} {value : α}
    {middle : Machine → Host → Except Failure α → Prop}
    {after : Machine → Host → Except Failure β → Prop}
    (canEnd : CanEnd raised machine host first middle)
    (succeeds : ∀ machine host result, middle machine host result → result = .ok value)
    (goesOn : ∀ machine' host', middle machine' host' (.ok value) →
      (next value).Ends (answer .none) machine' host' after) :
    CanEnd raised machine host (first >>= next) after := by
  apply andThen_of_canEnd canEnd
  intro machine' host' result ended
  cases succeeds machine' host' result ended
  exact goesOn machine' host' ended

theorem record_bind {shown : LogRecord} {next : Unit → HostOperation α}
    {after : Machine → Host → Except Failure α → Prop}
    (canEnd : CanEnd raised machine (host.logged shown) (next ()) after) :
    CanEnd raised machine host (Host.record shown >>= next) after :=
  canEnd

end CanEnd

/-! ## What goes through -/

variable {interruption : Interruption} {settings : Settings} {base : Kernel} {part : Part}

/-- Something went through, and something holds. -/
def GoesThrough (interruption : Interruption) (holds : Machine → Host → Prop) (machine' : Machine)
    (host' : Host) (result : Except Failure α) : Prop :=
  result = .error (.interrupted interruption) ∧ holds machine' host'

namespace CanEnd

variable {holds : Machine → Host → Prop}

/-- What goes through goes on going through. -/
theorem bind {first : HostOperation α} {next : α → HostOperation β}
    (canEnd : CanEnd raised machine host first (GoesThrough interruption holds)) :
    CanEnd raised machine host (first >>= next) (GoesThrough interruption holds) := by
  apply andThen_of_canEnd canEnd
  rintro machine' host' _ ⟨rfl, held⟩
  exact ⟨rfl, held⟩

end CanEnd

/-- The kernel and the sessions are as they were. -/
def Unchanged (machine : Machine) (host : Host) (machine' : Machine) (host' : Host) : Prop :=
  machine'.kernel = machine.kernel ∧ host'.sessions = host.sessions

theorem canEnd_execute (unhandled : ∀ words, Completion.ofReply words raised =
      .error (.interrupted interruption)) (words : List String) :
    CanEnd raised machine host (Host.execute words)
      (GoesThrough interruption (Unchanged machine host)) := by
  refine ⟨machine.count, Nat.le_refl _, ?_⟩
  apply (ends_execute_of_answers answers_raised (unhandled words)).weaken
  rintro _ host' _ ⟨⟨rfl, sessions⟩, rfl⟩
  exact ⟨Nat.lt_succ_self _, rfl, rfl, sessions⟩

/-- The first command of a step. -/
theorem canEnd_take {step : PlanStep} {next : Part} (builds : step.Builds part next)
    (unhandled : ∀ words, Completion.ofReply words raised = .error (.interrupted interruption)) :
    CanEnd raised machine host (settings.backends.take step)
      (GoesThrough interruption (Unchanged machine host)) := by
  have change (words : List String) : CanEnd raised machine host (Host.change words)
      (GoesThrough interruption (Unchanged machine host)) :=
    (canEnd_execute unhandled words).bind
  have changeWith {α : Type} {result : Except Failure α} {found : α} (written : result = .ok found)
      (command : α → List String) : CanEnd raised machine host
        (do Host.change (command (← result))) (GoesThrough interruption (Unchanged machine host)) := by
    rw [written]
    exact change (command found)
  cases builds with
  | root _ _ _ => exact (change _).bind
  | shapingClass _ _ written _ => exact changeWith written _
  | leafQueue _ _ written _ => exact changeWith written _
  | clearMarks => exact ((canEnd_execute unhandled _).bind).bind
  | attachMarks => exact change _
  | @mark rule _ _ _ _ written => exact changeWith written (settings.marking.mark · rule.mark)
  | logMarks => exact change _
  | markFilter _ _ _ _ => exact change _

/-- A tree with a root class is left, and no chain. -/
def Strands (settings : Settings) (base : Kernel) (host : Host) (machine' : Machine)
    (host' : Host) : Prop :=
  host'.sessions = host.sessions ∧ ∃ default rate, machine'.kernel =
    base.holding settings.device settings.chain ⟨some (.rooted default rate), none, false⟩

/-- A plan of more than one step can be broken off after the first one. -/
theorem canEnd_takeAll {capacity : LinkCapacity} {default : Int} {rest : List PlanStep}
    {last : Part} (free : base.IsFree settings.chain)
    (builds : PlanStep.BuildAll (.root capacity default :: rest) Part.nothing last)
    (goesOn : rest ≠ [])
    (unhandled : ∀ words, Completion.ofReply words raised = .error (.interrupted interruption))
    (holds : machine.kernel = base.holding settings.device settings.chain Part.nothing)
    (total : Nat) :
    CanEnd raised machine host (settings.backends.takeAll total (.root capacity default :: rest))
      (GoesThrough interruption (Strands settings base host)) := by
  cases builds with
  | @cons _ _ _ middle _ buildsRoot buildsRest =>
      cases buildsRest with
      | nil => exact absurd rfl goesOn
      | @cons second others _ _ _ buildsSecond _ =>
          have rooted : ∃ default rate,
              middle = ⟨some (.rooted default rate), none, false⟩ := by
            cases buildsRoot with
            | root _ _ _ => exact ⟨_, _, rfl⟩
          rcases rooted with ⟨number, rate, rfl⟩
          have root (host : Host) : (settings.backends.take (.root capacity default)).Ends
              (answer .none) machine host
              (Leaves settings base host ⟨some (.rooted number rate), none, false⟩) :=
            ((permits_answer .none free).ends_take free buildsRoot holds).weaken
              fun _ _ _ built => Builds.leaves built
          apply CanEnd.record_bind
          apply CanEnd.bind_of_ends (root _) fun _ _ _ left => left.2.1
          rintro machine₁ host₁ ⟨sessions₁, _, holds₁⟩
          apply CanEnd.record_bind
          apply ((canEnd_take buildsSecond unhandled).bind).weaken
          rintro machine₂ host₂ _ ⟨broken, kernel₂, sessions₂⟩
          refine ⟨broken, ?_, number, rate, kernel₂.trans holds₁⟩
          rw [sessions₂, Host.logged_sessions, sessions₁, Host.logged_sessions]

/-! ## What is passed over -/

theorem canEnd_discard (fails : raised.Fails) (words : List String) :
    CanEnd raised machine host (Host.discard words) fun machine' host' result =>
      Unchanged machine host machine' host' ∧ result = .ok false := by
  rcases fails words with ⟨completion, counted, failed⟩
  refine ⟨machine.count, Nat.le_refl _, ?_⟩
  apply (ends_discard_of_answers answers_raised counted).weaken
  rintro _ host' _ ⟨⟨rfl, sessions⟩, rfl⟩
  exact ⟨Nat.lt_succ_self _, ⟨rfl, sessions⟩, by rw [failed]⟩

/-- A removal where nothing fails, whatever came before it. -/
theorem ends_discard_none {command : Command} {next : Part}
    (holds : machine.kernel = base.holding settings.device settings.chain part)
    (asked : Command.ofWords? words = some command)
    (effect : ((base.holding settings.device settings.chain part).after command).getD
        (base.holding settings.device settings.chain part) =
      base.holding settings.device settings.chain next) :
    (Host.discard words).Ends (answer .none) machine host fun machine' host' result =>
      (host'.sessions = host.sessions ∧
        machine'.kernel = base.holding settings.device settings.chain next) ∧
          ∃ removed, result = .ok removed := by
  rcases exists_counted words
    (machine.kernel.after command).isSome with ⟨completion, counted, _⟩
  apply (ends_discard_of_answers (fun _ => answer_none asked) counted).weaken
  rintro _ host₁ _ ⟨⟨rfl, sessions⟩, rfl⟩
  refine ⟨⟨sessions, ?_⟩, _, rfl⟩
  rw [holds]
  exact effect

/-- A teardown can leave the tree. -/
theorem canEnd_teardown_with_tree (fails : raised.Fails) (free : base.IsFree settings.chain)
    (holds : machine.kernel = base.holding settings.device settings.chain part) :
    CanEnd raised machine host settings.backends.teardown
      (Leaves settings base host ⟨part.tree, none, false⟩) := by
  have clears : CanEnd raised machine host settings.shaper.clear (Leaves settings base host part) := by
    apply (canEnd_discard fails _).bind_of_canEnd fun _ _ _ => And.right
    rintro machine₁ host₁ ⟨⟨kernel₁, sessions₁⟩, _⟩
    apply Tried.bind (ends_discard_part (kernel₁.trans holds) settings.shaper.ofWords?_dropIngress
      rfl rfl)
    intro machine₂ host₂ _ sessions₂ _ holds₂
    exact ⟨sessions₂.trans sessions₁, rfl, holds₂⟩
  apply clears.bind_of_canEnd fun _ _ _ left => left.2.1
  rintro machine₁ host₁ ⟨sessions₁, _, holds₁⟩
  apply (ends_removeChain free holds₁).weaken
  exact fun _ _ _ left => ⟨left.1.trans sessions₁, left.2⟩

/-- A chain that a hook leads to is not removed. -/
theorem after_remove_of_hooked {rules : Option (List (List String))} {tree : Option QueueTree} :
    (base.holding settings.device settings.chain ⟨tree, rules, true⟩).after
      (.remove settings.chain) = none := by
  simp [after, holding]

/-- A teardown can leave the hook, and then the chain is left too. -/
theorem canEnd_teardown_with_hook (fails : raised.Fails) {rules : List (List String)}
    {tree : Option QueueTree}
    (holds : machine.kernel =
      base.holding settings.device settings.chain ⟨tree, some rules, true⟩) :
    CanEnd raised machine host settings.backends.teardown
      (Leaves settings base host ⟨none, some [], true⟩) := by
  apply CanEnd.bind_of_ends (ends_clearShaper holds) fun _ _ _ left => left.2.1
  rintro machine₁ host₁ ⟨sessions₁, _, holds₁⟩
  have unhooks : CanEnd raised machine₁ host₁ settings.marking.unhook
      fun machine' host' result => Unchanged machine₁ host₁ machine' host' ∧ result = .ok () := by
    apply (canEnd_discard fails _).bind_of_canEnd fun _ _ _ => And.right
    exact fun _ _ ended => ⟨ended.1, rfl⟩
  apply unhooks.bind_of_canEnd fun _ _ _ => And.right
  rintro machine₂ host₂ ⟨⟨kernel₂, sessions₂⟩, _⟩
  apply (ends_discard_none (kernel₂.trans holds₁) settings.ofWords?_empty
    (getD_after_empty base _ _ _)).bind
  · rintro machine₃ host₃ _ ⟨⟨sessions₃, holds₃⟩, _⟩
    apply (ends_discard_none holds₃ settings.ofWords?_remove
      (by rw [after_remove_of_hooked]; rfl)).bind
    · rintro machine₄ host₄ _ ⟨⟨sessions₄, holds₄⟩, _⟩
      exact ⟨sessions₄.trans (sessions₃.trans (sessions₂.trans sessions₁)), rfl, holds₄⟩
    · rintro _ _ _ ⟨_, _, ⟨⟩⟩
  · rintro _ _ _ ⟨_, _, ⟨⟩⟩

end Machine

end UplinkShaper
