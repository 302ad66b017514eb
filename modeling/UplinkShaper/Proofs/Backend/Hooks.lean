import UplinkShaper.Proofs.Backend.Answers
import UplinkShaper.Proofs.Backend.Orders
import UplinkShaper.Proofs.Command.Transcripts

/-!
Hooks of others. A hook is removed by a command that names its device and its chain, and the
orders of backends name no others than their own; so a hook that some backends have left in the
kernel stays there, whatever is ordered for a different device or chain.
-/

namespace UplinkShaper

open Kernel

/-! ## What is asked for orders -/

/-- Whether a command is run for an order. -/
def Order.Asks (words : List String) : Order → Prop
  | .required own | .tried own => words = own
  | .unhook marking => words = marking.detach
  | .unwritable _ => False

theorem Unhooks.asked {marking : Marking} {count : Nat} {exchanges : List Exchange}
    (unhooks : Unhooks marking count exchanges) :
    ∀ exchange ∈ exchanges, exchange.words = marking.detach := by
  induction unhooks with
  | enough => exact List.forall_mem_nil _
  | absent _ => exact List.forall_mem_singleton.mpr rfl
  | removed _ _ induction => exact List.forall_mem_cons.mpr ⟨rfl, induction⟩

/-- Every command is run for one of the orders. -/
theorem Runs.asked {orders : List Order} {exchanges : List Exchange}
    {result : Except Failure Unit} (runs : Runs orders exchanges result) :
    ∀ exchange ∈ exchanges, ∃ order ∈ orders, order.Asks exchange.words := by
  have later {order : Order} {rest : List Order} {more : List Exchange}
      (asked : ∀ exchange ∈ more, ∃ order ∈ rest, order.Asks exchange.words) :
      ∀ exchange ∈ more, ∃ other ∈ order :: rest, other.Asks exchange.words := by
    intro exchange among
    rcases asked exchange among with ⟨other, member, asks⟩
    exact ⟨other, List.mem_cons_of_mem _ member, asks⟩
  induction runs with
  | nil => exact List.forall_mem_nil _
  | required _ _ induction =>
      exact List.forall_mem_cons.mpr ⟨⟨_, List.mem_cons_self .., rfl⟩, later induction⟩
  | failed _ => exact List.forall_mem_singleton.mpr ⟨_, List.mem_cons_self .., rfl⟩
  | tried _ induction =>
      exact List.forall_mem_cons.mpr ⟨⟨_, List.mem_cons_self .., rfl⟩, later induction⟩
  | unhook unhooks _ induction =>
      refine List.forall_mem_append.mpr ⟨fun exchange among => ?_, later induction⟩
      exact ⟨_, List.mem_cons_self .., unhooks.asked exchange among⟩
  | unwritable => exact List.forall_mem_nil _

/-! ## Removed hooks -/

namespace Kernel

variable {device chain : String}

/-- The words of a command that removes a hook. -/
theorem Command.words_of_unhook {words : List String}
    (asked : Command.ofWords? words = some (.unhook device chain)) :
    ∃ tool, words = [tool, "-t", "mangle", "-D", "POSTROUTING", "-o", device, "-j", chain] := by
  unfold ofWords? at asked
  split at asked
  case h_1 tool rest =>
    unfold marking? at asked
    split at asked
    case h_2 device chain =>
      cases asked
      exact ⟨tool, rfl⟩
    all_goals cases asked
  case h_2 tool rest _ =>
    unfold shaping? at asked
    split at asked
    all_goals simp [Option.bind_eq_some_iff] at asked
  case h_3 => cases asked

/-- A hook stays in the kernel unless it is removed itself. -/
theorem mem_hooks_of_after {kernel next : Kernel} {command : Command}
    (effect : kernel.after command = some next) (isOther : command ≠ .unhook device chain)
    (hooked : (device, chain) ∈ kernel.hooks) : (device, chain) ∈ next.hooks := by
  cases command with
  | unhook other name =>
      simp only [after] at effect
      split at effect
      · cases effect
        refine (List.mem_erase_of_ne ?_).mpr hooked
        rintro ⟨⟩
        exact isOther rfl
      · cases effect
  | hook other name =>
      simp only [after] at effect
      split at effect
      · cases effect
        exact List.mem_append_left _ hooked
      · cases effect
  | addRoot other root default =>
      simp only [after] at effect
      split at effect
      · cases effect
      · cases effect
        exact hooked
  | create name =>
      simp only [after] at effect
      split at effect
      · cases effect
      · cases effect
        exact hooked
  | remove name =>
      simp only [after] at effect
      split at effect
      · cases effect
        exact hooked
      · cases effect
  | dropIngress other => cases effect
  | addClass other item | addQueue other item | addFilter other parent item =>
      simp only [after, Option.bind_eq_bind, Option.bind_eq_some_iff, Option.pure_def,
        Option.some.injEq] at effect
      rcases effect with ⟨_, _, _, _, rfl⟩
      exact hooked
  | dropRoot other | empty name | append name rule =>
      simp only [after, Option.bind_eq_bind, Option.bind_eq_some_iff, Option.pure_def,
        Option.some.injEq] at effect
      rcases effect with ⟨_, _, rfl⟩
      exact hooked

end Kernel

/-! ## Machines as runners -/

namespace Machine

variable {script : FailureScript} {machine machine' : Machine} {exchanges : List Exchange}

/-- A machine that answers whatever it is asked, and asks for no host. -/
def replying (script : FailureScript) : Runner Machine := fun machine words =>
  let asked := Command.ofWords? words
  let replied := (asked.map (machine.reply script)).getD (machine.kernel, refusal)
  ({ kernel := replied.1, count := machine.count + 1, previous := asked }, replied.2)

theorem answer_eq (script : FailureScript) : answer script = undisturbed (replying script) :=
  rfl

theorem mem_hooks_of_reply {device chain : String} {command : Command}
    (isOther : command ≠ .unhook device chain)
    (hooked : (device, chain) ∈ machine.kernel.hooks) :
    (device, chain) ∈ (machine.reply script command).1.hooks := by
  unfold reply
  split
  case h_1 => exact hooked
  case h_2 => exact hooked
  case h_3 next _ effect => exact mem_hooks_of_after effect isOther hooked

theorem mem_hooks_of_answers {device chain : String}
    (answers : (replying script).Answers machine exchanges machine')
    (areOthers : ∀ exchange ∈ exchanges,
      Command.ofWords? exchange.words ≠ some (.unhook device chain))
    (hooked : (device, chain) ∈ machine.kernel.hooks) :
    (device, chain) ∈ machine'.kernel.hooks := by
  induction exchanges generalizing machine with
  | nil =>
      cases answers
      exact hooked
  | cons exchange rest induction =>
      rcases List.forall_mem_cons.mp areOthers with ⟨isOther, others⟩
      refine induction answers.2 others ?_
      unfold replying
      dsimp only
      cases asked : Command.ofWords? exchange.words with
      | none => exact hooked
      | some command =>
          rw [asked] at isOther
          exact mem_hooks_of_reply (fun same => isOther (congrArg some same)) hooked

/-- What cannot be read fails. -/
theorem isSome_ofWords?_of_answers (answers : (replying script).Answers machine exchanges machine')
    {exchange : Exchange} (among : exchange ∈ exchanges) (succeeded : exchange.failure? = none) :
    (Command.ofWords? exchange.words).isSome := by
  have read : ∀ exchange ∈ exchanges, exchange.failure? = none →
      (Command.ofWords? exchange.words).isSome := by
    refine answers.forall ?_
    intro machine words replied
    unfold replying at replied
    cases asked : Command.ofWords? words with
    | none =>
        rw [asked] at replied
        cases replied
    | some command => rfl
  exact read exchange among succeeded

end Machine

/-! ## Orders of backends -/

theorem Order.exists_of_asks_ofWords {written : Except Failure α} {command : α → List String}
    {words : List String} (asks : (Order.ofWords (command <$> written)).Asks words) :
    ∃ value, words = command value := by
  cases written with
  | ok value => exact ⟨value, asks⟩
  | error failure => cases asks

namespace Backends

variable {backends : Backends} {order : Order} {words : List String}

theorem not_deletes {word : String} (isWord : words[3]? = some word) (isOther : word ≠ "-D") :
    words[3]? ≠ some "-D" := by
  rw [isWord]
  exact fun same => isOther (Option.some.inj same)

/-- The only command for a plan that deletes from a chain is the one for the own hook. -/
theorem eq_detach_of_mem_orders {step : PlanStep} (member : order ∈ step.orders backends)
    (asks : order.Asks words) (deletes : words[3]? = some "-D") :
    words = backends.marking.detach := by
  cases step with
  | root capacity default =>
      simp only [PlanStep.orders, List.mem_cons, List.not_mem_nil, or_false] at member
      rcases member with rfl | rfl
      · cases asks
        exact absurd deletes (not_deletes rfl (by decide))
      · rcases Order.exists_of_asks_ofWords asks with ⟨value, rfl⟩
        exact absurd deletes (not_deletes rfl (by decide))
  | shapingClass id parent curve | leafQueue id kind limit =>
      cases List.mem_singleton.mp member
      rcases Order.exists_of_asks_ofWords asks with ⟨value, rfl⟩
      exact absurd deletes (not_deletes rfl (by decide))
  | clearMarks =>
      simp only [PlanStep.orders, List.mem_cons, List.not_mem_nil, or_false] at member
      rcases member with rfl | rfl | rfl
      · cases asks
        exact absurd deletes (not_deletes rfl (by decide))
      · cases asks
        exact absurd deletes (not_deletes rfl (by decide))
      · exact asks
  | mark rule =>
      cases List.mem_singleton.mp member
      rcases Order.exists_of_asks_ofWords asks with ⟨value, rfl⟩
      exact absurd deletes (not_deletes rfl (by decide))
  | attachMarks | logMarks =>
      cases List.mem_singleton.mp member
      cases asks
      exact absurd deletes (not_deletes rfl (by decide))
  | markFilter filter =>
      cases List.mem_singleton.mp member
      cases asks
      exact absurd deletes (not_deletes rfl (by decide))

/-- The orders for one device and chain remove the hook of no others. -/
theorem ofWords?_ne_unhook {settings : Settings} {plan : Plan} {device chain : String}
    (different : ¬ (device = settings.device ∧ chain = settings.chain))
    (member : order ∈ settings.backends.teardownOrders ++ settings.backends.orders plan)
    (asks : order.Asks words) : Command.ofWords? words ≠ some (.unhook device chain) := by
  intro asked
  rcases Command.words_of_unhook asked with ⟨tool, isDetach⟩
  have deletes : words[3]? = some "-D" := by rw [isDetach]; rfl
  have isOwn : words = settings.marking.detach := by
    rcases List.mem_append.mp member with tearing | building
    · simp only [teardownOrders, List.mem_cons, List.not_mem_nil, or_false] at tearing
      rcases tearing with rfl | rfl | rfl | rfl | rfl
      · cases asks
        exact absurd deletes (not_deletes rfl (by decide))
      · cases asks
        exact absurd deletes (not_deletes rfl (by decide))
      · exact asks
      · cases asks
        exact absurd deletes (not_deletes rfl (by decide))
      · cases asks
        exact absurd deletes (not_deletes rfl (by decide))
    · rcases List.mem_flatMap.mp building with ⟨step, _, isOrder⟩
      exact eq_detach_of_mem_orders isOrder asks deletes
  rw [isOwn, Settings.ofWords?_detach] at asked
  cases asked
  exact different ⟨rfl, rfl⟩

end Backends

end UplinkShaper
