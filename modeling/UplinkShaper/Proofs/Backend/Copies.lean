import UplinkShaper.Proofs.Backend.Orders
import UplinkShaper.Proofs.Number.Range

/-!
Copies of a hook. Before a hook is added, copies of it are removed, but no more than a fixed
number. So whoever keeps chains and hooks like the kernel is left with one copy if there were
few enough before, and otherwise with one more than those that were not looked for. Nothing
else of the chains and hooks of others changes.
-/

namespace UplinkShaper

open Kernel Operation

/-! ## Who keeps chains and hooks -/

namespace Kernel

/-- Whether a command is about chains and hooks. -/
def Command.isMarking : Command → Bool
  | .create _ | .empty _ | .remove _ | .append _ _ | .hook _ _ | .unhook _ _ => true
  | _ => false

theorem Command.isMarking_of_shaping? {words : List String} {command : Command}
    (asked : shaping? words = some command) : command.isMarking = false := by
  unfold shaping? at asked
  split at asked
  case h_5 | h_6 =>
    cases asked
    rfl
  case h_7 => cases asked
  all_goals
    simp only [Option.bind_eq_bind, Option.bind_eq_some_iff, Option.pure_def,
      Option.some.injEq] at asked
    grind [isMarking]

/-- What does not name a table of packets is not about chains. -/
theorem Command.isMarking_of_ofWords? {tool first : String} {rest : List String}
    {command : Command} (different : first ≠ "-t")
    (asked : ofWords? (tool :: first :: rest) = some command) : command.isMarking = false := by
  unfold ofWords? at asked
  split at asked
  case h_1 same =>
    cases same
    exact absurd rfl different
  case h_2 same =>
    cases same
    exact isMarking_of_shaping? asked
  case h_3 => cases asked

end Kernel

/-- A runner that keeps chains and hooks as the kernel does: a command about them fails where
it cannot take effect and nowhere else, and all other commands succeed. -/
structure Runner.Serves (runner : Runner ρ) (kernel : ρ → Kernel) : Prop where
  handled : runner.IsHandled
  effect : ∀ {memory words command next}, Command.ofWords? words = some command →
    command.isMarking = true → (kernel memory).after command = some next →
      (⟨words, (runner memory words).2⟩ : Exchange).failure? = none ∧
        kernel (runner memory words).1 = next
  refusal : ∀ {memory words command}, Command.ofWords? words = some command →
    command.isMarking = true → (kernel memory).after command = none →
      (⟨words, (runner memory words).2⟩ : Exchange).failure?.isSome ∧
        kernel (runner memory words).1 = kernel memory
  other : ∀ memory words,
    (∀ command, Command.ofWords? words = some command → command.isMarking = false) →
      (⟨words, (runner memory words).2⟩ : Exchange).failure? = none ∧
        kernel (runner memory words).1 = kernel memory

/-- The kernel itself, as far as chains and hooks go. -/
def Kernel.serving : Runner Kernel := fun kernel words =>
  match (Command.ofWords? words).filter Command.isMarking with
  | none => (kernel, Machine.success)
  | some command =>
      match kernel.after command with
      | none => (kernel, Machine.refusal)
      | some next => (next, Machine.success)

theorem Kernel.serving_of_marking {kernel : Kernel} {words : List String} {command : Command}
    (asked : Command.ofWords? words = some command) (isMarking : command.isMarking = true) :
    serving kernel words =
      match kernel.after command with
      | none => (kernel, Machine.refusal)
      | some next => (next, Machine.success) := by
  rw [serving, asked, Option.filter_some, if_pos isMarking]

theorem Kernel.serves_serving : serving.Serves id where
  handled kernel words := by
    unfold serving
    split
    · rfl
    · split
      · rfl
      · rfl
  effect asked isMarking effect := by
    rw [id_eq] at effect
    rw [serving_of_marking asked isMarking, effect]
    exact ⟨rfl, rfl⟩
  refusal asked isMarking effect := by
    rw [id_eq] at effect
    rw [serving_of_marking asked isMarking, effect]
    exact ⟨rfl, rfl⟩
  other kernel words isOther := by
    have none : (Command.ofWords? words).filter Command.isMarking = none := by
      rw [Option.filter_eq_none_iff]
      intro command asked
      rw [isOther command asked]
      exact Bool.false_ne_true
    rw [serving, none]
    exact ⟨rfl, rfl⟩

/-! ## Hooks -/

namespace Kernel

/-- A kernel without so many copies of a hook. -/
def unhooked (kernel : Kernel) (device chain : String) (count : Nat) : Kernel :=
  { kernel with hooks := (·.erase (device, chain))^[count] kernel.hooks }

/-- A kernel with rules in a chain and a new copy of the hook for it. -/
def rehooked (kernel : Kernel) (device chain : String) (rules : List (List String)) : Kernel :=
  { kernel.withChain chain (some rules) with
    hooks := (·.erase (device, chain))^[Marking.largestHookCount] kernel.hooks ++
      [(device, chain)] }

section Erased

variable [BEq α] [LawfulBEq α] {item : α}

theorem iterate_erase_of_not_mem {items : List α} (absent : item ∉ items) (count : Nat) :
    (·.erase item)^[count] items = items :=
  Function.iterate_fixed (List.erase_of_not_mem absent) count

theorem count_iterate_erase (items : List α) (count : Nat) :
    ((·.erase item)^[count] items).count item = items.count item - count := by
  induction count generalizing items with
  | zero => rfl
  | succ count induction =>
      rw [Function.iterate_succ_apply, induction, List.count_erase_self]
      omega

theorem filter_erase (items : List α) :
    (items.erase item).filter (· != item) = items.filter (· != item) := by
  induction items with
  | nil => rfl
  | cons head rest induction =>
      by_cases same : (head == item) = true
      · rw [List.erase_cons, if_pos same, List.filter_cons_of_neg (by simpa using same)]
      · rw [List.erase_cons_tail same, List.filter_cons, List.filter_cons, induction]

theorem filter_iterate_erase (items : List α) (count : Nat) :
    ((·.erase item)^[count] items).filter (· != item) = items.filter (· != item) := by
  induction count generalizing items with
  | zero => rfl
  | succ count induction => rw [Function.iterate_succ_apply, induction, filter_erase]

end Erased

/-- What a new hook and new rules for its chain leave in a kernel. -/
structure IsRehooked (before after : Kernel) (device chain : String) (rules : List (List String)) :
    Prop where
  trees : after.trees = before.trees
  filled : after.chains chain = some rules
  otherChains : ∀ other, other ≠ chain → after.chains other = before.chains other
  copies : after.hooks.count (device, chain) =
    before.hooks.count (device, chain) - Marking.largestHookCount + 1
  otherHooks : after.hooks.filter (· != (device, chain)) =
    before.hooks.filter (· != (device, chain))

variable {device chain : String} {rules : List (List String)}

theorem isRehooked_rehooked (kernel : Kernel) (device chain : String)
    (rules : List (List String)) :
    IsRehooked kernel (kernel.rehooked device chain rules) device chain rules where
  trees := rfl
  filled := Function.update_self ..
  otherChains other different := Function.update_of_ne different ..
  copies := by
    rw [rehooked, List.count_append, List.count_singleton_self, count_iterate_erase]
  otherHooks := by
    rw [rehooked, List.filter_append, filter_iterate_erase, List.filter_cons_of_neg (by simp)]
    exact List.append_nil _

/-- One copy is left if and only if there were no more than are looked for. -/
theorem IsRehooked.count_eq_one_iff {before after : Kernel}
    (isRehooked : IsRehooked before after device chain rules) :
    after.hooks.count (device, chain) = 1 ↔
      before.hooks.count (device, chain) ≤ Marking.largestHookCount := by
  rw [isRehooked.copies]
  omega

/-- A hook that is the last rule and the only copy is put in its own place. -/
theorem rehooked_rehooked_iff (kernel : Kernel) :
    (kernel.rehooked device chain rules).rehooked device chain rules =
        kernel.rehooked device chain rules ↔
      kernel.hooks.count (device, chain) ≤ Marking.largestHookCount := by
  constructor
  · intro same
    have once := (isRehooked_rehooked kernel device chain rules).copies
    have twice := (isRehooked_rehooked (kernel.rehooked device chain rules) device chain rules).copies
    rw [same] at twice
    rw [Marking.largestHookCount] at once twice ⊢
    omega
  · intro few
    have absent : (device, chain) ∉
        (·.erase (device, chain))^[Marking.largestHookCount] kernel.hooks := by
      rw [← List.count_eq_zero, count_iterate_erase]
      omega
    have again : (·.erase (device, chain))^[Marking.largestHookCount]
        (kernel.rehooked device chain rules).hooks =
          (·.erase (device, chain))^[Marking.largestHookCount] kernel.hooks := by
      rw [rehooked]
      generalize (·.erase (device, chain))^[Marking.largestHookCount] kernel.hooks = others at absent
      rw [Marking.largestHookCount, Function.iterate_succ_apply, List.erase_append_right _ absent,
        List.erase_cons_head, List.append_nil]
      exact iterate_erase_of_not_mem absent 7
    rw [rehooked, again]
    simp [rehooked, withChain]

end Kernel

/-! ## Rules of plans -/

namespace PlanStep

/-- Whether a step is for the marking side. -/
def isMarking : PlanStep → Bool
  | .clearMarks | .attachMarks | .mark _ | .logMarks => true
  | _ => false

/-- Whether a step empties the chain or hooks it. -/
def isHooking : PlanStep → Bool
  | .clearMarks | .attachMarks => true
  | _ => false

/-- The rules that a step adds to the chain. -/
def rules : PlanStep → List (List String)
  | .mark rule =>
      match Marking.ruleWords rule with
      | .ok matching => [markRule matching rule.mark]
      | .error _ => []
  | .logMarks => [logRule]
  | _ => []

theorem rules_eq_nil {step : PlanStep} (isShaper : step.isMarking = false) : step.rules = [] := by
  cases step with
  | clearMarks | attachMarks | mark rule | logMarks => cases isShaper
  | root | shapingClass | leafQueue | markFilter => rfl

end PlanStep

def Plan.rules (plan : Plan) : List (List String) :=
  plan.steps.flatMap PlanStep.rules

/-! ## Marking -/

section Serving

variable {ρ : Type} {runner : Runner ρ} {kernel : ρ → Kernel} {memory : ρ} {host : Host}
  {settings : Settings}

/-- Something was carried out and has left a kernel. -/
def Runner.Leaves (kernel : ρ → Kernel) (next : Kernel) (memory : ρ) (_ : Host)
    (result : Except Failure Unit) : Prop :=
  result = .ok () ∧ kernel memory = next

namespace Runner.Serves

theorem ends_change_of_none (isHandled : runner.IsHandled) {words : List String}
    (succeeds : (⟨words, (runner memory words).2⟩ : Exchange).failure? = none) :
    (Host.change words).Ends (undisturbed runner) memory host fun memory' _ result =>
      result = .ok () ∧ memory' = (runner memory words).1 := by
  rcases Reply.exists_completion (isHandled memory words) words with ⟨completion, counts, isFailure⟩
  have succeeded : completion.isSuccess = true := by
    by_contra failed
    rw [succeeds, if_neg failed] at isFailure
    cases isFailure
  have executed : (Host.execute words).Ends (undisturbed runner) memory host
      fun memory' _ result => result = .ok completion ∧ memory' = (runner memory words).1 :=
    ⟨counts, rfl⟩
  apply executed.bind_ok (fun _ _ _ ended => ended.1)
  rintro _ _ ⟨_, rfl⟩
  rw [succeeded]
  exact ⟨rfl, rfl⟩

theorem ends_discard (isHandled : runner.IsHandled) (words : List String) :
    (Host.discard words).Ends (undisturbed runner) memory host fun memory' _ result =>
      result = .ok (⟨words, (runner memory words).2⟩ : Exchange).failure?.isNone ∧
        memory' = (runner memory words).1 := by
  rcases Reply.exists_completion (isHandled memory words) words with ⟨completion, counts, isFailure⟩
  rw [isFailure]
  have executed : (Host.execute words).Ends (undisturbed runner) memory host
      fun memory' _ result => result = .ok completion ∧ memory' = (runner memory words).1 :=
    ⟨counts, rfl⟩
  apply executed.bind_ok (fun _ _ _ ended => ended.1)
  rintro _ _ ⟨_, rfl⟩
  cases completion.isSuccess with
  | true => exact ⟨rfl, rfl⟩
  | false => exact ⟨rfl, rfl⟩

variable (serves : runner.Serves kernel)
include serves

theorem ends_change {words : List String} {command : Command} {next : Kernel}
    (asked : Command.ofWords? words = some command) (isMarking : command.isMarking = true)
    (effect : (kernel memory).after command = some next) :
    (Host.change words).Ends (undisturbed runner) memory host (Leaves kernel next) := by
  rcases serves.effect asked isMarking effect with ⟨succeeds, isNext⟩
  apply (ends_change_of_none serves.handled succeeds).weaken
  rintro _ _ _ ⟨rfl, rfl⟩
  exact ⟨rfl, isNext⟩

/-- A command of the shaper. -/
theorem ends_change_other {tool first : String} {rest : List String} (different : first ≠ "-t") :
    (Host.change (tool :: first :: rest)).Ends (undisturbed runner) memory host
      (Leaves kernel (kernel memory)) := by
  rcases serves.other memory (tool :: first :: rest) (fun _ asked =>
    Command.isMarking_of_ofWords? different asked) with ⟨succeeds, same⟩
  apply (ends_change_of_none serves.handled succeeds).weaken
  rintro _ _ _ ⟨rfl, rfl⟩
  exact ⟨rfl, same⟩

theorem ends_discard_marking {words : List String} {command : Command}
    (asked : Command.ofWords? words = some command) (isMarking : command.isMarking = true) :
    (Host.discard words).Ends (undisturbed runner) memory host fun memory' _ result =>
      result = .ok ((kernel memory).after command).isSome ∧
        kernel memory' = ((kernel memory).after command).getD (kernel memory) := by
  apply (ends_discard serves.handled words).weaken
  rintro _ _ _ ⟨rfl, rfl⟩
  cases effect : (kernel memory).after command with
  | none =>
      rcases serves.refusal asked isMarking effect with ⟨fails, same⟩
      rw [same, ← Option.not_isSome, fails]
      exact ⟨rfl, rfl⟩
  | some next =>
      rcases serves.effect asked isMarking effect with ⟨succeeds, isNext⟩
      rw [isNext, succeeds]
      exact ⟨rfl, rfl⟩

/-! ### Clearing and attaching -/

/-- Copies go one after another, as long as there are some. -/
theorem ends_unhookUpTo (settings : Settings) (count : Nat) :
    (settings.marking.unhookUpTo count).Ends (undisturbed runner) memory host
      (Leaves kernel ((kernel memory).unhooked settings.device settings.chain count)) := by
  induction count generalizing memory host with
  | zero => exact ⟨rfl, rfl⟩
  | succ count induction =>
      apply (serves.ends_discard_marking settings.ofWords?_detach rfl).bind_ok
        (fun _ _ _ ended => ended.1)
      rintro memory' host' ⟨_, left⟩
      by_cases hooked : (settings.device, settings.chain) ∈ (kernel memory).hooks
      · have effect : (kernel memory).after (.unhook settings.device settings.chain) =
            some ((kernel memory).unhooked settings.device settings.chain 1) := if_pos hooked
        rw [effect] at left ⊢
        have goesOn : (settings.marking.unhookUpTo count).Ends (undisturbed runner) memory' host'
            (Leaves kernel ((kernel memory').unhooked settings.device settings.chain count)) :=
          induction
        rw [left] at goesOn
        exact goesOn
      · have effect : (kernel memory).after (.unhook settings.device settings.chain) = none :=
          if_neg hooked
        rw [effect] at left ⊢
        have same : (kernel memory).unhooked settings.device settings.chain (count + 1) =
            kernel memory := by
          rw [unhooked, iterate_erase_of_not_mem hooked]
        exact ⟨rfl, left.trans same.symm⟩

/-- Whether or not there was a chain, there is an empty one afterwards. -/
theorem ends_clear (different : settings.chain ≠ outgoing) :
    settings.marking.clear.Ends (undisturbed runner) memory host
      (Leaves kernel (((kernel memory).withChain settings.chain (some [])).unhooked
        settings.device settings.chain Marking.largestHookCount)) := by
  apply (serves.ends_discard_marking settings.ofWords?_create rfl).bind_ok
    (fun _ _ _ ended => ended.1)
  rintro memory₁ host₁ ⟨_, created⟩
  have effect : (kernel memory₁).after (.empty settings.chain) =
      some ((kernel memory).withChain settings.chain (some [])) := by
    rw [created]
    cases held : (kernel memory).chains settings.chain with
    | some rules =>
        have known : (kernel memory).hasChain settings.chain := .inr (by rw [held]; rfl)
        simp [after, known, held]
    | none =>
        have unknown : ¬ (kernel memory).hasChain settings.chain := by
          simp [hasChain, different, held]
        simp [after, unknown, withChain]
  apply (serves.ends_change settings.ofWords?_empty rfl effect).bind_ok
    (fun _ _ _ ended => ended.1)
  rintro memory₂ host₂ ⟨_, emptied⟩
  have unhooks : (settings.marking.unhookUpTo Marking.largestHookCount).Ends (undisturbed runner)
      memory₂ host₂ (Leaves kernel ((kernel memory₂).unhooked settings.device settings.chain
        Marking.largestHookCount)) := serves.ends_unhookUpTo settings Marking.largestHookCount
  rw [emptied] at unhooks
  exact unhooks

theorem ends_applyHook {rules : List (List String)}
    (held : (kernel memory).chains settings.chain = some rules) :
    settings.marking.applyHook.Ends (undisturbed runner) memory host
      (Leaves kernel { kernel memory with
        hooks := (kernel memory).hooks ++ [(settings.device, settings.chain)] }) := by
  have known : (kernel memory).hasChain settings.chain := .inr (by rw [held]; rfl)
  exact serves.ends_change settings.ofWords?_attach rfl (if_pos known)

theorem ends_clear_applyHook (different : settings.chain ≠ outgoing) :
    (do settings.marking.clear; settings.marking.applyHook : HostOperation Unit).Ends
      (undisturbed runner) memory host
        (Leaves kernel ((kernel memory).rehooked settings.device settings.chain [])) := by
  apply (serves.ends_clear different).bind_ok (fun _ _ _ ended => ended.1)
  rintro memory' host' ⟨_, cleared⟩
  have held : (kernel memory').chains settings.chain = some [] := by
    rw [cleared]
    exact Function.update_self ..
  have hooks : settings.marking.applyHook.Ends (undisturbed runner) memory' host' _ :=
    serves.ends_applyHook held
  rw [cleared] at hooks
  exact hooks

/-! ### Plans -/

omit serves in
theorem exists_of_isWritable {words : Except Failure α} {command : α → List String}
    (writable : (Order.ofWords (command <$> words)).isWritable = true) :
    ∃ found, words = .ok found := by
  cases words with
  | ok found => exact ⟨found, rfl⟩
  | error failure => cases writable

/-- A step of the shaper changes no chain and no hook. -/
theorem ends_take_shaper {step : PlanStep} (isShaper : step.isMarking = false)
    (writable : ∀ order ∈ step.orders settings.backends, order.isWritable = true) :
    (settings.backends.take step).Ends (undisturbed runner) memory host
      (Leaves kernel (kernel memory)) := by
  have differs {first : String} (isTool : first ∈ ["qdisc", "class", "filter"]) :
      first ≠ "-t" := by
    rintro rfl
    revert isTool
    decide
  cases step with
  | root capacity default =>
      rcases exists_of_isWritable (writable _ (List.mem_cons_of_mem _ (List.mem_cons_self ..)))
        with ⟨rate, written⟩
      apply (serves.ends_change_other (differs (by simp))).bind_ok (fun _ _ _ ended => ended.1)
      rintro memory' host' ⟨_, same⟩
      rw [← same]
      exact (ends_lift_bind written).mpr (serves.ends_change_other (differs (by simp)))
  | shapingClass id parent curve | leafQueue id kind limit =>
      rcases exists_of_isWritable (writable _ (List.mem_cons_self ..)) with ⟨words, written⟩
      exact (ends_lift_bind written).mpr (serves.ends_change_other (differs (by simp)))
  | markFilter filter => exact serves.ends_change_other (differs (by simp))
  | clearMarks | attachMarks | mark rule | logMarks => cases isShaper

/-- A step that fills the chain. -/
theorem ends_take_rules {step : PlanStep} {rules : List (List String)}
    (different : settings.chain ≠ outgoing) (fills : step.isHooking = false)
    (writable : ∀ order ∈ step.orders settings.backends, order.isWritable = true)
    {base : Kernel}
    (holds : kernel memory = base.rehooked settings.device settings.chain rules) :
    (settings.backends.take step).Ends (undisturbed runner) memory host
      (Leaves kernel (base.rehooked settings.device settings.chain (rules ++ step.rules))) := by
  have appends (rule : List String) : (kernel memory).after (.append settings.chain rule) =
      some (base.rehooked settings.device settings.chain (rules ++ [rule])) := by
    rw [holds]
    simp [after, rehooked, withChain]
  by_cases isShaper : step.isMarking = false
  · rw [PlanStep.rules_eq_nil isShaper, List.append_nil, ← holds]
    exact serves.ends_take_shaper isShaper writable
  · cases step with
    | mark rule =>
        rcases exists_of_isWritable (writable _ (List.mem_cons_self ..)) with ⟨matching, written⟩
        rw [PlanStep.rules, written]
        apply (ends_lift_bind written).mpr
        exact serves.ends_change (Settings.ofWords?_mark different _ _) rfl (appends _)
    | logMarks =>
        exact serves.ends_change (Settings.ofWords?_logMarks different) rfl (appends _)
    | clearMarks | attachMarks => cases fills
    | root | shapingClass | leafQueue | markFilter => exact absurd rfl isShaper

theorem ends_takeAll_rules {steps : List PlanStep} {rules : List (List String)}
    (different : settings.chain ≠ outgoing)
    (fills : ∀ step ∈ steps, step.isHooking = false)
    (writable : ∀ order ∈ steps.flatMap (·.orders settings.backends), order.isWritable = true)
    {base : Kernel} (total : Nat)
    (holds : kernel memory = base.rehooked settings.device settings.chain rules) :
    (settings.backends.takeAll total steps).Ends (undisturbed runner) memory host
      (Leaves kernel (base.rehooked settings.device settings.chain
        (rules ++ steps.flatMap PlanStep.rules))) := by
  induction steps generalizing memory host rules with
  | nil =>
      rw [List.flatMap_nil, List.append_nil]
      exact ⟨rfl, holds⟩
  | cons step rest induction =>
      rw [List.flatMap_cons] at writable
      rcases List.forall_mem_append.mp writable with ⟨writable, restWritable⟩
      rcases List.forall_mem_cons.mp fills with ⟨stepFills, restFills⟩
      apply Performs.ends_record_bind.mpr
      apply (serves.ends_take_rules different stepFills writable holds).bind_ok
        (fun _ _ _ ended => ended.1)
      rintro memory' host' ⟨_, holds'⟩
      rw [List.flatMap_cons, ← List.append_assoc]
      exact induction restFills restWritable holds'

/-- Steps of the shaper come first, then the chain is emptied and hooked, and then filled. -/
theorem ends_takeAll {before later : List PlanStep} (different : settings.chain ≠ outgoing)
    (areShaper : ∀ step ∈ before, step.isMarking = false)
    (fill : ∀ step ∈ later, step.isHooking = false)
    (writable : ∀ order ∈ (before ++ .clearMarks :: .attachMarks :: later).flatMap
      (·.orders settings.backends), order.isWritable = true) (total : Nat) :
    (settings.backends.takeAll total (before ++ .clearMarks :: .attachMarks :: later)).Ends
      (undisturbed runner) memory host
        (Leaves kernel ((kernel memory).rehooked settings.device settings.chain
          (later.flatMap PlanStep.rules))) := by
  induction before generalizing memory host with
  | nil =>
      apply Performs.ends_record_bind.mpr
      apply (serves.ends_clear different).bind_ok (fun _ _ _ ended => ended.1)
      rintro memory₁ host₁ ⟨_, cleared⟩
      apply Performs.ends_record_bind.mpr
      have held : (kernel memory₁).chains settings.chain = some [] := by
        rw [cleared]
        exact Function.update_self ..
      apply (serves.ends_applyHook held).bind_ok (fun _ _ _ ended => ended.1)
      rintro memory₂ host₂ ⟨_, hooked⟩
      rw [cleared] at hooked
      have holds : kernel memory₂ =
        (kernel memory).rehooked settings.device settings.chain [] := hooked
      refine serves.ends_takeAll_rules different fill (fun order member => writable order ?_)
        total holds
      simp only [List.nil_append, List.flatMap_cons, List.mem_append]
      exact .inr (.inr member)
  | cons step rest induction =>
      rw [List.cons_append, List.flatMap_cons] at writable
      rcases List.forall_mem_append.mp writable with ⟨writable, restWritable⟩
      rcases List.forall_mem_cons.mp areShaper with ⟨isShaper, restShaper⟩
      apply Performs.ends_record_bind.mpr
      apply (serves.ends_take_shaper isShaper writable).bind_ok (fun _ _ _ ended => ended.1)
      rintro memory' host' ⟨_, same⟩
      rw [← same]
      exact induction restShaper restWritable

theorem ends_execute_build (different : settings.chain ≠ outgoing) {tree : ClassTree}
    {rules : RuleSet} {kind : String} {isLogged : Bool}
    (writable : ∀ order ∈ settings.backends.orders (Plan.build tree rules kind isLogged),
      order.isWritable = true) :
    (settings.backends.execute (Plan.build tree rules kind isLogged)).Ends (undisturbed runner)
      memory host (Leaves kernel ((kernel memory).rehooked settings.device settings.chain
        (Plan.build tree rules kind isLogged).rules)) := by
  let root := PlanStep.root tree.capacity ((tree.default?.map (·.id)).getD Plan.noDefault)
  let before := [root] ++ Plan.classSteps tree ++ Plan.queueSteps tree kind
  let later := rules.rules.map PlanStep.mark ++ (if isLogged then [.logMarks] else []) ++
    rules.filters.map .markFilter
  have isBuild : (Plan.build tree rules kind isLogged).steps =
      before ++ .clearMarks :: .attachMarks :: later := by
    simp [Plan.build, before, later, root]
  have areShaper : ∀ step ∈ before, step.isMarking = false := by
    intro step member
    simp only [before, root, Plan.classSteps, Plan.queueSteps, List.mem_append, List.mem_cons,
      List.not_mem_nil, or_false, List.mem_map] at member
    rcases member with (rfl | ⟨tier, _, rfl⟩) | queue
    · rfl
    · rfl
    · split at queue
      · cases queue
      · rcases List.mem_map.mp queue with ⟨tier, _, rfl⟩
        rfl
  have fill : ∀ step ∈ later, step.isHooking = false := by
    intro step member
    simp only [later, List.mem_append, List.mem_map] at member
    rcases member with (⟨rule, _, rfl⟩ | logged) | ⟨filter, _, rfl⟩
    · rfl
    · split at logged
      · cases List.mem_singleton.mp logged
        rfl
      · cases logged
    · rfl
  have filled : (Plan.build tree rules kind isLogged).rules = later.flatMap PlanStep.rules := by
    rw [Plan.rules, isBuild, List.flatMap_append,
      List.flatMap_eq_nil_iff.mpr fun step member =>
        PlanStep.rules_eq_nil (areShaper step member)]
    rfl
  rw [Backends.orders, isBuild] at writable
  rw [filled, Backends.execute, isBuild]
  exact serves.ends_takeAll different areShaper fill writable _

/-! ### All in all -/

/-- Clearing the marks and adding the hook leaves an empty chain and one copy of the hook, with
those copies that were not looked for; so does a plan, but for the rules that it fills the chain
with. To carry out the plan once more changes nothing if and only if one copy is left. -/
theorem isRehooked (different : settings.chain ≠ outgoing) (memory : ρ) (host : Host) :
    let copies := (kernel memory).hooks.count (settings.device, settings.chain)
    (do settings.marking.clear; settings.marking.applyHook : HostOperation Unit).Ends
        (undisturbed runner) memory host (fun last _ result => result = .ok () ∧
          IsRehooked (kernel memory) (kernel last) settings.device settings.chain [] ∧
            ((kernel last).hooks.count (settings.device, settings.chain) = 1 ↔
              copies ≤ Marking.largestHookCount)) ∧
      ∀ tree rules kind isLogged,
        let plan := Plan.build tree rules kind isLogged
        (∀ order ∈ settings.backends.orders plan, order.isWritable = true) →
          (settings.backends.execute plan).Ends (undisturbed runner) memory host
            fun once host' result => result = .ok () ∧
              IsRehooked (kernel memory) (kernel once) settings.device settings.chain plan.rules ∧
                (settings.backends.execute plan).Ends (undisturbed runner) once host'
                  fun twice _ again => again = .ok () ∧
                    (kernel twice = kernel once ↔ copies ≤ Marking.largestHookCount) := by
  constructor
  · apply (serves.ends_clear_applyHook different).weaken
    rintro last _ _ ⟨rfl, left⟩
    have isRehooked := isRehooked_rehooked (kernel memory) settings.device settings.chain []
    rw [left]
    exact ⟨rfl, isRehooked, isRehooked.count_eq_one_iff⟩
  · intro tree rules kind isLogged plan writable
    apply (serves.ends_execute_build different writable).weaken
    rintro once host' _ ⟨rfl, left⟩
    have isRehooked := isRehooked_rehooked (kernel memory) settings.device settings.chain plan.rules
    refine ⟨rfl, by rw [left]; exact isRehooked, ?_⟩
    apply (serves.ends_execute_build different writable).weaken
    rintro twice _ _ ⟨rfl, leftAgain⟩
    rw [leftAgain, left]
    exact ⟨rfl, rehooked_rehooked_iff (kernel memory)⟩

end Runner.Serves

end Serving

/-! ### Tables with copies -/

namespace Kernel

/-- Nothing but so many copies of a hook, and a rule in its chain. -/
def crowded (device chain : String) (copies : Nat) : Kernel where
  trees _ := none
  chains := Function.update (fun _ => none) chain (some [["-j", "ACCEPT"]])
  hooks := List.replicate copies (device, chain)

/-- A plan without tiers, with one rule. -/
def shortPlan : Plan :=
  Plan.build ⟨⟨.upload, 10000, Int.natCast_succ_pos 9999⟩, [], []⟩
    ⟨[⟨.ofPorts "tcp" 22 none .destinationPort, 20, 1⟩], [⟨20, "1:20", 1⟩]⟩ "sfq" true

theorem exists_chain_ne_outgoing : ∃ settings,
    Settings.ofDocument .system (.mapping []) none = .ok settings ∧
      settings.chain ≠ outgoing := by
  have evaluated : (match Settings.ofDocument .system (.mapping []) none with
      | .ok settings => settings.chain != outgoing
      | .error _ => false) = true := by
    decide +kernel
  cases accepted : Settings.ofDocument .system (.mapping []) none with
  | error failure =>
      rw [accepted] at evaluated
      cases evaluated
  | ok settings =>
      rw [accepted] at evaluated
      exact ⟨settings, rfl, bne_iff_ne.mp evaluated⟩

/-- The built-in settings, where a program that was stopped has left two copies. -/
theorem exists_isRehooked_of_crowded : ∃ settings,
    Settings.ofDocument .system (.mapping []) none = .ok settings ∧ ∀ host : Host,
      (settings.backends.execute shortPlan).Ends (undisturbed serving)
        (crowded settings.device settings.chain 2) host fun once host' result => result = .ok () ∧
          IsRehooked (crowded settings.device settings.chain 2) once settings.device
            settings.chain shortPlan.rules ∧
              (settings.backends.execute shortPlan).Ends (undisturbed serving) once host'
                fun twice _ again => again = .ok () ∧ twice = once := by
  rcases exists_chain_ne_outgoing with ⟨settings, accepted, different⟩
  have writable : ∀ order ∈ settings.backends.orders shortPlan, order.isWritable = true := by
    have isSmall : (10000 : Int) < Double.bound := by decide +kernel
    rcases (Double.exists_ofInt_eq_ok_iff (by decide)).mpr isSmall with ⟨near, isNear⟩
    have isRate : Words.rate (.whole 10000) = .ok (Words.double near ++ "kbit") := by
      rw [Words.rate, Number.toDouble, isNear]
      rfl
    have all : (settings.backends.orders shortPlan).map Order.isWritable =
        List.replicate 9 true := by
      change [_, Order.isWritable (.ofWords (_ <$> Words.rate (.whole 10000))), _, _, _, _, _, _, _]
        = _
      rw [isRate]
      rfl
    intro order member
    exact List.eq_of_mem_replicate (all ▸ List.mem_map_of_mem member)
  refine ⟨settings, accepted, fun host => ?_⟩
  apply ((serves_serving.isRehooked different (crowded settings.device settings.chain 2) host).2
    _ _ _ _ writable).weaken
  rintro once host' _ ⟨rfl, isRehooked, again⟩
  refine ⟨rfl, isRehooked, again.weaken ?_⟩
  rintro twice _ _ ⟨rfl, same⟩
  refine ⟨rfl, same.mpr ?_⟩
  simp [crowded, Marking.largestHookCount]

/-- Of nine copies one is not looked for, and stays beside the new one. -/
theorem exists_not_single_of_crowded : ∃ settings,
    Settings.ofDocument .system (.mapping []) none = .ok settings ∧ ∀ host : Host,
      ¬ (do settings.marking.clear; settings.marking.applyHook : HostOperation Unit).Ends
        (undisturbed serving) (crowded settings.device settings.chain 9) host fun last _ result =>
          result = .ok () ∧ last.hooks.count (settings.device, settings.chain) = 1 := by
  rcases exists_chain_ne_outgoing with ⟨settings, accepted, different⟩
  refine ⟨settings, accepted, fun host single => ?_⟩
  have left := (isRehooked_rehooked (crowded settings.device settings.chain 9) settings.device
    settings.chain []).copies
  have both := single.and (serves_serving.ends_clear_applyHook different)
  rcases both with ⟨⟨_, isOne⟩, _, isLast⟩
  rw [id_eq] at isLast
  rw [isLast, id_eq, left] at isOne
  simp [crowded, Marking.largestHookCount] at isOne

end Kernel

end UplinkShaper
