import UplinkShaper.Proofs.Backend.Answers

/-!
What the steps of plans do to the kernel. A step that can be taken has its effect on the
part of its backends, or it fails in a change and leaves some other part behind. Whatever
the part, a teardown leaves nothing of it.
-/

namespace UplinkShaper

open Kernel

def Settings.backends (settings : Settings) : Backends where
  shaper := settings.shaper
  marking := settings.marking

namespace Kernel

/-- The tree of a root class. -/
def QueueTree.rooted (default : Nat) (rate : String) : QueueTree where
  root := ⟨1, 0⟩
  default := default
  classes := [⟨.ofId rootId, ⟨1, 0⟩, ["sc", "rate", rate, "ul", "rate", rate]⟩]
  queues := []
  filters := []

/-- The words of the rule that sets a mark. -/
def markRule (matching : List String) (mark : Int) : List String :=
  matching ++ ["-j", "MARK", "--set-mark", toString mark]

def logRule : List String :=
  ["-j", "LOG", "--log-prefix", "QOS-MARK: ", "--log-level", "debug"]

end Kernel

/-- What a step makes of a part, where its words can be written and what it needs is
there. -/
inductive PlanStep.Builds : PlanStep → Part → Part → Prop
  | root {capacity default rate rules isHooked} : 0 ≤ default → default ≤ 9999 →
      Words.rate (.whole capacity.rate) = .ok rate →
        Builds (.root capacity default) ⟨none, rules, isHooked⟩
          ⟨some (.rooted (Handle.ofId default).minor rate), rules, isHooked⟩
  | shapingClass {id parent curve words handle above tree next rules isHooked} :
      Handle.ofText? (classHandle (toString id)) = some handle →
        Handle.ofText? (classHandle parent.text) = some above →
          Words.curve curve = .ok words → tree.addClass ⟨handle, above, words⟩ = some next →
            Builds (.shapingClass id parent curve) ⟨some tree, rules, isHooked⟩
              ⟨some next, rules, isHooked⟩
  | leafQueue {id kind limit words handle above tree next rules isHooked} :
      Handle.ofText? (toString id ++ ":") = some handle →
        Handle.ofText? (classHandle (toString id)) = some above →
          Shaper.queueWords kind limit = .ok words →
            tree.addQueue ⟨handle, above, words⟩ = some next →
              Builds (.leafQueue id kind limit) ⟨some tree, rules, isHooked⟩
                ⟨some next, rules, isHooked⟩
  | clearMarks {tree} : Builds .clearMarks ⟨tree, none, false⟩ ⟨tree, some [], false⟩
  | attachMarks {tree rules} :
      Builds .attachMarks ⟨tree, some rules, false⟩ ⟨tree, some rules, true⟩
  | mark {rule matching tree rules isHooked} : Marking.ruleWords rule = .ok matching →
      Builds (.mark rule) ⟨tree, some rules, isHooked⟩
        ⟨tree, some (rules ++ [markRule matching rule.mark]), isHooked⟩
  | logMarks {tree rules isHooked} :
      Builds .logMarks ⟨tree, some rules, isHooked⟩ ⟨tree, some (rules ++ [logRule]), isHooked⟩
  | markFilter {filter : MarkFilter} {target tree next rules isHooked} : 0 ≤ filter.precedence →
      0 ≤ filter.mark → Handle.ofText? filter.handle = some target →
        tree.addFilter ⟨1, 0⟩ ⟨filter.precedence.toNat, filter.mark.toNat, target⟩ = some next →
          Builds (.markFilter filter) ⟨some tree, rules, isHooked⟩ ⟨some next, rules, isHooked⟩

/-- What steps make of a part, one after another. -/
inductive PlanStep.BuildAll : List PlanStep → Part → Part → Prop
  | nil {part} : BuildAll [] part part
  | cons {step rest before middle after} : step.Builds before middle →
      BuildAll rest middle after → BuildAll (step :: rest) before after

theorem PlanStep.BuildAll.append {first second : List PlanStep} {before middle after : Part}
    (built : BuildAll first before middle) (builtNext : BuildAll second middle after) :
    BuildAll (first ++ second) before after := by
  induction built with
  | nil => exact builtNext
  | cons step _ induction => exact .cons step (induction builtNext)

namespace Machine

variable {script : FailureScript} {responder : Procedure.Responder Machine Host}
  {mayFail : Machine → Prop} {machine : Machine} {host : Host} {settings : Settings}
  {base : Kernel} {part : Part}

/-- A part is held after a success, some part after a failure. -/
def Holds (settings : Settings) (base : Kernel) (host : Host) (part : Part) (machine' : Machine)
    (host' : Host) (succeeded failed : Prop) : Prop :=
  host'.sessions = host.sessions ∧
    (succeeded ∧ machine'.kernel = base.holding settings.device settings.chain part ∨
      failed ∧ ∃ left, machine'.kernel = base.holding settings.device settings.chain left)

/-- A part was built, or a change failed where that may be. -/
def Reaches (mayFail : Machine → Prop) (settings : Settings) (base : Kernel) (host : Host)
    (part : Part) (machine' : Machine) (host' : Host) (result : Except Failure Unit) : Prop :=
  Holds settings base host part machine' host' (result = .ok ())
    (mayFail machine' ∧ ∃ failure, result = .error (.apply failure))

/-- A part was built, or the script let a change fail. -/
def Builds (script : FailureScript) (settings : Settings) (base : Kernel) (host : Host)
    (part : Part) (machine' : Machine) (host' : Host) (result : Except Failure Unit) : Prop :=
  Reaches (fun _ => script.MayFail) settings base host part machine' host' result

theorem ends_change_part {words : List String} {command : Command} {next : Part}
    (holds : machine.kernel = base.holding settings.device settings.chain part)
    (asked : Command.ofWords? words = some command)
    (effect : (base.holding settings.device settings.chain part).after command =
      some (base.holding settings.device settings.chain next)) :
    (Host.change words).Ends (answer script) machine host
      (Builds script settings base host next) := by
  apply (ends_change asked (holds ▸ effect)).weaken
  intro machine' host' result ended
  rcases ended with ⟨isSuccess, ran, outcome⟩
  refine ⟨ran.sessions, ?_⟩
  rcases outcome with ⟨rfl, succeeded⟩ | ⟨rfl, failed⟩
  · exact .inl ⟨succeeded, ran.kernel⟩
  · exact .inr ⟨failed, part, ran.kernel.trans holds⟩

/-- What follows something that was built. -/
theorem Reaches.bind {first : HostOperation Unit} {next : Unit → HostOperation Unit} {middle : Part}
    (reaches : first.Ends responder machine host (Reaches mayFail settings base host middle))
    (goesOn : ∀ machine' host', machine'.kernel =
        base.holding settings.device settings.chain middle →
      (next ()).Ends responder machine' host' (Reaches mayFail settings base host' part)) :
    (first >>= next).Ends responder machine host (Reaches mayFail settings base host part) := by
  apply Operation.Ends.bind reaches
  · intro machine' host' _ built
    rcases built with ⟨sessions, ⟨_, holds⟩ | ⟨⟨_, _, impossible⟩, _⟩⟩
    · apply (goesOn machine' host' holds).weaken
      intro _ _ _ ended
      exact ⟨ended.1.trans sessions, ended.2⟩
    · cases impossible
  · intro machine' host' failure built
    rcases built with ⟨sessions, ⟨impossible, _⟩ | ⟨⟨failing, reason, isApply⟩, holds⟩⟩
    · cases impossible
    · cases isApply
      exact ⟨sessions, .inr ⟨⟨failing, reason, rfl⟩, holds⟩⟩

/-! ## Removals -/

/-- A part is left by something that does not fail. -/
def Leaves (settings : Settings) (base : Kernel) (host : Host) (part : Part) (machine' : Machine)
    (host' : Host) (result : Except Failure Unit) : Prop :=
  host'.sessions = host.sessions ∧ result = .ok () ∧
    machine'.kernel = base.holding settings.device settings.chain part

/-- What is built under a script that lets nothing fail is built. -/
theorem Builds.leaves {machine' : Machine} {host' : Host} {result : Except Failure Unit}
    (builds : Builds .none settings base host part machine' host' result) :
    Leaves settings base host part machine' host' result := by
  rcases builds with ⟨sessions, ⟨succeeded, holds⟩ | ⟨⟨mayFail, _⟩, _⟩⟩
  · exact ⟨sessions, succeeded, holds⟩
  · exact absurd mayFail FailureScript.not_mayFail_none

/-- What follows something that does not fail. -/
theorem Leaves.bind {first : HostOperation Unit} {next : Unit → HostOperation α}
    {after : Machine → Host → Except Failure α → Prop}
    (leaves : first.Ends responder machine host (Leaves settings base host part))
    (goesOn : ∀ machine' host', host'.sessions = host.sessions →
      machine'.kernel = base.holding settings.device settings.chain part →
        (next ()).Ends responder machine' host' after) :
    (first >>= next).Ends responder machine host after := by
  apply Operation.Ends.bind leaves
  · intro machine' host' _ left
    exact goesOn machine' host' left.1 left.2.2
  · intro _ _ _ left
    cases left.2.1

/-- A removal was tried, after which a part is held. -/
structure Tried (settings : Settings) (base : Kernel) (host : Host) (command : Command)
    (part : Part) (machine' : Machine) (host' : Host) (result : Except Failure Bool) : Prop where
  sessions : host'.sessions = host.sessions
  previous : machine'.previous = some command
  kernel : machine'.kernel = base.holding settings.device settings.chain part
  succeeded : ∃ removed, result = .ok removed

/-- A removal leaves a part, whether or not there was something to remove. -/
theorem ends_discard_part {words : List String} {command : Command} {next : Part}
    (holds : machine.kernel = base.holding settings.device settings.chain part)
    (asked : Command.ofWords? words = some command)
    (removal : command.isChange machine.previous = false)
    (effect : ((base.holding settings.device settings.chain part).after command).getD
        (base.holding settings.device settings.chain part) =
      base.holding settings.device settings.chain next) :
    (Host.discard words).Ends (answer script) machine host
      (Tried settings base host command next) := by
  apply (ends_discard asked removal).weaken
  intro machine' host' result ended
  rcases ended with ⟨ran, isRemoved⟩
  have kernel := ran.kernel
  rw [if_pos rfl, holds, effect] at kernel
  exact ⟨ran.sessions, ran.previous, kernel, _, isRemoved⟩

/-- What follows a removal that was tried. -/
theorem Tried.bind {first : HostOperation Bool} {next : Bool → HostOperation α}
    {command : Command} {after : Machine → Host → Except Failure α → Prop}
    (tried : first.Ends (answer script) machine host (Tried settings base host command part))
    (goesOn : ∀ machine' host' removed, host'.sessions = host.sessions →
      machine'.previous = some command →
        machine'.kernel = base.holding settings.device settings.chain part →
          (next removed).Ends (answer script) machine' host' after) :
    (first >>= next).Ends (answer script) machine host after := by
  apply Operation.Ends.bind tried
  · intro machine' host' removed ended
    exact goesOn machine' host' removed ended.sessions ended.previous ended.kernel
  · intro _ _ _ ended
    cases ended.succeeded with
    | intro _ impossible => cases impossible

theorem ends_clearShaper
    (holds : machine.kernel = base.holding settings.device settings.chain part) :
    settings.shaper.clear.Ends (answer script) machine host
      (Leaves settings base host { part with tree := none }) := by
  apply Tried.bind (ends_discard_part holds settings.shaper.ofWords?_dropRoot rfl after_dropRoot)
  intro machine₁ host₁ _ sessions₁ _ holds₁
  apply Tried.bind (ends_discard_part holds₁ settings.shaper.ofWords?_dropIngress rfl rfl)
  intro machine₂ host₂ _ sessions₂ _ holds₂
  exact ⟨sessions₂.trans sessions₁, rfl, holds₂⟩

/-- One hook at most is left to be removed. -/
theorem getD_after_unhook (free : base.IsFree settings.chain) (part : Part) :
    ((base.holding settings.device settings.chain part).after
        (.unhook settings.device settings.chain)).getD
          (base.holding settings.device settings.chain part) =
      base.holding settings.device settings.chain { part with isHooked := false } := by
  cases hooked : part.isHooked with
  | false =>
      rw [after_unhook_of_unhooked settings.device free hooked, ← hooked]
      rfl
  | true =>
      rw [after_unhook settings.device free hooked]
      rfl

/-- However many hooks are looked for, none is left. -/
theorem ends_unhookUpTo (free : base.IsFree settings.chain) (count : Nat)
    (holds : machine.kernel = base.holding settings.device settings.chain part) :
    (settings.marking.unhookUpTo (count + 1)).Ends (answer script) machine host
      fun machine' host' result =>
        Leaves settings base host { part with isHooked := false } machine' host' result ∧
          machine'.previous = some (.unhook settings.device settings.chain) := by
  induction count generalizing machine host part with
  | zero =>
      apply Tried.bind (ends_discard_part holds settings.ofWords?_detach rfl
        (getD_after_unhook free part))
      intro machine₁ host₁ removed sessions₁ previous₁ holds₁
      cases removed with
      | false => exact ⟨⟨sessions₁, rfl, holds₁⟩, previous₁⟩
      | true => exact ⟨⟨sessions₁, rfl, holds₁⟩, previous₁⟩
  | succ count induction =>
      apply Tried.bind (ends_discard_part holds settings.ofWords?_detach rfl
        (getD_after_unhook free part))
      intro machine₁ host₁ removed sessions₁ previous₁ holds₁
      cases removed with
      | false => exact ⟨⟨sessions₁, rfl, holds₁⟩, previous₁⟩
      | true =>
          apply (induction holds₁).weaken
          intro _ _ _ ended
          exact ⟨⟨ended.1.1.trans sessions₁, ended.1.2⟩, ended.2⟩

/-- Emptying what may not be there. -/
theorem getD_after_empty (base : Kernel) (device chain : String) (part : Part) :
    ((base.holding device chain part).after (.empty chain)).getD (base.holding device chain part) =
      base.holding device chain { part with rules := part.rules.map fun _ => [] } := by
  rcases part with ⟨tree, rules, isHooked⟩
  cases rules with
  | none => rw [after_empty_of_absent rfl]; rfl
  | some rules => rw [after_empty rfl]; rfl

theorem getD_after_remove (free : base.IsFree settings.chain) (rules : Option (List (List String)))
    (tree : Option QueueTree) :
    ((base.holding settings.device settings.chain
        ⟨tree, rules.map fun _ => [], false⟩).after (.remove settings.chain)).getD
        (base.holding settings.device settings.chain ⟨tree, rules.map fun _ => [], false⟩) =
      base.holding settings.device settings.chain ⟨tree, none, false⟩ := by
  cases rules with
  | none => rw [after_remove_of_absent rfl]; rfl
  | some rules => rw [after_remove free rfl rfl]; rfl

theorem ends_removeChain (free : base.IsFree settings.chain)
    (holds : machine.kernel = base.holding settings.device settings.chain part) :
    settings.marking.removeChain.Ends (answer script) machine host
      (Leaves settings base host ⟨part.tree, none, false⟩) := by
  apply (ends_unhookUpTo free 7 holds).bind
  · intro machine₁ host₁ _ ended
    rcases ended with ⟨⟨sessions₁, _, holds₁⟩, previous₁⟩
    -- The chain is emptied after a hook was looked for, so no script may prevent it.
    have removal : (Command.empty settings.chain).isChange machine₁.previous = false := by
      rw [previous₁]
      rfl
    apply Tried.bind (ends_discard_part holds₁ settings.ofWords?_empty removal
      (getD_after_empty base _ _ _))
    intro machine₂ host₂ _ sessions₂ _ holds₂
    apply Tried.bind (ends_discard_part holds₂ settings.ofWords?_remove rfl
      (getD_after_remove free part.rules part.tree))
    intro machine₃ host₃ _ sessions₃ _ holds₃
    exact ⟨sessions₃.trans (sessions₂.trans sessions₁), rfl, holds₃⟩
  · intro _ _ _ ended
    cases ended.1.2.1

/-- After a teardown nothing is left, whatever there was. -/
theorem ends_teardown (free : base.IsFree settings.chain)
    (holds : machine.kernel = base.holding settings.device settings.chain part) :
    settings.backends.teardown.Ends (answer script) machine host
      (Leaves settings base host Part.nothing) := by
  apply Leaves.bind (ends_clearShaper holds)
  intro machine₁ host₁ sessions₁ holds₁
  apply (ends_removeChain free holds₁).weaken
  intro _ _ _ left
  exact ⟨left.1.trans sessions₁, left.2⟩

/-! ## Steps -/

theorem addClass_bare (default : Nat) (rate : String) :
    (QueueTree.bare ⟨1, 0⟩ default).addClass
        ⟨.ofId rootId, ⟨1, 0⟩, ["sc", "rate", rate, "ul", "rate", rate]⟩ =
      some (.rooted default rate) := by
  rfl

/-- Whoever answers lets every change that can take effect do so, or it fails where that may
be; the same holds of clearing the marks, where a chain is created that may be there. -/
structure Permits (responder : Procedure.Responder Machine Host) (mayFail : Machine → Prop)
    (settings : Settings) (base : Kernel) : Prop where
  change : ∀ {machine host words command part next},
    machine.kernel = base.holding settings.device settings.chain part →
      Command.ofWords? words = some command →
        (base.holding settings.device settings.chain part).after command =
            some (base.holding settings.device settings.chain next) →
          (Host.change words).Ends responder machine host
            (Reaches mayFail settings base host next)
  clear : ∀ {machine host tree},
    machine.kernel = base.holding settings.device settings.chain ⟨tree, none, false⟩ →
      settings.marking.clear.Ends responder machine host
        (Reaches mayFail settings base host ⟨tree, some [], false⟩)

theorem Permits.ends_take {step : PlanStep} {next : Part}
    (permits : Permits responder mayFail settings base) (free : base.IsFree settings.chain)
    (builds : step.Builds part next)
    (holds : machine.kernel = base.holding settings.device settings.chain part) :
    (settings.backends.take step).Ends responder machine host
      (Reaches mayFail settings base host next) := by
  have different : settings.chain ≠ outgoing := fun equal => free.unused (.inl equal)
  cases builds with
  | root nonneg narrow written =>
      apply Reaches.bind (permits.change holds
        (settings.shaper.ofWords?_rootQueue nonneg narrow) (after_addRoot rfl))
      intro machine' host' holds'
      apply (Operation.ends_lift_bind written).mpr
      exact permits.change holds' (settings.shaper.ofWords?_rootClass _)
        (after_addClass rfl (addClass_bare _ _))
  | shapingClass isHandle isAbove written added =>
      apply (Operation.ends_lift_bind written).mpr
      exact permits.change holds (settings.shaper.ofWords?_shapingClass isHandle isAbove)
        (after_addClass rfl added)
  | leafQueue isHandle isAbove written added =>
      apply (Operation.ends_lift_bind written).mpr
      exact permits.change holds (settings.shaper.ofWords?_leafQueue isHandle isAbove)
        (after_addQueue rfl added)
  | clearMarks => exact permits.clear holds
  | attachMarks =>
      exact permits.change holds settings.ofWords?_attach (after_hook rfl rfl)
  | mark written =>
      apply (Operation.ends_lift_bind written).mpr
      exact permits.change holds (Settings.ofWords?_mark different _ _) (after_append rfl)
  | logMarks =>
      exact permits.change holds (Settings.ofWords?_logMarks different) (after_append rfl)
  | markFilter precedence mark isTarget added =>
      exact permits.change holds (settings.shaper.ofWords?_markFilter precedence mark isTarget)
        (after_addFilter rfl added)

theorem Permits.ends_takeAll {steps : List PlanStep} {last : Part}
    (permits : Permits responder mayFail settings base) (free : base.IsFree settings.chain)
    (builds : PlanStep.BuildAll steps part last) (total : Nat)
    (holds : machine.kernel = base.holding settings.device settings.chain part) :
    (settings.backends.takeAll total steps).Ends responder machine host
      (Reaches mayFail settings base host last) := by
  induction builds generalizing machine host with
  | nil => exact ⟨rfl, .inl ⟨rfl, holds⟩⟩
  | @cons step rest before middle after builds _ induction =>
      let shown := LogRecord.debug s!"[{total - rest.length}/{total}] {step.describe}"
      have rested : (do settings.backends.take step; settings.backends.takeAll total rest :
          HostOperation Unit).Ends responder machine (host.logged shown)
            (Reaches mayFail settings base (host.logged shown) after) := by
        apply Reaches.bind (permits.ends_take free builds holds)
        intro machine' host' holds'
        exact induction holds'
      apply rested.weaken
      intro _ _ _ ended
      exact ⟨ended.1.trans (host.logged_sessions shown), ended.2⟩

/-! ### Under a script -/

theorem ends_clearMarks {tree : Option QueueTree} (free : base.IsFree settings.chain)
    (holds : machine.kernel = base.holding settings.device settings.chain ⟨tree, none, false⟩) :
    settings.marking.clear.Ends (answer script) machine host
      (Builds script settings base host ⟨tree, some [], false⟩) := by
  have created : (base.holding settings.device settings.chain ⟨tree, none, false⟩).after
      (.create settings.chain) = some (base.holding settings.device settings.chain
        ⟨tree, some [], false⟩) := after_create free rfl
  apply Tried.bind (ends_discard_part holds settings.ofWords?_create rfl (by rw [created]; rfl))
  intro machine₁ host₁ _ sessions₁ _ holds₁
  have builds : (do Host.change settings.marking.empty; settings.marking.unhook :
      HostOperation Unit).Ends (answer script) machine₁ host₁
        (Builds script settings base host₁ ⟨tree, some [], false⟩) := by
    apply Reaches.bind (ends_change_part holds₁ settings.ofWords?_empty (after_empty rfl))
    intro machine₂ host₂ holds₂
    apply (ends_unhookUpTo free 7 holds₂).weaken
    intro _ _ _ ended
    exact ⟨ended.1.1, .inl ended.1.2⟩
  apply builds.weaken
  intro _ _ _ ended
  exact ⟨ended.1.trans sessions₁, ended.2⟩

theorem permits_answer (script : FailureScript) (free : base.IsFree settings.chain) :
    Permits (answer script) (fun _ => script.MayFail) settings base where
  change := ends_change_part
  clear := ends_clearMarks free

theorem ends_takeAll {steps : List PlanStep} {last : Part} (free : base.IsFree settings.chain)
    (builds : PlanStep.BuildAll steps part last) (total : Nat)
    (holds : machine.kernel = base.holding settings.device settings.chain part) :
    (settings.backends.takeAll total steps).Ends (answer script) machine host
      (Builds script settings base host last) :=
  (permits_answer script free).ends_takeAll free builds total holds

end Machine

end UplinkShaper
