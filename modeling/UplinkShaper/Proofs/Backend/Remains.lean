import UplinkShaper.Proofs.Backend.Interruptions

/-!
What a teardown leaves that misses a command, and what a plan makes of it. A tree that is still
there stands in the way of the first step. A chain or a hook that is still there does not: the
marks are cleared before the first of them is set.
-/

namespace UplinkShaper

open Kernel

namespace Kernel

/-- What is left of a part where some of it was removed. -/
structure Part.IsRestOf (left part : Part) : Prop where
  tree : left.tree = none ∨ left.tree = part.tree
  rules : part.rules = none → left.rules = none
  isHooked : part.isHooked = false → left.isHooked = false

namespace Part.IsRestOf

variable {left middle part : Part}

theorem refl (part : Part) : part.IsRestOf part :=
  ⟨.inr rfl, id, id⟩

theorem trans (rest : left.IsRestOf middle) (restOf : middle.IsRestOf part) :
    left.IsRestOf part := by
  refine ⟨?_, fun absent => rest.rules (restOf.rules absent),
    fun unhooked => rest.isHooked (restOf.isHooked unhooked)⟩
  rcases rest.tree with gone | same
  · exact .inl gone
  · rw [same]
    exact restOf.tree

end Part.IsRestOf

/-- An empty chain is removed, or nothing is. -/
theorem exists_after_remove (base : Kernel) (device chain : String) (part : Part) :
    ∃ left : Part, left.IsRestOf part ∧
      ((base.holding device chain part).after (.remove chain)).getD
        (base.holding device chain part) = base.holding device chain left := by
  by_cases removed : (base.holding device chain part).chains chain = some [] ∧
    (base.holding device chain part).hooks.all (·.2 ≠ chain) = true
  · refine ⟨{ part with rules := none }, ⟨.inr rfl, fun _ => rfl, id⟩, ?_⟩
    rw [after, if_pos removed, withChain_holding]
    rfl
  · refine ⟨part, .refl part, ?_⟩
    rw [after, if_neg removed]
    rfl

end Kernel

namespace Machine

variable {index : Nat} {isDone : Bool} {raised : Reply} {machine : Machine} {host : Host}
  {settings : Settings} {base : Kernel} {part : Part}
  {responder : Procedure.Responder Machine Host}

/-! ## Removals that are interrupted -/

/-- Whatever there is, an operation does not fail and leaves some of it. -/
def Removes (responder : Procedure.Responder Machine Host) (settings : Settings) (base : Kernel)
    (operation : HostOperation α) : Prop :=
  ∀ machine host part, machine.kernel = base.holding settings.device settings.chain part →
    operation.Ends responder machine host fun machine' host' result =>
      host'.sessions = host.sessions ∧ (∃ value, result = .ok value) ∧
        ∃ left : Part, left.IsRestOf part ∧
          machine'.kernel = base.holding settings.device settings.chain left

namespace Removes

theorem pure (value : α) : Removes responder settings base (Pure.pure value : HostOperation α) :=
  fun _ _ part holds => ⟨rfl, ⟨value, rfl⟩, part, .refl part, holds⟩

theorem bind {first : HostOperation α} {next : α → HostOperation β}
    (removes : Removes responder settings base first)
    (goesOn : ∀ value, Removes responder settings base (next value)) :
    Removes responder settings base (first >>= next) := by
  intro machine host part holds
  apply (removes machine host part holds).bind
  · rintro machine₁ host₁ value ⟨sessions₁, _, middle, restOf, holds₁⟩
    apply (goesOn value machine₁ host₁ middle holds₁).weaken
    rintro machine₂ host₂ result ⟨sessions₂, succeeded, left, rest, holds₂⟩
    exact ⟨sessions₂.trans sessions₁, succeeded, left, rest.trans restOf, holds₂⟩
  · rintro _ _ _ ⟨_, ⟨_, ⟨⟩⟩, _⟩

theorem discard {words : List String} {command : Command} (fails : raised.Fails)
    (asked : Command.ofWords? words = some command)
    (effect : ∀ part, ∃ left : Part, left.IsRestOf part ∧
      ((base.holding settings.device settings.chain part).after command).getD
        (base.holding settings.device settings.chain part) =
          base.holding settings.device settings.chain left) :
    Removes (interrupting index isDone raised) settings base (Host.discard words) := by
  intro machine host part holds
  rcases effect part with ⟨left, rest, hasEffect⟩
  apply (ends_discard_interrupting fails holds asked hasEffect).weaken
  rintro machine₁ host₁ result ⟨sessions, removed, holds₁ | ⟨_, holds₁⟩⟩
  · exact ⟨sessions, removed, left, rest, holds₁⟩
  · exact ⟨sessions, removed, part, .refl part, holds₁⟩

theorem unhookUpTo (fails : raised.Fails) (free : base.IsFree settings.chain) (count : Nat) :
    Removes (interrupting index isDone raised) settings base
      (settings.marking.unhookUpTo count) := by
  induction count with
  | zero => exact pure ()
  | succ count induction =>
      have detaches : Removes (interrupting index isDone raised) settings base
          (Host.discard settings.marking.detach) :=
        discard fails settings.ofWords?_detach fun part =>
          ⟨{ part with isHooked := false }, ⟨.inr rfl, id, fun _ => rfl⟩, getD_after_unhook free part⟩
      refine detaches.bind fun hasGone => ?_
      cases hasGone with
      | true => exact induction
      | false => exact pure ()

theorem teardown (fails : raised.Fails) (free : base.IsFree settings.chain) :
    Removes (interrupting index isDone raised) settings base settings.backends.teardown := by
  have root : Removes (interrupting index isDone raised) settings base
      (Host.discard settings.shaper.dropRoot) :=
    discard fails settings.shaper.ofWords?_dropRoot fun part =>
      ⟨{ part with tree := none }, ⟨.inl rfl, id, id⟩, after_dropRoot⟩
  have ingress : Removes (interrupting index isDone raised) settings base
      (Host.discard settings.shaper.dropIngress) :=
    discard fails settings.shaper.ofWords?_dropIngress fun part => ⟨part, .refl part, rfl⟩
  have empties : Removes (interrupting index isDone raised) settings base
      (Host.discard settings.marking.empty) :=
    discard fails settings.ofWords?_empty fun part =>
      ⟨{ part with rules := part.rules.map fun _ => [] },
        ⟨.inr rfl, fun absent => by rw [absent]; rfl, id⟩, getD_after_empty base _ _ part⟩
  have removes : Removes (interrupting index isDone raised) settings base
      (Host.discard settings.marking.remove) :=
    discard fails settings.ofWords?_remove (exists_after_remove base _ _)
  have clears : Removes (interrupting index isDone raised) settings base settings.shaper.clear :=
    root.bind fun _ => ingress.bind fun _ => pure ()
  exact clears.bind fun _ => (unhookUpTo fails free _).bind fun _ =>
    empties.bind fun _ => removes.bind fun _ => pure ()

end Removes

/-- A teardown leaves nothing, or what was raised is in the past and some of the part is left. -/
theorem ends_teardown_interrupting (fails : raised.Fails) (free : base.IsFree settings.chain)
    (holds : machine.kernel = base.holding settings.device settings.chain part) :
    settings.backends.teardown.Ends (interrupting index isDone raised) machine host
      fun machine' host' result => (host'.sessions = host.sessions ∧
        ∃ left : Part, left.IsRestOf part ∧ (left = Part.nothing ∨ IsPast index machine') ∧
          machine'.kernel = base.holding settings.device settings.chain left) ∧
            result = .ok () := by
  apply ((Removes.teardown fails free machine host part holds).and
    (ends_unless_reached (ends_teardown free holds))).weaken
  rintro machine' host' _ ⟨⟨sessions, ⟨⟨⟩, rfl⟩, left, rest, held⟩, unlessReached⟩
  refine ⟨⟨sessions, ?_⟩, rfl⟩
  by_cases past : IsPast index machine'
  · exact ⟨left, rest, .inr past, held⟩
  · exact ⟨Part.nothing, ⟨.inl rfl, fun _ => rfl, fun _ => rfl⟩, .inl rfl,
      (unlessReached (not_lt.mp past)).2.2⟩

end Machine

/-! ## Plans on what is left -/

namespace Kernel.Part

/-- Until its chain is cleared, a part may differ from another one in its chain and its hook. -/
structure Resembles (actual expected : Part) : Prop where
  tree : actual.tree = expected.tree
  cleared : expected.rules.isSome → actual = expected

namespace Resembles

variable {actual expected : Part}

theorem refl (part : Part) : part.Resembles part :=
  ⟨rfl, fun _ => rfl⟩

theorem withTree (resembles : actual.Resembles expected) (tree : Option QueueTree) :
    { actual with tree := tree }.Resembles { expected with tree := tree } := by
  refine ⟨rfl, fun cleared => ?_⟩
  rw [resembles.cleared cleared]

end Resembles

end Kernel.Part

/-- A step builds on a part what it builds on one that it resembles. Only clearing the marks
makes more of it. -/
theorem PlanStep.Builds.of_resembles {step : PlanStep} {actual expected next : Part}
    (builds : step.Builds expected next) (resembles : actual.Resembles expected) :
    (∃ tree, step = .clearMarks ∧ expected = ⟨tree, none, false⟩ ∧ next = ⟨tree, some [], false⟩) ∨
      ∃ next' : Part, step.Builds actual next' ∧ next'.Resembles next := by
  rcases actual with ⟨tree, rules, isHooked⟩
  have same : tree = expected.tree := resembles.tree
  subst same
  cases builds with
  | root nonneg narrow written =>
      exact .inr ⟨_, .root nonneg narrow written, resembles.withTree _⟩
  | shapingClass isHandle isAbove written added =>
      exact .inr ⟨_, .shapingClass isHandle isAbove written added, resembles.withTree _⟩
  | leafQueue isHandle isAbove written added =>
      exact .inr ⟨_, .leafQueue isHandle isAbove written added, resembles.withTree _⟩
  | @clearMarks tree => exact .inl ⟨tree, rfl, rfl, rfl⟩
  | attachMarks =>
      rw [resembles.cleared rfl]
      exact .inr ⟨_, .attachMarks, .refl _⟩
  | mark written =>
      rw [resembles.cleared rfl]
      exact .inr ⟨_, .mark written, .refl _⟩
  | logMarks =>
      rw [resembles.cleared rfl]
      exact .inr ⟨_, .logMarks, .refl _⟩
  | markFilter precedence mark isTarget added =>
      exact .inr ⟨_, .markFilter precedence mark isTarget added, resembles.withTree _⟩

namespace Machine

variable {machine : Machine} {host : Host} {settings : Settings} {base : Kernel}
  {actual expected : Part}

/-- A part like the one that was expected is left by something that does not fail. -/
def LeavesLike (settings : Settings) (base : Kernel) (host : Host) (expected : Part)
    (machine' : Machine) (host' : Host) (result : Except Failure Unit) : Prop :=
  ∃ actual : Part, actual.Resembles expected ∧
    Leaves settings base host actual machine' host' result

/-- Clearing the marks leaves an empty chain without a hook, whatever there was. -/
theorem ends_clearMarks_of_any (free : base.IsFree settings.chain)
    (holds : machine.kernel = base.holding settings.device settings.chain actual) :
    settings.marking.clear.Ends (answer .none) machine host
      (Leaves settings base host ⟨actual.tree, some [], false⟩) := by
  have created : ∃ rules, ((base.holding settings.device settings.chain actual).after
      (.create settings.chain)).getD (base.holding settings.device settings.chain actual) =
        base.holding settings.device settings.chain { actual with rules := some rules } := by
    cases present : actual.rules with
    | none => exact ⟨[], by rw [after_create free present]; rfl⟩
    | some rules =>
        have known : (base.holding settings.device settings.chain actual).hasChain
            settings.chain := .inr (by simp [present])
        refine ⟨rules, ?_⟩
        rw [after, if_pos known, ← present]
        rfl
  rcases created with ⟨rules, created⟩
  apply Tried.bind (ends_discard_part holds settings.ofWords?_create rfl created)
  intro machine₁ host₁ _ sessions₁ _ holds₁
  apply Leaves.bind ((ends_change_part holds₁ settings.ofWords?_empty (after_empty rfl)).weaken
    fun _ _ _ builds => builds.leaves)
  intro machine₂ host₂ sessions₂ holds₂
  apply (ends_unhookUpTo free 7 holds₂).weaken
  rintro _ _ _ ⟨⟨sessions₃, left⟩, _⟩
  exact ⟨sessions₃.trans (sessions₂.trans sessions₁), left⟩

theorem ends_take_of_resembles {step : PlanStep} {next : Part} (free : base.IsFree settings.chain)
    (builds : step.Builds expected next) (resembles : actual.Resembles expected)
    (holds : machine.kernel = base.holding settings.device settings.chain actual) :
    (settings.backends.take step).Ends (answer .none) machine host
      (LeavesLike settings base host next) := by
  rcases builds.of_resembles resembles with ⟨tree, rfl, rfl, rfl⟩ | ⟨next', builds', resembles'⟩
  · apply (ends_clearMarks_of_any free holds).weaken
    intro _ _ _ left
    refine ⟨_, ?_, left⟩
    rw [resembles.tree]
    exact .refl _
  · apply ((permits_answer .none free).ends_take free builds' holds).weaken
    intro _ _ _ built
    exact ⟨next', resembles', Builds.leaves built⟩

theorem ends_takeAll_of_resembles {steps : List PlanStep} {last : Part}
    (free : base.IsFree settings.chain) (builds : PlanStep.BuildAll steps expected last)
    (resembles : actual.Resembles expected) (total : Nat)
    (holds : machine.kernel = base.holding settings.device settings.chain actual) :
    (settings.backends.takeAll total steps).Ends (answer .none) machine host
      (LeavesLike settings base host last) := by
  induction builds generalizing machine host actual with
  | nil => exact ⟨actual, resembles, rfl, rfl, holds⟩
  | @cons step rest before middle after builds _ induction =>
      let shown := LogRecord.debug s!"[{total - rest.length}/{total}] {step.describe}"
      have rested : (do settings.backends.take step; settings.backends.takeAll total rest :
          HostOperation Unit).Ends (answer .none) machine (host.logged shown)
            (LeavesLike settings base (host.logged shown) after) := by
        apply (ends_take_of_resembles free builds resembles holds).bind
        · rintro machine₁ host₁ _ ⟨actual₁, resembles₁, sessions₁, _, holds₁⟩
          apply (induction resembles₁ holds₁).weaken
          rintro _ _ _ ⟨actual₂, resembles₂, sessions₂, left⟩
          exact ⟨actual₂, resembles₂, sessions₂.trans sessions₁, left⟩
        · rintro _ _ _ ⟨_, _, _, ⟨⟩, _⟩
      apply rested.weaken
      rintro _ _ _ ⟨left, like, sessions, ended⟩
      exact ⟨left, like, sessions.trans (host.logged_sessions shown), ended⟩

/-- A tree that is still there is in the way of another one. -/
theorem ends_takeAll_of_tree {capacity : LinkCapacity} {default : Int} {tree : QueueTree}
    {last : Part} (nonneg : 0 ≤ default) (narrow : default ≤ 9999)
    (inTheWay : actual.tree = some tree) (total : Nat) (rest : List PlanStep)
    (holds : machine.kernel = base.holding settings.device settings.chain actual) :
    (settings.backends.takeAll total (.root capacity default :: rest)).Ends (answer .none) machine
      host (Reaches (fun _ => True) settings base host last) := by
  have occupied : (base.holding settings.device settings.chain actual).after
      (.addRoot settings.device ⟨1, 0⟩ (Handle.ofId default).minor) = none := by
    simp only [after, holding_trees, inTheWay]
  let step := PlanStep.root capacity default
  let shown := LogRecord.debug s!"[{total - rest.length}/{total}] {step.describe}"
  have taken : (do settings.backends.take step; settings.backends.takeAll total rest :
      HostOperation Unit).Ends (answer .none) machine (host.logged shown)
        (Reaches (fun _ => True) settings base (host.logged shown) last) := by
    apply Operation.Ends.bind_error
    apply Operation.Ends.bind_error
    apply (ends_change_refused holds (settings.shaper.ofWords?_rootQueue nonneg narrow)
      occupied).weaken
    rintro _ _ _ ⟨sessions, _, holds', failure, rfl⟩
    exact ⟨_, rfl, _, rfl, sessions, .inr ⟨⟨trivial, _, rfl⟩, _, holds'⟩⟩
  apply taken.weaken
  exact fun _ _ _ ended => ⟨ended.1.trans (host.logged_sessions shown), ended.2⟩

/-- A plan is carried out on whatever was left, unless a tree is in its way. -/
theorem ends_execute_of_any {plan : Plan} {capacity : LinkCapacity} {default : Int}
    {rest : List PlanStep} {last : Part} (free : base.IsFree settings.chain)
    (begins : plan.steps = .root capacity default :: rest)
    (builds : PlanStep.BuildAll plan.steps Part.nothing last) (cleared : last.rules.isSome)
    (holds : machine.kernel = base.holding settings.device settings.chain actual) :
    (settings.backends.execute plan).Ends (answer .none) machine host
      (Reaches (fun _ => True) settings base host last) := by
  cases inTheWay : actual.tree with
  | none =>
      have resembles : actual.Resembles Part.nothing := ⟨inTheWay, (nomatch ·)⟩
      apply (ends_takeAll_of_resembles free builds resembles _ holds).weaken
      rintro _ _ _ ⟨left, like, sessions, succeeded, holds'⟩
      rw [like.cleared cleared] at holds'
      exact ⟨sessions, .inl ⟨succeeded, holds'⟩⟩
  | some tree =>
      unfold Backends.execute
      rw [begins] at builds ⊢
      cases builds with
      | cons builds _ =>
          cases builds with
          | root nonneg narrow _ => exact ends_takeAll_of_tree nonneg narrow inTheWay _ rest holds

end Machine

end UplinkShaper
