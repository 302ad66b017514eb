import UplinkShaper.Proofs.Backend.Plans
import UplinkShaper.Proofs.Session.Quiet

/-!
Sessions and the kernel in step. While a session has something applied, the kernel holds
exactly that for its backends; otherwise it holds nothing for them. Nothing is ever left
behind for other devices and chains.
-/

namespace UplinkShaper

open Kernel

namespace Kernel

/-- What is left of a kernel after some devices have lost their trees. -/
structure IsRestOf (kernel initial : Kernel) : Prop where
  trees : ∀ device, kernel.trees device = none ∨ kernel.trees device = initial.trees device
  chains : kernel.chains = initial.chains
  hooks : kernel.hooks = initial.hooks

theorem IsRestOf.refl (kernel : Kernel) : kernel.IsRestOf kernel :=
  ⟨fun _ => .inr rfl, rfl, rfl⟩

variable {kernel initial base : Kernel} {device chain : String}

theorem IsRestOf.isFree (rest : kernel.IsRestOf initial) (free : initial.IsFree chain) :
    kernel.IsFree chain := by
  refine ⟨?_, ?_⟩
  · rw [hasChain, rest.chains]
    exact free.unused
  · rw [rest.hooks]
    exact free.unhooked

theorem IsRestOf.withTree_none (rest : base.IsRestOf initial) (device : String) :
    (base.withTree device none).IsRestOf initial := by
  refine ⟨fun other => ?_, rest.chains, rest.hooks⟩
  by_cases same : other = device
  · subst same
    exact .inl (Function.update_self ..)
  · have kept : (base.withTree device none).trees other = base.trees other :=
      Function.update_of_ne same ..
    rw [kept]
    exact rest.trees other

theorem IsFree.holding_nothing (free : base.IsFree chain) (device : String) :
    base.holding device chain Part.nothing = base.withTree device none := by
  have same : base.holding device chain ⟨base.trees device, none, false⟩ = base :=
    free.holding_self
  conv => rhs; rw [← same, withTree_holding]
  rfl

theorem IsRestOf.holding_nothing (rest : base.IsRestOf initial) (free : initial.IsFree chain)
    (device : String) : (base.holding device chain Part.nothing).IsRestOf initial := by
  rw [(rest.isFree free).holding_nothing]
  exact rest.withTree_none device

end Kernel

namespace Settings

/-- Settings that were accepted, with whole numbers where the schema asks for them, and a
chain of their own. -/
structure IsProper (initial : Kernel) (settings : Settings) : Prop where
  accepted : ∃ locations document source, ofDocument locations document source = .ok settings
  parents : ∀ spec ∈ settings.treeRequest.specs, ∃ parent : Int, spec.parent = .whole parent
  retries : ∃ retries : Int, settings.retries = .whole retries
  free : initial.IsFree settings.chain

/-- The plan of settings whose capacity has a finite double can be taken. -/
theorem IsProper.exists_buildAll {initial : Kernel} {settings : Settings}
    (proper : settings.IsProper initial) (below : settings.capacity.rate < Double.bound)
    {roundTrip : Number} {compiled : Compiled}
    (compiles : Compiled.ofSettings settings roundTrip = .ok compiled) :
    ∃ part, compiled.IsHeld settings part ∧
      PlanStep.BuildAll compiled.plan.steps Part.nothing part := by
  rcases proper.accepted with ⟨_, _, _, accepted⟩
  rcases Compiled.ofSettings_eq_ok_iff.mp compiles with ⟨made, built, isPlan⟩
  rcases Compiled.exists_buildAll isPlan
    (ClassTree.isBuildable_of_compile proper.parents below made)
    (RuleSet.isBuilt_of_build (tableIsWritten_of_ofDocument accepted) built).isApplicable
    (leafQueue_of_ofDocument accepted) with ⟨tree, rules, isTree, isChain, builds⟩
  exact ⟨_, ⟨tree, rules, rfl, isTree, isChain⟩, builds⟩

theorem backends_of_binding {left right : Settings} (same : left.binding = right.binding) :
    left.backends = right.backends := by
  have device : left.device = right.device := congrArg Binding.device same
  have shaperTool : left.tools.shaper = right.tools.shaper := congrArg Binding.shaperTool same
  have markingTool : left.tools.marking = right.tools.marking := congrArg Binding.markingTool same
  have chain : left.chain = right.chain := congrArg Binding.chain same
  simp only [backends, shaper, marking, device, shaperTool, markingTool, chain]

end Settings

namespace Session

/-- The kernel holds what a session has applied, and where it has applied nothing, nothing
of its backends. A session that never changed anything has left everything alone. -/
def InStep (initial kernel : Kernel) (session : Session) : Prop :=
  match session.applied with
  | some applied =>
      session.backends = session.settings.backends ∧
        Compiled.ofSettings session.settings (session.roundTripFor session.settings) =
          .ok applied.compiled ∧
        ∃ (base : Kernel) (part : Part), base.IsRestOf initial ∧
          applied.compiled.IsHeld session.settings part ∧
            kernel = base.holding session.settings.device session.settings.chain part
  | none =>
      kernel = initial ∨
        kernel.IsRestOf initial ∧ kernel.trees session.shaper.device = none

/-- A session of settings that may be requested, with backends that are made for such. -/
structure IsBound (requested : Settings → Prop) (session : Session) : Prop where
  movable : session.isMovable = true
  settings : requested session.settings
  backends : ∃ settings, requested settings ∧ session.backends = settings.backends ∧
    session.binding = settings.binding

/-- A session that is in step and can be asked for more. -/
structure IsReady (requested : Settings → Prop) (initial kernel : Kernel) (session : Session) :
    Prop where
  inStep : session.InStep initial kernel
  bound : session.IsBound requested

variable {requested : Settings → Prop} {initial kernel : Kernel} {session : Session}

/-- Whether a reconfiguration is under way does not matter. -/
theorem IsReady.writing (ready : session.IsReady requested initial kernel) (isWriting : Bool) :
    { session with isWriting := isWriting }.IsReady requested initial kernel :=
  ⟨ready.inStep, ready.bound.movable, ready.bound.settings, ready.bound.backends⟩

/-- The backends of a session are those of all settings with its binding. -/
theorem IsBound.backends_eq (bound : session.IsBound requested) {settings : Settings}
    (same : settings.binding = session.binding) : session.backends = settings.backends := by
  rcases bound.backends with ⟨old, _, backends, binding⟩
  exact backends.trans (Settings.backends_of_binding (same.trans binding)).symm

/-- The kernel around the backends of a session, and the part that it holds for them. -/
theorem IsReady.exists_holding (ready : session.IsReady requested initial kernel)
    {settings : Settings} (backends : session.backends = settings.backends)
    (free : initial.IsFree settings.chain) :
    ∃ (base : Kernel) (part : Part), base.IsRestOf initial ∧
      kernel = base.holding settings.device settings.chain part := by
  have inStep := ready.inStep
  simp only [InStep] at inStep
  split at inStep
  case h_1 applied _ =>
    rcases inStep with ⟨same, _, base, part, rest, _, holds⟩
    have equal := same.symm.trans backends
    have device : session.settings.device = settings.device :=
      congrArg (·.shaper.device) equal
    have chain : session.settings.chain = settings.chain := congrArg (·.marking.chain) equal
    exact ⟨base, part, rest, by rw [holds, device, chain]⟩
  case h_2 =>
    have rest : kernel.IsRestOf initial := by
      rcases inStep with rfl | ⟨rest, _⟩
      · exact .refl _
      · exact rest
    exact ⟨kernel, ⟨kernel.trees settings.device, none, false⟩, rest,
      (rest.isFree free).holding_self.symm⟩

/-- A session that was cleared is ready, if nothing is left for its backends. -/
theorem IsBound.isReady_cleared (bound : session.IsBound requested) {settings : Settings}
    {base : Kernel} (backends : session.backends = settings.backends)
    (free : initial.IsFree settings.chain) (rest : base.IsRestOf initial) :
    session.cleared.IsReady requested initial
      (base.holding settings.device settings.chain Part.nothing) := by
  refine ⟨.inr ⟨rest.holding_nothing free _, ?_⟩, bound.movable, bound.settings, bound.backends⟩
  have device : session.cleared.shaper.device = settings.device :=
    congrArg (·.shaper.device) backends
  rw [device]
  exact holding_trees

end Session

end UplinkShaper
