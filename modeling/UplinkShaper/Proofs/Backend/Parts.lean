import UplinkShaper.Proofs.Backend.Kernel

/-!
The part of the kernel that the backends of one device and one chain can change: the tree
of the device, the chain, and the rule that leads to it. Everything around that part is a
kernel of its own, and no command of the backends has an effect on it.
-/

namespace UplinkShaper

namespace Kernel

/-- What the kernel holds for one device and one chain. -/
structure Part where
  tree : Option QueueTree
  rules : Option (List (List String))
  isHooked : Bool
deriving DecidableEq, Repr

def Part.nothing : Part where
  tree := none
  rules := none
  isHooked := false

/-- A kernel with another part for a device and a chain. -/
def holding (base : Kernel) (device chain : String) (part : Part) : Kernel where
  trees := Function.update base.trees device part.tree
  chains := Function.update base.chains chain part.rules
  hooks := base.hooks ++ if part.isHooked then [(device, chain)] else []

/-- A kernel without a chain of a name and without a rule that leads to one. -/
structure IsFree (kernel : Kernel) (chain : String) : Prop where
  unused : ¬ kernel.hasChain chain
  unhooked : ∀ device, (device, chain) ∉ kernel.hooks

/-- A kernel that was never asked for anything. -/
def untouched : Kernel where
  trees _ := none
  chains _ := none
  hooks := []

theorem isFree_untouched {chain : String} (different : chain ≠ outgoing) :
    untouched.IsFree chain where
  unused := by simp [hasChain, untouched, different]
  unhooked := by simp [untouched]

section Holding

variable {base : Kernel} {device chain : String} {part : Part}

@[simp]
theorem holding_trees : (base.holding device chain part).trees device = part.tree :=
  Function.update_self ..

@[simp]
theorem holding_chains : (base.holding device chain part).chains chain = part.rules :=
  Function.update_self ..

theorem holding_trees_of_ne {other : String} (different : other ≠ device) :
    (base.holding device chain part).trees other = base.trees other :=
  Function.update_of_ne different ..

theorem holding_chains_of_ne {other : String} (different : other ≠ chain) :
    (base.holding device chain part).chains other = base.chains other :=
  Function.update_of_ne different ..

@[simp]
theorem withTree_holding {tree : Option QueueTree} :
    (base.holding device chain part).withTree device tree =
      base.holding device chain { part with tree := tree } := by
  simp [withTree, holding]

@[simp]
theorem withChain_holding {rules : Option (List (List String))} :
    (base.holding device chain part).withChain chain rules =
      base.holding device chain { part with rules := rules } := by
  simp [withChain, holding]

theorem IsFree.chains_eq_none (free : base.IsFree chain) : base.chains chain = none := by
  have unused := free.unused
  simp only [hasChain, not_or, Option.not_isSome_iff_eq_none] at unused
  exact unused.2

/-- A kernel holds what it has anyway, if the chain is free. -/
theorem IsFree.holding_self (free : base.IsFree chain) :
    base.holding device chain ⟨base.trees device, none, false⟩ = base := by
  simp [holding, ← free.chains_eq_none]

/-! ## Effects on a part -/

theorem after_addRoot {root : Handle} {default : Nat} (absent : part.tree = none) :
    (base.holding device chain part).after (.addRoot device root default) =
      some (base.holding device chain { part with tree := some (.bare root default) }) := by
  simp only [after, holding_trees, absent, withTree_holding]

theorem after_addClass {item : QueueClass} {tree next : QueueTree}
    (present : part.tree = some tree) (added : tree.addClass item = some next) :
    (base.holding device chain part).after (.addClass device item) =
      some (base.holding device chain { part with tree := some next }) := by
  simp [after, present, added]

theorem after_addQueue {queue : LeafQueue} {tree next : QueueTree}
    (present : part.tree = some tree) (added : tree.addQueue queue = some next) :
    (base.holding device chain part).after (.addQueue device queue) =
      some (base.holding device chain { part with tree := some next }) := by
  simp [after, present, added]

theorem after_addFilter {parent : Handle} {filter : ClassFilter} {tree next : QueueTree}
    (present : part.tree = some tree) (added : tree.addFilter parent filter = some next) :
    (base.holding device chain part).after (.addFilter device parent filter) =
      some (base.holding device chain { part with tree := some next }) := by
  simp [after, present, added]

/-- Whether or not there was a tree, none is left. -/
theorem after_dropRoot :
    ((base.holding device chain part).after (.dropRoot device)).getD
        (base.holding device chain part) =
      base.holding device chain { part with tree := none } := by
  rcases part with ⟨tree, rules, isHooked⟩
  cases tree with
  | none => simp [after]
  | some tree => simp [after]

theorem after_create (free : base.IsFree chain) (absent : part.rules = none) :
    (base.holding device chain part).after (.create chain) =
      some (base.holding device chain { part with rules := some [] }) := by
  have unused : ¬ (base.holding device chain part).hasChain chain := by
    have := free.unused
    simp only [hasChain, not_or] at this
    simp [hasChain, this.1, absent]
  simp [after, unused]

theorem after_empty {rules : List (List String)} (present : part.rules = some rules) :
    (base.holding device chain part).after (.empty chain) =
      some (base.holding device chain { part with rules := some [] }) := by
  simp [after, present]

theorem after_empty_of_absent (absent : part.rules = none) :
    (base.holding device chain part).after (.empty chain) = none := by
  simp [after, absent]

/-- An empty chain that nothing leads to can be removed. -/
theorem after_remove (free : base.IsFree chain) (isEmpty : part.rules = some [])
    (unhooked : part.isHooked = false) :
    (base.holding device chain part).after (.remove chain) =
      some (base.holding device chain { part with rules := none }) := by
  have noHook : ∀ hook ∈ base.hooks, hook.2 ≠ chain := by
    rintro ⟨other, name⟩ member rfl
    exact free.unhooked other member
  have all : (base.holding device chain part).hooks.all (·.2 ≠ chain) = true := by
    simpa [holding, unhooked] using noHook
  simp only [after, holding_chains, isEmpty, all, withChain_holding, and_self, if_true]

theorem after_remove_of_absent (absent : part.rules = none) :
    (base.holding device chain part).after (.remove chain) = none := by
  simp [after, absent]

theorem after_append {rule : List String} {rules : List (List String)}
    (present : part.rules = some rules) :
    (base.holding device chain part).after (.append chain rule) =
      some (base.holding device chain { part with rules := some (rules ++ [rule]) }) := by
  simp [after, present]

theorem after_hook {rules : List (List String)} (present : part.rules = some rules)
    (unhooked : part.isHooked = false) :
    (base.holding device chain part).after (.hook device chain) =
      some (base.holding device chain { part with isHooked := true }) := by
  have known : (base.holding device chain part).hasChain chain := .inr (by simp [present])
  rw [after, if_pos known]
  simp [holding, unhooked]

variable (device) in
theorem after_unhook (free : base.IsFree chain) (hooked : part.isHooked = true) :
    (base.holding device chain part).after (.unhook device chain) =
      some (base.holding device chain { part with isHooked := false }) := by
  have member : (device, chain) ∈ (base.holding device chain part).hooks := by
    simp [holding, hooked]
  rw [after, if_pos member]
  simp [holding, hooked, List.erase_append_right _ (free.unhooked device)]

variable (device) in
theorem after_unhook_of_unhooked (free : base.IsFree chain) (unhooked : part.isHooked = false) :
    (base.holding device chain part).after (.unhook device chain) = none := by
  have absent : (device, chain) ∉ (base.holding device chain part).hooks := by
    simpa [holding, unhooked] using free.unhooked device
  rw [after, if_neg absent]

end Holding

end Kernel

/-! ## What the commands of the backends ask -/

open Kernel

namespace Shaper

theorem ofWords?_rootQueue (shaper : Shaper) {default : Int} (nonneg : 0 ≤ default)
    (narrow : default ≤ 9999) :
    Command.ofWords? (shaper.rootQueue default) =
      some (.addRoot shaper.device ⟨1, 0⟩ (Handle.ofId default).minor) := by
  change (do
    return Command.addRoot shaper.device (← Handle.ofText? rootHandle)
      (← Handle.number? (toString default).toList)) = _
  rw [Handle.ofText?_rootHandle, Handle.number?_toString nonneg narrow]
  rfl

theorem ofWords?_rootClass (shaper : Shaper) (rate : String) :
    Command.ofWords? (shaper.rootClass rate) =
      some (.addClass shaper.device
        ⟨.ofId rootId, ⟨1, 0⟩, ["sc", "rate", rate, "ul", "rate", rate]⟩) := by
  have isHandle : Handle.ofText? (classHandle (toString rootId)) = some (.ofId rootId) :=
    Handle.ofText?_classHandle (by decide) (by decide)
  change (do
    return Command.addClass shaper.device
      ⟨← Handle.ofText? (classHandle (toString rootId)), ← Handle.ofText? rootHandle, _⟩) = _
  rw [isHandle, Handle.ofText?_rootHandle]
  rfl

theorem ofWords?_shapingClass (shaper : Shaper) {id : Int} {parent : Number}
    {curve : List String} {handle above : Handle}
    (isHandle : Handle.ofText? (classHandle (toString id)) = some handle)
    (isAbove : Handle.ofText? (classHandle parent.text) = some above) :
    Command.ofWords? (shaper.shapingClass id parent curve) =
      some (.addClass shaper.device ⟨handle, above, curve⟩) := by
  change (do
    return Command.addClass shaper.device
      ⟨← Handle.ofText? (classHandle (toString id)), ← Handle.ofText? (classHandle parent.text),
        curve⟩) = _
  rw [isHandle, isAbove]
  rfl

theorem ofWords?_leafQueue (shaper : Shaper) {id : Int} {kind : List String}
    {handle above : Handle} (isHandle : Handle.ofText? (toString id ++ ":") = some handle)
    (isAbove : Handle.ofText? (classHandle (toString id)) = some above) :
    Command.ofWords? (shaper.leafQueue id kind) =
      some (.addQueue shaper.device ⟨handle, above, kind⟩) := by
  change (do
    return Command.addQueue shaper.device
      ⟨← Handle.ofText? (toString id ++ ":"), ← Handle.ofText? (classHandle (toString id)),
        kind⟩) = _
  rw [isHandle, isAbove]
  rfl

theorem ofWords?_markFilter (shaper : Shaper) {filter : MarkFilter} {target : Handle}
    (precedence : 0 ≤ filter.precedence) (mark : 0 ≤ filter.mark)
    (isTarget : Handle.ofText? filter.handle = some target) :
    Command.ofWords? (shaper.markFilter filter) =
      some (.addFilter shaper.device ⟨1, 0⟩
        ⟨filter.precedence.toNat, filter.mark.toNat, target⟩) := by
  change (do
    return Command.addFilter shaper.device (← Handle.ofText? rootHandle)
      ⟨← Netfilter.number? (toString filter.precedence).toList,
        ← Netfilter.number? (toString filter.mark).toList, ← Handle.ofText? filter.handle⟩) = _
  rw [Handle.ofText?_rootHandle, Netfilter.number?_toString precedence,
    Netfilter.number?_toString mark, isTarget]
  rfl

theorem ofWords?_dropRoot (shaper : Shaper) :
    Command.ofWords? shaper.dropRoot = some (.dropRoot shaper.device) :=
  rfl

theorem ofWords?_dropIngress (shaper : Shaper) :
    Command.ofWords? shaper.dropIngress = some (.dropIngress shaper.device) :=
  rfl

end Shaper

namespace Settings

variable (settings : Settings)

theorem ofWords?_attach :
    Command.ofWords? settings.marking.attach = some (.hook settings.device settings.chain) :=
  rfl

theorem ofWords?_detach :
    Command.ofWords? settings.marking.detach = some (.unhook settings.device settings.chain) :=
  rfl

theorem ofWords?_create :
    Command.ofWords? settings.marking.create = some (.create settings.chain) :=
  rfl

theorem ofWords?_empty :
    Command.ofWords? settings.marking.empty = some (.empty settings.chain) :=
  rfl

theorem ofWords?_remove :
    Command.ofWords? settings.marking.remove = some (.remove settings.chain) :=
  rfl

theorem marking?_append {chain : String} (different : chain ≠ outgoing) (rule : List String) :
    Command.marking? ("-A" :: chain :: rule) = some (.append chain rule) := by
  rw [Command.marking?]
  intro _ _ isOutgoing
  exact absurd isOutgoing different

theorem ofWords?_mark {settings : Settings} (different : settings.chain ≠ outgoing)
    (matching : List String) (mark : Int) :
    Command.ofWords? (settings.marking.mark matching mark) =
      some (.append settings.chain
        (matching ++ ["-j", "MARK", "--set-mark", toString mark])) := by
  change Command.marking? ("-A" :: settings.chain :: (matching ++ _)) = _
  exact marking?_append different _

theorem ofWords?_logMarks {settings : Settings} (different : settings.chain ≠ outgoing) :
    Command.ofWords? settings.marking.logMarks =
      some (.append settings.chain
        ["-j", "LOG", "--log-prefix", "QOS-MARK: ", "--log-level", "debug"]) := by
  exact marking?_append different _

end Settings

end UplinkShaper
