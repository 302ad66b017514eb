import UplinkShaper.Proofs.Allocation.WellFormed
import UplinkShaper.Proofs.Backend.Steps
import UplinkShaper.Proofs.Config.Merge
import UplinkShaper.Proofs.Session.Compiling

/-!
What whole plans build: a class for every tier below its parent, a queue for every leaf, a
filter for every mark, and a chain with a rule for every match. Every step of a plan can be
taken after those before it, if the capacity of the link has a finite double.
-/

namespace UplinkShaper

open Kernel Allocation

/-! ## What is held for a compiled configuration -/

/-- The class of a tier. -/
structure Tier.IsClass (tier : Tier) (item : QueueClass) : Prop where
  handle : item.handle = .ofId tier.id
  parent : ∃ id : Int, tier.parent = .whole id ∧ item.parent = .ofId id
  curve : Words.curve tier.curve = .ok item.curve

/-- The queue of a tier without children. -/
structure Tier.IsQueue (kind : String) (tier : Tier) (queue : LeafQueue) : Prop where
  handle : queue.handle = ⟨(Handle.ofId tier.id).minor, 0⟩
  parent : queue.parent = .ofId tier.id
  kind : Shaper.queueWords kind (Plan.queueLimit kind tier) = .ok queue.kind

/-- The filter for a mark. -/
def MarkFilter.held (filter : MarkFilter) : ClassFilter where
  precedence := filter.precedence.toNat
  mark := filter.mark.toNat
  target := .ofId filter.mark

/-- The words of a rule in the chain. -/
def ClassificationRule.IsWritten (rule : ClassificationRule) (words : List String) : Prop :=
  ∃ matching, Marking.ruleWords rule = .ok matching ∧ words = markRule matching rule.mark

/-- The tiers that get a queue of their own. -/
def ClassTree.leaves (tree : ClassTree) (kind : String) : List Tier :=
  if kind = Plan.noQueue then [] else tree.tiers.filter fun tier => !tree.isInner tier

namespace Compiled

def defaultId (compiled : Compiled) : Int :=
  (compiled.tree.default?.map (·.id)).getD Plan.noDefault

/-- The queueing tree for a class tree and its filters. -/
structure IsTree (compiled : Compiled) (kind : String) (tree : QueueTree) : Prop where
  root : tree.root = ⟨1, 0⟩
  default : tree.default = (Handle.ofId compiled.defaultId).minor
  classes : ∃ rate items, Words.rate (.whole compiled.tree.capacity.rate) = .ok rate ∧
    List.Forall₂ Tier.IsClass compiled.tree.tiers items ∧
      tree.classes = (QueueTree.rooted tree.default rate).classes ++ items
  queues : List.Forall₂ (Tier.IsQueue kind) (compiled.tree.leaves kind) tree.queues
  filters : tree.filters = compiled.rules.filters.map (·.held)

/-- The chain for a rule set, with a rule for logs at its end if there is to be one. -/
def IsChain (compiled : Compiled) (isLogged : Bool) (rules : List (List String)) : Prop :=
  ∃ marks, List.Forall₂ ClassificationRule.IsWritten compiled.rules.rules marks ∧
    rules = marks ++ if isLogged then [logRule] else []

/-- The tree, the chain and one rule that leads to it. -/
def IsHeld (compiled : Compiled) (settings : Settings) (part : Part) : Prop :=
  ∃ tree rules, part = ⟨some tree, some rules, true⟩ ∧
    compiled.IsTree settings.leafQueue tree ∧ compiled.IsChain settings.logMarks rules

end Compiled

/-! ## Handles of tiers -/

namespace Handle

variable {left right : Int}

theorem nonneg_of_isTierId (proper : IsTierId left) : 0 ≤ left := by
  have := proper.1
  omega

theorem ofId_ne (leftProper : IsTierId left) (rightProper : IsTierId right)
    (different : left ≠ right) : ofId left ≠ ofId right := by
  rw [Ne, ofId_inj (nonneg_of_isTierId leftProper) (nonneg_of_isTierId rightProper)]
  exact different

/-- The handle of the queue of a class. -/
def ofQueue (id : Int) : Handle :=
  ⟨(ofId id).minor, 0⟩

theorem ofQueue_ne (leftProper : IsTierId left) (rightProper : IsTierId right)
    (different : left ≠ right) : ofQueue left ≠ ofQueue right := by
  intro equal
  have same : (ofId left).minor = (ofId right).minor := congrArg Handle.major equal
  exact ofId_ne leftProper rightProper different (congrArg (Handle.mk 1) same)

theorem ofQueue_ne_root (proper : IsTierId left) : ofQueue left ≠ ⟨1, 0⟩ := by
  intro equal
  have same : readAsHexadecimal left.toNat = readAsHexadecimal 1 := congrArg Handle.major equal
  have := readAsHexadecimal_strictMono.injective same
  have := proper.1
  omega

end Handle

/-! ## Classes -/

namespace PlanStep

variable (tree : QueueTree) (rules : Option (List (List String))) (isHooked : Bool)

/-- A class can be built below a known one. -/
theorem builds_shapingClass {tier : Tier} {parent : Int} {words : List String}
    (proper : IsTierId tier.id) (isParent : tier.parent = .whole parent) (nonneg : 0 ≤ parent)
    (narrow : parent ≤ 9999) (written : Words.curve tier.curve = .ok words)
    (holds : tree.canHold (.ofId parent) = true) (new : tree.canHold (.ofId tier.id) = false) :
    PlanStep.Builds (.shapingClass tier.id tier.parent tier.curve) ⟨some tree, rules, isHooked⟩
      ⟨some { tree with classes := tree.classes ++ [⟨.ofId tier.id, .ofId parent, words⟩] },
        rules, isHooked⟩ := by
  apply Builds.shapingClass (Handle.ofText?_classHandle (Handle.nonneg_of_isTierId proper) proper.2)
  · rw [isParent]
    exact Handle.ofText?_classHandle nonneg narrow
  · exact written
  · exact QueueTree.addClass_eq holds new

/-- The kinds of queues that leaves can get. -/
theorem exists_queueWords {kind : String} (isKind : kind = "sfq" ∨ kind = "bfifo") (limit : Int) :
    ∃ words, Shaper.queueWords kind limit = .ok words := by
  rcases isKind with rfl | rfl
  · exact ⟨_, rfl⟩
  · exact ⟨_, rfl⟩

theorem builds_leafQueue {tier : Tier} {kind : String} {words : List String}
    (proper : IsTierId tier.id) (isRoot : tree.root = ⟨1, 0⟩)
    (written : Shaper.queueWords kind (Plan.queueLimit kind tier) = .ok words)
    (holds : tree.hasClass (.ofId tier.id) = true)
    (new : ∀ queue ∈ tree.queues, queue.parent ≠ .ofId tier.id ∧
      queue.handle ≠ .ofQueue tier.id) :
    PlanStep.Builds (.leafQueue tier.id kind (Plan.queueLimit kind tier))
      ⟨some tree, rules, isHooked⟩
      ⟨some { tree with queues := tree.queues ++ [⟨.ofQueue tier.id, .ofId tier.id, words⟩] },
        rules, isHooked⟩ := by
  have nonneg := Handle.nonneg_of_isTierId proper
  have notRoot : Handle.ofQueue tier.id ≠ tree.root := by
    rw [isRoot]
    exact Handle.ofQueue_ne_root proper
  apply Builds.leafQueue (Handle.ofText?_queue nonneg proper.2)
    (Handle.ofText?_classHandle nonneg proper.2) written
  exact QueueTree.addQueue_eq holds notRoot new

/-- Tiers whose parents are known or stand before them, once the first of them is known. -/
theorem parents_rest {tier : Tier} {rest : List Tier} {known : List Int}
    (parents : ∀ before other after, tier :: rest = before ++ other :: after →
      ∃ parent, other.parent = .whole parent ∧ (parent ∈ known ∨ parent ∈ before.map (·.id)))
    (before : List Tier) (other : Tier) (after : List Tier)
    (split : rest = before ++ other :: after) :
    ∃ parent, other.parent = .whole parent ∧
      (parent ∈ tier.id :: known ∨ parent ∈ before.map (·.id)) := by
  rcases parents (tier :: before) other after (by rw [split]; rfl) with
    ⟨above, isAbove, inKnown | inBefore⟩
  · exact ⟨above, isAbove, .inl (List.mem_cons_of_mem _ inKnown)⟩
  · rcases List.mem_cons.mp inBefore with rfl | later
    · exact ⟨tier.id, isAbove, .inl (List.mem_cons_self ..)⟩
    · exact ⟨above, isAbove, .inr later⟩

namespace BuildAll

/-- Classes can be built below known ones, if each stands after its parent. -/
theorem exists_classes {tiers : List Tier} {known : List Int}
    (proper : ∀ tier ∈ tiers, IsTierId tier.id)
    (written : ∀ tier ∈ tiers, ∃ words, Words.curve tier.curve = .ok words)
    (parents : ∀ before tier after, tiers = before ++ tier :: after →
      ∃ parent, tier.parent = .whole parent ∧ (parent ∈ known ∨ parent ∈ before.map (·.id)))
    (distinct : (tiers.map (·.id)).Nodup)
    (bounds : ∀ id ∈ known, 0 ≤ id ∧ id ≤ 9999)
    (holds : ∀ id ∈ known, tree.canHold (.ofId id) = true)
    (new : ∀ tier ∈ tiers, tree.canHold (.ofId tier.id) = false) :
    ∃ items, List.Forall₂ Tier.IsClass tiers items ∧
      BuildAll (tiers.map fun tier => .shapingClass tier.id tier.parent tier.curve)
        ⟨some tree, rules, isHooked⟩
        ⟨some { tree with classes := tree.classes ++ items }, rules, isHooked⟩ := by
  induction tiers generalizing tree known with
  | nil =>
      refine ⟨[], .nil, ?_⟩
      rw [List.append_nil]
      exact .nil
  | cons tier rest induction =>
      rcases List.forall_mem_cons.mp proper with ⟨tierProper, restProper⟩
      rcases List.forall_mem_cons.mp written with ⟨⟨words, isWritten⟩, restWritten⟩
      rcases List.forall_mem_cons.mp new with ⟨tierNew, restNew⟩
      rcases List.nodup_cons.mp distinct with ⟨notLater, restDistinct⟩
      rcases parents [] tier rest rfl with ⟨parent, isParent, place⟩
      have isKnown : parent ∈ known := place.resolve_right (by simp)
      rcases bounds parent isKnown with ⟨parentNonneg, parentNarrow⟩
      let item : QueueClass := ⟨.ofId tier.id, .ofId parent, words⟩
      let next : QueueTree := { tree with classes := tree.classes ++ [item] }
      have step := builds_shapingClass tree rules isHooked tierProper isParent parentNonneg
        parentNarrow isWritten (holds parent isKnown) tierNew
      have tierBounds : 0 ≤ tier.id ∧ tier.id ≤ 9999 :=
        ⟨Handle.nonneg_of_isTierId tierProper, tierProper.2⟩
      have nextHolds : ∀ id ∈ tier.id :: known, next.canHold (.ofId id) = true := by
        intro id member
        rcases List.mem_cons.mp member with rfl | old
        · simp [next, item]
        · simp [next, item, holds id old]
      have nextNew : ∀ other ∈ rest, next.canHold (.ofId other.id) = false := by
        intro other member
        have differs : tier.id ≠ other.id := fun equal =>
          notLater (List.mem_map.mpr ⟨other, member, equal.symm⟩)
        simp [next, item, restNew other member,
          Handle.ofId_ne tierProper (restProper other member) differs]
      rcases induction next restProper restWritten (parents_rest parents) restDistinct
        (List.forall_mem_cons.mpr ⟨tierBounds, bounds⟩) nextHolds nextNew with
        ⟨items, each, built⟩
      refine ⟨item :: items, .cons ⟨rfl, ⟨parent, isParent, rfl⟩, isWritten⟩ each, ?_⟩
      rw [List.append_cons]
      exact .cons step built

/-! ## Queues, marks and filters -/

/-- Leaves can get a queue each, of a kind that there is. -/
theorem exists_queues {tiers : List Tier} {kind : String}
    (isKind : kind = "sfq" ∨ kind = "bfifo") (proper : ∀ tier ∈ tiers, IsTierId tier.id)
    (isRoot : tree.root = ⟨1, 0⟩) (holds : ∀ tier ∈ tiers, tree.hasClass (.ofId tier.id) = true)
    (distinct : (tiers.map (·.id)).Nodup)
    (new : ∀ tier ∈ tiers, ∀ queue ∈ tree.queues, queue.parent ≠ .ofId tier.id ∧
      queue.handle ≠ .ofQueue tier.id) :
    ∃ queues, List.Forall₂ (Tier.IsQueue kind) tiers queues ∧
      BuildAll (tiers.map fun tier => .leafQueue tier.id kind (Plan.queueLimit kind tier))
        ⟨some tree, rules, isHooked⟩
        ⟨some { tree with queues := tree.queues ++ queues }, rules, isHooked⟩ := by
  induction tiers generalizing tree with
  | nil =>
      refine ⟨[], .nil, ?_⟩
      rw [List.append_nil]
      exact .nil
  | cons tier rest induction =>
      rcases List.forall_mem_cons.mp proper with ⟨tierProper, restProper⟩
      rcases List.forall_mem_cons.mp holds with ⟨tierHolds, restHolds⟩
      rcases List.forall_mem_cons.mp new with ⟨tierNew, restNew⟩
      rcases List.nodup_cons.mp distinct with ⟨notLater, restDistinct⟩
      rcases exists_queueWords isKind (Plan.queueLimit kind tier) with ⟨words, isWritten⟩
      let queue : LeafQueue := ⟨.ofQueue tier.id, .ofId tier.id, words⟩
      let next : QueueTree := { tree with queues := tree.queues ++ [queue] }
      have step :=
        builds_leafQueue tree rules isHooked tierProper isRoot isWritten tierHolds tierNew
      have nextNew : ∀ other ∈ rest, ∀ held ∈ next.queues,
          held.parent ≠ .ofId other.id ∧ held.handle ≠ .ofQueue other.id := by
        intro other member held isHeld
        have differs : tier.id ≠ other.id := fun equal =>
          notLater (List.mem_map.mpr ⟨other, member, equal.symm⟩)
        rcases List.mem_append.mp isHeld with old | isNew
        · exact restNew other member held old
        · rw [List.mem_singleton.mp isNew]
          exact ⟨Handle.ofId_ne tierProper (restProper other member) differs,
            Handle.ofQueue_ne tierProper (restProper other member) differs⟩
      rcases induction next restProper isRoot restHolds restDistinct nextNew with
        ⟨queues, each, built⟩
      refine ⟨queue :: queues, .cons ⟨rfl, rfl, isWritten⟩ each, ?_⟩
      rw [List.append_cons]
      exact .cons step built

/-- Marks can be set by rules whose words are there. -/
theorem exists_marks {marks : List ClassificationRule} (chain : List (List String))
    (tree : Option QueueTree)
    (written : ∀ rule ∈ marks, ∃ matching, Marking.ruleWords rule = .ok matching) :
    ∃ added, List.Forall₂ ClassificationRule.IsWritten marks added ∧
      BuildAll (marks.map .mark) ⟨tree, some chain, isHooked⟩
        ⟨tree, some (chain ++ added), isHooked⟩ := by
  induction marks generalizing chain with
  | nil =>
      refine ⟨[], .nil, ?_⟩
      rw [List.append_nil]
      exact .nil
  | cons rule rest induction =>
      rcases List.forall_mem_cons.mp written with ⟨⟨matching, isWritten⟩, restWritten⟩
      rcases induction (chain ++ [markRule matching rule.mark]) restWritten with
        ⟨added, each, built⟩
      refine ⟨markRule matching rule.mark :: added, .cons ⟨matching, isWritten, rfl⟩ each, ?_⟩
      rw [List.append_cons]
      exact .cons (.mark isWritten) built

theorem logs (isLogged : Bool) (chain : List (List String)) (tree : Option QueueTree) :
    BuildAll (if isLogged then [.logMarks] else []) ⟨tree, some chain, isHooked⟩
      ⟨tree, some (chain ++ if isLogged then [logRule] else []), isHooked⟩ := by
  cases isLogged with
  | false =>
      simp only [Bool.false_eq_true, if_false, List.append_nil]
      exact .nil
  | true => exact .cons .logMarks .nil

/-- Filters with numbers of their own can lead marks to classes. -/
theorem filters {filters : List MarkFilter} (isRoot : tree.root = ⟨1, 0⟩)
    (proper : ∀ filter ∈ filters, 0 ≤ filter.precedence ∧ IsTierId filter.mark ∧
      filter.handle = classHandle (toString filter.mark) ∧
        tree.hasClass (.ofId filter.mark) = true)
    (distinct : (filters.map (·.precedence.toNat)).Nodup)
    (new : ∀ filter ∈ filters, ∀ held ∈ tree.filters,
      held.precedence ≠ filter.precedence.toNat) :
    BuildAll (filters.map .markFilter) ⟨some tree, rules, isHooked⟩
      ⟨some { tree with filters := tree.filters ++ filters.map (·.held) }, rules, isHooked⟩ := by
  induction filters generalizing tree with
  | nil =>
      rw [List.map_nil, List.map_nil, List.append_nil]
      exact .nil
  | cons filter rest induction =>
      rcases List.forall_mem_cons.mp proper with
        ⟨⟨numberNonneg, markProper, isHandle, isClass⟩, restProper⟩
      rcases List.forall_mem_cons.mp new with ⟨filterNew, restNew⟩
      rcases List.nodup_cons.mp distinct with ⟨notLater, restDistinct⟩
      have markNonneg : 0 ≤ filter.mark := by have := markProper.1; omega
      let next : QueueTree := { tree with filters := tree.filters ++ [filter.held] }
      have added : tree.addFilter ⟨1, 0⟩ filter.held = some next :=
        isRoot ▸ QueueTree.addFilter_eq isClass filterNew
      have isTarget : Handle.ofText? filter.handle = some (.ofId filter.mark) :=
        isHandle ▸ Handle.ofText?_classHandle markNonneg markProper.2
      have step : PlanStep.Builds (.markFilter filter) ⟨some tree, rules, isHooked⟩
          ⟨some next, rules, isHooked⟩ :=
        .markFilter numberNonneg markNonneg isTarget added
      have nextNew : ∀ other ∈ rest, ∀ held ∈ next.filters,
          held.precedence ≠ other.precedence.toNat := by
        intro other member held isHeld
        rcases List.mem_append.mp isHeld with old | isNew
        · exact restNew other member held old
        · rw [List.mem_singleton.mp isNew]
          exact fun equal => notLater (List.mem_map.mpr ⟨other, member, equal.symm⟩)
      have built := induction next isRoot restProper restDistinct nextNew
      rw [List.map_cons, List.map_cons, List.append_cons]
      exact .cons step built

end BuildAll

end PlanStep

/-! ## Whole plans -/

namespace RuleSet

/-- What the steps of a plan rely on, of rules and filters for a class tree. -/
structure IsApplicable (tree : ClassTree) (rules : RuleSet) : Prop where
  written : ∀ rule ∈ rules.rules, ∃ words, Marking.ruleWords rule = .ok words
  filters : ∀ filter ∈ rules.filters, 0 ≤ filter.precedence ∧
    ∃ tier ∈ tree.tiers, filter.mark = tier.id ∧ filter.handle = tier.handle
  numbers : (rules.filters.map (·.precedence.toNat)).Nodup

theorem IsBuilt.isApplicable {tree : ClassTree} {rules : RuleSet} (isBuilt : rules.IsBuilt tree) :
    rules.IsApplicable tree where
  written rule member := Netfilter.exists_ruleWords (isBuilt.expanded rule member)
  filters := isBuilt.filters
  numbers := isBuilt.numbers

end RuleSet

namespace ClassTree

/-- What the steps of a plan rely on, of a class tree. -/
structure IsBuildable (tree : ClassTree) : Prop where
  proper : ∀ tier ∈ tree.tiers, IsTierId tier.id
  distinct : (tree.tiers.map (·.id)).Nodup
  parents : ∀ before tier after, tree.tiers = before ++ tier :: after →
    ∃ parent, tier.parent = .whole parent ∧ (parent ∈ [rootId] ∨ parent ∈ before.map (·.id))
  rate : ∃ rate, Words.rate (.whole tree.capacity.rate) = .ok rate
  curves : ∀ tier ∈ tree.tiers, ∃ words, Words.curve tier.curve = .ok words

section Words

variable {request : TreeRequest} {roundTrip : Number} {tree : ClassTree}

theorem exists_rate_of_compile (compiled : request.compile roundTrip = .ok tree)
    (below : request.capacity.rate < Double.bound) :
    ∃ rate, Words.rate (.whole tree.capacity.rate) = .ok rate := by
  rw [(TreeRequest.exists_made_of_compile compiled).1]
  rcases (Double.exists_ofInt_eq_ok_iff request.capacity.positive).mpr below with ⟨near, isNear⟩
  exact ⟨_, by rw [Words.rate, Number.toDouble, isNear]; rfl⟩

theorem exists_curves_of_compile (compiled : request.compile roundTrip = .ok tree)
    (below : request.capacity.rate < Double.bound) :
    ∀ tier ∈ tree.tiers, ∃ words, Words.curve tier.curve = .ok words := by
  intro tier member
  rcases ((TreeRequest.exists_made_of_compile compiled).2 tier member).2 with
    ⟨setting, _, sameCapacity, made⟩
  have fits := made.fits
  rw [sameCapacity] at fits
  exact ServiceCurve.exists_words_of_ofRate made.positive (fits.trans_lt below) made.ofRate

end Words

theorem isBuildable_of_compile {request : TreeRequest} {roundTrip : Number} {tree : ClassTree}
    (whole : ∀ spec ∈ request.specs, ∃ parent : Int, spec.parent = .whole parent)
    (below : request.capacity.rate < Double.bound)
    (compiled : request.compile roundTrip = .ok tree) : tree.IsBuildable := by
  have wellFormed := TreeRequest.isWellFormed_of_compile whole compiled
  refine ⟨TreeRequest.isTierId_of_compile compiled, wellFormed.distinct, ?_,
    exists_rate_of_compile compiled below, exists_curves_of_compile compiled below⟩
  intro before tier after split
  rcases wellFormed.parents before tier after split with isRoot | ⟨parent, member, isParent⟩
  · exact ⟨rootId, isRoot, .inl (List.mem_cons_self ..)⟩
  · exact ⟨parent.id, isParent, .inr (List.mem_map_of_mem member)⟩

variable {tree : ClassTree} {rules : RuleSet} {kind : String}

theorem default_bounds (proper : ∀ tier ∈ tree.tiers, IsTierId tier.id) :
    0 ≤ (tree.default?.map (·.id)).getD Plan.noDefault ∧
      (tree.default?.map (·.id)).getD Plan.noDefault ≤ 9999 := by
  cases found : tree.default? with
  | none => exact ⟨le_refl _, by decide⟩
  | some tier =>
      have isTierId := proper tier (List.mem_of_find?_eq_some found)
      have := isTierId.1
      exact ⟨by dsimp only [Option.map_some, Option.getD_some]; omega, isTierId.2⟩

theorem IsBuildable.not_canHold (buildable : tree.IsBuildable) (default : Nat) (rate : String)
    {tier : Tier} (member : tier ∈ tree.tiers) :
    (QueueTree.rooted default rate).canHold (.ofId tier.id) = false := by
  have large := (buildable.proper tier member).1
  have notRoot : Handle.ofId tier.id ≠ Handle.ofId 0 := by
    rw [Ne, Handle.ofId_inj (by omega) (le_refl _)]
    omega
  have notRootClass : Handle.ofId rootId ≠ Handle.ofId tier.id := by
    rw [Ne, Handle.ofId_inj (by decide) (by omega)]
    simp only [rootId]
    omega
  have isZero : Handle.ofId 0 = ⟨1, 0⟩ := by decide
  simp [QueueTree.canHold, QueueTree.hasClass, QueueTree.rooted, ← isZero, notRoot, notRootClass]

theorem hasClass_of_isClass {tiers : List Tier} {items : List QueueClass} {tree : QueueTree}
    (each : List.Forall₂ Tier.IsClass tiers items) (held : ∀ item ∈ items, item ∈ tree.classes) :
    ∀ tier ∈ tiers, tree.hasClass (.ofId tier.id) = true := by
  induction each with
  | nil => exact fun _ impossible => nomatch impossible
  | @cons tier item rest others isClass _ induction =>
      rcases List.forall_mem_cons.mp held with ⟨itemHeld, othersHeld⟩
      refine List.forall_mem_cons.mpr ⟨?_, induction othersHeld⟩
      exact List.any_eq_true.mpr ⟨item, itemHeld, by simp [isClass.handle]⟩

/-- The queues of a plan can be built on its classes. -/
theorem IsBuildable.exists_queues (buildable : tree.IsBuildable) (held : QueueTree)
    (chain : Option (List (List String))) (isHooked : Bool)
    (isKind : kind ∈ Configuration.leafQueues) (isRoot : held.root = ⟨1, 0⟩)
    (classes : ∀ tier ∈ tree.tiers, held.hasClass (.ofId tier.id) = true)
    (none : held.queues = []) :
    ∃ queues, List.Forall₂ (Tier.IsQueue kind) (tree.leaves kind) queues ∧
      PlanStep.BuildAll (Plan.queueSteps tree kind) ⟨some held, chain, isHooked⟩
        ⟨some { held with queues := queues }, chain, isHooked⟩ := by
  by_cases isNone : kind = Plan.noQueue
  · have same : { held with queues := [] } = held := by rw [← none]
    rw [leaves, Plan.queueSteps, if_pos isNone, if_pos isNone]
    refine ⟨[], .nil, ?_⟩
    rw [same]
    exact .nil
  · rw [leaves, Plan.queueSteps, if_neg isNone, if_neg isNone]
    have isQueue : kind = "sfq" ∨ kind = "bfifo" := by
      simp only [Configuration.leafQueues, List.mem_cons, List.not_mem_nil, or_false] at isKind
      rcases isKind with fair | plain | isNo
      · exact .inl fair
      · exact .inr plain
      · exact absurd isNo isNone
    have isTier : ∀ tier ∈ tree.tiers.filter fun tier => !tree.isInner tier, tier ∈ tree.tiers :=
      fun tier member => (List.mem_filter.mp member).1
    have distinct := buildable.distinct.sublist
      ((List.filter_sublist (p := fun tier => !tree.isInner tier)).map (·.id))
    rcases PlanStep.BuildAll.exists_queues held chain isHooked isQueue
      (fun tier member => buildable.proper tier (isTier tier member)) isRoot
      (fun tier member => classes tier (isTier tier member)) distinct
      (fun tier _ queue impossible => by rw [none] at impossible; cases impossible) with
      ⟨queues, each, built⟩
    rw [none, List.nil_append] at built
    exact ⟨queues, each, built⟩

end ClassTree

namespace Compiled

/-- Every step of a plan can be taken, and all of them build what is to be held. -/
theorem exists_buildAll {compiled : Compiled} {kind : String} {isLogged : Bool}
    (isPlan : compiled.plan = Plan.build compiled.tree compiled.rules kind isLogged)
    (buildable : compiled.tree.IsBuildable)
    (applicable : compiled.rules.IsApplicable compiled.tree)
    (isKind : kind ∈ Configuration.leafQueues) :
    ∃ tree rules, compiled.IsTree kind tree ∧ compiled.IsChain isLogged rules ∧
      PlanStep.BuildAll compiled.plan.steps Part.nothing ⟨some tree, some rules, true⟩ := by
  rcases buildable.rate with ⟨rate, isRate⟩
  rcases ClassTree.default_bounds buildable.proper with ⟨defaultNonneg, defaultNarrow⟩
  let bare := QueueTree.rooted (Handle.ofId compiled.defaultId).minor rate
  have root : PlanStep.Builds (.root compiled.tree.capacity compiled.defaultId) Part.nothing
      ⟨some bare, none, false⟩ := .root defaultNonneg defaultNarrow isRate
  have bounds : ∀ id ∈ [rootId], 0 ≤ id ∧ id ≤ 9999 := by decide
  have holdsRoot : ∀ id ∈ [rootId], bare.canHold (.ofId id) = true := by
    intro id member
    rw [List.mem_singleton.mp member]
    simp [bare, QueueTree.canHold, QueueTree.hasClass, QueueTree.rooted]
  rcases PlanStep.BuildAll.exists_classes bare none false buildable.proper
    buildable.curves buildable.parents buildable.distinct bounds holdsRoot
    (fun tier member => buildable.not_canHold _ rate member) with ⟨items, isClasses, classes⟩
  let shaped : QueueTree := { bare with classes := bare.classes ++ items }
  have hasClass : ∀ tier ∈ compiled.tree.tiers, shaped.hasClass (.ofId tier.id) = true :=
    ClassTree.hasClass_of_isClass isClasses fun item member => List.mem_append_right _ member
  rcases buildable.exists_queues shaped none false isKind rfl
    hasClass rfl with ⟨queues, isQueues, queued⟩
  let filled : QueueTree := { shaped with queues := queues }
  rcases PlanStep.BuildAll.exists_marks true [] (some filled) applicable.written with
    ⟨marks, isMarks, marked⟩
  let chain := marks ++ if isLogged then [logRule] else []
  have logged := PlanStep.BuildAll.logs true isLogged ([] ++ marks) (some filled)
  let last : QueueTree := { filled with filters := compiled.rules.filters.map (·.held) }
  have filtered : PlanStep.BuildAll (compiled.rules.filters.map .markFilter)
      ⟨some filled, some chain, true⟩ ⟨some last, some chain, true⟩ := by
    refine PlanStep.BuildAll.filters filled _ _ rfl (fun filter member => ?_)
      applicable.numbers (fun _ _ _ impossible => absurd impossible List.not_mem_nil)
    rcases applicable.filters filter member with ⟨nonneg, tier, isTier, isMark, isHandle⟩
    rw [isMark]
    exact ⟨nonneg, buildable.proper tier isTier, isHandle, hasClass tier isTier⟩
  refine ⟨last, chain,
    ⟨rfl, rfl, ⟨rate, items, isRate, isClasses, rfl⟩, isQueues, rfl⟩, ⟨marks, isMarks, rfl⟩, ?_⟩
  rw [isPlan]
  exact ((((PlanStep.BuildAll.cons root .nil).append classes).append queued).append
    (.cons .clearMarks (.cons .attachMarks .nil))).append marked |>.append logged |>.append filtered

end Compiled

end UplinkShaper
