import UplinkShaper.Plan
import UplinkShaper.Proofs.Allocation.WellFormed
import UplinkShaper.Proofs.Classify.Order

/-!
Where packets land. A packet waits in the queue of a class without children, or nowhere: a
plan must not send packets to a class that only divides its rate among others. Filters never
do. The class for all other packets is the default tier, and it is a leaf if and only if no
tier that is asked for stands below it; the compiler lets tiers stand there.
-/

namespace UplinkShaper

/-- A tier that is asked for as a child of another one. -/
def TierSpec.IsBelow (spec above : TierSpec) : Prop :=
  ∃ id, above.id = .number id ∧ spec.parent.eq id = true

namespace Plan

/-- The class with an id is that of a tier without children, and unless leaves have no queues
the plan makes one for it. -/
structure LandsAt (plan : Plan) (tree : ClassTree) (kind : String) (id : Int) : Prop where
  leaf : ∃ tier ∈ tree.tiers, tier.id = id ∧ tree.isInner tier = false
  queue : kind ≠ noQueue → ∃ limit, .leafQueue id kind limit ∈ plan.steps

/-- A plan builds one root, and what no filter sends elsewhere lands at a leaf. -/
def FallsBackToLeaf (plan : Plan) (tree : ClassTree) (kind : String) : Prop :=
  ∃ capacity default rest, plan.steps = .root capacity default :: rest ∧
    (∀ capacity' default', .root capacity' default' ∉ rest) ∧ plan.LandsAt tree kind default

/-- What a filter sends to a class lands there. -/
def FiltersToLeaves (plan : Plan) (tree : ClassTree) (kind : String) : Prop :=
  ∀ filter, .markFilter filter ∈ plan.steps →
    ∃ id, filter.mark = id ∧ filter.handle = classHandle (toString id) ∧
      plan.LandsAt tree kind id

section Build

variable {tree : ClassTree} {rules : RuleSet} {kind : String} {isLogged : Bool} {tier : Tier}

theorem not_root_mem_queueSteps (capacity : LinkCapacity) (default : Int) :
    .root capacity default ∉ queueSteps tree kind := by
  unfold queueSteps
  split
  · exact List.not_mem_nil
  · simp

theorem exists_steps_build :
    ∃ rest, (build tree rules kind isLogged).steps =
        .root tree.capacity ((tree.default?.map (·.id)).getD noDefault) :: rest ∧
      ∀ capacity default, .root capacity default ∉ rest := by
  refine ⟨_, rfl, fun capacity default member => ?_⟩
  cases isLogged <;> simp [classSteps, not_root_mem_queueSteps] at member

theorem markFilter_mem_build {filter : MarkFilter} :
    .markFilter filter ∈ (build tree rules kind isLogged).steps ↔ filter ∈ rules.filters := by
  have notQueue : .markFilter filter ∉ queueSteps tree kind := by
    unfold queueSteps
    split
    · exact List.not_mem_nil
    · simp
  cases isLogged <;> simp [build, classSteps, notQueue]

/-- A leaf has a queue of its own wherever leaves have queues. -/
theorem landsAt_of_leaf (member : tier ∈ tree.tiers) (leaf : tree.isInner tier = false) :
    (build tree rules kind isLogged).LandsAt tree kind tier.id := by
  refine ⟨⟨tier, member, rfl, leaf⟩, fun hasQueues => ⟨queueLimit kind tier, ?_⟩⟩
  have queued : .leafQueue tier.id kind (queueLimit kind tier) ∈ queueSteps tree kind := by
    rw [queueSteps, if_neg hasQueues]
    exact List.mem_map.mpr ⟨tier, List.mem_filter.mpr ⟨member, by rw [leaf]; rfl⟩, rfl⟩
  simp only [build, List.mem_append]
  exact .inl (.inl (.inl (.inl (.inr queued))))

/-- With distinct ids a class is the one of its tier. -/
theorem landsAt_iff {plan : Plan} (distinct : tree.ids.Nodup) (member : tier ∈ tree.tiers)
    (isPlan : plan = build tree rules kind isLogged) :
    plan.LandsAt tree kind tier.id ↔ tree.isInner tier = false := by
  constructor
  · rintro ⟨⟨other, isOther, sameId, leaf⟩, _⟩
    have found := find?_key_eq_some distinct isOther
    rw [sameId, find?_key_eq_some distinct member] at found
    rw [Option.some.inj found]
    exact leaf
  · rw [isPlan]
    exact landsAt_of_leaf member

/-- Filters lead to tiers without children. -/
theorem filtersToLeaves_build {table : RuleSet.MatchTable}
    (built : RuleSet.build tree table = .ok rules) :
    (build tree rules kind isLogged).FiltersToLeaves tree kind := by
  intro filter isStep
  have member := markFilter_mem_build.mp isStep
  rw [(RuleSet.holds_of_build built).marks, RuleSet.filtersOf_receivers] at member
  rcases List.mem_mapIdx.mp member with ⟨index, inside, rfl⟩
  rcases ClassTree.mem_targets_iff.mp (List.getElem_mem inside) with ⟨isTier, _, leaf⟩
  exact ⟨_, rfl, rfl, landsAt_of_leaf isTier leaf⟩

end Build

end Plan

namespace TreeRequest

open Allocation

variable {request : TreeRequest} {roundTrip : Number} {tree : ClassTree} {rules : RuleSet}

theorem ids_nodup_of_compile (compiled : request.compile roundTrip = .ok tree) :
    tree.ids.Nodup := by
  rcases compile_eq_ok_iff.mp compiled with ⟨prepared, ready, complete, rfl⟩
  exact (isLayered_of_prepare ready).distinct_tiers (made_of_makeTiers complete)

/-- The default tier of a tree is the one that was asked for as such. -/
theorem exists_default_of_compile (compiled : request.compile roundTrip = .ok tree) :
    ∃ tier ∈ tree.tiers, tree.default? = some tier ∧
      tier.outline = request.defaultSpec.outline := by
  rcases compile_eq_ok_iff.mp compiled with ⟨prepared, ready, complete, rfl⟩
  rcases (isLayered_of_prepare ready).default_tier (made_of_makeTiers complete) with
    ⟨tier, only, outline⟩
  have first : (treeOf prepared (outcome prepared).tiers).default? = some tier := by
    rw [ClassTree.default?, ← List.head?_filter]
    exact congrArg List.head? only
  exact ⟨tier, List.mem_of_find?_eq_some first, first, outline⟩

/-- A tier is an inner class if a tier was asked for below it. -/
theorem isInner_iff_of_compile {tier : Tier} {above : TierSpec}
    (compiled : request.compile roundTrip = .ok tree) (outline : tier.outline = above.outline) :
    tree.isInner tier = true ↔ ∃ spec ∈ request.specs, spec.IsBelow above := by
  have kept := outlines_of_compile compiled
  have isId : above.id = .whole tier.id := (congrArg TierOutline.id outline).symm
  rw [ClassTree.isInner, List.any_eq_true]
  constructor
  · rintro ⟨child, isChild, below⟩
    rcases List.mem_map.mp (kept.mem_iff.mp (List.mem_map_of_mem isChild)) with
      ⟨spec, isSpec, same⟩
    refine ⟨spec, isSpec, .whole tier.id, isId, ?_⟩
    rw [show spec.parent = child.parent from congrArg TierOutline.parent same]
    exact below
  · rintro ⟨spec, isSpec, id, isAbove, below⟩
    rcases List.mem_map.mp (kept.mem_iff.mpr (List.mem_map_of_mem isSpec)) with
      ⟨child, isChild, same⟩
    cases isId.symm.trans isAbove
    refine ⟨child, isChild, ?_⟩
    rw [Tier.isChildOf, show child.parent = spec.parent from congrArg TierOutline.parent same]
    exact below

/-- The class for packets that no filter sends elsewhere is a leaf where no tier was asked for
below the default one. -/
theorem fallsBackToLeaf_iff_of_compile (compiled : request.compile roundTrip = .ok tree)
    (kind : String) (isLogged : Bool) :
    (Plan.build tree rules kind isLogged).FallsBackToLeaf tree kind ↔
      ∀ spec ∈ request.specs, ¬ spec.IsBelow request.defaultSpec := by
  rcases exists_default_of_compile compiled with ⟨tier, member, isDefault, outline⟩
  rcases @Plan.exists_steps_build tree rules kind isLogged with ⟨rest, steps, single⟩
  rw [isDefault] at steps
  have lands : (Plan.build tree rules kind isLogged).LandsAt tree kind tier.id ↔
      tree.isInner tier = false :=
    Plan.landsAt_iff (ids_nodup_of_compile compiled) member rfl
  have noneBelow : tree.isInner tier = false ↔
      ∀ spec ∈ request.specs, ¬ spec.IsBelow request.defaultSpec := by
    rw [← Bool.not_eq_true, isInner_iff_of_compile compiled outline]
    simp only [not_exists, not_and]
  rw [← noneBelow, ← lands]
  constructor
  · rintro ⟨capacity, default, others, sameSteps, _, landsAt⟩
    rw [steps] at sameSteps
    cases sameSteps
    exact landsAt
  · exact fun landsAt => ⟨_, _, rest, steps, single, landsAt⟩

/-- Filters send packets to leaves only, and all other packets go to a leaf if and only if no
tier was asked for below the default one. -/
theorem sendsToLeaves_iff {table : RuleSet.MatchTable}
    (compiled : request.compile roundTrip = .ok tree)
    (built : RuleSet.build tree table = .ok rules) (kind : String) (isLogged : Bool) :
    (Plan.build tree rules kind isLogged).FiltersToLeaves tree kind ∧
      ((Plan.build tree rules kind isLogged).FallsBackToLeaf tree kind ↔
        ∀ spec ∈ request.specs, ¬ spec.IsBelow request.defaultSpec) :=
  ⟨Plan.filtersToLeaves_build built, fallsBackToLeaf_iff_of_compile compiled kind isLogged⟩

/-- A table with one rule, for a tier with an id. -/
def tableFor (id : Int) : RuleSet.MatchTable :=
  [(.whole id, [.ofProtocol "tcp"])]

/-- Whether a request and a table compile. -/
def isBuiltWith (request : TreeRequest) (table : RuleSet.MatchTable) : Bool :=
  match request.compile 50 with
  | .ok tree => RuleSet.isBuildable tree table
  | .error _ => false

theorem exists_of_isBuiltWith {table : RuleSet.MatchTable}
    (isBuilt : request.isBuiltWith table = true) :
    ∃ tree rules, request.compile 50 = .ok tree ∧ RuleSet.build tree table = .ok rules := by
  simp only [isBuiltWith] at isBuilt
  split at isBuilt
  case h_1 tree compiled =>
    rcases RuleSet.exists_build_of_isBuildable isBuilt with ⟨rules, built⟩
    exact ⟨tree, rules, compiled, built⟩
  case h_2 => cases isBuilt

/-- A tier below another one, and nothing below the default tier. -/
theorem exists_sendsToLeaves_nested :
    ∃ tree rules, nested.compile 50 = .ok tree ∧ RuleSet.build tree (tableFor 2) = .ok rules ∧
      (Plan.build tree rules "sfq" false).FiltersToLeaves tree "sfq" ∧
        (Plan.build tree rules "sfq" false).FallsBackToLeaf tree "sfq" := by
  have evaluated : nested.isBuiltWith (tableFor 2) = true := by decide +kernel
  rcases exists_of_isBuiltWith evaluated with ⟨tree, rules, compiled, built⟩
  rcases sendsToLeaves_iff compiled built "sfq" false with ⟨filters, fallsBack⟩
  refine ⟨tree, rules, compiled, built, filters, fallsBack.mpr ?_⟩
  rintro spec member ⟨id, isDefault, isParent⟩
  cases isDefault
  simp only [specs, nested, defaultSpec, List.mem_append, List.mem_singleton] at member
  rcases member with (rfl | rfl) | rfl
  · revert isParent
    decide
  · revert isParent
    decide
  · revert isParent
    decide

/-- A request with a tier below the default tier. -/
def belowDefault : TreeRequest where
  capacity := .tenMegabits
  reserved := []
  tiers := [{
    id := .whole 20, label := "Web", kind := .percentage, priority := .shared
    share := some 50, rate := none, ratePercent := none, parent := .whole defaultTierId }]
  default := none

/-- The request compiles, and packets without a mark go to an inner class. -/
theorem exists_not_fallsBackToLeaf_belowDefault :
    ∃ tree rules, belowDefault.compile 50 = .ok tree ∧
      RuleSet.build tree (tableFor 20) = .ok rules ∧
        ¬ (Plan.build tree rules "sfq" false).FallsBackToLeaf tree "sfq" := by
  have evaluated : belowDefault.isBuiltWith (tableFor 20) = true := by decide +kernel
  rcases exists_of_isBuiltWith evaluated with ⟨tree, rules, compiled, built⟩
  refine ⟨tree, rules, compiled, built, fun fallsBack => ?_⟩
  have noneBelow := (fallsBackToLeaf_iff_of_compile compiled "sfq" false).mp fallsBack
  refine noneBelow _ (List.mem_append_left _ (List.mem_append_right _ (List.mem_cons_self ..))) ?_
  exact ⟨.whole defaultTierId, rfl, by decide⟩

end TreeRequest

end UplinkShaper
