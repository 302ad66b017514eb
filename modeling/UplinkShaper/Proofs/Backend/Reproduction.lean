import UplinkShaper.Proofs.Backend.Plans
import UplinkShaper.Proofs.Backend.Readback

/-!
Plans on a kernel that holds nothing of theirs. No step of a plan is refused, and what the
kernel reads off the words it was given is the class tree with its rules: the rates, the
bursts, the limits of the queues, and the marks with the classes they lead to.
-/

namespace UplinkShaper

open Kernel Allocation

/-! ## Reproductions -/

/-- The class of a tier, below that of its parent. -/
structure Tier.HasClass (tier : Tier) (item : QueueClass) : Prop where
  handle : item.handle = .ofId tier.id
  parent : ∃ id : Int, tier.parent = .whole id ∧ item.parent = .ofId id
  service : ∃ service, Service.ofWords? item.curve = some service ∧
    tier.curve.IsServed tier.rate service ∧
      service.realtime.isSome = tier.priority.isRealtime

/-- The queue of a tier without children. -/
structure Tier.HasQueue (kind : String) (tier : Tier) (queue : LeafQueue) : Prop where
  handle : queue.handle = .ofQueue tier.id
  parent : queue.parent = .ofId tier.id
  limit : ∃ limit, QueueLimit.ofWords? queue.kind = some limit ∧ limit.IsFor kind tier.buffer

/-- A rule of the chain that looks for what a rule does, and sets its mark. -/
def ClassificationRule.IsEntered (rule : ClassificationRule) (words : List String) : Prop :=
  ∃ (matching : List String) (mark : Nat), Marking.ruleWords rule = .ok matching ∧
    marked? words = some (matching, mark) ∧ rule.mark = mark

namespace Kernel

/-- The class that caps everything below it at a rate. -/
structure QueueClass.IsTop (item : QueueClass) (rate : Int) : Prop where
  handle : item.handle = .ofId rootId
  parent : item.parent = ⟨1, 0⟩
  service : Service.ofWords? item.curve =
    some ⟨some (.flat rate), some (.flat rate), some (.flat rate)⟩

/-- The queueing tree for a class tree. No two classes have the same minor number and no two
queues the same major one, and none has that of the root. -/
structure QueueTree.Reproduces (held : QueueTree) (tree : ClassTree) (kind : String) : Prop where
  root : held.root = ⟨1, 0⟩
  default : ∃ tier, tree.tiers.filter (·.isDefault) = [tier] ∧
    held.default = (Handle.ofId tier.id).minor
  classes : ∃ top items, held.classes = top :: items ∧ top.IsTop tree.capacity.rate ∧
    List.Forall₂ Tier.HasClass tree.tiers items
  minors : (held.root.minor :: held.classes.map (·.handle.minor)).Nodup
  queues : List.Forall₂ (Tier.HasQueue kind) (tree.leaves kind) held.queues
  majors : (held.root.major :: held.queues.map (·.handle.major)).Nodup
  filters : held.filters = tree.targets.mapIdx fun index tier =>
    { precedence := index + 1, mark := tier.id.toNat, target := .ofId tier.id }

/-- The queueing tree, a chain with the rules in their order and one for logs at its end if
there is to be one, and a hook that leads to the chain. -/
structure Part.Reproduces (part : Part) (tree : ClassTree) (rules : RuleSet) (kind : String)
    (isLogged : Bool) : Prop where
  tree : ∃ held, part.tree = some held ∧ held.Reproduces tree kind
  chain : ∃ marks, part.rules = some (marks ++ if isLogged then [logRule] else []) ∧
    List.Forall₂ ClassificationRule.IsEntered rules.rules marks
  hooked : part.isHooked = true

end Kernel

/-! ## Classes and queues -/

section Each

variable {α β γ : Type} {holds follows : α → β → Prop} {items : List α} {others : List β}

theorem forall₂_of_mem (each : List.Forall₂ holds items others)
    (implies : ∀ item ∈ items, ∀ other, holds item other → follows item other) :
    List.Forall₂ follows items others := by
  induction each with
  | nil => exact .nil
  | cons here _ induction =>
      rcases List.forall_mem_cons.mp implies with ⟨first, rest⟩
      exact .cons (first _ here) (induction rest)

theorem map_eq_of_forall₂ {first : α → γ} {second : β → γ}
    (each : List.Forall₂ holds items others)
    (same : ∀ item other, holds item other → second other = first item) :
    others.map second = items.map first := by
  induction each with
  | nil => rfl
  | cons here _ induction => rw [List.map_cons, List.map_cons, same _ _ here, induction]

end Each

theorem Tier.IsClass.hasClass {tier : Tier} {item : QueueClass} (isClass : tier.IsClass item)
    (positive : 0 < tier.rate) (small : tier.rate ≤ 2 ^ 46)
    (made : ServiceCurve.ofRate (.whole tier.rate) tier.priority = .ok tier.curve) :
    tier.HasClass item := by
  rcases ServiceCurve.exists_service_of_ofRate positive small made isClass.curve with
    ⟨service, isRead, served⟩
  refine ⟨isClass.handle, isClass.parent, service, isRead, served, ?_⟩
  rw [served.realtime]
  exact (ServiceCurve.fits_of_ofRate positive made).burst

theorem Tier.IsQueue.hasQueue {kind : String} {tier : Tier} {queue : LeafQueue}
    (isQueue : tier.IsQueue kind queue) (positive : 0 < tier.buffer) :
    tier.HasQueue kind queue where
  handle := isQueue.handle
  parent := isQueue.parent
  limit := QueueLimit.exists_limit positive isQueue.kind

theorem Kernel.isTop_of_rate {rate : Int} {text : String} (positive : 0 < rate)
    (small : rate ≤ 2 ^ 46) (written : Words.rate (.whole rate) = .ok text) :
    QueueClass.IsTop ⟨.ofId rootId, ⟨1, 0⟩, ["sc", "rate", text, "ul", "rate", text]⟩ rate := by
  rcases Words.exists_rate_whole positive.le (by omega) with ⟨other, isOther, isRead⟩
  rw [written] at isOther
  cases isOther
  exact ⟨rfl, rfl, Service.ofWords?_capped isRead⟩

/-! ## Handles -/

namespace Handle

theorem map_minor_nodup {ids : List Int} (distinct : ids.Nodup) (nonneg : ∀ id ∈ ids, 0 ≤ id) :
    (ids.map fun id => (ofId id).minor).Nodup := by
  refine distinct.map_on fun left isLeft right isRight equal => ?_
  have same : ofId left = ofId right := congrArg (Handle.mk 1) equal
  exact (ofId_inj (nonneg left isLeft) (nonneg right isRight)).mp same

/-- The minor numbers of tiers, of the root class and of the root are all different. -/
theorem minors_nodup {ids : List Int} (distinct : ids.Nodup) (proper : ∀ id ∈ ids, IsTierId id) :
    (0 :: (ofId rootId).minor :: ids.map fun id => (ofId id).minor).Nodup := by
  have all : (0 :: rootId :: ids).Nodup := by
    simp only [List.nodup_cons, List.mem_cons, not_or, rootId]
    refine ⟨⟨by decide, fun member => ?_⟩, fun member => ?_, distinct⟩
    · have := (proper _ member).1
      omega
    · have := (proper _ member).1
      omega
  refine map_minor_nodup all fun id member => ?_
  rcases List.mem_cons.mp member with rfl | member
  · exact le_refl _
  · rcases List.mem_cons.mp member with rfl | member
    · decide
    · exact nonneg_of_isTierId (proper id member)

end Handle

/-! ## Rules -/

namespace MatchSpec

/-- The fields that the kind of a specification is about are there: a protocol, and a first
port for ports. Addresses may be left out, which leaves no rules. -/
def IsComplete (spec : MatchSpec) : Prop :=
  match spec.kind with
  | .address => True
  | .port => spec.protocol.isSome ∧ spec.portStart.isSome
  | _ => spec.protocol.isSome

theorem IsWritten.isComplete {spec : MatchSpec} (written : spec.IsWritten) : spec.IsComplete := by
  cases written with
  | ports => exact ⟨rfl, rfl⟩
  | protocol => exact rfl
  | address => exact trivial

theorem isSome_portRange {spec : MatchSpec} (isSome : spec.portStart.isSome) :
    spec.portRange.isSome := by
  rcases Option.isSome_iff_exists.mp isSome with ⟨start, isStart⟩
  rw [portRange, isStart]
  cases spec.portEnd with
  | none => rfl
  | some last =>
      dsimp only
      split <;> rfl

theorem IsComplete.isSome_matching {spec other : MatchSpec} (complete : spec.IsComplete)
    (member : other ∈ spec.expansion) : ∀ word ∈ Words.matching other, word.isSome := by
  cases kind : spec.kind with
  | address =>
      simp only [expansion, kind] at member
      rcases List.mem_flatMap.mp member with ⟨address, _, inSides⟩
      rcases List.mem_map.mp inSides with ⟨side, _, rfl⟩
      simp [Words.matching, ofAddress]
  | port =>
      simp only [expansion, kind, List.mem_singleton] at member
      simp only [IsComplete, kind] at complete
      simp [Words.matching, member, kind, complete.1, isSome_portRange complete.2]
  | protocol =>
      simp only [expansion, kind, List.mem_singleton] at member
      simp only [IsComplete, kind] at complete
      simp [Words.matching, member, kind, complete]
  | other name =>
      simp only [expansion, kind, List.mem_singleton] at member
      simp only [IsComplete, kind] at complete
      simp [Words.matching, member, kind, complete]

/-- Every word of a rule for a complete specification is there. -/
theorem IsComplete.exists_ruleWords {spec : MatchSpec} {rule : ClassificationRule}
    (complete : spec.IsComplete) (member : rule.spec ∈ spec.expansion) :
    ∃ words, Marking.ruleWords rule = .ok words := by
  refine Result.exists_mapM_of_forall fun word isWord => ?_
  rcases Option.isSome_iff_exists.mp (complete.isSome_matching member word isWord) with ⟨text, rfl⟩
  exact ⟨text, rfl⟩

end MatchSpec

/-! ## Whole plans -/

namespace ClassTree

theorem leaves_sublist (tree : ClassTree) (kind : String) :
    (tree.leaves kind).Sublist tree.tiers := by
  unfold leaves
  split
  · exact List.nil_sublist _
  · exact List.filter_sublist

end ClassTree

namespace Compiled

variable {compiled : Compiled} {kind : String} {held : QueueTree} {table : RuleSet.MatchTable}

theorem defaultId_eq {tier : Tier} (only : compiled.tree.tiers.filter (·.isDefault) = [tier]) :
    compiled.defaultId = tier.id := by
  have isDefault : compiled.tree.default? = some tier := by
    rw [ClassTree.default?, ← List.head?_filter, only]
    rfl
  rw [defaultId, isDefault]
  rfl

/-- The filters of a tree lead the mark of each target to its class, in turn. -/
theorem IsTree.filters_eq (isTree : compiled.IsTree kind held)
    (holds : RuleSet.Holds compiled.tree table compiled.rules) :
    held.filters = compiled.tree.targets.mapIdx fun index tier =>
      { precedence := index + 1, mark := tier.id.toNat, target := .ofId tier.id } := by
  rw [isTree.filters, holds.marks, RuleSet.filtersOf_receivers]
  apply List.ext_getElem
  · simp
  · intro index _ _
    simp [MarkFilter.held]

section Numbers

variable (isTree : compiled.IsTree kind held) (distinct : compiled.tree.ids.Nodup)
  (proper : ∀ id ∈ compiled.tree.ids, IsTierId id)

include isTree distinct proper

theorem IsTree.minors_nodup : (held.root.minor :: held.classes.map (·.handle.minor)).Nodup := by
  rcases isTree.classes with ⟨rate, items, _, isClasses, classes⟩
  have same : items.map (·.handle.minor) =
      compiled.tree.tiers.map fun tier => (Handle.ofId tier.id).minor :=
    map_eq_of_forall₂ isClasses fun tier item isClass => by rw [isClass.handle]
  have minors := Handle.minors_nodup distinct proper
  rw [ClassTree.ids, List.map_map] at minors
  rw [isTree.root, classes, List.map_append, same]
  exact minors

theorem IsTree.majors_nodup : (held.root.major :: held.queues.map (·.handle.major)).Nodup := by
  have same : held.queues.map (·.handle.major) =
      (compiled.tree.leaves kind).map fun tier => (Handle.ofId tier.id).minor :=
    map_eq_of_forall₂ isTree.queues fun tier queue isQueue => by rw [isQueue.handle]
  have minors := Handle.minors_nodup distinct proper
  rw [ClassTree.ids, List.map_map] at minors
  rw [isTree.root, same]
  refine (List.nodup_cons.mp minors).2.sublist (List.Sublist.cons_cons _ ?_)
  exact (compiled.tree.leaves_sublist kind).map _

end Numbers

/-- What is held for tiers of small rates reproduces them. -/
theorem IsTree.reproduces {request : TreeRequest} {roundTrip : Number}
    (isTree : compiled.IsTree kind held)
    (whole : ∀ spec ∈ request.specs, ∃ parent : Int, spec.parent = .whole parent)
    (small : request.capacity.rate ≤ 2 ^ 46)
    (made : request.compile roundTrip = .ok compiled.tree)
    (holds : RuleSet.Holds compiled.tree table compiled.rules) :
    held.Reproduces compiled.tree kind := by
  have wellFormed := TreeRequest.isWellFormed_of_compile whole made
  rcases TreeRequest.exists_made_of_compile made with ⟨capacity, tiers⟩
  have proper : ∀ id ∈ compiled.tree.ids, IsTierId id :=
    List.forall_mem_map.mpr fun tier isTier => (tiers tier isTier).1
  rcases isTree.classes with ⟨rate, items, isRate, isClasses, classes⟩
  have hasClasses : List.Forall₂ Tier.HasClass compiled.tree.tiers items := by
    refine forall₂_of_mem isClasses fun tier member item isClass => ?_
    rcases (tiers tier member).2 with ⟨setting, _, sameCapacity, isMade⟩
    have fits := isMade.fits
    rw [sameCapacity] at fits
    exact isClass.hasClass isMade.positive (fits.trans small) isMade.ofRate
  have hasQueues : List.Forall₂ (Tier.HasQueue kind) (compiled.tree.leaves kind) held.queues := by
    refine forall₂_of_mem isTree.queues fun tier member queue isQueue => ?_
    have isTier := (compiled.tree.leaves_sublist kind).subset member
    have buffer := (wellFormed.buffers tier isTier).1
    exact isQueue.hasQueue (by omega)
  refine ⟨isTree.root, ?_, ⟨_, items, classes, ?_, hasClasses⟩,
    isTree.minors_nodup wellFormed.distinct proper, hasQueues,
    isTree.majors_nodup wellFormed.distinct proper, isTree.filters_eq holds⟩
  · rcases wellFormed.default with ⟨tier, only, _⟩
    exact ⟨tier, only, by rw [isTree.default, defaultId_eq only]⟩
  · rw [← capacity] at small
    exact isTop_of_rate compiled.tree.capacity.positive small isRate

end Compiled

namespace RuleSet

variable {tree : ClassTree} {table : MatchTable} {rules : RuleSet}

theorem Holds.isApplicable (holds : Holds tree table rules)
    (complete : ∀ row ∈ table, ∀ spec ∈ row.2, spec.IsComplete) : rules.IsApplicable tree where
  written := by
    intro rule member
    rcases holds.exists_spec member with ⟨tier, _, _, _, spec, isSpec, inside⟩
    rcases exists_row_of_matchesOf isSpec with ⟨row, isRow, inRow⟩
    exact (complete row isRow spec inRow).exists_ruleWords inside
  filters := by
    intro filter member
    rw [holds.marks] at member
    rcases mem_filtersOf member with ⟨nonneg, entry, isEntry, isMark⟩
    rcases List.mem_map.mp isEntry with ⟨tier, isReceiver, rfl⟩
    exact ⟨nonneg, tier, (ClassTree.mem_receivers_iff.mp isReceiver).1, isMark⟩
  numbers := by
    rw [holds.marks]
    exact filtersOf_numbers _

/-- The rules of a chain set the marks that the rules say, one after another. -/
theorem Holds.isEntered (holds : Holds tree table rules)
    (proper : ∀ tier ∈ tree.tiers, IsTierId tier.id) {marks : List (List String)}
    (written : List.Forall₂ ClassificationRule.IsWritten rules.rules marks) :
    List.Forall₂ ClassificationRule.IsEntered rules.rules marks := by
  refine forall₂_of_mem written fun rule member words isWritten => ?_
  rcases isWritten with ⟨matching, isMatching, rfl⟩
  rcases holds.exists_spec member with ⟨tier, isTier, _, isMark, _⟩
  have nonneg : 0 ≤ rule.mark := isMark ▸ Handle.nonneg_of_isTierId (proper tier isTier)
  exact ⟨matching, rule.mark.toNat, isMatching, marked?_markRule matching nonneg,
    (Int.toNat_of_nonneg nonneg).symm⟩

end RuleSet

namespace TreeRequest

open Machine

/-- A plan for a tree of small rates is carried out by a kernel that holds nothing for the
device and the chain, without a failure, and what is held reproduces the tree. The tools, the
device and the chain are those of any settings. -/
theorem exists_reproduces_of_execute {request : TreeRequest} {roundTrip : Number}
    {tree : ClassTree} {table : RuleSet.MatchTable} {rules : RuleSet} {kind : String}
    (isLogged : Bool) {settings : Settings} {machine : Machine} {host : Host}
    (whole : ∀ spec ∈ request.specs, ∃ parent : Int, spec.parent = .whole parent)
    (small : request.capacity.rate ≤ 2 ^ 46)
    (made : request.compile roundTrip = .ok tree)
    (complete : ∀ row ∈ table, ∀ spec ∈ row.2, spec.IsComplete)
    (built : RuleSet.build tree table = .ok rules)
    (isKind : kind ∈ Configuration.leafQueues)
    (noTree : machine.kernel.trees settings.device = none)
    (free : machine.kernel.IsFree settings.chain) :
    (settings.backends.execute (Plan.build tree rules kind isLogged)).Ends (answer .none) machine
      host fun machine' _ result => result = .ok () ∧
        ∃ part : Part, part.Reproduces tree rules kind isLogged ∧
          machine'.kernel = machine.kernel.holding settings.device settings.chain part := by
  let compiled : Compiled :=
    { tree := tree, rules := rules, plan := Plan.build tree rules kind isLogged }
  have holds := RuleSet.holds_of_build built
  have below : request.capacity.rate < Double.bound := by
    have positive := request.capacity.positive
    refine (Double.exists_ofInt_eq_ok_iff positive).mp ⟨_, Double.ofInt_eq_ok ?_⟩
    rw [abs_of_pos positive]
    omega
  rcases @Compiled.exists_buildAll compiled kind isLogged rfl
    (ClassTree.isBuildable_of_compile whole below made) (holds.isApplicable complete) isKind with
    ⟨held, chain, isTree, ⟨marks, written, isChain⟩, builds⟩
  have self : machine.kernel = machine.kernel.holding settings.device settings.chain
      Part.nothing := by
    conv => lhs; rw [← @IsFree.holding_self _ settings.device _ free, noTree]
    rfl
  apply (ends_takeAll free builds compiled.plan.steps.length self).weaken
  intro machine' host' result ended
  rcases ended.leaves with ⟨_, succeeded, kernel⟩
  refine ⟨succeeded, _, ⟨⟨held, rfl, ?_⟩, ⟨marks, ?_, ?_⟩, rfl⟩, kernel⟩
  · exact isTree.reproduces whole small made holds
  · rw [isChain]
  · exact holds.isEntered (isTierId_of_compile made) written

end TreeRequest

namespace Settings

open Machine

/-- Whether settings ask for a link of up to `2 ^ 46` kilobits, name parents by whole numbers
and have a chain of their own. -/
def isModest (settings : Settings) (_ : ClassTree) : Bool :=
  settings.treeRequest.specs.all (fun spec => spec.parent matches .whole _) &&
    (decide (settings.capacity.rate ≤ 2 ^ 46) && settings.chain != outgoing)

/-- The built-in settings on a kernel that was never asked for anything. -/
theorem exists_reproduces_of_builtIn :
    ∃ settings compiled, ofDocument .system (.mapping []) none = .ok settings ∧
      Compiled.ofSettings settings settings.roundTrip = .ok compiled ∧
      ∀ host : Host, (settings.backends.execute compiled.plan).Ends (answer .none)
        { kernel := untouched, count := 0, previous := none } host fun machine' _ result =>
          result = .ok () ∧ ∃ part : Part,
            part.Reproduces compiled.tree compiled.rules settings.leafQueue settings.logMarks ∧
              machine'.kernel = untouched.holding settings.device settings.chain part := by
  have evaluated : (treeOf? (.mapping [])).any
      (fun found => isModest found.1 found.2) = true := by
    decide +kernel
  rcases exists_of_treeOf evaluated with ⟨settings, compiled, accepted, compiles, holds⟩
  simp only [isModest, Bool.and_eq_true, decide_eq_true_eq, bne_iff_ne] at holds
  rcases holds with ⟨parents, small, different⟩
  rcases Compiled.ofSettings_eq_ok_iff.mp compiles with ⟨made, built, isPlan⟩
  have complete : ∀ row ∈ settings.table, ∀ spec ∈ row.2, spec.IsComplete :=
    fun row isRow spec isSpec =>
      (tableIsWritten_of_ofDocument accepted row isRow spec isSpec).isComplete
  refine ⟨settings, compiled, accepted, compiles, fun host => ?_⟩
  rw [isPlan]
  exact TreeRequest.exists_reproduces_of_execute settings.logMarks (exists_parent_of_all parents)
    small made complete built (leafQueue_of_ofDocument accepted) rfl (isFree_untouched different)

end Settings

end UplinkShaper
