import Mathlib.Data.List.Basic
import UplinkShaper.Classify.Rules
import UplinkShaper.Proofs.Keys
import UplinkShaper.Proofs.Results

/-!
The order of rules. Sorting keeps the order of tiers with the same priority, so the rules
of a tree are those of its tiers priority by priority, each time in the order of the tree,
and those of the default tier at the end. Only tiers without children have rules; a rule
set that is built holds the expanded specifications of these tiers, numbered from one.
-/

namespace UplinkShaper

/-! ## Tiers in turn -/

namespace Priority

/-- The priorities in the order of scheduling. -/
def inOrder : List Priority :=
  [.realtimeStrict, .realtimeBurstable, .shared, .bulk]

theorem mem_inOrder (priority : Priority) : priority ∈ inOrder := by
  cases priority <;> decide

theorem rank_lt (priority : Priority) : priority.rank < 4 := by
  cases priority <;> decide

theorem rank_inj {left right : Priority} : left.rank = right.rank ↔ left = right := by
  cases left <;> cases right <;> decide

end Priority

/-- The place of a tier's rules: by priority, and the default tier's after all others. -/
def Tier.turn (tier : Tier) : Nat :=
  if tier.isDefault then 4 + tier.priority.rank else tier.priority.rank

/-- Tiers priority by priority, in their old order where the priority is the same. -/
def byPriority (tiers : List Tier) : List Tier :=
  Priority.inOrder.flatMap fun priority => tiers.filter (·.priority = priority)

theorem mem_byPriority {tiers : List Tier} {tier : Tier} :
    tier ∈ byPriority tiers ↔ tier ∈ tiers := by
  simp [byPriority, Priority.mem_inOrder]

theorem byPriority_singleton (tier : Tier) : byPriority [tier] = [tier] := by
  cases priority : tier.priority <;> simp [byPriority, Priority.inOrder, priority]

theorem filter_byPriority (keep : Tier → Bool) (tiers : List Tier) :
    (byPriority tiers).filter keep = byPriority (tiers.filter keep) := by
  simp only [byPriority, List.filter_flatMap, List.filter_filter, Bool.and_comm]

namespace RuleSet

theorem comesBefore_eq (left right : Tier) :
    comesBefore left right = decide (left.turn ≤ right.turn) := by
  have leftRank := left.priority.rank_lt
  have rightRank := right.priority.rank_lt
  cases isLeft : left.isDefault <;> cases isRight : right.isDefault <;>
    simp [comesBefore, Tier.turn, isLeft, isRight] <;> omega

theorem turn_lt (tier : Tier) : tier.turn < 8 := by
  have rank := tier.priority.rank_lt
  simp only [Tier.turn]
  split <;> omega

theorem turn_eq_rank_iff {tier : Tier} {priority : Priority} :
    tier.turn = priority.rank ↔ tier.priority = priority ∧ tier.isDefault = false := by
  have rank := priority.rank_lt
  cases isDefault : tier.isDefault
  · simp [Tier.turn, isDefault, Priority.rank_inj]
  · simp [Tier.turn, isDefault]
    omega

theorem turn_eq_add_rank_iff {tier : Tier} {priority : Priority} :
    tier.turn = 4 + priority.rank ↔ tier.priority = priority ∧ tier.isDefault = true := by
  have rank := tier.priority.rank_lt
  cases isDefault : tier.isDefault
  · simp [Tier.turn, isDefault]
    omega
  · simp [Tier.turn, isDefault, Priority.rank_inj]

/-- The order of rules: priority by priority, with the default tier at the end. -/
theorem inRuleOrder_eq (tree : ClassTree) :
    inRuleOrder tree =
      byPriority (tree.tiers.filter (!·.isDefault)) ++
        byPriority (tree.tiers.filter (·.isDefault)) := by
  have ranks : List.range 8 =
      Priority.inOrder.map (·.rank) ++ Priority.inOrder.map (4 + ·.rank) := rfl
  rw [inRuleOrder, mergeSort_eq_flatMap comesBefore_eq tree.tiers fun tier _ => turn_lt tier, ranks,
    List.flatMap_append, List.flatMap_map, List.flatMap_map]
  simp only [byPriority, List.filter_filter, turn_eq_rank_iff, turn_eq_add_rank_iff,
    Bool.decide_eq_true, Bool.decide_and, Bool.decide_eq_false]

end RuleSet

namespace ClassTree

/-- The tiers that marks lead to: those without children, except the default tier. -/
def targets (tree : ClassTree) : List Tier :=
  byPriority (tree.tiers.filter fun tier => !tier.isDefault && !tree.isInner tier)

/-- The tiers without children in the order of their rules. -/
def receivers (tree : ClassTree) : List Tier :=
  tree.targets ++
    byPriority (tree.tiers.filter fun tier => tier.isDefault && !tree.isInner tier)

theorem mem_targets_iff {tree : ClassTree} {tier : Tier} :
    tier ∈ tree.targets ↔
      tier ∈ tree.tiers ∧ tier.isDefault = false ∧ tree.isInner tier = false := by
  simp [targets, mem_byPriority]

theorem mem_receivers_iff {tree : ClassTree} {tier : Tier} :
    tier ∈ tree.receivers ↔ tier ∈ tree.tiers ∧ tree.isInner tier = false := by
  rw [receivers, List.mem_append, mem_targets_iff, mem_byPriority, List.mem_filter]
  cases tier.isDefault <;> simp

theorem filter_inRuleOrder (tree : ClassTree) :
    ((RuleSet.inRuleOrder tree).filter fun tier => !tree.isInner tier) = tree.receivers := by
  rw [RuleSet.inRuleOrder_eq, List.filter_append, filter_byPriority, filter_byPriority,
    List.filter_filter, List.filter_filter, receivers, targets]
  simp only [Bool.and_comm]

theorem filter_receivers (tree : ClassTree) :
    tree.receivers.filter (!·.isDefault) = tree.targets := by
  have others : tree.targets.filter (!·.isDefault) = tree.targets := by
    rw [List.filter_eq_self]
    intro tier member
    rw [(mem_targets_iff.mp member).2.1]
    rfl
  have none : (tree.tiers.filter fun tier => tier.isDefault && !tree.isInner tier).filter
      (!·.isDefault) = [] := by
    rw [List.filter_eq_nil_iff]
    intro tier member
    simp only [List.mem_filter, Bool.and_eq_true] at member
    simp [member.2.1]
  rw [receivers, List.filter_append, others, filter_byPriority, none]
  exact List.append_nil _

end ClassTree

/-! ## Rule sets that are built -/

namespace MatchSpec

/-- The hosts and subnets that a specification lists. -/
def listed (spec : MatchSpec) : List String :=
  (Text.pieces (fun character => character == ',' || Text.isBlank character)
    (spec.address.getD "").toList).map String.ofList

/-- The specifications of the rules that come of a specification. -/
def expansion (spec : MatchSpec) : List MatchSpec :=
  match spec.kind with
  | .address => spec.listed.flatMap fun address =>
      spec.addressSides.map fun side => ofAddress (some address) (some side)
  | _ => [spec]

/-- A specification whose addresses can be read, if it lists any. -/
def IsReadable (spec : MatchSpec) : Prop :=
  spec.kind = .address → ∀ item ∈ spec.listed, ∃ network, Network.read? item = some network

theorem checkAddress_eq_ok_iff {item : String} :
    checkAddress item = .ok () ↔ ∃ network, Network.read? item = some network := by
  unfold checkAddress
  split
  case h_1 network found => simp [found]
  case h_2 missing => simp [missing]

theorem expand_eq_ok_iff {spec : MatchSpec} {specs : List MatchSpec} :
    spec.expand = .ok specs ↔ spec.IsReadable ∧ specs = spec.expansion := by
  cases kind : spec.kind with
  | address =>
      simp only [expand, expansion, kind, IsReadable, splitAddresses, addressItems]
      simp only [Result.ok_bind, bind_assoc]
      rw [Result.bind_eq_ok]
      constructor
      · rintro ⟨_, checked, equal⟩
        have each := Result.forM_eq_ok.mp checked
        exact ⟨fun _ item member => checkAddress_eq_ok_iff.mp (each item member),
          (Result.pure_eq_ok.mp equal).symm⟩
      · rintro ⟨readable, rfl⟩
        refine ⟨(), Result.forM_eq_ok.mpr fun item member => ?_, rfl⟩
        exact checkAddress_eq_ok_iff.mpr (readable trivial item member)
  | port => simp [expand, expansion, kind, IsReadable, eq_comm]
  | protocol => simp [expand, expansion, kind, IsReadable, eq_comm]
  | other name => simp [expand, expansion, kind, IsReadable, eq_comm]

theorem mapM_expand_eq_ok_iff {specs : List MatchSpec} {expanded : List (List MatchSpec)} :
    specs.mapM (·.expand) = .ok expanded ↔
      (∀ spec ∈ specs, spec.IsReadable) ∧ expanded = specs.map (·.expansion) := by
  induction specs generalizing expanded with
  | nil => simp [pure, Except.pure, eq_comm]
  | cons spec rest induction =>
      rw [List.mapM_cons, Result.bind_eq_ok, List.forall_mem_cons, List.map_cons]
      constructor
      · rintro ⟨first, isFirst, rest⟩
        rcases Result.bind_eq_ok.mp rest with ⟨others, isOthers, equal⟩
        rcases expand_eq_ok_iff.mp isFirst with ⟨readable, rfl⟩
        rcases induction.mp isOthers with ⟨readableRest, rfl⟩
        exact ⟨⟨readable, readableRest⟩, (Result.pure_eq_ok.mp equal).symm⟩
      · rintro ⟨⟨readable, readableRest⟩, rfl⟩
        exact ⟨_, expand_eq_ok_iff.mpr ⟨readable, rfl⟩,
          Result.bind_eq_ok.mpr ⟨_, induction.mpr ⟨readableRest, rfl⟩, rfl⟩⟩

end MatchSpec

namespace RuleSet

/-- What leads to a tier without children. -/
def entryFor (table : MatchTable) (tier : Tier) : Entry where
  tier := tier
  specs := (matchesOf table tier.id).flatMap (·.expansion)

theorem entryOf_eq_ok_iff {tree : ClassTree} {table : MatchTable} {tier : Tier}
    {result : Option Entry} :
    entryOf tree table tier = .ok result ↔
      if tree.isInner tier then matchesOf table tier.id = [] ∧ result = none
      else (∀ spec ∈ matchesOf table tier.id, spec.IsReadable) ∧
        result = some (entryFor table tier) := by
  unfold entryOf
  dsimp only
  cases inner : tree.isInner tier with
  | true =>
      simp only [if_true, List.isEmpty_iff]
      split
      case isTrue none => simp [none, eq_comm]
      case isFalse some => simp [some]
  | false =>
      simp only [Bool.false_eq_true, if_false, Result.bind_eq_ok, Result.pure_eq_ok,
        MatchSpec.mapM_expand_eq_ok_iff, entryFor, List.flatMap_def]
      constructor
      · rintro ⟨_, ⟨readable, rfl⟩, rfl⟩
        exact ⟨readable, rfl⟩
      · rintro ⟨readable, rfl⟩
        exact ⟨_, ⟨readable, rfl⟩, rfl⟩

/-- What a rule set that is built holds, and what is the case of its table. -/
structure Holds (tree : ClassTree) (table : MatchTable) (rules : RuleSet) : Prop where
  known : unknownIds tree table = []
  inner : ∀ tier ∈ tree.tiers, tree.isInner tier = true → matchesOf table tier.id = []
  readable : ∀ tier ∈ tree.tiers, tree.isInner tier = false →
    ∀ spec ∈ matchesOf table tier.id, spec.IsReadable
  numbers : rules.rules = numbered (tree.receivers.map (entryFor table))
  marks : rules.filters = filtersOf (tree.receivers.map (entryFor table))

/-- Tiers with children need no specifications, the specifications of the others can be
expanded. -/
def IsExpandable (tree : ClassTree) (table : MatchTable) (tier : Tier) : Prop :=
  if tree.isInner tier then matchesOf table tier.id = []
  else ∀ spec ∈ matchesOf table tier.id, spec.IsReadable

theorem mapM_entryOf_eq_ok {tree : ClassTree} {table : MatchTable} {tiers : List Tier}
    {results : List (Option Entry)} (made : tiers.mapM (entryOf tree table) = .ok results) :
    (∀ tier ∈ tiers, IsExpandable tree table tier) ∧
      results.filterMap id =
        (tiers.filter fun tier => !tree.isInner tier).map (entryFor table) := by
  induction tiers generalizing results with
  | nil =>
      cases made
      simp
  | cons tier rest induction =>
      rw [List.mapM_cons] at made
      rcases Result.bind_eq_ok.mp made with ⟨first, isFirst, later⟩
      rcases Result.bind_eq_ok.mp later with ⟨others, isOthers, equal⟩
      rcases induction isOthers with ⟨expandable, entries⟩
      rw [← Result.pure_eq_ok.mp equal]
      rw [entryOf_eq_ok_iff] at isFirst
      rw [List.forall_mem_cons, IsExpandable]
      cases inner : tree.isInner tier with
      | true =>
          simp only [inner, if_true] at isFirst
          rw [isFirst.2]
          exact ⟨⟨isFirst.1, expandable⟩, by simpa [inner] using entries⟩
      | false =>
          simp only [inner, Bool.false_eq_true, if_false] at isFirst
          rw [isFirst.2]
          exact ⟨⟨isFirst.1, expandable⟩, by simpa [inner] using entries⟩

theorem holds_of_build {tree : ClassTree} {table : MatchTable} {rules : RuleSet}
    (built : build tree table = .ok rules) : Holds tree table rules := by
  simp only [build] at built
  split at built
  case h_2 => cases built
  case h_1 known =>
    rcases Result.bind_eq_ok.mp built with ⟨results, made, equal⟩
    rcases mapM_entryOf_eq_ok made with ⟨expandable, entries⟩
    rw [ClassTree.filter_inRuleOrder] at entries
    rw [entries] at equal
    rw [← Result.pure_eq_ok.mp equal]
    have each : ∀ tier ∈ tree.tiers, IsExpandable tree table tier :=
      fun tier member => expandable tier (List.mem_mergeSort.mpr member)
    exact {
      known := known
      inner := fun tier member inner => by simpa [IsExpandable, inner] using each tier member
      readable := fun tier member leaf => by simpa [IsExpandable, leaf] using each tier member
      numbers := rfl
      marks := rfl }

theorem unknownIds_eq_nil {tree : ClassTree} {table : MatchTable}
    (known : ∀ row ∈ table, tree.tiers.any (fun tier => row.1.eq (.whole tier.id)) = true) :
    unknownIds tree table = [] := by
  have none : (table.map (·.1)).filter (fun key =>
      !tree.tiers.any fun tier => key.eq (.whole tier.id)) = [] := by
    rw [List.filter_eq_nil_iff]
    intro key member
    rcases List.mem_map.mp member with ⟨row, isRow, rfl⟩
    simp only [known row isRow, Bool.not_true, Bool.false_eq_true, not_false_eq_true]
  rw [unknownIds, none]
  exact List.mergeSort_nil

/-- A table for tiers of a tree only, with specifications that can be expanded. -/
def isBuildable (tree : ClassTree) (table : MatchTable) : Bool :=
  (table.all fun row => tree.tiers.any fun tier => row.1.eq (.whole tier.id)) &&
    tree.tiers.all fun tier => (entryOf tree table tier).isOk

theorem exists_build_of_isBuildable {tree : ClassTree} {table : MatchTable}
    (buildable : isBuildable tree table = true) : ∃ rules, build tree table = .ok rules := by
  simp only [isBuildable, Bool.and_eq_true, List.all_eq_true] at buildable
  have each : ∀ tier ∈ inRuleOrder tree, ∃ entry, entryOf tree table tier = .ok entry := by
    intro tier member
    have isOk := buildable.2 tier (List.mem_mergeSort.mp member)
    cases result : entryOf tree table tier with
    | error failure => simp [result, Except.isOk, Except.toBool] at isOk
    | ok entry => exact ⟨entry, rfl⟩
  rcases Result.exists_mapM_of_forall each with ⟨entries, made⟩
  simp only [build, unknownIds_eq_nil buildable.1, made]
  exact ⟨_, rfl⟩

/-- The marks and specifications of the rules that lead to a tier. -/
def rows (table : MatchTable) (tier : Tier) : List (Int × MatchSpec) :=
  ((matchesOf table tier.id).flatMap (·.expansion)).map fun spec => (tier.id, spec)

/-- The rules are the rows of the tiers one after another. -/
theorem map_numbered (table : MatchTable) (tiers : List Tier) :
    (numbered (tiers.map (entryFor table))).map (fun rule => (rule.mark, rule.spec)) =
      tiers.flatMap (rows table) := by
  apply List.ext_getElem
  · simp [numbered, rows, entryFor, List.flatMap_map]
  · intro index _ _
    simp only [numbered, entryFor, List.flatMap_map, List.getElem_map, List.getElem_mapIdx]
    rfl

/-- A rule comes of a specification for the tier that its mark names. -/
theorem Holds.exists_spec {tree : ClassTree} {table : MatchTable} {rules : RuleSet}
    (holds : Holds tree table rules) {rule : ClassificationRule} (member : rule ∈ rules.rules) :
    ∃ tier ∈ tree.tiers, tree.isInner tier = false ∧ rule.mark = tier.id ∧
      ∃ spec ∈ matchesOf table tier.id, rule.spec ∈ spec.expansion := by
  have isRow : (rule.mark, rule.spec) ∈ tree.receivers.flatMap (rows table) := by
    rw [← map_numbered, ← holds.numbers]
    exact List.mem_map_of_mem member
  rcases List.mem_flatMap.mp isRow with ⟨tier, isReceiver, inRows⟩
  rcases List.mem_map.mp inRows with ⟨other, isOther, same⟩
  rcases List.mem_flatMap.mp isOther with ⟨spec, isSpec, inside⟩
  rcases Prod.mk.inj same with ⟨isMark, rfl⟩
  rcases ClassTree.mem_receivers_iff.mp isReceiver with ⟨isTier, leaf⟩
  exact ⟨tier, isTier, leaf, isMark.symm, spec, isSpec, inside⟩

theorem map_precedence_numbered (entries : List Entry) :
    (numbered entries).map (·.precedence) =
      (List.range (numbered entries).length).map fun index => ((index + 1 : Nat) : Int) := by
  apply List.ext_getElem
  · simp
  · intro index _ _
    simp [numbered]

theorem numbered_increasing (entries : List Entry) :
    (numbered entries).Pairwise fun left right => left.precedence < right.precedence := by
  rw [List.pairwise_iff_getElem]
  intro first second _ _ before
  simp only [numbered, List.getElem_mapIdx]
  omega

/-- The filters are numbered from one, a filter for each tier that marks lead to. -/
theorem filtersOf_receivers (tree : ClassTree) (table : MatchTable) :
    filtersOf (tree.receivers.map (entryFor table)) = tree.targets.mapIdx fun index tier =>
      { mark := tier.id, handle := tier.handle, precedence := index + 1 } := by
  have entries : ((tree.receivers.map (entryFor table)).filter fun entry => !entry.tier.isDefault) =
      tree.targets.map (entryFor table) := by
    rw [List.filter_map, ← ClassTree.filter_receivers]
    rfl
  rw [filtersOf, entries]
  apply List.ext_getElem
  · simp
  · intro index _ _
    simp [entryFor]

end RuleSet

end UplinkShaper
