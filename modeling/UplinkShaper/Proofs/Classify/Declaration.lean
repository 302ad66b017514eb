import UplinkShaper.Proofs.Allocation.Depth
import UplinkShaper.Proofs.Session.Compiling

/-!
Tiers with the same priority. Their rules and filters stand in the order of the class
tree, which is the order of declaration for tiers of the same depth. A tier that was
declared first, but lies deeper than another one, is overtaken by it.
-/

namespace UplinkShaper

/-- Keys of the items before stand before keys of the items after. -/
theorem pair_sublist_of_flatMap {α β : Type} {items : List α} {key : α → β} {parts : α → List β}
    (keyed : ∀ item ∈ items, ∀ part ∈ parts item, part = key item) {first second : β}
    (different : first ≠ second) (inOrder : [first, second].Sublist (items.flatMap parts)) :
    [first, second].Sublist (items.map key) := by
  induction items with
  | nil => cases inOrder
  | cons item rest induction =>
      rcases List.forall_mem_cons.mp keyed with ⟨here, later⟩
      rw [List.flatMap_cons, List.sublist_append_iff] at inOrder
      rcases inOrder with ⟨before, after, split, inHere, inRest⟩
      rw [List.map_cons]
      rcases before with _ | ⟨head, _ | ⟨next, others⟩⟩
      · rw [List.nil_append] at split
        rw [← split] at inRest
        exact (induction later inRest).cons _
      · rcases List.cons.inj split with ⟨rfl, rfl⟩
        have isKey := here first (inHere.subset (by simp))
        have isLater : second ∈ rest.map key := by
          rcases List.mem_flatMap.mp (List.singleton_sublist.mp inRest) with
            ⟨other, isOther, isPart⟩
          rw [later other isOther second isPart]
          exact List.mem_map_of_mem isOther
        rw [isKey]
        exact (List.singleton_sublist.mpr isLater).cons_cons _
      · rcases List.cons.inj split with ⟨rfl, rest⟩
        rcases List.cons.inj rest with ⟨rfl, _⟩
        have isFirst := here first (inHere.subset (by simp))
        have isSecond := here second (inHere.subset (by simp))
        exact absurd (isFirst.trans isSecond.symm) different

/-- Rows with increasing numbers, of which the second does not stand before the first. -/
theorem number_lt_of_not_pair {α : Type} {rows : List α} {mark number : α → Int}
    (increasing : rows.Pairwise fun left right => number left < number right) {first second : α}
    (isFirst : first ∈ rows) (isSecond : second ∈ rows) (different : mark first ≠ mark second)
    (notTurned : ¬ [mark second, mark first].Sublist (rows.map mark)) :
    number first < number second := by
  have apart : first ≠ second := fun same => different (congrArg mark same)
  rcases pair_or_pair apart isFirst isSecond with kept | turned
  · exact List.pairwise_iff_forall_sublist.mp increasing kept
  · exact absurd (turned.map mark) notTurned

namespace ClassTree

theorem receivers_distinct {tree : ClassTree} (distinct : tree.ids.Nodup) :
    (tree.receivers.map (·.id)).Nodup := by
  rw [← filter_inRuleOrder]
  have sorted : ((RuleSet.inRuleOrder tree).map (·.id)).Nodup :=
    ((List.mergeSort_perm tree.tiers RuleSet.comesBefore).map _).nodup_iff.mpr distinct
  exact sorted.sublist (List.filter_sublist.map _)

theorem targets_sublist_receivers (tree : ClassTree) : tree.targets.Sublist tree.receivers :=
  List.sublist_append_left ..

theorem targets_distinct {tree : ClassTree} (distinct : tree.ids.Nodup) :
    (tree.targets.map (·.id)).Nodup :=
  (receivers_distinct distinct).sublist ((targets_sublist_receivers tree).map _)

/-- Tiers with the same priority keep the order that they have in the tree. -/
theorem pair_sublist_targets {tree : ClassTree} {first second : Tier}
    (isFirst : first ∈ tree.targets) (isSecond : second ∈ tree.targets)
    (same : first.priority = second.priority)
    (inOrder : [first, second].Sublist tree.tiers) : [first, second].Sublist tree.targets := by
  rcases mem_targets_iff.mp isFirst with ⟨_, firstOther, firstLeaf⟩
  rcases mem_targets_iff.mp isSecond with ⟨_, secondOther, secondLeaf⟩
  have kept := (inOrder.filter fun tier => !tier.isDefault && !tree.isInner tier).filter
    (·.priority = first.priority)
  have all : ([first, second].filter fun tier => !tier.isDefault && !tree.isInner tier).filter
      (·.priority = first.priority) = [first, second] := by
    simp [firstOther, firstLeaf, secondOther, secondLeaf, same]
  rw [all] at kept
  refine kept.trans ?_
  rw [targets, byPriority, List.flatMap_def]
  exact List.sublist_flatten_of_mem (List.mem_map_of_mem (Priority.mem_inOrder first.priority))

end ClassTree

namespace RuleSet

/-- All rules for one mark come before all rules for another, and so do their filters. -/
structure PutsFirst (rules : RuleSet) (first second : Int) : Prop where
  numbers : ∀ rule ∈ rules.rules, ∀ other ∈ rules.rules, rule.mark = first →
    other.mark = second → rule.precedence < other.precedence
  marks : ∃ filter other, rules.filters.filter (·.mark = first) = [filter] ∧
    rules.filters.filter (·.mark = second) = [other] ∧ filter.precedence < other.precedence

theorem PutsFirst.not_turned {rules : RuleSet} {first second : Int}
    (putsFirst : rules.PutsFirst first second) : ¬ rules.PutsFirst second first := by
  intro turned
  rcases putsFirst.marks with ⟨filter, other, isFilter, isOther, less⟩
  rcases turned.marks with ⟨otherAgain, filterAgain, isOtherAgain, isFilterAgain, greater⟩
  rw [isFilter] at isFilterAgain
  rw [isOther] at isOtherAgain
  rw [(List.cons.inj isFilterAgain).1, (List.cons.inj isOtherAgain).1] at less
  omega

theorem mark_numbered (table : MatchTable) (tiers : List Tier) :
    (numbered (tiers.map (entryFor table))).map (·.mark) =
      tiers.flatMap fun tier => (rows table tier).map (·.1) := by
  rw [← List.map_flatMap, ← map_numbered, List.map_map]
  rfl

theorem Holds.map_mark {tree : ClassTree} {table : MatchTable} {rules : RuleSet}
    (holds : Holds tree table rules) : rules.filters.map (·.mark) = tree.targets.map (·.id) := by
  rw [holds.marks, filtersOf_receivers]
  apply List.ext_getElem
  · simp
  · intro index _ _
    simp

theorem Holds.filters_increasing {tree : ClassTree} {table : MatchTable} {rules : RuleSet}
    (holds : Holds tree table rules) :
    rules.filters.Pairwise fun left right => left.precedence < right.precedence := by
  rw [holds.marks, filtersOf_receivers, List.pairwise_iff_getElem]
  intro first second _ _ before
  simp only [List.getElem_mapIdx]
  omega

/-- A tier that marks lead to has one filter. -/
theorem Holds.exists_filter {tree : ClassTree} {table : MatchTable} {rules : RuleSet}
    (holds : Holds tree table rules) (distinct : tree.ids.Nodup) {tier : Tier}
    (member : tier ∈ tree.targets) :
    ∃ filter ∈ rules.filters, filter.mark = tier.id ∧
      rules.filters.filter (·.mark = tier.id) = [filter] := by
  have isMark : tier.id ∈ rules.filters.map (·.mark) :=
    holds.map_mark ▸ List.mem_map_of_mem member
  rcases List.mem_map.mp isMark with ⟨filter, isFilter, same⟩
  have marks : (rules.filters.map (·.mark)).Nodup :=
    holds.map_mark ▸ ClassTree.targets_distinct distinct
  exact ⟨filter, isFilter, same, same ▸ filter_key_eq_singleton marks isFilter⟩

/-- Rules and filters follow the order of the tiers that they lead to. -/
theorem Holds.putsFirst {tree : ClassTree} {table : MatchTable} {rules : RuleSet}
    (holds : Holds tree table rules) (distinct : tree.ids.Nodup) {first second : Tier}
    (different : first.id ≠ second.id) (inOrder : [first, second].Sublist tree.targets) :
    rules.PutsFirst first.id second.id := by
  constructor
  · intro rule isRule other isOther ruleMark otherMark
    have inReceivers : [first.id, second.id].Sublist (tree.receivers.map (·.id)) :=
      (inOrder.trans (ClassTree.targets_sublist_receivers tree)).map Tier.id
    have notTurned : ¬ [other.mark, rule.mark].Sublist (rules.rules.map (·.mark)) := by
      rw [holds.numbers, mark_numbered, ruleMark, otherMark]
      intro turned
      refine not_pair_of_pair (ClassTree.receivers_distinct distinct) inReceivers ?_
      refine pair_sublist_of_flatMap ?_ different.symm turned
      intro tier _ mark isMark
      rcases List.mem_map.mp isMark with ⟨row, isRow, rfl⟩
      rcases List.mem_map.mp isRow with ⟨_, _, rfl⟩
      rfl
    have increasing := holds.numbers ▸ numbered_increasing (tree.receivers.map (entryFor table))
    exact number_lt_of_not_pair increasing isRule isOther (by rwa [ruleMark, otherMark]) notTurned
  · rcases holds.exists_filter distinct (inOrder.subset (by simp : first ∈ [first, second])) with
      ⟨filter, isFilter, filterMark, onlyFilter⟩
    rcases holds.exists_filter distinct (inOrder.subset (by simp : second ∈ [first, second])) with
      ⟨other, isOther, otherMark, onlyOther⟩
    have notTurned : ¬ [other.mark, filter.mark].Sublist (rules.filters.map (·.mark)) := by
      rw [holds.map_mark, filterMark, otherMark]
      exact not_pair_of_pair (ClassTree.targets_distinct distinct) (inOrder.map Tier.id)
    exact ⟨filter, other, onlyFilter, onlyOther, number_lt_of_not_pair holds.filters_increasing
      isFilter isOther (by rwa [filterMark, otherMark]) notTurned⟩

end RuleSet

namespace TreeRequest

open Allocation

theorem ids_distinct_of_compile {request : TreeRequest} {roundTrip : Number} {tree : ClassTree}
    (compiled : request.compile roundTrip = .ok tree) : tree.ids.Nodup := by
  rcases compile_eq_ok_iff.mp compiled with ⟨prepared, ready, complete, rfl⟩
  exact (isLayered_of_prepare ready).distinct_tiers (made_of_makeTiers complete)

end TreeRequest

namespace Settings

open RuleSet

/-- Of two tiers with the same priority, the rules and the filter of the one that was
declared first come first if and only if it does not lie deeper than the other. -/
theorem putsFirst_iff_depth_le {settings : Settings} {roundTrip : Number} {compiled : Compiled}
    (compiles : Compiled.ofSettings settings roundTrip = .ok compiled) {first second : Tier}
    (isFirst : first ∈ compiled.tree.targets) (isSecond : second ∈ compiled.tree.targets)
    (same : first.priority = second.priority)
    (declared : [Value.whole first.id, Value.whole second.id].Sublist
      ((settings.reserved ++ settings.tiers).map (·.id))) :
    ∃ depth : Tier → Nat,
      (∀ tier ∈ compiled.tree.tiers, ∀ value,
        compiled.tree.IsAtDepth tier value ↔ depth tier = value) ∧
      (compiled.rules.PutsFirst first.id second.id ↔ depth first ≤ depth second) := by
  rcases Compiled.ofSettings_eq_ok_iff.mp compiles with ⟨made, built, _⟩
  have holds := holds_of_build built
  rcases TreeRequest.exists_depth made with ⟨depth, atDepth, inOrder⟩
  refine ⟨depth, atDepth, ?_⟩
  have isTier := (ClassTree.mem_targets_iff.mp isFirst).1
  have isOther := (ClassTree.mem_targets_iff.mp isSecond).1
  have distinct := TreeRequest.ids_distinct_of_compile made
  have asked : [Value.whole first.id, Value.whole second.id].Sublist
      (settings.treeRequest.specs.map (·.id)) := by
    refine declared.trans (List.Sublist.map _ ?_)
    exact List.sublist_append_left ..
  have different : first.id ≠ second.id := by
    intro equal
    have repeated := asked.nodup (TreeRequest.specs_distinct_of_compile made)
    simp [equal] at repeated
  have apart : first ≠ second := fun equal => different (congrArg Tier.id equal)
  rw [← inOrder first isTier second isOther asked]
  constructor
  · intro putsFirst
    rcases pair_or_pair apart isTier isOther with kept | turned
    · exact kept
    · exact absurd (holds.putsFirst distinct different.symm
        (ClassTree.pair_sublist_targets isSecond isFirst same.symm turned)) putsFirst.not_turned
  · intro kept
    exact holds.putsFirst distinct different
      (ClassTree.pair_sublist_targets isFirst isSecond same kept)

/-! ## A tier below a group -/

/-- Built-in settings with tiers of their own. -/
def withTiers (entries : List Value) : Value :=
  .record [("reserved", .list []), ("tiers", .list entries)]

def groupEntry : Value :=
  .record [("id", .whole 20), ("label", .text "Group"), ("share", .whole 50)]

/-- A tier below the group. -/
def farEntry : Value :=
  .record [("id", .whole 30), ("label", .text "Calls"), ("parent", .whole 20),
    ("share", .whole 50), ("matches", .list [.record [("protocol", .text "tcp")]])]

def nearEntry : Value :=
  .record [("id", .whole 40), ("label", .text "Web"), ("share", .whole 30),
    ("matches", .list [.record [("protocol", .text "udp")]])]

/-- The whole number that a value is. -/
def whole? : Value → Option Int
  | .number (.whole value) => some value
  | _ => none

theorem eq_whole_of_whole? {value : Value} {number : Int} (isWhole : whole? value = some number) :
    value = .whole number := by
  unfold whole? at isWhole
  split at isWhole
  · cases isWhole
    rfl
  · cases isWhole

theorem map_whole_of_whole? {specs : List TierSpec} {ids : List Int}
    (isWhole : specs.map (whole? ·.id) = ids.map some) :
    specs.map (·.id) = ids.map Value.whole := by
  induction specs generalizing ids with
  | nil =>
      cases ids with
      | nil => rfl
      | cons => cases isWhole
  | cons spec rest induction =>
      cases ids with
      | nil => cases isWhole
      | cons id others =>
          rcases List.cons.inj isWhole with ⟨first, later⟩
          rw [List.map_cons, List.map_cons, induction later, eq_whole_of_whole? first]

/-- Whether tiers are declared in some order, and those that get filters are the near one
and then the far one. -/
def isNearFirst (declared : List Int) (settings : Settings) (tree : ClassTree) : Bool :=
  decide ((settings.reserved ++ settings.tiers).map (whole? ·.id) = declared.map some) &&
    decide (tree.targets.map (fun tier => (tier.id, tier.priority, tier.isChildOf rootId)) =
      [(40, .shared, true), (30, .shared, false)])

theorem exists_targets_of_isNearFirst {declared : List Int} {settings : Settings}
    {tree : ClassTree} (isNearFirst : isNearFirst declared settings tree = true) :
    (settings.reserved ++ settings.tiers).map (·.id) = declared.map Value.whole ∧
      ∃ near far, tree.targets = [near, far] ∧ near.id = 40 ∧ far.id = 30 ∧
        near.priority = far.priority ∧ near.isChildOf rootId = true := by
  simp only [Settings.isNearFirst, Bool.and_eq_true, decide_eq_true_eq] at isNearFirst
  rcases isNearFirst with ⟨isDeclared, targets⟩
  refine ⟨map_whole_of_whole? isDeclared, ?_⟩
  rcases List.map_eq_cons_iff.mp targets with ⟨near, rest, isTargets, isNear, later⟩
  rcases List.map_eq_cons_iff.mp later with ⟨far, none, isRest, isFar, isNil⟩
  simp only [List.map_eq_nil_iff] at isNil
  simp only [Prod.mk.injEq] at isNear isFar
  refine ⟨near, far, ?_, isNear.1, isFar.1, isNear.2.1.trans isFar.2.1.symm, isNear.2.2⟩
  rw [isTargets, isRest, isNil]

theorem exists_putsFirst_near :
    ∃ settings compiled,
      ofDocument .system (withTiers [nearEntry, farEntry, groupEntry]) none = .ok settings ∧
      Compiled.ofSettings settings settings.roundTrip = .ok compiled ∧
      (settings.reserved ++ settings.tiers).map (·.id) = [40, 30, 20].map Value.whole ∧
      compiled.rules.PutsFirst 40 30 := by
  have evaluated : (treeOf? (withTiers [nearEntry, farEntry, groupEntry])).any
      (fun found => isNearFirst [40, 30, 20] found.1 found.2) = true := by
    decide +kernel
  rcases exists_of_treeOf evaluated with ⟨settings, compiled, accepted, compiles, isNearFirst⟩
  rcases exists_targets_of_isNearFirst isNearFirst with
    ⟨declared, near, far, targets, isNear, isFar, same, belowRoot⟩
  have inOrder : [Value.whole near.id, Value.whole far.id].Sublist
      ((settings.reserved ++ settings.tiers).map (·.id)) := by
    rw [declared, isNear, isFar]
    exact (by decide : [(40 : Int), 30].Sublist [40, 30, 20]).map Value.whole
  have nearIsTarget : near ∈ compiled.tree.targets := by simp [targets]
  have farIsTarget : far ∈ compiled.tree.targets := by simp [targets]
  rcases putsFirst_iff_depth_le compiles nearIsTarget farIsTarget same inOrder with
    ⟨depth, atDepth, putsFirst⟩
  have isTier := (ClassTree.mem_targets_iff.mp nearIsTarget).1
  have zero : depth near = 0 := (atDepth near isTier 0).mp (.near isTier belowRoot)
  refine ⟨settings, compiled, accepted, compiles, declared, ?_⟩
  rw [← isNear, ← isFar]
  exact putsFirst.mpr (by rw [zero]; exact Nat.zero_le _)

/-- The tier below the group is declared first, and put last. -/
theorem not_putsFirst_far :
    ∃ settings compiled first second,
      ofDocument .system (withTiers [farEntry, groupEntry, nearEntry]) none = .ok settings ∧
      Compiled.ofSettings settings settings.roundTrip = .ok compiled ∧
      first ∈ compiled.tree.targets ∧ second ∈ compiled.tree.targets ∧
      first.priority = second.priority ∧
      [Value.whole first.id, Value.whole second.id].Sublist
        ((settings.reserved ++ settings.tiers).map (·.id)) ∧
      ¬ compiled.rules.PutsFirst first.id second.id := by
  have evaluated : (treeOf? (withTiers [farEntry, groupEntry, nearEntry])).any
      (fun found => isNearFirst [30, 20, 40] found.1 found.2) = true := by
    decide +kernel
  rcases exists_of_treeOf evaluated with ⟨settings, compiled, accepted, compiles, isNearFirst⟩
  rcases exists_targets_of_isNearFirst isNearFirst with
    ⟨declared, near, far, targets, isNear, isFar, same, _⟩
  rcases Compiled.ofSettings_eq_ok_iff.mp compiles with ⟨made, built, _⟩
  have different : near.id ≠ far.id := by
    rw [isNear, isFar]
    decide
  have turned : compiled.rules.PutsFirst near.id far.id :=
    (holds_of_build built).putsFirst (TreeRequest.ids_distinct_of_compile made) different
      (by rw [targets])
  refine ⟨settings, compiled, far, near, accepted, compiles, by simp [targets],
    by simp [targets], same.symm, ?_, turned.not_turned⟩
  rw [declared, isNear, isFar]
  exact (by decide : [(30 : Int), 40].Sublist [30, 20, 40]).map Value.whole

end Settings

end UplinkShaper
