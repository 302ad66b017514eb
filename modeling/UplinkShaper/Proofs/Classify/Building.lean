import UplinkShaper.Proofs.Classify.Order
import UplinkShaper.Proofs.Config.Entries

/-!
Rule sets that are built. Each rule leads to a tier of the tree and looks for ports, a
protocol or one address on one side; the rules stand in the order of their numbers.
-/

namespace UplinkShaper

namespace MatchSpec

/-- The specifications that rules hold. -/
inductive IsExpanded : MatchSpec → Prop
  | ports {protocol : String} {start : Int} {last : Option Int} {side : MatchSide} :
      protocol ∈ portProtocols → PortRange.isPort start = true →
        (∀ port ∈ last, PortRange.isPort port = true ∧ start ≤ port) →
          side = .destinationPort ∨ side = .sourcePort →
            IsExpanded (.ofPorts protocol start last side)
  | protocol {name : String} : name ∈ Configuration.protocols → IsExpanded (.ofProtocol name)
  | address {text : String} {network : Network} {side : MatchSide} :
      Network.read? text = some network → side = .source ∨ side = .destination →
        IsExpanded (.ofAddress (some text) (some side))

theorem read_of_splitAddresses {value : Value} {items : List String}
    (split : splitAddresses value = .ok items) :
    ∀ item ∈ items, ∃ network, Network.read? item = some network := by
  rcases Result.bind_eq_ok.mp split with ⟨listed, _, rest⟩
  rcases Result.bind_eq_ok.mp rest with ⟨_, checked, equal⟩
  rw [← Result.pure_eq_ok.mp equal]
  intro item member
  have valid := Result.forM_eq_ok.mp checked item member
  simp only [checkAddress] at valid
  split at valid
  case h_1 network found => exact ⟨network, found⟩
  case h_2 => cases valid

theorem isExpanded_of_expand {spec : MatchSpec} {specs : List MatchSpec}
    (written : spec.IsWritten) (expanded : spec.expand = .ok specs) :
    ∀ other ∈ specs, other.IsExpanded := by
  cases written with
  | ports hasPorts start last side =>
      cases expanded
      intro other member
      rw [List.mem_singleton.mp member]
      exact .ports hasPorts start last side
  | protocol named =>
      cases expanded
      intro other member
      rw [List.mem_singleton.mp member]
      exact .protocol named
  | @address text side chosen =>
      rcases Result.bind_eq_ok.mp expanded with ⟨addresses, split, equal⟩
      rw [← Result.pure_eq_ok.mp equal]
      intro other member
      rcases List.mem_flatMap.mp member with ⟨address, isAddress, inSides⟩
      rcases List.mem_map.mp inSides with ⟨one, isSide, rfl⟩
      rcases read_of_splitAddresses split address isAddress with ⟨network, found⟩
      refine .address found ?_
      cases side with
      | none => simpa [addressSides, ofAddress] using isSide
      | some side =>
          have same : one = side := by
            rcases chosen side rfl with rfl | rfl
            · simpa [addressSides, ofAddress, MatchSide.name] using isSide
            · simpa [addressSides, ofAddress, MatchSide.name] using isSide
          rw [same]
          exact chosen side rfl

end MatchSpec

namespace RuleSet

/-- Rules for the tiers of a tree, in the order of their numbers, and filters that lead the
marks of tiers to their classes, with a number each. -/
structure IsBuilt (tree : ClassTree) (rules : RuleSet) : Prop where
  expanded : ∀ rule ∈ rules.rules, rule.spec.IsExpanded
  marks : ∀ rule ∈ rules.rules, ∃ tier ∈ tree.tiers, rule.mark = tier.id
  ordered : rules.rules.Pairwise fun left right => left.precedence ≤ right.precedence
  filters : ∀ filter ∈ rules.filters, 0 ≤ filter.precedence ∧
    ∃ tier ∈ tree.tiers, filter.mark = tier.id ∧ filter.handle = tier.handle
  numbers : (rules.filters.map (·.precedence.toNat)).Nodup

theorem exists_row_of_matchesOf {table : MatchTable} {id : Int} {spec : MatchSpec}
    (member : spec ∈ matchesOf table id) : ∃ row ∈ table, spec ∈ row.2 := by
  unfold matchesOf at member
  cases found : table.find? (·.1.eq (.whole id)) with
  | none =>
      rw [found] at member
      cases member
  | some row =>
      rw [found] at member
      exact ⟨row, List.mem_of_find?_eq_some found, member⟩

theorem isWritten_of_matchesOf {table : MatchTable} (written : Settings.TableIsWritten table)
    (id : Int) : ∀ spec ∈ matchesOf table id, spec.IsWritten := by
  intro spec member
  rcases exists_row_of_matchesOf member with ⟨row, isRow, isSpec⟩
  exact written row isRow spec isSpec

theorem entry_of_entryOf {tree : ClassTree} {table : MatchTable} {tier : Tier} {entry : Entry}
    (written : Settings.TableIsWritten table)
    (result : entryOf tree table tier = .ok (some entry)) :
    entry.tier = tier ∧ ∀ spec ∈ entry.specs, spec.IsExpanded := by
  unfold entryOf at result
  dsimp only at result
  split at result
  case isTrue =>
    split at result
    · cases result
    · cases result
  case isFalse =>
    rcases Result.bind_eq_ok.mp result with ⟨expanded, each, equal⟩
    cases Result.pure_eq_ok.mp equal
    refine ⟨rfl, fun spec member => ?_⟩
    rcases List.mem_flatten.mp member with ⟨specs, isPart, inside⟩
    rcases Result.exists_of_mem_mapM each isPart with ⟨whole, isListed, isWhole⟩
    exact MatchSpec.isExpanded_of_expand (isWritten_of_matchesOf written tier.id whole isListed)
      isWhole spec inside

theorem mem_numbered {entries : List Entry} {rule : ClassificationRule}
    (member : rule ∈ numbered entries) :
    ∃ entry ∈ entries, rule.mark = entry.tier.id ∧ rule.spec ∈ entry.specs := by
  rcases List.mem_mapIdx.mp member with ⟨index, inside, rfl⟩
  rcases List.mem_flatMap.mp (List.getElem_mem inside) with ⟨entry, isEntry, inEntry⟩
  rcases List.mem_map.mp inEntry with ⟨spec, isSpec, equal⟩
  refine ⟨entry, isEntry, ?_⟩
  rw [← equal]
  exact ⟨rfl, isSpec⟩

theorem numbered_ordered (entries : List Entry) :
    (numbered entries).Pairwise fun left right => left.precedence ≤ right.precedence :=
  (numbered_increasing entries).imp Int.le_of_lt

theorem mem_filtersOf {entries : List Entry} {filter : MarkFilter}
    (member : filter ∈ filtersOf entries) :
    0 ≤ filter.precedence ∧
      ∃ entry ∈ entries, filter.mark = entry.tier.id ∧ filter.handle = entry.tier.handle := by
  rcases List.mem_mapIdx.mp member with ⟨index, inside, rfl⟩
  refine ⟨by dsimp only; omega, _, (List.mem_filter.mp (List.getElem_mem inside)).1, rfl, rfl⟩

theorem filtersOf_numbers (entries : List Entry) :
    ((filtersOf entries).map (·.precedence.toNat)).Nodup := by
  rw [List.Nodup, List.pairwise_iff_getElem]
  intro first second _ _ before
  simp only [filtersOf, List.getElem_map, List.getElem_mapIdx]
  omega

theorem isBuilt_of_build {tree : ClassTree} {table : MatchTable} {rules : RuleSet}
    (written : Settings.TableIsWritten table) (built : build tree table = .ok rules) :
    rules.IsBuilt tree := by
  simp only [build] at built
  split at built
  case h_2 => cases built
  case h_1 =>
    rcases Result.bind_eq_ok.mp built with ⟨results, each, equal⟩
    rw [← Result.pure_eq_ok.mp equal]
    have entry_mem : ∀ entry ∈ results.filterMap id, entry.tier ∈ tree.tiers ∧
        ∀ spec ∈ entry.specs, spec.IsExpanded := by
      intro entry member
      rcases List.mem_filterMap.mp member with ⟨result, isResult, isSome⟩
      rw [id_eq] at isSome
      rw [isSome] at isResult
      rcases Result.exists_of_mem_mapM each isResult with ⟨tier, inOrder, made⟩
      rcases entry_of_entryOf written made with ⟨isTier, expanded⟩
      rw [isTier]
      exact ⟨List.mem_mergeSort.mp inOrder, expanded⟩
    refine ⟨fun rule member => ?_, fun rule member => ?_, numbered_ordered _,
      fun filter member => ?_, filtersOf_numbers _⟩
    · rcases mem_numbered member with ⟨entry, isEntry, _, isSpec⟩
      exact (entry_mem entry isEntry).2 _ isSpec
    · rcases mem_numbered member with ⟨entry, isEntry, isMark, _⟩
      exact ⟨entry.tier, (entry_mem entry isEntry).1, isMark⟩
    · rcases mem_filtersOf member with ⟨nonneg, entry, isEntry, isMark⟩
      exact ⟨nonneg, entry.tier, (entry_mem entry isEntry).1, isMark⟩

/-! ## Tiers in order -/

/-- The rules of a tree whose tiers are in the order of their rules. -/
def rulesInOrder (tree : ClassTree) (table : MatchTable) :
    Except Failure (List ClassificationRule) := do
  return numbered ((← tree.tiers.mapM (entryOf tree table)).filterMap id)

/-- Tiers that are in order, and a table that names no others. -/
def IsInOrder (tree : ClassTree) (table : MatchTable) : Prop :=
  (tree.tiers.Pairwise fun left right => comesBefore left right = true) ∧
    ∀ row ∈ table, tree.tiers.any (fun tier => row.1.eq (.whole tier.id)) = true

instance (tree : ClassTree) (table : MatchTable) : Decidable (IsInOrder tree table) :=
  inferInstanceAs (Decidable (_ ∧ _))

theorem exists_build_of_isInOrder {tree : ClassTree} {table : MatchTable}
    {rules : List ClassificationRule} (inOrder : IsInOrder tree table)
    (numbers : rulesInOrder tree table = .ok rules) :
    ∃ built, build tree table = .ok built ∧ built.rules = rules := by
  have sorted : inRuleOrder tree = tree.tiers := List.mergeSort_of_pairwise inOrder.1
  rcases Result.bind_eq_ok.mp numbers with ⟨entries, each, equal⟩
  rw [build, unknownIds_eq_nil inOrder.2, sorted]
  dsimp only
  rw [each]
  exact ⟨_, rfl, Result.pure_eq_ok.mp equal⟩

end RuleSet

end UplinkShaper
