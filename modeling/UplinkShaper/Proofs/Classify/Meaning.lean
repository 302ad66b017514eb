import UplinkShaper.Proofs.Allocation.WellFormed
import UplinkShaper.Proofs.Classify.Building
import UplinkShaper.Proofs.Classify.Order

/-!
What match specifications mean for a flow. A specification can be read off without the
rules that come of it: some host or subnet that it lists holds an address of the flow, or
the protocol is the same and the port is in the range. A rule set gives a flow to the
first tier with such a specification, tiers taken by priority and the default tier last.
-/

namespace UplinkShaper

/-- A flow between addresses that can be read. -/
structure Flow.IsAddressed (flow : Flow) : Prop where
  source : ∃ address, Address.read? flow.source = some address
  destination : ∃ address, Address.read? flow.destination = some address

namespace MatchSpec

/-- Whether an address lies in a network, both as text. -/
def isWithin (address item : String) : Bool :=
  match Address.read? address, Network.read? item with
  | some address, some network => network.contains address
  | _, _ => false

/-- The addresses of a flow that a specification looks at: both, if it names no side. -/
def addressesOf (spec : MatchSpec) (flow : Flow) : List String :=
  if spec.hasSide then
    if spec.side = some .source then [flow.source] else [flow.destination]
  else [flow.source, flow.destination]

def portOf (spec : MatchSpec) (flow : Flow) : Option Int :=
  if spec.side = some .destinationPort then flow.destinationPort else flow.sourcePort

def hasPort (spec : MatchSpec) (port : Int) : Bool :=
  spec.portStart.any fun start => start ≤ port ∧ port ≤ spec.portEnd.getD start

def hasProtocol (spec : MatchSpec) (flow : Flow) : Bool :=
  spec.protocol = some (Text.lowercase flow.protocol)

/-- Whether a flow is what a specification looks for. -/
def isMet (spec : MatchSpec) (flow : Flow) : Bool :=
  match spec.kind with
  | .address => spec.listed.any fun item => (spec.addressesOf flow).any (isWithin · item)
  | .protocol => spec.hasProtocol flow
  | _ => spec.hasProtocol flow && (spec.portOf flow).any spec.hasPort

/-- A specification that compares ports but has no range to compare them with. -/
structure LacksRange (spec : MatchSpec) : Prop where
  ports : spec.kind ≠ .address ∧ spec.kind ≠ .protocol
  start : spec.portStart = none

/-- Whether the rule for a specification takes a flow. -/
def accepts (spec : MatchSpec) (flow : Flow) : Bool :=
  (spec.matchesFlow flow).toOption.getD false

/-- What a rule says of a flow, unless it lacks what it has to compare with. -/
def Decides (spec : MatchSpec) (flow : Flow) : Prop :=
  spec.matchesFlow flow = .ok (spec.accepts flow) ∨
    spec.matchesFlow flow = .error .mismatch ∧ spec.LacksRange

theorem accepts_eq {spec : MatchSpec} {flow : Flow} {answer : Bool}
    (result : spec.matchesFlow flow = .ok answer) : spec.accepts flow = answer := by
  rw [accepts, result]
  rfl

theorem decides_of_eq {spec : MatchSpec} {flow : Flow} {answer : Bool}
    (result : spec.matchesFlow flow = .ok answer) : spec.Decides flow :=
  .inl (by rw [result, accepts_eq result])

/-! ## One specification -/

/-- The address of a flow on one side. -/
def addressOn (flow : Flow) (side : MatchSide) : String :=
  if side = .source then flow.source else flow.destination

theorem addressesOf_eq (spec : MatchSpec) (flow : Flow) :
    spec.addressesOf flow = spec.addressSides.map (addressOn flow) := by
  unfold addressesOf hasSide addressSides
  cases given : spec.side with
  | none => simp [addressOn]
  | some side =>
      cases named : side.name.isEmpty with
      | true => simp [named, addressOn]
      | false =>
          simp only [Option.any_some, named, Bool.not_false, if_true, Option.some.injEq,
            Bool.false_eq_true, if_false, List.map_cons, List.map_nil, addressOn]
          split <;> rfl

theorem matchesFlow_ofAddress {flow : Flow} (addressed : flow.IsAddressed) {item : String}
    {network : Network} (found : Network.read? item = some network) (side : MatchSide) :
    (ofAddress (some item) (some side)).matchesFlow flow =
      .ok (isWithin (addressOn flow side) item) := by
  have readable : ∃ address, Address.read? (addressOn flow side) = some address := by
    unfold addressOn
    split
    · exact addressed.source
    · exact addressed.destination
  rcases readable with ⟨address, isAddress⟩
  have looks : (ofAddress (some item) (some side)).matchesFlow flow =
      addressMatches (addressOn flow side) (some item) := by
    by_cases same : side = .source
    · simp [matchesFlow, ofAddress, addressOn, same]
    · simp [matchesFlow, ofAddress, addressOn, same]
  rw [looks, addressMatches, isAddress, Option.bind_some, found, isWithin, isAddress, found]

/-- The rules for an address specification decide on what the specification looks for. -/
theorem any_accepts_expansion {spec : MatchSpec} {flow : Flow} (addressed : flow.IsAddressed)
    (isAddress : spec.kind = .address) (readable : spec.IsReadable) :
    (∀ other ∈ spec.expansion, other.Decides flow) ∧
      spec.expansion.any (·.accepts flow) = spec.isMet flow := by
  have each : ∀ item ∈ spec.listed, ∀ side,
      (ofAddress (some item) (some side)).matchesFlow flow =
        .ok (isWithin (addressOn flow side) item) := by
    intro item member side
    rcases readable isAddress item member with ⟨network, found⟩
    exact matchesFlow_ofAddress addressed found side
  simp only [expansion, isMet, isAddress]
  constructor
  · intro other member
    rcases List.mem_flatMap.mp member with ⟨item, isItem, inSides⟩
    rcases List.mem_map.mp inSides with ⟨side, _, rfl⟩
    exact decides_of_eq (each item isItem side)
  · have items : ∀ item ∈ spec.listed,
        ((spec.addressSides.map fun side => ofAddress (some item) (some side)).any
          (·.accepts flow)) = (spec.addressesOf flow).any (isWithin · item) := by
      intro item member
      rw [addressesOf_eq, List.any_map, List.any_map]
      congr 1
      funext side
      exact accepts_eq (each item member side)
    rw [List.any_flatMap, Bool.eq_iff_iff, List.any_eq_true, List.any_eq_true]
    refine exists_congr fun item => and_congr_right fun member => ?_
    rw [items item member]

theorem matchesFlow_of_ports {spec : MatchSpec} (flow : Flow) (notAddress : spec.kind ≠ .address)
    (notProtocol : spec.kind ≠ .protocol) :
    spec.matchesFlow flow =
      if spec.hasProtocol flow then
        match spec.portOf flow with
        | none => .ok false
        | some port => spec.portMatches port
      else .ok false := by
  unfold matchesFlow hasProtocol portOf
  split
  case h_1 isAddress => exact absurd isAddress notAddress
  case h_2 =>
    by_cases protocol : spec.protocol = some (Text.lowercase flow.protocol)
    · have isProtocol := decide_eq_true protocol
      exact (if_neg (not_not.mpr protocol)).trans
        ((if_neg notProtocol).trans (if_pos isProtocol).symm)
    · simp [protocol]

theorem isMet_of_ports {spec : MatchSpec} (flow : Flow) (notAddress : spec.kind ≠ .address)
    (notProtocol : spec.kind ≠ .protocol) :
    spec.isMet flow = (spec.hasProtocol flow && (spec.portOf flow).any spec.hasPort) := by
  unfold isMet
  split
  · exact absurd ‹_› notAddress
  · exact absurd ‹_› notProtocol
  · rfl

/-- A rule that compares ports decides on what it looks for, or lacks a range. -/
theorem decides_of_ports {spec : MatchSpec} (flow : Flow) (notAddress : spec.kind ≠ .address)
    (notProtocol : spec.kind ≠ .protocol) :
    spec.Decides flow ∧ spec.accepts flow = spec.isMet flow := by
  have result := matchesFlow_of_ports flow notAddress notProtocol
  rw [isMet_of_ports flow notAddress notProtocol]
  cases protocol : spec.hasProtocol flow with
  | false =>
      rw [protocol] at result
      exact ⟨decides_of_eq result, accepts_eq result⟩
  | true =>
      simp only [protocol, if_true] at result
      cases port : spec.portOf flow with
      | none =>
          rw [port] at result
          exact ⟨decides_of_eq result, accepts_eq result⟩
      | some port =>
          simp only [port, portMatches] at result
          cases start : spec.portStart with
          | none =>
              simp only [start] at result
              refine ⟨.inr ⟨result, ⟨notAddress, notProtocol⟩, start⟩, ?_⟩
              rw [accepts, result]
              simp [hasPort, start]
              rfl
          | some first =>
              simp only [start] at result
              refine ⟨decides_of_eq result, ?_⟩
              rw [accepts_eq result]
              simp [hasPort, start]

/-- The rules that come of a specification decide on what the specification looks for. -/
theorem decides_expansion {spec : MatchSpec} {flow : Flow} (addressed : flow.IsAddressed)
    (readable : spec.IsReadable) :
    (∀ other ∈ spec.expansion, other.Decides flow) ∧
      spec.expansion.any (·.accepts flow) = spec.isMet flow := by
  by_cases isAddress : spec.kind = .address
  · exact any_accepts_expansion addressed isAddress readable
  have alone : spec.expansion = [spec] := by
    unfold expansion
    split
    · exact absurd ‹_› isAddress
    · rfl
  simp only [alone, List.mem_singleton, forall_eq, List.any_cons, List.any_nil, Bool.or_false]
  by_cases isProtocol : spec.kind = .protocol
  · have result : spec.matchesFlow flow = .ok (spec.isMet flow) := by
      by_cases same : spec.protocol = some (Text.lowercase flow.protocol)
      · simp [matchesFlow, isMet, hasProtocol, isProtocol, same]
      · simp [matchesFlow, isMet, hasProtocol, isProtocol, same]
    exact ⟨decides_of_eq result, accepts_eq result⟩
  · exact decides_of_ports flow isAddress isProtocol

theorem LacksRange.of_mem_expansion {spec other : MatchSpec} (lacks : other.LacksRange)
    (member : other ∈ spec.expansion) : spec.LacksRange := by
  unfold expansion at member
  split at member
  · rcases List.mem_flatMap.mp member with ⟨item, _, inSides⟩
    rcases List.mem_map.mp inSides with ⟨side, _, rfl⟩
    exact absurd rfl lacks.ports.1
  · exact List.mem_singleton.mp member ▸ lacks

end MatchSpec

namespace RuleSet

/-! ## All rules -/

/-- The first rule that takes a flow decides, unless a rule before it lacks a range. -/
theorem firstMark_cases {flow : Flow} {default : Option Int} {rules : List ClassificationRule}
    (decides : ∀ rule ∈ rules, rule.spec.Decides flow) :
    firstMark flow default rules =
        .ok (((rules.find? (·.spec.accepts flow)).map (·.mark)).or default) ∨
      firstMark flow default rules = .error .mismatch ∧ ∃ rule ∈ rules, rule.spec.LacksRange := by
  induction rules with
  | nil => exact .inl rfl
  | cons rule rest induction =>
      rcases List.forall_mem_cons.mp decides with ⟨here, later⟩
      rw [firstMark]
      rcases here with result | ⟨failed, lacks⟩
      · rw [result, Result.ok_bind]
        cases accepted : rule.spec.accepts flow with
        | true =>
            left
            simp [accepted, pure, Except.pure]
        | false =>
            rcases induction later with found | ⟨failed, other, member, lacks⟩
            · left
              simpa [accepted] using found
            · right
              exact ⟨by simpa using failed, other, List.mem_cons_of_mem _ member, lacks⟩
      · right
        rw [failed]
        exact ⟨rfl, rule, List.mem_cons_self .., lacks⟩

theorem find_rows_tier {flow : Flow} {table : MatchTable} {tier : Tier}
    (met : ∀ spec ∈ matchesOf table tier.id,
      spec.expansion.any (·.accepts flow) = spec.isMet flow) :
    ((rows table tier).find? (·.2.accepts flow)).map (·.1) =
      if (matchesOf table tier.id).any (·.isMet flow) then some tier.id else none := by
  have same : (matchesOf table tier.id).any (·.isMet flow) =
      ((matchesOf table tier.id).flatMap (·.expansion)).any (·.accepts flow) := by
    rw [List.any_flatMap, Bool.eq_iff_iff, List.any_eq_true, List.any_eq_true]
    refine exists_congr fun spec => and_congr_right fun member => ?_
    rw [met spec member]
  rw [same, rows, List.find?_map, Option.map_map, ← List.isSome_find?]
  cases found : ((matchesOf table tier.id).flatMap (·.expansion)).find? (·.accepts flow) with
  | none => simp [Function.comp_def, found]
  | some spec => simp [Function.comp_def, found]

/-- The first row that takes a flow leads to the first tier with a specification for it. -/
theorem find_rows {flow : Flow} {table : MatchTable} {tiers : List Tier}
    (met : ∀ tier ∈ tiers, ∀ spec ∈ matchesOf table tier.id,
      spec.expansion.any (·.accepts flow) = spec.isMet flow) :
    ((tiers.flatMap (rows table)).find? (·.2.accepts flow)).map (·.1) =
      (tiers.find? fun tier => (matchesOf table tier.id).any (·.isMet flow)).map (·.id) := by
  induction tiers with
  | nil => rfl
  | cons tier rest induction =>
      rcases List.forall_mem_cons.mp met with ⟨here, later⟩
      have first := find_rows_tier here
      rw [List.flatMap_cons, List.find?_append, Option.map_or, first, induction later]
      cases any : (matchesOf table tier.id).any (·.isMet flow) with
      | true => simp [any]
      | false => simp [any]

end RuleSet

namespace ClassTree

open RuleSet

/-- The tiers that rules lead to, in the order in which they get traffic: those without
children by priority and place in the tree, and then the default tier. -/
def inTurn (tree : ClassTree) : List Tier :=
  (Priority.inOrder.flatMap fun priority => tree.tiers.filter fun tier =>
    !tree.isInner tier && !tier.isDefault && tier.priority = priority) ++ tree.default?.toList

/-- The tier that gets a flow: the first one with a specification for it. -/
def takerOf (tree : ClassTree) (table : MatchTable) (flow : Flow) : Option Tier :=
  tree.inTurn.find? fun tier => (matchesOf table tier.id).any (·.isMet flow)

theorem targets_eq (tree : ClassTree) :
    tree.targets = Priority.inOrder.flatMap fun priority => tree.tiers.filter fun tier =>
      !tree.isInner tier && !tier.isDefault && tier.priority = priority := by
  simp only [targets, byPriority, List.filter_filter]
  congr 1
  funext priority
  congr 1
  funext tier
  cases tree.isInner tier <;> cases tier.isDefault <;> simp

end ClassTree

namespace RuleSet

/-- With one default tier, an inner one being without specifications, the rows of the
receivers are those of the tiers in turn. -/
theorem Holds.flatMap_rows {tree : ClassTree} {table : MatchTable} {rules : RuleSet}
    (holds : Holds tree table rules) {default : Tier}
    (only : tree.tiers.filter (·.isDefault) = [default]) :
    tree.receivers.flatMap (rows table) = tree.inTurn.flatMap (rows table) := by
  have isDefault : tree.default? = some default := by
    rw [ClassTree.default?, ← List.head?_filter, only]
    rfl
  have member : default ∈ tree.tiers := by
    have inFilter : default ∈ tree.tiers.filter (·.isDefault) := by rw [only]; simp
    exact (List.mem_filter.mp inFilter).1
  have last : (tree.tiers.filter fun tier => tier.isDefault && !tree.isInner tier) =
      [default].filter fun tier => !tree.isInner tier := by
    rw [← only, List.filter_filter]
    simp only [Bool.and_comm]
  rw [ClassTree.receivers, ClassTree.inTurn, ← ClassTree.targets_eq, last, isDefault,
    List.flatMap_append, List.flatMap_append]
  congr 1
  cases inner : tree.isInner default with
  | true =>
      have none := holds.inner default member inner
      simp [inner, rows, none, byPriority]
  | false =>
      simp [inner, byPriority_singleton]

/-- What a rule set says: numbers from one, the specifications of tiers in turn, and for a
flow the first tier that has a specification for it. -/
structure Means (tree : ClassTree) (table : MatchTable) (rules : RuleSet) : Prop where
  numbers : rules.rules.map (·.precedence) =
    (List.range rules.rules.length).map fun index => ((index + 1 : Nat) : Int)
  rows : rules.rules.map (fun rule => (rule.mark, rule.spec)) = tree.inTurn.flatMap (rows table)
  classify : ∀ (flow : Flow) (default : Option Int), flow.IsAddressed →
    rules.classify flow default = .ok (((tree.takerOf table flow).map (·.id)).or default) ∨
      rules.classify flow default = .error .mismatch ∧
        ∃ tier ∈ tree.tiers, tree.isInner tier = false ∧
          ∃ spec ∈ matchesOf table tier.id, spec.LacksRange

theorem Holds.readable_of_mem_inTurn {tree : ClassTree} {table : MatchTable} {rules : RuleSet}
    (holds : Holds tree table rules) {tier : Tier} (member : tier ∈ tree.inTurn) :
    ∀ spec ∈ matchesOf table tier.id, spec.IsReadable := by
  have isTier : tier ∈ tree.tiers := by
    rcases List.mem_append.mp member with inTargets | isDefault
    · rw [← ClassTree.targets_eq] at inTargets
      exact (ClassTree.mem_targets_iff.mp inTargets).1
    · exact List.mem_of_find?_eq_some (Option.mem_toList.mp isDefault)
  cases inner : tree.isInner tier with
  | true => simp [holds.inner tier isTier inner]
  | false => exact holds.readable tier isTier inner

theorem means_of_holds {tree : ClassTree} {table : MatchTable} {rules : RuleSet}
    (holds : Holds tree table rules) {default : Tier}
    (only : tree.tiers.filter (·.isDefault) = [default]) : Means tree table rules := by
  have inTurn : rules.rules.map (fun rule => (rule.mark, rule.spec)) =
      tree.inTurn.flatMap (rows table) := by
    rw [holds.numbers, map_numbered, holds.flatMap_rows only]
  refine ⟨by rw [holds.numbers, map_precedence_numbered], inTurn, fun flow mark addressed => ?_⟩
  have decides : ∀ rule ∈ rules.rules, rule.spec.Decides flow := by
    intro rule member
    rcases holds.exists_spec member with ⟨tier, isTier, leaf, _, spec, isSpec, inside⟩
    have readable := holds.readable tier isTier leaf spec isSpec
    exact (MatchSpec.decides_expansion addressed readable).1 rule.spec inside
  have sorted : rules.rules.mergeSort (fun left right => left.precedence ≤ right.precedence) =
      rules.rules := by
    apply List.mergeSort_of_pairwise
    rw [holds.numbers]
    simpa using numbered_ordered (tree.receivers.map (entryFor table))
  have taker : (rules.rules.find? (·.spec.accepts flow)).map (·.mark) =
      (tree.takerOf table flow).map (·.id) := by
    have met : ∀ tier ∈ tree.inTurn, ∀ spec ∈ matchesOf table tier.id,
        spec.expansion.any (·.accepts flow) = spec.isMet flow := fun tier member spec isSpec =>
      (MatchSpec.decides_expansion addressed
        (holds.readable_of_mem_inTurn member spec isSpec)).2
    have found := find_rows met
    rw [← inTurn, List.find?_map, Option.map_map] at found
    exact found
  rw [classify, sorted, ← taker]
  rcases @firstMark_cases flow mark _ decides with found | ⟨failed, rule, member, lacks⟩
  · exact .inl found
  · rcases holds.exists_spec member with ⟨tier, isTier, leaf, _, spec, isSpec, inside⟩
    exact .inr ⟨failed, tier, isTier, leaf, spec, isSpec, lacks.of_mem_expansion inside⟩

end RuleSet

namespace TreeRequest

open Allocation

theorem filter_isDefault_of_compile {request : TreeRequest} {roundTrip : Number} {tree : ClassTree}
    (compiled : request.compile roundTrip = .ok tree) :
    ∃ default, tree.tiers.filter (·.isDefault) = [default] := by
  rcases compile_eq_ok_iff.mp compiled with ⟨prepared, ready, complete, rfl⟩
  rcases (isLayered_of_prepare ready).default_tier (made_of_makeTiers complete) with
    ⟨default, only, _⟩
  exact ⟨default, only⟩

/-- Every rule set for a tree that is made means what the specifications of its tiers mean. -/
theorem means_of_build {request : TreeRequest} {roundTrip : Number} {tree : ClassTree}
    {table : RuleSet.MatchTable} {rules : RuleSet}
    (compiled : request.compile roundTrip = .ok tree)
    (built : RuleSet.build tree table = .ok rules) : RuleSet.Means tree table rules := by
  rcases filter_isDefault_of_compile compiled with ⟨default, only⟩
  exact RuleSet.means_of_holds (RuleSet.holds_of_build built) only

/-- Specifications for the last tier of a chain and for the default tier. -/
def lastTable : RuleSet.MatchTable := [
  (2, [.ofAddress (some "10.0.0.0/8, 2001:db8::/32") none,
    .ofPorts "tcp" 22 (some 23) .sourcePort]),
  (.whole defaultTierId, [.ofProtocol "udp"])]

theorem exists_means_nested :
    ∃ tree rules, nested.compile 50 = .ok tree ∧ RuleSet.build tree lastTable = .ok rules ∧
      RuleSet.Means tree lastTable rules := by
  have evaluated : ((nested.compile 50).map (RuleSet.isBuildable · lastTable)).toOption =
      some true := by
    decide +kernel
  cases compiled : nested.compile 50 with
  | error failure =>
      rw [compiled] at evaluated
      cases evaluated
  | ok tree =>
      rw [compiled] at evaluated
      rcases RuleSet.exists_build_of_isBuildable (Option.some.inj evaluated) with ⟨rules, built⟩
      exact ⟨tree, rules, rfl, built, means_of_build compiled built⟩

end TreeRequest

end UplinkShaper
