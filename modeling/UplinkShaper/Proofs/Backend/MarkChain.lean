import UplinkShaper.Plan
import UplinkShaper.Proofs.Allocation.WellFormed
import UplinkShaper.Proofs.Backend.Netfilter
import UplinkShaper.Session.Compiled

/-!
The chain that a plan fills, against the classification it stands for. Classification
takes the first rule that matches a flow, the chain leaves the mark of the last one. So
the two agree on a flow exactly if its first and its last match lead to the same tier.
-/

namespace UplinkShaper

/-- The packet of a flow between addresses of version four. -/
def Flow.packet? (flow : Flow) : Option Netfilter.Packet :=
  match Address.read? flow.source, Address.read? flow.destination with
  | some ⟨.four, source⟩, some ⟨.four, destination⟩ =>
      some {
        protocol := Text.lowercase flow.protocol
        source := source
        destination := destination
        sourcePort := flow.sourcePort
        destinationPort := flow.destinationPort }
  | _, _ => none

/-- The rule that a step enters into the chain. -/
def PlanStep.rule? : PlanStep → Option ClassificationRule
  | .mark rule => some rule
  | _ => none

/-- The rules that a plan enters into the chain. -/
def Plan.markedRules (plan : Plan) : List ClassificationRule :=
  plan.steps.filterMap PlanStep.rule?

/-- The command that enters a rule. -/
def Marking.entering (marking : Marking) (rule : ClassificationRule) :
    Except Failure (List String) := do
  return marking.mark (← ruleWords rule) rule.mark

/-- Whether a rule matches a flow. -/
def ClassificationRule.matchesFlow (flow : Flow) (rule : ClassificationRule) : Bool :=
  match rule.spec.matchesFlow flow with
  | .ok matched => matched
  | .error _ => false

/-- The rules that match a flow, in their order. -/
def RuleSet.matching (rules : RuleSet) (flow : Flow) : List ClassificationRule :=
  rules.rules.filter (·.matchesFlow flow)

namespace Netfilter

/-- The rules of a chain that a plan has filled. -/
def filled? (marking : Marking) (plan : Plan) : Option (List Rule) :=
  match plan.markedRules.mapM marking.entering with
  | .ok commands => commands.mapM (appended? marking.chain)
  | .error _ => none

/-! ## One rule -/

theorem packet?_addresses {flow : Flow} {packet : Packet} (shown : flow.packet? = some packet) :
    Address.read? flow.source = some ⟨.four, packet.source⟩ ∧
      Address.read? flow.destination = some ⟨.four, packet.destination⟩ ∧
        packet.protocol = Text.lowercase flow.protocol ∧
          packet.sourcePort = flow.sourcePort ∧ packet.destinationPort = flow.destinationPort := by
  simp only [Flow.packet?] at shown
  split at shown
  case h_1 source destination sourceRead destinationRead =>
    cases shown
    exact ⟨sourceRead, destinationRead, rfl, rfl, rfl⟩
  case h_2 => cases shown

/-- The subnet of a text is its network of version four. -/
theorem read?_of_subnet? {text : String} {addresses : Subnet}
    (read : subnet? text = some addresses) :
    Network.read? text = some (Network.around ⟨.four, addresses.base⟩ addresses.length) := by
  simp only [subnet?] at read
  split at read
  case h_1 host equal =>
    rcases Option.map_eq_some_iff.mp read with ⟨base, quad, rfl⟩
    rw [Network.read?, equal]
    simp [Address.ofChars?, quad, Network.ofParts?, AddressFamily.width]
  case h_2 host shown equal =>
    rcases Option.bind_eq_some_iff.mp read with ⟨base, quad, rest⟩
    rcases Option.bind_eq_some_iff.mp rest with ⟨length, isLength, equalSubnet⟩
    cases equalSubnet
    rw [Network.read?, equal]
    simp [Address.ofChars?, quad, Network.ofParts?, AddressFamily.width, isLength]
  case h_3 => cases read

theorem contains_around (base length value : Nat) :
    (Network.around ⟨.four, base⟩ length).contains ⟨.four, value⟩ =
      Subnet.covers ⟨base, length⟩ value := by
  simp only [Network.contains, Network.around, Network.free, AddressFamily.width,
    Nat.shiftLeft_shiftRight, Subnet.covers]
  rfl

theorem covers_toNat {first last : Int} {port : Option Int} (firstNonneg : 0 ≤ first)
    (lastNonneg : 0 ≤ last) :
    covers first.toNat last.toNat port =
      port.any fun port => decide (first ≤ port ∧ port ≤ last) := by
  simp only [covers, Int.toNat_of_nonneg firstNonneg, Int.toNat_of_nonneg lastNonneg,
    Bool.decide_and]

theorem matchesFlow_ofPorts (flow : Flow) (name : String) (start : Int) (last : Option Int)
    (side : MatchSide) :
    (MatchSpec.ofPorts name start last side).matchesFlow flow =
      .ok (name == Text.lowercase flow.protocol &&
        (if side = .destinationPort then flow.destinationPort else flow.sourcePort).any
          fun port => decide (start ≤ port ∧ port ≤ last.getD start)) := by
  by_cases same : name = Text.lowercase flow.protocol
  · simp only [MatchSpec.matchesFlow, MatchSpec.ofPorts, same, ne_eq, not_true_eq_false, if_false,
      beq_self_eq_true, Bool.true_and, Option.some.injEq, reduceCtorEq]
    cases (if side = .destinationPort then flow.destinationPort else flow.sourcePort) with
    | none => rfl
    | some port => rfl
  · simp [MatchSpec.matchesFlow, MatchSpec.ofPorts, same]

theorem matchesFlow_ofProtocol (flow : Flow) (name : String) :
    (MatchSpec.ofProtocol name).matchesFlow flow =
      .ok (name == Text.lowercase flow.protocol) := by
  by_cases same : name = Text.lowercase flow.protocol
  · simp [MatchSpec.matchesFlow, MatchSpec.ofProtocol, same]
  · simp [MatchSpec.matchesFlow, MatchSpec.ofProtocol, same]

/-- A rule, read off the words that enter it. -/
structure Reads (flow : Flow) (packet : Packet) (rule : ClassificationRule) (read : Rule) :
    Prop where
  target : read.target = .mark rule.mark.toNat
  holds : rule.spec.matchesFlow flow = .ok (read.holds packet)

/-- The words of a rule are read as one that holds of the same packets. -/
def CanBeRead (flow : Flow) (packet : Packet) (rule : ClassificationRule) : Prop :=
  ∃ words read, Marking.ruleWords rule = .ok words ∧
    rule? (words ++ ["-j", "MARK", "--set-mark", toString rule.mark]) = some read ∧
      Reads flow packet rule read

section Forms

variable {flow : Flow} {packet : Packet} {mark precedence : Int}

theorem canBeRead_ofPorts {name : String} {start : Int} {last : Option Int} {side : MatchSide}
    (markNonneg : 0 ≤ mark) (startIsPort : PortRange.isPort start = true)
    (lastIsPort : ∀ port ∈ last, PortRange.isPort port = true ∧ start ≤ port)
    (sides : side = .destinationPort ∨ side = .sourcePort)
    (shown : flow.packet? = some packet) :
    CanBeRead flow packet ⟨.ofPorts name start last side, mark, precedence⟩ := by
  rcases packet?_addresses shown with ⟨_, _, protocol, sourcePort, destinationPort⟩
  have isMark := rule?_mark (number?_toString markNonneg)
  have startNonneg := isPort_nonneg startIsPort
  have lastNonneg : ∀ port ∈ last, 0 ≤ port := fun port isLast =>
    isPort_nonneg (lastIsPort port isLast).1
  have boundNonneg : 0 ≤ last.getD start := by
    cases last with
    | none => exact startNonneg
    | some port => exact lastNonneg port rfl
  have covered := fun port => @covers_toNat start (last.getD start) port startNonneg boundNonneg
  rcases @ports?_portRange name start last side startNonneg lastNonneg with
    ⟨text, isText, range⟩
  rcases sides with rfl | rfl
  · have portTest : test? "--dport" text =
        some (.destinationPort start.toNat (last.getD start).toNat) := by
      rw [test?, range]
      rfl
    refine ⟨["-p", name, "--dport", text], _, ruleWords_ofPorts isText,
      rule?_cons (by decide) rfl (rule?_cons (by decide) portTest isMark), rfl, ?_⟩
    rw [matchesFlow_ofPorts]
    simp only [Rule.holds, List.all_cons, List.all_nil, Bool.and_true, Test.holds, protocol,
      destinationPort, covered, if_true]
  · have portTest : test? "--sport" text =
        some (.sourcePort start.toNat (last.getD start).toNat) := by
      rw [test?, range]
      rfl
    refine ⟨["-p", name, "--sport", text], _, ruleWords_ofPorts isText,
      rule?_cons (by decide) rfl (rule?_cons (by decide) portTest isMark), rfl, ?_⟩
    rw [matchesFlow_ofPorts]
    simp only [Rule.holds, List.all_cons, List.all_nil, Bool.and_true, Test.holds, protocol,
      sourcePort, covered, reduceCtorEq, if_false]

theorem canBeRead_ofProtocol {name : String} (markNonneg : 0 ≤ mark)
    (shown : flow.packet? = some packet) :
    CanBeRead flow packet ⟨.ofProtocol name, mark, precedence⟩ := by
  have protocol := (packet?_addresses shown).2.2.1
  have isMark := rule?_mark (number?_toString markNonneg)
  refine ⟨["-p", name], _, rfl, rule?_cons (by decide) rfl isMark, rfl, ?_⟩
  rw [matchesFlow_ofProtocol]
  simp only [Rule.holds, List.all_cons, List.all_nil, Bool.and_true, Test.holds, protocol]

theorem canBeRead_ofAddress {text : String} {side : MatchSide} (markNonneg : 0 ≤ mark)
    (four : (subnet? text).isSome = true) (sides : side = .source ∨ side = .destination)
    (shown : flow.packet? = some packet) :
    CanBeRead flow packet ⟨.ofAddress text side, mark, precedence⟩ := by
  rcases packet?_addresses shown with ⟨source, destination, _⟩
  have isMark := rule?_mark (number?_toString markNonneg)
  rcases Option.isSome_iff_exists.mp four with ⟨addresses, subnet⟩
  have isNetwork := read?_of_subnet? subnet
  rcases sides with rfl | rfl
  · have sourceTest : test? "-s" text = some (.source addresses) := by
      rw [test?, subnet]
      rfl
    refine ⟨["-s", text], _, rfl, rule?_cons (by decide) sourceTest isMark, rfl, ?_⟩
    simp [MatchSpec.matchesFlow, MatchSpec.ofAddress, MatchSpec.addressMatches, source,
      isNetwork, contains_around, Rule.holds, Test.holds]
  · have destinationTest : test? "-d" text = some (.destination addresses) := by
      rw [test?, subnet]
      rfl
    refine ⟨["-d", text], _, rfl, rule?_cons (by decide) destinationTest isMark, rfl, ?_⟩
    simp [MatchSpec.matchesFlow, MatchSpec.ofAddress, MatchSpec.addressMatches, destination,
      isNetwork, contains_around, Rule.holds, Test.holds]

end Forms

theorem canBeRead_of_isExpanded {flow : Flow} {packet : Packet} {rule : ClassificationRule}
    (expanded : rule.spec.IsExpanded)
    (four : ∀ text ∈ rule.spec.address, (subnet? text).isSome = true) (markNonneg : 0 ≤ rule.mark)
    (shown : flow.packet? = some packet) : CanBeRead flow packet rule := by
  rcases rule with ⟨spec, mark, precedence⟩
  cases expanded with
  | ports _ startIsPort lastIsPort sides =>
      exact canBeRead_ofPorts markNonneg startIsPort lastIsPort sides shown
  | protocol _ => exact canBeRead_ofProtocol markNonneg shown
  | @address text _ _ _ sides =>
      exact canBeRead_ofAddress markNonneg (four text rfl) sides shown

/-! ## Whole chains -/

theorem markedRules_build (tree : ClassTree) (rules : RuleSet) (kind : String) (isLogged : Bool) :
    (Plan.build tree rules kind isLogged).markedRules = rules.rules := by
  have classes : (Plan.classSteps tree).filterMap PlanStep.rule? = [] := by
    simp [Plan.classSteps, PlanStep.rule?]
  have queues : (Plan.queueSteps tree kind).filterMap PlanStep.rule? = [] := by
    simp only [Plan.queueSteps]
    split
    · rfl
    · simp [PlanStep.rule?]
  have marks : (rules.rules.map PlanStep.mark).filterMap PlanStep.rule? = rules.rules := by
    rw [List.filterMap_map]
    exact List.filterMap_some
  have logs : (if isLogged then [PlanStep.logMarks] else []).filterMap PlanStep.rule? = [] := by
    cases isLogged with
    | true => rfl
    | false => rfl
  have filters : (rules.filters.map PlanStep.markFilter).filterMap PlanStep.rule? = [] := by
    simp [PlanStep.rule?]
  simp only [Plan.markedRules, Plan.build, List.filterMap_append, classes, queues, marks, logs,
    filters, List.append_nil]
  rfl

theorem exists_filled {marking : Marking} {flow : Flow} {packet : Packet}
    {rules : List ClassificationRule} (expanded : ∀ rule ∈ rules, rule.spec.IsExpanded)
    (four : ∀ rule ∈ rules, ∀ text ∈ rule.spec.address, (subnet? text).isSome = true)
    (marks : ∀ rule ∈ rules, 0 ≤ rule.mark) (shown : flow.packet? = some packet) :
    ∃ commands chain, rules.mapM marking.entering = .ok commands ∧
      commands.mapM (appended? marking.chain) = some chain ∧
        List.Forall₂ (Reads flow packet) rules chain := by
  induction rules with
  | nil => exact ⟨[], [], rfl, rfl, .nil⟩
  | cons rule rest induction =>
      rcases List.forall_mem_cons.mp expanded with ⟨ruleExpanded, restExpanded⟩
      rcases List.forall_mem_cons.mp four with ⟨ruleFour, restFour⟩
      rcases List.forall_mem_cons.mp marks with ⟨ruleMark, restMarks⟩
      rcases canBeRead_of_isExpanded ruleExpanded ruleFour ruleMark shown with
        ⟨words, read, isWords, isRead, reads⟩
      rcases induction restExpanded restFour restMarks with
        ⟨commands, chain, entered, appended, all⟩
      have command : marking.entering rule = .ok (marking.mark words rule.mark) := by
        rw [Marking.entering, isWords]
        rfl
      have appends : appended? marking.chain (marking.mark words rule.mark) = some read := by
        rw [← isRead]
        simp [Marking.mark, Marking.inTable, appended?]
      refine ⟨marking.mark words rule.mark :: commands, read :: chain, ?_, ?_, .cons reads all⟩
      · rw [List.mapM_cons, command, entered]
        rfl
      · rw [List.mapM_cons, appends, appended]
        rfl

/-- The chain leaves the mark of the last rule that matches. -/
theorem traverse_eq {flow : Flow} {packet : Packet} {rules : List ClassificationRule}
    {chain : List Rule} (all : List.Forall₂ (Reads flow packet) rules chain) (mark : Option Nat) :
    traverse packet chain mark =
      (((rules.filter (·.matchesFlow flow)).getLast?.map (·.mark.toNat)).or mark) := by
  induction all generalizing mark with
  | nil => rfl
  | @cons rule read rules chain reads _ induction =>
      have matched : rule.matchesFlow flow = read.holds packet := by
        rw [ClassificationRule.matchesFlow, reads.holds]
      rw [traverse, induction, List.filter_cons, matched, reads.target]
      cases read.holds packet with
      | false => rfl
      | true =>
          rw [if_pos rfl, if_pos rfl, List.getLast?_cons]
          cases (rules.filter (·.matchesFlow flow)).getLast? with
          | none => rfl
          | some last => rfl

end Netfilter

/-- Classification finds the first rule that matches. -/
theorem RuleSet.firstMark_eq {flow : Flow} {packet : Netfilter.Packet}
    {rules : List ClassificationRule} {chain : List Netfilter.Rule}
    (all : List.Forall₂ (Netfilter.Reads flow packet) rules chain) :
    firstMark flow none rules =
      .ok ((rules.filter (·.matchesFlow flow)).head?.map (·.mark)) := by
  induction all with
  | nil => rfl
  | @cons rule read rules chain reads _ induction =>
      have matched : rule.matchesFlow flow = read.holds packet := by
        rw [ClassificationRule.matchesFlow, reads.holds]
      rw [firstMark, reads.holds, Result.ok_bind, List.filter_cons, matched]
      cases read.holds packet with
      | false => exact induction
      | true => rfl

namespace Settings

open Netfilter

theorem exists_chain {locations : Locations} {document : Value} {source : Option Path}
    {settings : Settings} {roundTrip : Number} {compiled : Compiled} {flow : Flow}
    {packet : Packet} (accepted : ofDocument locations document source = .ok settings)
    (compiles : Compiled.ofSettings settings roundTrip = .ok compiled)
    (four : ∀ rule ∈ compiled.rules.rules, ∀ text ∈ rule.spec.address,
      (subnet? text).isSome = true) (shown : flow.packet? = some packet) :
    ∃ chain, filled? settings.marking compiled.plan = some chain ∧
      compiled.rules.classify flow none =
        .ok ((compiled.rules.matching flow).head?.map (·.mark)) ∧
      (traverse packet chain none).map Int.ofNat =
        (compiled.rules.matching flow).getLast?.map (·.mark) := by
  rcases Result.bind_eq_ok.mp compiles with ⟨tree, made, rest⟩
  rcases Result.bind_eq_ok.mp rest with ⟨rules, built, equal⟩
  cases Result.pure_eq_ok.mp equal
  dsimp only at four ⊢
  have isBuilt := RuleSet.isBuilt_of_build (tableIsWritten_of_ofDocument accepted) built
  have marks : ∀ rule ∈ rules.rules, 0 ≤ rule.mark := by
    intro rule member
    rcases isBuilt.marks rule member with ⟨tier, isTier, isMark⟩
    have proper := TreeRequest.isTierId_of_compile made tier isTier
    rw [isMark]
    exact le_trans (by decide) proper.1
  rcases @exists_filled settings.marking flow packet rules.rules isBuilt.expanded four marks shown
    with ⟨commands, chain, entered, appended, all⟩
  refine ⟨chain, ?_, ?_, ?_⟩
  · rw [filled?, markedRules_build, entered]
    exact appended
  · rw [RuleSet.classify, List.mergeSort_of_pairwise (by simpa using isBuilt.ordered)]
    exact RuleSet.firstMark_eq all
  · rw [traverse_eq all, Option.or_none, Option.map_map]
    apply Option.map_congr
    intro rule isLast
    have member := List.mem_of_getLast? isLast
    exact Int.toNat_of_nonneg (marks rule (List.mem_filter.mp member).1)

/-- For accepted settings, the chain of their plan gives a packet the mark of the last rule
that matches its flow, and classification the mark of the first one. So they agree exactly if
both rules lead to the same tier. -/
theorem classify_eq_traverse_iff {locations : Locations} {document : Value} {source : Option Path}
    {settings : Settings} {roundTrip : Number} {compiled : Compiled} {flow : Flow}
    {packet : Packet} (accepted : ofDocument locations document source = .ok settings)
    (compiles : Compiled.ofSettings settings roundTrip = .ok compiled)
    (four : ∀ rule ∈ compiled.rules.rules, ∀ text ∈ rule.spec.address,
      (subnet? text).isSome = true) (shown : flow.packet? = some packet) :
    ∃ chain mark, filled? settings.marking compiled.plan = some chain ∧
      compiled.rules.classify flow none = .ok mark ∧
        ((traverse packet chain none).map Int.ofNat = mark ↔
          (compiled.rules.matching flow).getLast?.map (·.mark) =
            (compiled.rules.matching flow).head?.map (·.mark)) := by
  rcases exists_chain accepted compiles four shown with ⟨chain, filled, classified, left⟩
  exact ⟨chain, _, filled, classified, by rw [left]⟩

/-! ## The built-in settings -/

/-- The marks of the rules that match a flow, where tiers are in order and addresses are of
version four. -/
def marksOf (document : Value) (flow : Flow) : Except Failure (Option (List Int)) := do
  let settings ← ofDocument .system document none
  let tree ← settings.treeRequest.compile settings.roundTrip
  let rules ← RuleSet.rulesInOrder tree settings.table
  return if RuleSet.IsInOrder tree settings.table ∧
      ∀ rule ∈ rules, ∀ text ∈ rule.spec.address, (subnet? text).isSome = true then
    some ((rules.filter (·.matchesFlow flow)).map (·.mark))
  else none

theorem exists_of_marksOf {document : Value} {flow : Flow} {marks : List Int}
    (evaluated : (marksOf document flow).toOption = some (some marks)) :
    ∃ settings compiled, ofDocument .system document none = .ok settings ∧
      Compiled.ofSettings settings settings.roundTrip = .ok compiled ∧
        (∀ rule ∈ compiled.rules.rules, ∀ text ∈ rule.spec.address,
          (subnet? text).isSome = true) ∧
        (compiled.rules.matching flow).map (·.mark) = marks := by
  have result : marksOf document flow = .ok (some marks) := Result.toOption_eq_some.mp evaluated
  rcases Result.bind_eq_ok.mp result with ⟨settings, accepted, result⟩
  rcases Result.bind_eq_ok.mp result with ⟨tree, made, result⟩
  rcases Result.bind_eq_ok.mp result with ⟨rules, numbers, result⟩
  have equal := Result.pure_eq_ok.mp result
  split at equal
  case isFalse => cases equal
  case isTrue holds =>
    rcases holds with ⟨inOrder, four⟩
    rcases RuleSet.exists_build_of_isInOrder inOrder numbers with ⟨built, isBuilt, sameRules⟩
    let plan := Plan.build tree built settings.leafQueue settings.logMarks
    refine ⟨settings, { tree := tree, rules := built, plan := plan }, accepted, ?_, ?_, ?_⟩
    · rw [Compiled.ofSettings, made, Result.ok_bind, isBuilt, Result.ok_bind]
      rfl
    · rw [sameRules]
      exact four
    · rw [RuleSet.matching, sameRules]
      exact Option.some.inj equal

/-- A login from one of the hosts that the built-in settings name. -/
def login : Flow where
  protocol := "tcp"
  source := "192.168.99.3"
  destination := "192.0.2.1"
  sourcePort := none
  destinationPort := some 22

/-- Under the built-in settings, a login is classified as interactive, but the chain leaves
the mark of the host that it comes from. -/
theorem classify_ne_traverse_of_builtIn :
    ∃ settings compiled chain packet, ofDocument .system (.mapping []) none = .ok settings ∧
      Compiled.ofSettings settings settings.roundTrip = .ok compiled ∧
        (∀ rule ∈ compiled.rules.rules, ∀ text ∈ rule.spec.address,
          (subnet? text).isSome = true) ∧
        login.packet? = some packet ∧ filled? settings.marking compiled.plan = some chain ∧
          compiled.rules.classify login none = .ok (some 10) ∧
            (traverse packet chain none).map Int.ofNat = some 100 := by
  have evaluated : (marksOf (.mapping []) login).toOption = some (some [10, 100]) := by
    decide +kernel
  rcases exists_of_marksOf evaluated with ⟨settings, compiled, accepted, compiles, four, marks⟩
  have shown : login.packet? = some {
      protocol := "tcp", source := 3232260867, destination := 3221225985
      sourcePort := none, destinationPort := some 22 } := by
    rfl
  rcases exists_chain accepted compiles four shown with ⟨chain, filled, classified, left⟩
  refine ⟨settings, compiled, chain, _, accepted, compiles, four, shown, filled, ?_, ?_⟩
  · rw [classified, ← List.head?_map, marks]
    rfl
  · rw [left, ← List.getLast?_map, marks]
    rfl

/-- An echo request between hosts that no rule names. -/
def echo : Flow where
  protocol := "icmp"
  source := "192.0.2.7"
  destination := "192.0.2.1"
  sourcePort := none
  destinationPort := none

theorem classify_eq_traverse_of_echo :
    ∃ settings compiled packet chain mark,
      ofDocument .system (.mapping []) none = .ok settings ∧
      Compiled.ofSettings settings settings.roundTrip = .ok compiled ∧
        (∀ rule ∈ compiled.rules.rules, ∀ text ∈ rule.spec.address,
          (subnet? text).isSome = true) ∧
        echo.packet? = some packet ∧ filled? settings.marking compiled.plan = some chain ∧
          compiled.rules.classify echo none = .ok mark ∧
            (traverse packet chain none).map Int.ofNat = mark := by
  have evaluated : (marksOf (.mapping []) echo).toOption = some (some [10]) := by
    decide +kernel
  rcases exists_of_marksOf evaluated with ⟨settings, compiled, accepted, compiles, four, marks⟩
  have shown : echo.packet? = some {
      protocol := "icmp", source := 3221225991, destination := 3221225985
      sourcePort := none, destinationPort := none } := by
    rfl
  rcases classify_eq_traverse_iff accepted compiles four shown with
    ⟨chain, mark, filled, classified, agree⟩
  refine ⟨settings, compiled, _, chain, mark, accepted, compiles, four, shown, filled,
    classified, agree.mpr ?_⟩
  rw [← List.getLast?_map, ← List.head?_map, marks]
  rfl

end Settings

end UplinkShaper
