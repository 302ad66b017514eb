import UplinkShaper.Proofs.Backend.Masks
import UplinkShaper.Proofs.Classify.Declaration
import UplinkShaper.Proofs.Classify.Meaning

/-!
The rules of accepted settings, as the packet filter reads them. Rules for ports and protocols are
understood. A rule for an address is understood exactly if its text is an address of version four
whose mask, if it has one, sets leading bits: other texts are accepted too, and the packet filter
either cannot read them or looks for other addresses.
-/

namespace UplinkShaper

namespace Netfilter

/-! ## Rules for addresses -/

theorem isFilterable_iff {text : String} :
    IsFilterable text ↔ ((masked? text).any fun addresses =>
      (Network.lengthOfMask? addresses.mask).isSome) = true := by
  rw [Option.any_eq_true]
  constructor
  · rintro ⟨addresses, length, masked, inRange, isLeading⟩
    refine ⟨addresses, masked, ?_⟩
    cases found : Network.lengthOfMask? addresses.mask with
    | some => rfl
    | none => exact absurd isLeading (lengthOfMask?_eq_none found length inRange)
  · rintro ⟨addresses, masked, isSome⟩
    rcases Option.isSome_iff_exists.mp isSome with ⟨length, found⟩
    rcases lengthOfMask?_eq_some found with ⟨inRange, isLeading⟩
    exact ⟨addresses, length, masked, inRange, isLeading⟩

instance (text : String) : Decidable (IsFilterable text) :=
  decidable_of_iff' _ isFilterable_iff

def Packet.addressOn (packet : Packet) (side : MatchSide) : Nat :=
  if side = .source then packet.source else packet.destination

def Criterion.onSide (side : MatchSide) (addresses : Masked) : Criterion :=
  if side = .source then .source addresses else .destination addresses

theorem holds_onSide (packet : Packet) (side : MatchSide) (addresses : Masked) :
    (Criterion.onSide side addresses).holds packet =
      addresses.covers (packet.addressOn side) := by
  unfold Criterion.onSide Packet.addressOn
  split
  · rfl
  · rfl

/-- A packet between addresses of version four has the flows between their texts. -/
theorem packet?_quadText {address : Nat} (small : address < 2 ^ 32) :
    ∃ flow packet, Flow.packet? flow = some packet ∧
      ∀ side, packet.addressOn side = address := by
  let shown := String.ofList (Address.quadText address)
  refine ⟨⟨"tcp", shown, shown, none, none⟩, ⟨Text.lowercase "tcp", address, address, none, none⟩,
    ?_, fun side => ?_⟩
  · simp only [Flow.packet?, shown, Address.read?_quadText small]
  · exact ite_self address

theorem addressOn_lt {flow : Flow} {packet : Packet} (shown : flow.packet? = some packet)
    (side : MatchSide) : packet.addressOn side < 2 ^ 32 := by
  rcases packet?_addresses shown with ⟨source, destination, _⟩
  unfold Packet.addressOn
  split
  · exact Address.read?_lt source
  · exact Address.read?_lt destination

theorem matchesFlow_ofAddress {flow : Flow} {packet : Packet} (shown : flow.packet? = some packet)
    {text : String} {base length : Nat}
    (found : Network.read? text = some (Network.around ⟨.four, base⟩ length)) (side : MatchSide) :
    (MatchSpec.ofAddress (some text) (some side)).matchesFlow flow =
      .ok (Subnet.covers ⟨base, length⟩ (packet.addressOn side)) := by
  rcases packet?_addresses shown with ⟨source, destination, _⟩
  have onSide : Address.read? (MatchSpec.addressOn flow side) =
      some ⟨.four, packet.addressOn side⟩ := by
    unfold MatchSpec.addressOn Packet.addressOn
    split
    · exact source
    · exact destination
  rw [MatchSpec.matchesFlow_ofAddress ⟨⟨_, source⟩, ⟨_, destination⟩⟩ found, MatchSpec.isWithin,
    onSide, found]
  dsimp only
  rw [contains_around]

section Rules

variable {text : String} {side : MatchSide} {mark precedence : Int}

theorem ruleWords_ofAddress :
    Marking.ruleWords ⟨.ofAddress (some text) (some side), mark, precedence⟩ =
      .ok [if side = .source then "-s" else "-d", text] := by
  have words : Words.matching (.ofAddress (some text) (some side)) =
      [some (if some side = some .source then "-s" else "-d"), some text] := rfl
  rw [Marking.ruleWords, words]
  simp only [Option.some.injEq]
  rfl

theorem criteria?_address :
    criteria? [if side = .source then "-s" else "-d", text] =
      (masked? text).map fun addresses => [Criterion.onSide side addresses] := by
  have criterion : criterion? (if side = .source then "-s" else "-d") text =
      (masked? text).map (Criterion.onSide side) := by
    unfold Criterion.onSide
    split
    · rfl
    · rfl
  rw [criteria?, criterion, criteria?]
  cases masked? text with
  | none => rfl
  | some addresses => rfl

/-- A rule for an address is understood exactly if the mask of the address leads. -/
theorem isUnderstood_ofAddress_iff {network : Network}
    (found : Network.read? text = some network) :
    IsUnderstood (fun flow packet => flow.packet? = some packet)
      ⟨.ofAddress (some text) (some side), mark, precedence⟩ ↔ IsFilterable text := by
  constructor
  · rintro ⟨words, criteria, isWords, isRead, agree⟩
    rw [ruleWords_ofAddress] at isWords
    cases isWords
    rw [criteria?_address] at isRead
    rcases Option.map_eq_some_iff.mp isRead with ⟨addresses, masked, rfl⟩
    rcases read?_of_masked? masked with ⟨baseSmall, leads | inverted | absent⟩
    · rcases leads with ⟨length, inRange, isLeading, _⟩
      exact ⟨addresses, length, masked, inRange, isLeading⟩
    · -- Read with its mask inverted: the two readings differ on some address.
      rcases inverted with ⟨length, inRange, isInverted, maskSmall, notLeading, isNetwork⟩
      rcases exists_apart baseSmall inRange maskSmall isInverted notLeading with
        ⟨address, small, covers, doesNot⟩
      rcases packet?_quadText small with ⟨flow, packet, shown, onSide⟩
      have same := agree flow packet shown
      rw [matchesFlow_ofAddress shown isNetwork, onSide, covers, List.all_cons, List.all_nil,
        holds_onSide, onSide, doesNot] at same
      cases same
    · rw [found] at absent
      cases absent
  · rintro ⟨addresses, length, masked, inRange, isLeading⟩
    refine ⟨_, _, ruleWords_ofAddress, by rw [criteria?_address, masked]; rfl, ?_⟩
    intro flow packet shown
    rcases read?_of_masked? masked with ⟨baseSmall, leads | inverted | absent⟩
    · rcases leads with ⟨other, otherInRange, isOther, isNetwork⟩
      rw [matchesFlow_ofAddress shown isNetwork, List.all_cons, List.all_nil, Bool.and_true,
        holds_onSide, ← covers_leadingOnes baseSmall (addressOn_lt shown side) otherInRange,
        ← isOther]
    · rcases inverted with ⟨_, _, _, _, notLeading, _⟩
      exact absurd isLeading (notLeading length inRange)
    · rw [found] at absent
      cases absent

end Rules

/-! ## Rules of every form -/

/-- The names of protocols that entries may use are ones that the packet filter knows. -/
theorem isProtocolName_of_mem {name : String} (member : name ∈ Configuration.protocols) :
    IsProtocolName name := by
  have lower : ∀ name ∈ Configuration.protocols, Text.lowercase name = name := by decide +kernel
  have named : ∀ name ∈ Configuration.protocols,
      name ≠ "" ∧ name ≠ "all" ∧ number? name.toList = none := by
    decide
  rcases named name member with ⟨nonempty, single, notNumber⟩
  exact ⟨lower name member, nonempty, single, notNumber⟩

theorem isUnderstood_iff_of_isExpanded {rule : ClassificationRule}
    (expanded : rule.spec.IsExpanded) :
    IsUnderstood (fun flow packet => flow.packet? = some packet) rule ↔
      ∀ text ∈ rule.spec.address, IsFilterable text := by
  rcases rule with ⟨spec, mark, precedence⟩
  cases expanded with
  | @ports name start last side hasPorts startIsPort lastIsPort sides =>
      have listed : MatchSpec.portProtocols ⊆ Configuration.protocols := by decide
      have isName := isProtocolName_of_mem (listed hasPorts)
      have understood := @isUnderstood_ofPorts name mark precedence start last side isName
        (isPort_nonneg startIsPort) (fun port isLast => isPort_nonneg (lastIsPort port isLast).1)
        sides
      exact iff_of_true (understood.mono fun _ _ => isAlike_of_packet?) fun _ impossible =>
        nomatch impossible
  | @protocol name named =>
      have understood := @isUnderstood_ofProtocol name mark precedence (isProtocolName_of_mem named)
      exact iff_of_true (understood.mono fun _ _ => isAlike_of_packet?) fun _ impossible =>
        nomatch impossible
  | @address text network side found _ =>
      refine (isUnderstood_ofAddress_iff found).trans ?_
      exact ⟨fun filterable _ isText => Option.some.inj isText ▸ filterable,
        fun all => all text rfl⟩

end Netfilter

namespace Settings

open Netfilter

theorem isExpanded_of_markedRules {locations : Locations} {document : Value}
    {source : Option Path} {settings : Settings} {roundTrip : Number} {compiled : Compiled}
    (accepted : ofDocument locations document source = .ok settings)
    (compiles : Compiled.ofSettings settings roundTrip = .ok compiled) :
    ∀ rule ∈ compiled.plan.markedRules, rule.spec.IsExpanded := by
  rcases Compiled.ofSettings_eq_ok_iff.mp compiles with ⟨_, built, isPlan⟩
  have isBuilt := RuleSet.isBuilt_of_build (tableIsWritten_of_ofDocument accepted) built
  rw [isPlan, markedRules_build]
  exact isBuilt.expanded

/-- For accepted settings, the packet filter understands the rules that a plan enters into the
chain, except those for addresses that it cannot read or whose mask does not set leading bits. -/
theorem isUnderstood_iff {locations : Locations} {document : Value} {source : Option Path}
    {settings : Settings} {roundTrip : Number} {compiled : Compiled}
    (accepted : ofDocument locations document source = .ok settings)
    (compiles : Compiled.ofSettings settings roundTrip = .ok compiled) :
    ∀ rule ∈ compiled.plan.markedRules,
      IsUnderstood (fun flow packet => flow.packet? = some packet) rule ↔
        ∀ text ∈ rule.spec.address, IsFilterable text :=
  fun rule member =>
    isUnderstood_iff_of_isExpanded (isExpanded_of_markedRules accepted compiles rule member)

/-! ## Settings with one host -/

/-- A tier of the hosts of a text. -/
def hostEntry (text : String) : Value :=
  .record [("id", .whole 20), ("label", .text "Web"), ("share", .whole 50),
    ("addresses", .text text)]

/-- The rules of a document whose tiers are in the order of their rules. -/
def rulesOf (document : Value) : Except Failure (Option (List ClassificationRule)) := do
  let settings ← ofDocument .system document none
  let tree ← settings.treeRequest.compile settings.roundTrip
  let rules ← RuleSet.rulesInOrder tree settings.table
  return if RuleSet.IsInOrder tree settings.table then some rules else none

theorem exists_of_rulesOf {document : Value} {rules : List ClassificationRule}
    (evaluated : (rulesOf document).toOption = some (some rules)) :
    ∃ settings compiled, ofDocument .system document none = .ok settings ∧
      Compiled.ofSettings settings settings.roundTrip = .ok compiled ∧
        compiled.plan.markedRules = rules := by
  have result : rulesOf document = .ok (some rules) := Result.toOption_eq_some.mp evaluated
  rcases Result.bind_eq_ok.mp result with ⟨settings, accepted, result⟩
  rcases Result.bind_eq_ok.mp result with ⟨tree, made, result⟩
  rcases Result.bind_eq_ok.mp result with ⟨inOrder, numbers, result⟩
  have equal := Result.pure_eq_ok.mp result
  split at equal
  case isFalse => cases equal
  case isTrue isInOrder =>
    cases equal
    rcases RuleSet.exists_build_of_isInOrder isInOrder numbers with ⟨built, isBuilt, sameRules⟩
    let plan := Plan.build tree built settings.leafQueue settings.logMarks
    refine ⟨settings, ⟨tree, built, plan⟩, accepted,
      Compiled.ofSettings_eq_ok_iff.mpr ⟨made, isBuilt, rfl⟩, ?_⟩
    rw [← sameRules]
    exact markedRules_build ..

/-- The rules for one host, as source and as destination. -/
def hostRules (text : String) : List ClassificationRule :=
  [⟨.ofAddress (some text) (some .source), 20, 1⟩,
    ⟨.ofAddress (some text) (some .destination), 20, 2⟩]

theorem isUnderstood_of_subnet :
    ∃ settings compiled, ofDocument .system (withTiers [hostEntry "10.0.0.0/255.0.0.0"]) none =
        .ok settings ∧
      Compiled.ofSettings settings settings.roundTrip = .ok compiled ∧
        compiled.plan.markedRules = hostRules "10.0.0.0/255.0.0.0" ∧
          ∀ rule ∈ compiled.plan.markedRules,
            IsUnderstood (fun flow packet => flow.packet? = some packet) rule := by
  have evaluated : (rulesOf (withTiers [hostEntry "10.0.0.0/255.0.0.0"])).toOption =
      some (some (hostRules "10.0.0.0/255.0.0.0")) := by
    decide +kernel
  rcases exists_of_rulesOf evaluated with ⟨settings, compiled, accepted, compiles, marked⟩
  have filterable : ∀ rule ∈ hostRules "10.0.0.0/255.0.0.0", ∀ text ∈ rule.spec.address,
      IsFilterable text := by
    decide +kernel
  refine ⟨settings, compiled, accepted, compiles, marked, fun rule member => ?_⟩
  exact (isUnderstood_iff accepted compiles rule member).mpr (filterable rule (marked ▸ member))

/-- A text that is accepted for hosts, with a rule that the packet filter does not understand. -/
def IsMisread (text : String) : Prop :=
  ∃ settings compiled rule, ofDocument .system (withTiers [hostEntry text]) none = .ok settings ∧
    Compiled.ofSettings settings settings.roundTrip = .ok compiled ∧
      rule ∈ compiled.plan.markedRules ∧
        ¬ IsUnderstood (fun flow packet => flow.packet? = some packet) rule

theorem isMisread_of_rulesOf {text : String}
    (evaluated : (rulesOf (withTiers [hostEntry text])).toOption = some (some (hostRules text)))
    (unreadable : ¬ IsFilterable text) : IsMisread text := by
  rcases exists_of_rulesOf evaluated with ⟨settings, compiled, accepted, compiles, marked⟩
  have member : ⟨.ofAddress (some text) (some .source), 20, 1⟩ ∈ compiled.plan.markedRules := by
    simp [marked, hostRules]
  have expanded := isExpanded_of_markedRules accepted compiles _ member
  refine ⟨settings, compiled, _, accepted, compiles, member, fun understood => ?_⟩
  exact unreadable ((isUnderstood_iff_of_isExpanded expanded).mp understood text rfl)

/-- An address of version six and an inverted mask are accepted, and misread. -/
theorem isMisread_of_accepted :
    IsMisread "2001:db8::1" ∧ IsMisread "10.0.0.0/0.0.0.255" := by
  constructor
  · exact isMisread_of_rulesOf (by decide +kernel) (by decide +kernel)
  · exact isMisread_of_rulesOf (by decide +kernel) (by decide +kernel)

end Settings

end UplinkShaper
