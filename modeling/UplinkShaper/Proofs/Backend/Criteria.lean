import UplinkShaper.Proofs.Backend.MarkChain

/-!
What the packet filter makes of the words of one rule. The word for addresses is a host, which a
count of leading bits or a mask may follow. A mask is taken as it stands: addresses are compared
in those bits that it sets, wherever they are. Protocols are named in whatever case, and one word
stands for all of them.
-/

namespace UplinkShaper

namespace Netfilter

/-! ## Reading the words of a rule -/

/-- Addresses that agree with a base in the bits of a mask. -/
structure Masked where
  base : Nat
  mask : Nat

def Masked.covers (addresses : Masked) (address : Nat) : Bool :=
  addresses.base &&& addresses.mask == address &&& addresses.mask

/-- The mask that sets the leading bits. -/
def leadingOnes (length : Nat) : Nat :=
  2 ^ 32 - 2 ^ (32 - length)

/-- A count of leading bits, or a mask. -/
def mask? (shown : List Char) : Option Nat :=
  match Network.lengthOf? 32 shown with
  | some length => some (leadingOnes length)
  | none => Address.quad? shown

def masked? (text : String) : Option Masked :=
  match Text.parts '/' text.toList with
  | [host] => (Address.quad? host).map fun base => ⟨base, leadingOnes 32⟩
  | [host, shown] => do return ⟨← Address.quad? host, ← mask? shown⟩
  | _ => none

/-- What a packet has to meet for one option of a rule. -/
inductive Criterion
  | anyProtocol
  | source (addresses : Masked)
  | destination (addresses : Masked)
  | other (test : Test)

def Criterion.holds (packet : Packet) : Criterion → Bool
  | .anyProtocol => true
  | .source addresses => addresses.covers packet.source
  | .destination addresses => addresses.covers packet.destination
  | .other test => test.holds packet

/-- A protocol by its name. Numbers are not looked up. -/
def protocol? (value : String) : Option Criterion :=
  let name := Text.lowercase value
  if name.isEmpty ∨ (number? name.toList).isSome then none
  else if name = "all" then some .anyProtocol
  else some (.other (.protocol name))

def criterion? (option value : String) : Option Criterion :=
  match option with
  | "-s" => (masked? value).map .source
  | "-d" => (masked? value).map .destination
  | "-p" => protocol? value
  | _ => (test? option value).map .other

/-- What a packet has to meet for all the options of a rule. -/
def criteria? : List String → Option (List Criterion)
  | [] => some []
  | option :: value :: rest => do return (← criterion? option value) :: (← criteria? rest)
  | [_] => none

theorem criteria?_cons {option value : String} {rest : List String} {criterion : Criterion}
    {criteria : List Criterion} (isCriterion : criterion? option value = some criterion)
    (others : criteria? rest = some criteria) :
    criteria? (option :: value :: rest) = some (criterion :: criteria) := by
  rw [criteria?, isCriterion, others]
  rfl

/-! ## Rules that are understood -/

/-- A packet that shows the protocol and the ports of a flow. -/
structure Packet.IsAlike (packet : Packet) (flow : Flow) : Prop where
  protocol : packet.protocol = Text.lowercase flow.protocol
  sourcePort : packet.sourcePort = flow.sourcePort
  destinationPort : packet.destinationPort = flow.destinationPort

theorem isAlike_of_packet? {flow : Flow} {packet : Packet} (shown : flow.packet? = some packet) :
    packet.IsAlike flow := by
  rcases packet?_addresses shown with ⟨_, _, protocol, sourcePort, destinationPort⟩
  exact ⟨protocol, sourcePort, destinationPort⟩

/-- The words of a rule are ones that the filter reads, and it lets through what the rule looks
for, as far as packets show flows. -/
def IsUnderstood (Shows : Flow → Packet → Prop) (rule : ClassificationRule) : Prop :=
  ∃ words criteria, Marking.ruleWords rule = .ok words ∧ criteria? words = some criteria ∧
    ∀ flow packet, Shows flow packet →
      rule.spec.matchesFlow flow = .ok (criteria.all (·.holds packet))

theorem IsUnderstood.mono {Shows ShowsMore : Flow → Packet → Prop} {rule : ClassificationRule}
    (understood : IsUnderstood Shows rule)
    (more : ∀ flow packet, ShowsMore flow packet → Shows flow packet) :
    IsUnderstood ShowsMore rule := by
  rcases understood with ⟨words, criteria, isWords, isRead, agree⟩
  exact ⟨words, criteria, isWords, isRead, fun flow packet shown =>
    agree flow packet (more flow packet shown)⟩

/-- A name that the filter takes for one protocol. -/
structure IsProtocolName (name : String) : Prop where
  isLower : Text.lowercase name = name
  nonempty : name ≠ ""
  single : name ≠ "all"
  notNumber : number? name.toList = none

theorem IsProtocolName.protocol?_eq {name : String} (isName : IsProtocolName name) :
    protocol? name = some (.other (.protocol name)) := by
  simp [protocol?, isName.isLower, isName.nonempty, isName.single, isName.notNumber]

section Forms

variable {name : String} {mark precedence : Int}

theorem isUnderstood_ofProtocol (isName : IsProtocolName name) :
    IsUnderstood (fun flow packet => packet.IsAlike flow) ⟨.ofProtocol name, mark, precedence⟩ := by
  refine ⟨["-p", name], _, rfl, criteria?_cons isName.protocol?_eq rfl, ?_⟩
  intro flow packet alike
  rw [matchesFlow_ofProtocol, ← alike.protocol]
  simp [Criterion.holds, Test.holds]

theorem isUnderstood_ofPorts {start : Int} {last : Option Int} {side : MatchSide}
    (isName : IsProtocolName name) (startNonneg : 0 ≤ start) (lastNonneg : ∀ port ∈ last, 0 ≤ port)
    (sides : side = .destinationPort ∨ side = .sourcePort) :
    IsUnderstood (fun flow packet => packet.IsAlike flow)
      ⟨.ofPorts name start last side, mark, precedence⟩ := by
  have boundNonneg : 0 ≤ last.getD start := by
    cases last with
    | none => exact startNonneg
    | some port => exact lastNonneg port rfl
  have covered := fun port => @covers_toNat start (last.getD start) port startNonneg boundNonneg
  rcases @ports?_portRange name start last side startNonneg lastNonneg with ⟨text, isText, range⟩
  rcases sides with rfl | rfl
  · have isPorts : criterion? "--dport" text =
        some (.other (.destinationPort start.toNat (last.getD start).toNat)) := by
      simp [criterion?, test?, range]
    refine ⟨_, _, ruleWords_ofPorts isText,
      criteria?_cons isName.protocol?_eq (criteria?_cons isPorts rfl), ?_⟩
    intro flow packet alike
    rw [matchesFlow_ofPorts, ← alike.protocol, ← alike.destinationPort]
    simp [Criterion.holds, Test.holds, covered]
  · have isPorts : criterion? "--sport" text =
        some (.other (.sourcePort start.toNat (last.getD start).toNat)) := by
      simp [criterion?, test?, range]
    refine ⟨_, _, ruleWords_ofPorts isText,
      criteria?_cons isName.protocol?_eq (criteria?_cons isPorts rfl), ?_⟩
    intro flow packet alike
    rw [matchesFlow_ofPorts, ← alike.protocol, ← alike.sourcePort]
    simp [Criterion.holds, Test.holds, covered]

end Forms

end Netfilter

end UplinkShaper
