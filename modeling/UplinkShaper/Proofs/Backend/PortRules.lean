import UplinkShaper.Proofs.Backend.Criteria
import UplinkShaper.Proofs.Config.PortTexts

/-!
Port ranges from what is written for them to the packet filter. A range has the same ports where
it is read, where flows are matched, where it is shown as text and where the packet filter reads
the rule for it.
-/

namespace UplinkShaper

namespace PortRange

/-- The ports of a range are the same ones in every place that it gets to, as ports of a protocol
on one side of a flow. -/
structure MeansSame (range : PortRange) (name : String) (side : MatchSide) : Prop where
  inBounds : range.IsInBounds
  shownAgain : ∃ text again,
    (MatchSpec.ofPorts name range.start range.last side).portRange = some text ∧
      read (.text text) = .ok again ∧ ∀ port, again.Holds port ↔ range.Holds port
  matched : ∀ flow,
    (MatchSpec.ofPorts name range.start range.last side).matchesFlow flow = .ok true ↔
      name = Text.lowercase flow.protocol ∧
        ∃ port ∈ (if side = .destinationPort then flow.destinationPort else flow.sourcePort),
          range.Holds port
  understood : ∀ mark precedence, Netfilter.IsUnderstood (fun flow packet => packet.IsAlike flow)
    ⟨.ofPorts name range.start range.last side, mark, precedence⟩

theorem meansSame_of_isInBounds {range : PortRange} {name : String} {side : MatchSide}
    (inBounds : range.IsInBounds) (isName : Netfilter.IsProtocolName name)
    (sides : side = .destinationPort ∨ side = .sourcePort) : range.MeansSame name side where
  inBounds := inBounds
  shownAgain := exists_read_portRange inBounds name side
  matched flow := by
    rw [Netfilter.matchesFlow_ofPorts, Except.ok.injEq, Bool.and_eq_true, beq_iff_eq,
      Option.any_eq_true]
    simp only [decide_eq_true_eq, Holds, Option.mem_def]
  understood mark precedence := by
    have startNonneg : 0 ≤ range.start := le_trans (by decide) inBounds.start.1
    have lastNonneg : ∀ port ∈ range.last, 0 ≤ port := fun port isLast =>
      le_trans startNonneg (inBounds.last port isLast).1
    exact Netfilter.isUnderstood_ofPorts isName startNonneg lastNonneg sides

/-- What is written for ports keeps its meaning once it is read, and it is read exactly if it
denotes ports within bounds, unless one of its numbers is too long. -/
structure Written.KeepsMeaning (written : Written) : Prop where
  meansSame : ∀ range name side, read written.toValue = .ok range →
    Netfilter.IsProtocolName name → side = .destinationPort ∨ side = .sourcePort →
      range.MeansSame name side
  exact : written.HasShortRuns → ∀ range,
    read written.toValue = .ok range ↔ written.Denotes range ∧ range.IsInBounds

/-- Ports that are written keep their meaning. -/
theorem Written.keepsMeaning (written : Written) : written.KeepsMeaning where
  meansSame _ _ _ accepted isName sides :=
    meansSame_of_isInBounds (PortRange.read_eq_ok_iff.mp accepted).2 isName sides
  exact short _ := read_eq_ok_iff short

/-- A range with blanks around its numbers and a leading zero. -/
theorem meansSame_of_calls :
    ∃ range, read (Written.text " 05060 - 5061 ").toValue = .ok range ∧
      Netfilter.IsProtocolName "udp" ∧ range.MeansSame "udp" .destinationPort := by
  have accepted : read (Written.text " 05060 - 5061 ").toValue = .ok ⟨5060, some 5061⟩ :=
    Result.toOption_eq_some.mp (by decide +kernel)
  have isName : Netfilter.IsProtocolName "udp" :=
    ⟨by decide +kernel, by decide, by decide, by decide⟩
  exact ⟨_, accepted, isName,
    (Written.keepsMeaning _).meansSame _ "udp" .destinationPort accepted isName (.inl rfl)⟩

end PortRange

end UplinkShaper
