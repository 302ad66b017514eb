import UplinkShaper.Proofs.Classify.Meaning
import UplinkShaper.Proofs.Config.PortTexts
import UplinkShaper.Proofs.Text.Words

/-!
What a match entry asks of a flow, against the flows that its rules take. An entry has up to five
fields, each of which excludes flows. The rules for it keep to all of them, with one exception:
beside an address, a protocol is not looked at.
-/

namespace UplinkShaper

/-- A network holds the address that it is made around. -/
theorem Network.contains_of_ofParts? {address : Address} {mask : Option (List Char)}
    {network : Network} (made : ofParts? address mask = some network) :
    network.contains address = true := by
  have isAround : ∃ length, network = around address length := by
    unfold ofParts? at made
    split at made
    · cases made
      exact ⟨_, rfl⟩
    · split at made
      · cases made
        exact ⟨_, rfl⟩
      · rcases Option.map_eq_some_iff.mp made with ⟨length, _, rfl⟩
        exact ⟨length, rfl⟩
      · cases made
  rcases isAround with ⟨length, rfl⟩
  rw [contains, around, free]
  dsimp only
  rw [Nat.shiftLeft_shiftRight, beq_self_eq_true, beq_self_eq_true]
  rfl

/-! ## What is asked for -/

/-- A port is among those that are written. -/
def PortRange.IsAmong (written : Value) (port : Option Int) : Prop :=
  ∃ form : Written, form.toValue = written ∧
    ∃ range, form.Denotes range ∧ ∃ number ∈ port, range.Holds number

/-- An address lies in one of the networks that are written. -/
def MatchSpec.IsAmong (written : Value) (address : String) : Prop :=
  ∃ text, written = .text text ∧
    ∃ item ∈ (MatchSpec.ofAddress (some text) none).listed, MatchSpec.isWithin address item = true

/-- What a side that is written asks of a flow. -/
def Flow.Meets (flow : Flow) (written : Value) : MatchSide → Prop
  | .destinationPort => PortRange.IsAmong written flow.destinationPort
  | .sourcePort => PortRange.IsAmong written flow.sourcePort
  | .source => MatchSpec.IsAmong written flow.source
  | .destination => MatchSpec.IsAmong written flow.destination
  | .other _ => False

/-- A flow is one that every field of an entry asks for. -/
structure Flow.Satisfies (flow : Flow) (entry : Value) : Prop where
  protocol : ∀ written, entry.field? "protocol" = some written →
    written = .text (Text.lowercase flow.protocol)
  sides : ∀ name ∈ MatchSpec.entrySides, ∀ written, entry.field? name = some written →
    flow.Meets written (.ofName name)

namespace MatchSpec

/-- The rules for a specification take no flow that an entry excludes. -/
def IsSound (entry : Value) (spec : MatchSpec) : Prop :=
  ∀ specs, spec.expand = .ok specs → ∀ flow : Flow, flow.IsAddressed →
    (∃ other ∈ specs, other.matchesFlow flow = .ok true) → flow.Satisfies entry

/-- An entry names a protocol and an address, for which there is a rule. -/
structure NamesBoth (entry : Value) (spec : MatchSpec) : Prop where
  protocol : (entry.field? "protocol").isSome = true
  address : (entry.field? "src").isSome = true ∨ (entry.field? "dst").isSome = true
  ruled : ∃ first rest, spec.expand = .ok (first :: rest)

/-! ## How entries are read -/

/-- The side that an entry names, and no other. -/
structure IsOnlySide (entry : Value) (side : MatchSide) (written : Value) : Prop where
  found : entry.field? side.name = some written
  others : ∀ name ∈ entrySides, name ≠ side.name → entry.field? name = none
  named : MatchSide.ofName side.name = side

/-- Where a specification comes from. -/
inductive IsReadFrom (entry : Value) : MatchSpec → Prop
  | protocol {name : String} : (∀ side ∈ entrySides, entry.field? side = none) →
      entry.field? "protocol" = some (.text name) → IsReadFrom entry (.ofProtocol name)
  | address {side : MatchSide} {text : String} : side = .source ∨ side = .destination →
      IsOnlySide entry side (.text text) → IsReadFrom entry (.ofAddress (some text) (some side))
  | ports {side : MatchSide} {name : String} {written : Value} {range : PortRange} :
      side = .destinationPort ∨ side = .sourcePort → IsOnlySide entry side written →
        entry.field? "protocol" = some (.text name) → PortRange.read written = .ok range →
          (∃ form : PortRange.Written, form.toValue = written) →
            IsReadFrom entry (.ofPorts name range.start range.last side)

variable {entry : Value} {spec : MatchSpec}

theorem IsOnlySide.eq {side : MatchSide} {written other : Value} {name : String}
    (only : IsOnlySide entry side written) (listed : name ∈ entrySides)
    (found : entry.field? name = some other) : name = side.name ∧ other = written := by
  by_cases same : name = side.name
  · subst same
    exact ⟨rfl, Option.some.inj (found.symm.trans only.found)⟩
  · rw [only.others name listed same] at found
    cases found

theorem isOnlySide_of_filter {name : String}
    (only : (entrySides.filter fun name => (entry.field? name).isSome) = [name]) :
    name ∈ entrySides ∧ IsOnlySide entry (.ofName name) ((entry.field? name).getD .null) := by
  have member : name ∈ entrySides.filter fun name => (entry.field? name).isSome :=
    only ▸ List.mem_cons_self ..
  rcases List.mem_filter.mp member with ⟨listed, isSome⟩
  rcases Option.isSome_iff_exists.mp isSome with ⟨written, found⟩
  refine ⟨listed, ?_, fun other isSide differs => ?_, by rw [MatchSide.name_ofName]⟩
  · rw [MatchSide.name_ofName, found, Option.getD_some]
  · rw [MatchSide.name_ofName] at differs
    rw [← Option.not_isSome_iff_eq_none]
    intro isSome
    have inside : other ∈ entrySides.filter fun name => (entry.field? name).isSome :=
      List.mem_filter.mpr ⟨isSide, isSome⟩
    rw [only, List.mem_singleton] at inside
    exact differs inside

/-- Ports that the schema admits and that are read are written as a number or a text. -/
theorem exists_written {value : Value} {range : PortRange}
    (admitted : (Schema.scalar [.integer, .text] []).Admits value)
    (read : PortRange.read value = .ok range) :
    ∃ form : PortRange.Written, form.toValue = value := by
  rcases admitted.form with ⟨form, isForm, formAdmits⟩
  cases value with
  | number number =>
      cases number with
      | whole port => exact ⟨.number port, rfl⟩
      | real double =>
          rcases PortRange.read_eq_ok_iff.mp read with ⟨isValue, _⟩
          have isText : (Value.number (.real double)).plain = double.shortest := rfl
          simp only [PortRange.ofValue, isText, PortRange.bounds?_shortest] at isValue
          cases isValue
  | text shown => exact ⟨.text shown, rfl⟩
  | _ =>
      simp only [List.mem_cons, List.not_mem_nil, or_false] at isForm
      rcases isForm with rfl | rfl
      · cases formAdmits
      · cases formAdmits

/-- An entry that the schema admits is read in one of three ways. -/
theorem isReadFrom_of_ofEntry (admitted : Configuration.matchSchema.Admits entry)
    (read : ofEntry entry = .ok spec) : IsReadFrom entry spec := by
  rw [ofEntry] at read
  split at read
  case h_1 none =>
    rcases Result.bind_eq_ok.mp read with ⟨protocol, named, read⟩
    rcases Result.bind_eq_ok.mp read with ⟨name, isText, read⟩
    rw [← Result.pure_eq_ok.mp read]
    refine .protocol (fun side isSide => ?_) (field_of_protocolOf named isText)
    have absent := List.filter_eq_nil_iff.mp none side isSide
    exact Option.not_isSome_iff_eq_none.mp absent
  case h_2 name only =>
    rcases isOnlySide_of_filter only with ⟨listed, isOnly⟩
    have found := isOnly.found
    rw [MatchSide.name_ofName] at found
    dsimp only at read
    split at read
    case isTrue isAddress =>
      rcases Result.bind_eq_ok.mp read with ⟨address, isRead, read⟩
      rw [← Result.pure_eq_ok.mp read]
      have textAdmitted : Configuration.textSchema.Admits ((entry.field? name).getD .null) := by
        rcases isAddress with rfl | rfl
        · exact admitted.field (by simp) found
        · exact admitted.field (by simp) found
      rcases Schema.exists_text_of_admits textAdmitted with ⟨text, isText⟩
      rw [isText] at isRead isOnly
      cases isRead
      refine .address ?_ isOnly
      rcases isAddress with rfl | rfl
      · exact .inl rfl
      · exact .inr rfl
    case isFalse notAddress =>
      have isPort : name = "dport" ∨ name = "sport" := by
        simp only [entrySides, List.mem_cons, List.not_mem_nil, or_false] at listed
        rcases listed with isPort | isPort | isSource | isDestination
        · exact .inl isPort
        · exact .inr isPort
        · exact absurd (.inl isSource) notAddress
        · exact absurd (.inr isDestination) notAddress
      rcases Result.bind_eq_ok.mp read with ⟨protocol, named, read⟩
      split at read
      case h_1 =>
        split at read
        case isTrue =>
          rcases Result.bind_eq_ok.mp read with ⟨range, inRange, read⟩
          rw [← Result.pure_eq_ok.mp read]
          have portAdmitted : (Schema.scalar [.integer, .text] []).Admits
              ((entry.field? name).getD .null) := by
            rcases isPort with rfl | rfl
            · exact admitted.field (by simp) found
            · exact admitted.field (by simp) found
          refine .ports ?_ isOnly (field_of_protocolOf named rfl) inRange
            (exists_written portAdmitted inRange)
          rcases isPort with rfl | rfl
          · exact .inl rfl
          · exact .inr rfl
        case isFalse => cases read
      case h_2 => cases read
  case h_3 => cases read

/-- The specifications for addresses are those of entries that name one. -/
theorem IsReadFrom.isAddress_iff (origin : IsReadFrom entry spec) :
    spec.kind = .address ↔
      (entry.field? "src").isSome = true ∨ (entry.field? "dst").isSome = true := by
  cases origin with
  | protocol none =>
      refine iff_of_false (by simp [ofProtocol]) ?_
      simp [none "src" (by decide), none "dst" (by decide)]
  | address sides only =>
      refine iff_of_true rfl ?_
      rcases sides with rfl | rfl
      · exact .inl (Option.isSome_iff_exists.mpr ⟨_, only.found⟩)
      · exact .inr (Option.isSome_iff_exists.mpr ⟨_, only.found⟩)
  | ports sides only =>
      refine iff_of_false (by simp [ofPorts]) ?_
      rcases sides with rfl | rfl
      · simp [only.others "src" (by decide) (by decide), only.others "dst" (by decide) (by decide)]
      · simp [only.others "src" (by decide) (by decide), only.others "dst" (by decide) (by decide)]

/-! ## Rules that keep to an entry -/

/-- The rules for a specification take the flows that it looks for. -/
theorem exists_matchesFlow_iff {specs : List MatchSpec} (expanded : spec.expand = .ok specs)
    {flow : Flow} (addressed : flow.IsAddressed) :
    (∃ other ∈ specs, other.matchesFlow flow = .ok true) ↔ spec.isMet flow = true := by
  rcases expand_eq_ok_iff.mp expanded with ⟨readable, rfl⟩
  rw [← (decides_expansion addressed readable).2, List.any_eq_true]
  refine exists_congr fun other => and_congr_right fun _ => ?_
  unfold accepts
  cases other.matchesFlow flow with
  | error => simp [Except.toOption]
  | ok => simp [Except.toOption]

theorem hasProtocol_iff {name : String} {flow : Flow} (named : spec.protocol = some name) :
    spec.hasProtocol flow = true ↔ name = Text.lowercase flow.protocol := by
  rw [hasProtocol, named, decide_eq_true_eq, Option.some.injEq]

/-- The one side that an entry names is all that it asks for besides a protocol. -/
theorem IsOnlySide.satisfies {side : MatchSide} {written : Value}
    (only : IsOnlySide entry side written) {flow : Flow} (meets : flow.Meets written side)
    (protocol : ∀ written, entry.field? "protocol" = some written →
      written = .text (Text.lowercase flow.protocol)) : flow.Satisfies entry := by
  refine ⟨protocol, fun name listed other found => ?_⟩
  rcases only.eq listed found with ⟨rfl, rfl⟩
  rwa [only.named]

theorem meets_of_isMet_address {side : MatchSide} {text : String}
    (sides : side = .source ∨ side = .destination) {flow : Flow}
    (met : (ofAddress (some text) (some side)).isMet flow = true) :
    flow.Meets (.text text) side := by
  simp only [isMet, ofAddress, List.any_eq_true] at met
  rcases met with ⟨item, isItem, address, isAddress, within⟩
  rw [addressesOf_eq] at isAddress
  rcases sides with rfl | rfl
  · simp only [addressSides, MatchSide.name] at isAddress
    cases List.mem_singleton.mp isAddress
    exact ⟨text, rfl, item, isItem, within⟩
  · simp only [addressSides, MatchSide.name] at isAddress
    cases List.mem_singleton.mp isAddress
    exact ⟨text, rfl, item, isItem, within⟩

theorem meets_of_isMet_ports {side : MatchSide} {name : String} {range : PortRange}
    {form : PortRange.Written} (read : PortRange.read form.toValue = .ok range)
    (sides : side = .destinationPort ∨ side = .sourcePort) {flow : Flow}
    (met : (ofPorts name range.start range.last side).isMet flow = true) :
    name = Text.lowercase flow.protocol ∧ flow.Meets form.toValue side := by
  have isPorts : (ofPorts name range.start range.last side).kind = .port := rfl
  rw [isMet_of_ports flow (by simp [isPorts]) (by simp [isPorts]), Bool.and_eq_true,
    Option.any_eq_true] at met
  rcases met with ⟨protocol, port, onSide, inRange⟩
  have holds : range.start ≤ port ∧ port ≤ range.last.getD range.start := of_decide_eq_true inRange
  have denotes := PortRange.Written.denotes_of_ofValue (PortRange.read_eq_ok_iff.mp read).1
  refine ⟨(hasProtocol_iff rfl).mp protocol, ?_⟩
  rcases sides with rfl | rfl
  · exact ⟨form, rfl, range, denotes, port, onSide, holds⟩
  · exact ⟨form, rfl, range, denotes, port, onSide, holds⟩

/-- Entries that name no protocol beside an address are kept to. -/
theorem satisfies_of_isMet (origin : IsReadFrom entry spec)
    (alone : spec.kind = .address → entry.field? "protocol" = none) {flow : Flow}
    (met : spec.isMet flow = true) : flow.Satisfies entry := by
  cases origin with
  | @protocol name none named =>
      have same := (hasProtocol_iff rfl).mp met
      refine ⟨fun written found => ?_, fun side isSide written found => ?_⟩
      · rw [named, Option.some.injEq] at found
        rw [← found, same]
      · rw [none side isSide] at found
        cases found
  | @address side text sides only =>
      refine only.satisfies (meets_of_isMet_address sides met) fun written found => ?_
      rw [alone rfl] at found
      cases found
  | @ports side name written range sides only named read form =>
      rcases form with ⟨form, rfl⟩
      rcases meets_of_isMet_ports read sides met with ⟨same, meets⟩
      refine only.satisfies meets fun written found => ?_
      rw [named, Option.some.injEq] at found
      rw [← found, same]

/-! ## Rules that go beyond an entry -/

/-- Each network holds an address that can be written: the one that it is written with. -/
theorem exists_isWithin {item : String} {network : Network}
    (found : Network.read? item = some network) :
    ∃ address, (∃ value, Address.read? address = some value) ∧ isWithin address item = true := by
  have written : ∃ host value mask, host ∈ Text.parts '/' item.toList ∧
      Address.ofChars? host = some value ∧ Network.ofParts? value mask = some network := by
    unfold Network.read? at found
    split at found
    case h_1 host parted =>
      rcases Option.bind_eq_some_iff.mp found with ⟨value, isValue, isNetwork⟩
      exact ⟨host, value, none, by simp [parted], isValue, isNetwork⟩
    case h_2 host mask parted =>
      rcases Option.bind_eq_some_iff.mp found with ⟨value, isValue, isNetwork⟩
      exact ⟨host, value, some mask, by simp [parted], isValue, isNetwork⟩
    case h_3 => cases found
  rcases written with ⟨host, value, mask, isPart, isValue, isNetwork⟩
  have read : Address.read? (String.ofList host) = some value := by
    rw [Address.read?, String.toList_ofList, if_neg (Text.not_mem_of_mem_parts isPart), isValue]
  refine ⟨String.ofList host, ⟨value, read⟩, ?_⟩
  rw [isWithin, read, found]
  exact Network.contains_of_ofParts? isNetwork

/-- Where a specification lists a network, some flow of each protocol is what it looks for. -/
theorem exists_isMet {item : String} {network : Network} (isAddress : spec.kind = .address)
    (isItem : item ∈ spec.listed) (found : Network.read? item = some network)
    (protocol : String) :
    ∃ flow : Flow, flow.IsAddressed ∧ flow.protocol = protocol ∧ spec.isMet flow = true := by
  rcases exists_isWithin found with ⟨address, read, within⟩
  have sides : spec.addressSides ≠ [] := by
    unfold addressSides
    split
    · split
      · exact List.cons_ne_nil _ _
      · exact List.cons_ne_nil _ _
    · exact List.cons_ne_nil _ _
  rcases List.exists_mem_of_ne_nil _ sides with ⟨side, isSide⟩
  let flow : Flow := ⟨protocol, address, address, none, none⟩
  have onSide : addressOn flow side = address := ite_self address
  have looksAt : address ∈ spec.addressesOf flow := by
    rw [addressesOf_eq]
    exact List.mem_map.mpr ⟨side, isSide, onSide⟩
  refine ⟨flow, ⟨read, read⟩, rfl, ?_⟩
  simp only [isMet, isAddress]
  exact List.any_eq_true.mpr ⟨item, isItem, List.any_eq_true.mpr ⟨address, looksAt, within⟩⟩

/-- Beside an address, a protocol is dropped: some flow of another protocol has a rule. -/
theorem not_isSound_of_namesBoth (origin : IsReadFrom entry spec)
    (admitted : Configuration.matchSchema.Admits entry) (both : NamesBoth entry spec) :
    ¬ IsSound entry spec := by
  intro sound
  rcases both with ⟨hasProtocol, hasAddress, first, rest, expanded⟩
  rcases Option.isSome_iff_exists.mp hasProtocol with ⟨written, isProtocol⟩
  have inSchema : (Schema.scalar [.text] [.oneOf Configuration.protocols]).Admits written :=
    admitted.field (by simp) isProtocol
  rcases Schema.exists_name_of_admits inSchema with ⟨name, listed, rfl⟩
  have others : ∀ name ∈ Configuration.protocols, ∃ other ∈ Configuration.protocols,
      name ≠ Text.lowercase other := by
    decide +kernel
  rcases others name listed with ⟨other, _, differs⟩
  -- The first rule is for some item of the list, and a flow from and to its host is taken.
  have isAddress := origin.isAddress_iff.mpr hasAddress
  rcases expand_eq_ok_iff.mp expanded with ⟨readable, isExpansion⟩
  have isFirst : first ∈ spec.expansion := by simp [← isExpansion]
  simp only [expansion, isAddress] at isFirst
  rcases List.mem_flatMap.mp isFirst with ⟨item, isItem, _⟩
  rcases readable isAddress item isItem with ⟨network, isNetwork⟩
  rcases exists_isMet isAddress isItem isNetwork other with ⟨flow, addressed, rfl, met⟩
  have taken := (exists_matchesFlow_iff expanded addressed).mpr met
  have satisfied := sound _ expanded flow addressed taken
  exact differs (Value.text.inj (satisfied.protocol _ isProtocol))

/-- For an entry that is accepted, the rules keep to all that it says, unless it names a protocol
beside an address. -/
theorem isSound_iff (admitted : Configuration.matchSchema.Admits entry)
    (read : ofEntry entry = .ok spec) : IsSound entry spec ↔ ¬ NamesBoth entry spec := by
  have origin := isReadFrom_of_ofEntry admitted read
  constructor
  · exact fun sound both => not_isSound_of_namesBoth origin admitted both sound
  · intro notBoth specs expanded flow addressed taken
    refine satisfies_of_isMet origin (fun isAddress => ?_)
      ((exists_matchesFlow_iff expanded addressed).mp taken)
    rw [← Option.not_isSome_iff_eq_none]
    intro hasProtocol
    refine notBoth ⟨hasProtocol, origin.isAddress_iff.mp isAddress, ?_⟩
    rcases taken with ⟨other, isOther, _⟩
    cases specs with
    | nil => cases isOther
    | cons first rest => exact ⟨first, rest, expanded⟩

theorem isSound_of_calls :
    ∃ entry, Configuration.matchSchema.Admits entry ∧
      ofEntry entry = .ok (.ofPorts "udp" 5060 (some 5061) .destinationPort) ∧
        IsSound entry (.ofPorts "udp" 5060 (some 5061) .destinationPort) := by
  let entry : Value := .record [("protocol", .text "udp"), ("dport", .text "5060:5061")]
  have admitted : Configuration.matchSchema.Admits entry := ⟨[], by decide +kernel⟩
  have read : ofEntry entry = .ok (.ofPorts "udp" 5060 (some 5061) .destinationPort) :=
    Result.toOption_eq_some.mp (by decide +kernel)
  refine ⟨entry, admitted, read, (isSound_iff admitted read).mpr fun both => ?_⟩
  have noAddress : ¬ ((entry.field? "src").isSome = true ∨ (entry.field? "dst").isSome = true) := by
    decide +kernel
  exact noAddress both.address

/-- An entry for one protocol and one host takes packets of that host in any protocol. -/
theorem not_isSound_of_host :
    ∃ entry spec, Configuration.matchSchema.Admits entry ∧ ofEntry entry = .ok spec ∧
      entry.field? "protocol" = some (.text "tcp") ∧ spec.expand = .ok [spec] ∧
        spec.matchesFlow ⟨"udp", "10.0.0.1", "192.0.2.1", some 5000, some 53⟩ = .ok true ∧
          ¬ IsSound entry spec := by
  let entry : Value := .record [("protocol", .text "tcp"), ("src", .text "10.0.0.1")]
  let spec : MatchSpec := .ofAddress (some "10.0.0.1") (some .source)
  let flow : Flow := ⟨"udp", "10.0.0.1", "192.0.2.1", some 5000, some 53⟩
  have expanded : spec.expand = .ok [spec] := Result.toOption_eq_some.mp (by decide +kernel)
  have matched : spec.matchesFlow flow = .ok true := Result.toOption_eq_some.mp (by decide +kernel)
  have isTcp : entry.field? "protocol" = some (.text "tcp") := rfl
  refine ⟨entry, spec, ⟨[], by decide +kernel⟩, rfl, isTcp, expanded, matched, fun sound => ?_⟩
  have source : Address.read? "10.0.0.1" = some ⟨.four, 167772161⟩ := by decide +kernel
  have destination : Address.read? "192.0.2.1" = some ⟨.four, 3221225985⟩ := by decide +kernel
  have addressed : flow.IsAddressed := ⟨⟨_, source⟩, ⟨_, destination⟩⟩
  have satisfied := sound [spec] expanded flow addressed ⟨spec, List.mem_singleton.mpr rfl, matched⟩
  have differs : "tcp" ≠ Text.lowercase "udp" := by decide +kernel
  exact differs (Value.text.inj (satisfied.protocol _ isTcp))

end MatchSpec

end UplinkShaper
