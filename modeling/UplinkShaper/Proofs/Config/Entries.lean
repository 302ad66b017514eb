import UplinkShaper.Config.Settings
import UplinkShaper.Proofs.Config.Schema

/-!
What accepted documents hold. The match specifications of settings are those that entries
can write down: ports in range of a protocol that has them, a protocol that the schema
names, or addresses.
-/

namespace UplinkShaper

namespace MatchSpec

/-- The specifications that entries write down. -/
inductive IsWritten : MatchSpec → Prop
  | ports {protocol : String} {start : Int} {last : Option Int} {side : MatchSide} :
      protocol ∈ portProtocols → PortRange.isPort start = true →
        (∀ port ∈ last, PortRange.isPort port = true ∧ start ≤ port) →
          side = .destinationPort ∨ side = .sourcePort →
            IsWritten (.ofPorts protocol start last side)
  | protocol {name : String} : name ∈ Configuration.protocols → IsWritten (.ofProtocol name)
  | address {text : Option String} {side : Option MatchSide} :
      (∀ chosen ∈ side, chosen = .source ∨ chosen = .destination) →
        IsWritten (.ofAddress text side)

theorem textOf_eq_ok {value : Value} {text : String} (read : textOf value = .ok text) :
    value = .text text := by
  simp only [textOf] at read
  split at read
  · cases read
    rfl
  · cases read

theorem portRange_read_eq_ok {value : Value} {range : PortRange}
    (read : PortRange.read value = .ok range) :
    PortRange.isPort range.start = true ∧
      ∀ port ∈ range.last, PortRange.isPort port = true ∧ range.start ≤ port := by
  rcases Result.bind_eq_ok.mp read with ⟨numbers, _, rest⟩
  split at rest
  · cases rest
  case isFalse inRange =>
    split at rest
    · cases rest
    case isFalse inOrder =>
      rw [← Result.pure_eq_ok.mp rest]
      simp only [Bool.or_eq_true, Bool.not_eq_true', not_or, Bool.not_eq_false] at inRange
      refine ⟨inRange.1, fun port isLast => ⟨?_, ?_⟩⟩
      · have lastInRange := inRange.2
        rw [isLast] at lastInRange
        simpa using lastInRange
      · rw [isLast] at inOrder
        simpa using inOrder

/-- The protocol that an entry names is the one that is written. -/
theorem field_of_protocolOf {entry protocol : Value} {name : String}
    (named : ofEntry.protocolOf entry = .ok protocol) (isText : textOf protocol = .ok name) :
    entry.field? "protocol" = some (.text name) := by
  unfold ofEntry.protocolOf at named
  dsimp only at named
  split at named
  case isFalse => cases named
  case isTrue =>
    rw [Except.ok.injEq, textOf_eq_ok isText] at named
    cases found : entry.field? "protocol" with
    | none =>
        rw [found] at named
        cases named
    | some written =>
        rw [found, Option.getD_some] at named
        rw [named]

/-- The protocol of an entry that the schema admits. -/
theorem protocol_of_admits {entry protocol : Value} {name : String}
    (admitted : Configuration.matchSchema.Admits entry)
    (named : ofEntry.protocolOf entry = .ok protocol) (isText : textOf protocol = .ok name) :
    name ∈ Configuration.protocols := by
  have listed := admitted.field (List.mem_cons_self ..) (field_of_protocolOf named isText)
  rcases Schema.exists_name_of_admits listed with ⟨other, member, equal⟩
  cases equal
  exact member

theorem isWritten_of_ofEntry {entry : Value} {spec : MatchSpec}
    (admitted : Configuration.matchSchema.Admits entry) (read : ofEntry entry = .ok spec) :
    spec.IsWritten := by
  rw [ofEntry] at read
  split at read
  case h_1 =>
    rcases Result.bind_eq_ok.mp read with ⟨protocol, named, read⟩
    rcases Result.bind_eq_ok.mp read with ⟨name, isText, read⟩
    rw [← Result.pure_eq_ok.mp read]
    exact .protocol (protocol_of_admits admitted named isText)
  case h_2 side only =>
    have listed : side ∈ entrySides := by
      have member : side ∈ entrySides.filter fun name => (entry.field? name).isSome :=
        only ▸ List.mem_cons_self ..
      exact (List.mem_filter.mp member).1
    dsimp only at read
    split at read
    case isTrue address =>
      rcases Result.bind_eq_ok.mp read with ⟨text, _, read⟩
      rw [← Result.pure_eq_ok.mp read]
      refine .address fun chosen isChosen => ?_
      cases isChosen
      rcases address with rfl | rfl
      · exact .inl rfl
      · exact .inr rfl
    case isFalse notAddress =>
      have ports : side = "dport" ∨ side = "sport" := by
        simp only [entrySides, List.mem_cons, List.not_mem_nil, or_false] at listed
        rcases listed with isPort | isPort | isSource | isDestination
        · exact .inl isPort
        · exact .inr isPort
        · exact absurd (.inl isSource) notAddress
        · exact absurd (.inr isDestination) notAddress
      rcases Result.bind_eq_ok.mp read with ⟨protocol, _, read⟩
      split at read
      case h_1 name =>
        split at read
        case isTrue hasPorts =>
          rcases Result.bind_eq_ok.mp read with ⟨range, inRange, read⟩
          rw [← Result.pure_eq_ok.mp read]
          rcases portRange_read_eq_ok inRange with ⟨startInRange, lastInRange⟩
          refine .ports hasPorts startInRange lastInRange ?_
          rcases ports with rfl | rfl
          · exact .inl rfl
          · exact .inr rfl
        case isFalse => cases read
      case h_2 => cases read
  case h_3 => cases read

end MatchSpec

namespace TierSpec

/-- An entry whose match entries, if there are any, the schema admits. -/
def IsEntry (entry : Value) : Prop :=
  ∀ listed, entry.field? "matches" = some listed →
    (Schema.items [.array] Configuration.matchSchema).Admits listed

theorem isEntry_of_admits {entry : Value} (admitted : Configuration.tierSchema.Admits entry) :
    IsEntry entry := by
  intro listed found
  exact admitted.field (by simp) found

theorem isWritten_of_matchesOf {entry : Value} {specs : List MatchSpec} (isEntry : IsEntry entry)
    (read : matchesOf entry = .ok specs) : ∀ spec ∈ specs, spec.IsWritten := by
  rcases Result.bind_eq_ok.mp read with ⟨listed, each, read⟩
  rw [← Result.pure_eq_ok.mp read]
  intro spec member
  rcases List.mem_append.mp member with inList | isAddress
  · rcases Result.exists_of_mem_mapM each inList with ⟨element, isElement, readElement⟩
    cases found : entry.field? "matches" with
    | none =>
        rw [found] at isElement
        cases isElement
    | some value =>
        have admitted := isEntry value found
        rw [found, Option.getD_some] at isElement
        cases value with
        | list values => exact MatchSpec.isWritten_of_ofEntry (admitted.item isElement) readElement
        | _ => cases isElement
  · rcases Option.map_eq_some_iff.mp (Option.mem_toList.mp isAddress) with ⟨text, _, rfl⟩
    exact .address (by simp)

end TierSpec

namespace Settings

/-- A table of specifications that entries write down. -/
def TableIsWritten (table : RuleSet.MatchTable) : Prop :=
  ∀ row ∈ table, ∀ spec ∈ row.2, spec.IsWritten

theorem tableIsWritten_enter {table : RuleSet.MatchTable} {id : Number} {specs : List MatchSpec}
    (written : TableIsWritten table) (new : ∀ spec ∈ specs, spec.IsWritten) :
    TableIsWritten (enter table id specs) := by
  induction table with
  | nil =>
      intro row member
      rw [List.mem_singleton.mp member]
      exact new
  | cons head rest induction =>
      rcases head with ⟨other, old⟩
      rcases List.forall_mem_cons.mp written with ⟨oldWritten, restWritten⟩
      rw [enter]
      split
      · exact List.forall_mem_cons.mpr ⟨new, restWritten⟩
      · exact List.forall_mem_cons.mpr ⟨oldWritten, induction restWritten⟩

theorem tableIsWritten_collectOne {kind : TierKind} {priority : Priority}
    {collected result : Collected} {entry : Value} (isEntry : TierSpec.IsEntry entry)
    (written : TableIsWritten collected.table)
    (read : collectOne kind priority collected entry = .ok result) :
    TableIsWritten result.table := by
  rcases Result.bind_eq_ok.mp read with ⟨spec, _, read⟩
  rcases Result.bind_eq_ok.mp read with ⟨specs, matched, read⟩
  rw [← Result.pure_eq_ok.mp read]
  dsimp only
  split
  · exact written
  · exact tableIsWritten_enter written (TierSpec.isWritten_of_matchesOf isEntry matched)

theorem tableIsWritten_foldlM {kind : TierKind} {priority : Priority}
    {collected result : Collected} {entries : List Value}
    (areEntries : ∀ entry ∈ entries, TierSpec.IsEntry entry)
    (written : TableIsWritten collected.table)
    (read : entries.foldlM (collectOne kind priority) collected = .ok result) :
    TableIsWritten result.table := by
  induction entries generalizing collected with
  | nil =>
      rw [← Result.pure_eq_ok.mp read]
      exact written
  | cons entry rest induction =>
      rcases List.forall_mem_cons.mp areEntries with ⟨isEntry, restAreEntries⟩
      rw [List.foldlM_cons] at read
      rcases Result.bind_eq_ok.mp read with ⟨middle, first, read⟩
      exact induction restAreEntries (tableIsWritten_collectOne isEntry written first) read

theorem tableIsWritten_collect {kind : TierKind} {priority : Priority}
    {table : RuleSet.MatchTable} {result : Collected} {entries : List Value}
    (areEntries : ∀ entry ∈ entries, TierSpec.IsEntry entry) (written : TableIsWritten table)
    (read : collect kind priority table entries = .ok result) : TableIsWritten result.table :=
  @tableIsWritten_foldlM kind priority { specs := [], table := table } result entries
    areEntries written read

theorem areEntries_of_admits {document : Value} {name : String}
    (admitted : ∀ value, document.field? name = some value →
      (Schema.items [.array] Configuration.tierSchema).Admits value) :
    ∀ entry ∈ TierSpec.items (field document [name]), TierSpec.IsEntry entry := by
  intro entry member
  cases found : document.field? name with
  | none =>
      rw [field, List.foldl_cons, found] at member
      cases member
  | some value =>
      have listed := admitted value found
      rw [field, List.foldl_cons, found, Option.getD_some, List.foldl_nil] at member
      cases value with
      | list values => exact TierSpec.isEntry_of_admits (listed.item member)
      | _ => cases member

theorem isEntry_of_field {document : Value} {name : String}
    (admitted : ∀ value, document.field? name = some value →
      Configuration.tierSchema.Admits value) : TierSpec.IsEntry (field document [name]) := by
  rw [field, List.foldl_cons, List.foldl_nil]
  cases found : document.field? name with
  | none =>
      intro listed inside
      cases inside
  | some value => exact TierSpec.isEntry_of_admits (admitted value found)

/-- The table of accepted settings holds what entries write down. -/
theorem tableIsWritten_of_ofDocument {locations : Locations} {document : Value}
    {source : Option Path} {settings : Settings}
    (accepted : ofDocument locations document source = .ok settings) :
    TableIsWritten settings.table := by
  rcases Result.bind_eq_ok.mp accepted with ⟨_, checked, read⟩
  have admitted := Schema.admits_of_check checked
  rcases Result.bind_eq_ok.mp read with ⟨reserved, readReserved, read⟩
  rcases Result.bind_eq_ok.mp read with ⟨tiers, readTiers, read⟩
  rcases Result.bind_eq_ok.mp read with ⟨last, readLast, read⟩
  rcases Result.bind_eq_ok.mp read with ⟨capacity, _, read⟩
  rw [← Result.pure_eq_ok.mp read]
  have empty : TableIsWritten [] := by simp [TableIsWritten]
  have reservedWritten := tableIsWritten_collect (areEntries_of_admits fun value found =>
    admitted.field (by simp) found) empty readReserved
  have tiersWritten := tableIsWritten_collect (areEntries_of_admits fun value found =>
    admitted.field (by simp) found) reservedWritten readTiers
  refine @tableIsWritten_collectOne .percentage .bulk { specs := [], table := tiers.table } last
    _ (isEntry_of_field fun value found => ?_) tiersWritten readLast
  exact admitted.field (by simp) found

end Settings

end UplinkShaper
