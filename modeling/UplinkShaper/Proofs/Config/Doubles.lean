import UplinkShaper.Config.Settings
import UplinkShaper.Proofs.Allocation.Doubles

/-!
Numbers in settings. Documents are merged and read without any arithmetic, so settings have no
numbers but those that were written or built in.
-/

namespace UplinkShaper

namespace Value

/-- A value is another one or is inside it, in a list or under a key. -/
inductive IsPart : Value → Value → Prop
  | whole (value : Value) : IsPart value value
  | item {part item : Value} {items : List Value} :
      item ∈ items → IsPart part item → IsPart part (.list items)
  | entry {part : Value} {entry : Value × Value} {entries : List (Value × Value)} :
      entry ∈ entries → IsPart part entry.2 → IsPart part (.mapping entries)

/-- All numbers in a value are ones that doubles can be. -/
def HasDoubles (value : Value) : Prop :=
  ∀ number, IsPart (.number number) value → number.IsDouble

variable {key value : Value} {items : List Value} {base entries : List (Value × Value)}

theorem hasDoubles_null : HasDoubles .null := by
  rintro _ ⟨⟩

@[simp]
theorem hasDoubles_text (text : String) : HasDoubles (.text text) := by
  rintro _ ⟨⟩

@[simp]
theorem hasDoubles_boolean (flag : Bool) : HasDoubles (.boolean flag) := by
  rintro _ ⟨⟩

@[simp]
theorem hasDoubles_whole (number : Int) : HasDoubles (.whole number) := by
  rintro _ ⟨⟩
  exact trivial

theorem hasDoubles_real {double : Double} (isDouble : double.IsDouble) :
    HasDoubles (.number (.real double)) := by
  rintro _ ⟨⟩
  exact isDouble

theorem hasDoubles_list_iff : HasDoubles (.list items) ↔ ∀ item ∈ items, item.HasDoubles := by
  constructor
  · exact fun doubles item member number isPart => doubles number (.item member isPart)
  · rintro each number (_ | ⟨member, isPart⟩)
    exact each _ member number isPart

theorem hasDoubles_mapping_iff :
    HasDoubles (.mapping entries) ↔ ∀ entry ∈ entries, entry.2.HasDoubles := by
  constructor
  · exact fun doubles entry member number isPart => doubles number (.entry member isPart)
  · rintro each number (_ | _ | ⟨member, isPart⟩)
    exact each _ member number isPart

theorem hasDoubles_record_iff {fields : List (String × Value)} :
    HasDoubles (.record fields) ↔ ∀ field ∈ fields, field.2.HasDoubles := by
  rw [record, hasDoubles_mapping_iff, List.forall_mem_map]

theorem hasDoubles_of_find? {found : Value} (each : ∀ entry ∈ entries, entry.2.HasDoubles)
    (isFound : find? key entries = some found) : found.HasDoubles := by
  induction entries with
  | nil => cases isFound
  | cons entry rest induction =>
      rcases List.forall_mem_cons.mp each with ⟨first, others⟩
      unfold find? at isFound
      split at isFound
      · cases isFound
        exact first
      · exact induction others isFound

theorem hasDoubles_put (doubles : value.HasDoubles)
    (each : ∀ entry ∈ entries, entry.2.HasDoubles) :
    ∀ entry ∈ put key value entries, entry.2.HasDoubles := by
  induction entries with
  | nil => exact List.forall_mem_singleton.mpr doubles
  | cons entry rest induction =>
      rcases List.forall_mem_cons.mp each with ⟨first, others⟩
      unfold put
      split
      · exact List.forall_mem_cons.mpr ⟨doubles, others⟩
      · exact List.forall_mem_cons.mpr ⟨first, induction others⟩

mutual

theorem hasDoubles_laidOver (old : Option Value) (known : ∀ value ∈ old, value.HasDoubles) :
    ∀ value : Value, value.HasDoubles → (laidOver old value).HasDoubles
  | .mapping entries, doubles => by
      have each := hasDoubles_mapping_iff.mp doubles
      unfold laidOver
      split
      case h_1 base =>
        have below := hasDoubles_mapping_iff.mp (known (.mapping base) rfl)
        exact hasDoubles_mapping_iff.mpr (hasDoubles_mergeEntries base below entries each)
      case h_2 => exact doubles
  | .null, doubles | .boolean _, doubles | .number _, doubles | .text _, doubles
  | .list _, doubles | .date _, doubles | .moment _, doubles | .bytes _, doubles
  | .set _, doubles | .pair _ _, doubles => doubles

theorem hasDoubles_mergeEntries (base : List (Value × Value))
    (below : ∀ entry ∈ base, entry.2.HasDoubles) :
    ∀ entries : List (Value × Value), (∀ entry ∈ entries, entry.2.HasDoubles) →
      ∀ entry ∈ mergeEntries base entries, entry.2.HasDoubles
  | [], _ => by
      unfold mergeEntries
      exact below
  | (key, value) :: rest, each => by
      rcases List.forall_mem_cons.mp each with ⟨first, others⟩
      unfold mergeEntries
      refine hasDoubles_mergeEntries _ (hasDoubles_put ?_ below) rest others
      exact hasDoubles_laidOver _ (fun found => hasDoubles_of_find? below) value first

end

theorem HasDoubles.field {name : String} (doubles : value.HasDoubles) :
    ((value.field? name).getD .null).HasDoubles := by
  cases isFound : value.field? name with
  | none => exact hasDoubles_null
  | some found =>
      cases value with
      | mapping entries =>
          exact hasDoubles_of_find? (hasDoubles_mapping_iff.mp doubles) isFound
      | _ => cases isFound

theorem HasDoubles.listed (doubles : value.HasDoubles) :
    ∀ item ∈ TierSpec.items value, item.HasDoubles := by
  cases value with
  | list items => exact hasDoubles_list_iff.mp doubles
  | _ => exact List.forall_mem_nil _

end Value

namespace Configuration

theorem hasDoubles_builtIn (locations : Locations) : (builtIn locations).HasDoubles := by
  simp [builtIn, interactive, telephony, hostTier, portEntry, Value.hasDoubles_record_iff,
    Value.hasDoubles_list_iff]

end Configuration

/-! ## Reading -/

theorem TierSpec.hasDoubles_of_ofEntry {kind : TierKind} {default : Priority} {entry : Value}
    {spec : TierSpec} (doubles : entry.HasDoubles) (read : ofEntry kind default entry = .ok spec) :
    spec.HasDoubles := by
  rcases Result.bind_eq_ok.mp read with ⟨priority, _, equal⟩
  rw [← Result.pure_eq_ok.mp equal]
  intro share isShare
  dsimp only at isShare
  split at isShare
  case isFalse => cases isShare
  case isTrue =>
    rcases Option.bind_eq_some_iff.mp isShare with ⟨written, isWritten, isNumber⟩
    have found : ((entry.field? "share").getD .null).HasDoubles := doubles.field
    rw [isWritten, Option.getD_some] at found
    cases written with
    | number value =>
        cases isNumber
        exact found share (.whole _)
    | _ => cases isNumber

namespace Settings

variable {collected result : Collected} {kind : TierKind} {priority : Priority}

theorem hasDoubles_field {document : Value} (doubles : document.HasDoubles) (names : List String) :
    (field document names).HasDoubles := by
  induction names generalizing document with
  | nil => exact doubles
  | cons name rest induction => exact induction doubles.field

theorem hasDoubles_collectOne {entry : Value}
    (known : ∀ spec ∈ collected.specs, spec.HasDoubles) (doubles : entry.HasDoubles)
    (read : collectOne kind priority collected entry = .ok result) :
    ∀ spec ∈ result.specs, spec.HasDoubles := by
  rcases Result.bind_eq_ok.mp read with ⟨spec, isSpec, read⟩
  rcases Result.bind_eq_ok.mp read with ⟨specs, _, read⟩
  rw [← Result.pure_eq_ok.mp read]
  refine List.forall_mem_append.mpr ⟨known, List.forall_mem_singleton.mpr ?_⟩
  exact TierSpec.hasDoubles_of_ofEntry doubles isSpec

theorem hasDoubles_foldlM {entries : List Value}
    (known : ∀ spec ∈ collected.specs, spec.HasDoubles)
    (doubles : ∀ entry ∈ entries, entry.HasDoubles)
    (read : entries.foldlM (collectOne kind priority) collected = .ok result) :
    ∀ spec ∈ result.specs, spec.HasDoubles := by
  induction entries generalizing collected with
  | nil =>
      rw [← Result.pure_eq_ok.mp read]
      exact known
  | cons entry rest induction =>
      rcases List.forall_mem_cons.mp doubles with ⟨first, others⟩
      rw [List.foldlM_cons] at read
      rcases Result.bind_eq_ok.mp read with ⟨middle, readFirst, read⟩
      exact induction (hasDoubles_collectOne known first readFirst) others read

/-- The class trees of accepted settings are asked for with numbers that doubles can be. -/
theorem hasDoubles_of_ofDocument {locations : Locations} {document : Value}
    {source : Option Path} {settings : Settings} (doubles : document.HasDoubles)
    (accepted : ofDocument locations document source = .ok settings) :
    settings.treeRequest.HasDoubles := by
  rcases Result.bind_eq_ok.mp accepted with ⟨_, _, read⟩
  rcases Result.bind_eq_ok.mp read with ⟨reserved, readReserved, read⟩
  rcases Result.bind_eq_ok.mp read with ⟨tiers, readTiers, read⟩
  rcases Result.bind_eq_ok.mp read with ⟨last, readLast, read⟩
  rcases Result.bind_eq_ok.mp read with ⟨capacity, _, read⟩
  rw [← Result.pure_eq_ok.mp read]
  have complete := Value.hasDoubles_laidOver (some (Configuration.builtIn locations))
    (fun _ isBase => Option.mem_some.mp isBase ▸ Configuration.hasDoubles_builtIn locations)
    document doubles
  have nothing : ∀ spec ∈ ([] : List TierSpec), spec.HasDoubles := List.forall_mem_nil _
  have isReserved := hasDoubles_foldlM nothing (hasDoubles_field complete _).listed readReserved
  have isTier := hasDoubles_foldlM nothing (hasDoubles_field complete _).listed readTiers
  have isLast := hasDoubles_collectOne nothing (hasDoubles_field complete _) readLast
  have isStandard : (TierSpec.standard none).HasDoubles := nofun
  intro spec member
  rcases List.mem_append.mp member with declared | isDefault
  · exact (List.mem_append.mp declared).elim (isReserved spec) (isTier spec)
  · rw [List.mem_singleton.mp isDefault]
    cases found : last.specs.head? with
    | none => exact isStandard
    | some default => exact isLast default (List.mem_of_mem_head? found)

end Settings

end UplinkShaper
