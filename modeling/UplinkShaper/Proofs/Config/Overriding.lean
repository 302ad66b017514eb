import UplinkShaper.Proofs.Config.Sections

/-!
What a merged document says. A document reaches a value along the names of the mappings
that it stands in. Where the document that is merged over another reaches a value, that value
is laid over what the other one has there; everything else stays as it was. Merging the same
document once more therefore changes nothing.
-/

namespace UplinkShaper

namespace Value

def isMapping : Value → Bool
  | .mapping _ => true
  | _ => false

mutual

/-- Whether the keys of the mappings in a document are texts that come once. -/
def isKeyed : Value → Bool
  | .mapping entries => entriesAreKeyed entries
  | _ => true

def entriesAreKeyed : List (Value × Value) → Bool
  | [] => true
  | (key, value) :: rest =>
      key.isText && (find? key rest).isNone && value.isKeyed && entriesAreKeyed rest

end

section Entries

variable {key value : Value} {entries rest : List (Value × Value)}

theorem entriesAreKeyed_cons : entriesAreKeyed ((key, value) :: rest) = true ↔
    (∃ name, key = .text name) ∧ find? key rest = none ∧ value.isKeyed = true ∧
      entriesAreKeyed rest = true := by
  rw [entriesAreKeyed]
  cases key with
  | text name => simp [isText, and_assoc]
  | _ => simp [isText]

theorem isText_of_entriesAreKeyed (keyed : entriesAreKeyed entries = true) :
    ∀ entry ∈ entries, entry.1.isText = true := by
  induction entries with
  | nil => simp
  | cons entry rest induction =>
      rcases entry with ⟨key, value⟩
      rcases entriesAreKeyed_cons.mp keyed with ⟨⟨name, rfl⟩, _, _, keyed⟩
      exact List.forall_mem_cons.mpr ⟨rfl, induction keyed⟩

theorem areDistinct_of_entriesAreKeyed (keyed : entriesAreKeyed entries = true) :
    hasDistinctKeys.areDistinct entries = true := by
  induction entries with
  | nil => rfl
  | cons entry rest induction =>
      rcases entry with ⟨key, value⟩
      rcases entriesAreKeyed_cons.mp keyed with ⟨_, absent, _, keyed⟩
      rw [hasDistinctKeys.areDistinct, absent, induction keyed]
      rfl

theorem isKeyed_of_mem (keyed : entriesAreKeyed entries = true) (member : (key, value) ∈ entries) :
    value.isKeyed = true := by
  induction entries with
  | nil => cases member
  | cons entry rest induction =>
      rcases entry with ⟨other, old⟩
      rcases entriesAreKeyed_cons.mp keyed with ⟨_, _, oldKeyed, keyed⟩
      rcases List.mem_cons.mp member with same | later
      · cases same
        exact oldKeyed
      · exact induction keyed later

/-- Each entry is the one that is found under its key. -/
theorem find?_of_mem (keyed : entriesAreKeyed entries = true) (member : (key, value) ∈ entries) :
    ∃ name, key = .text name ∧ find? (.text name) entries = some value := by
  induction entries with
  | nil => cases member
  | cons entry rest induction =>
      rcases entry with ⟨other, old⟩
      rcases entriesAreKeyed_cons.mp keyed with ⟨⟨name, rfl⟩, absent, _, keyed⟩
      rcases List.mem_cons.mp member with same | later
      · cases same
        exact ⟨name, rfl, by rw [find?, if_pos (sameKey_text_iff.mpr rfl)]⟩
      · rcases induction keyed later with ⟨wanted, rfl, found⟩
        have different : name ≠ wanted := by
          rintro rfl
          rw [absent] at found
          cases found
        exact ⟨wanted, rfl, by rw [find?, if_neg (not_sameKey_text different), found]⟩

theorem put_of_find? {name : String} (found : find? (.text name) entries = some value) :
    put (.text name) value entries = entries := by
  induction entries with
  | nil => cases found
  | cons entry rest induction =>
      rcases entry with ⟨other, old⟩
      rw [find?] at found
      rw [put]
      split at found
      case isTrue same =>
        cases found
        rw [if_pos same]
      case isFalse different => rw [if_neg different, induction found]

end Entries

/-! ## Laying one value over another -/

theorem laidOver_none (value : Value) : laidOver none value = value := by
  cases value with
  | mapping entries =>
      rw [laidOver]
      rintro base ⟨⟩
  | _ => rfl

theorem laidOver_of_not_isMapping {value : Value} (plain : value.isMapping = false)
    (old : Option Value) : laidOver old value = value := by
  cases value with
  | mapping entries => cases plain
  | _ => rfl

theorem laidOver_empty (entries : List (Value × Value)) :
    laidOver (some (.mapping entries)) (.mapping []) = .mapping entries := rfl

/-- What stands under a name where a mapping was laid over something. -/
theorem field?_laidOver {entries : List (Value × Value)} (keyed : entriesAreKeyed entries = true)
    (old : Option Value) (name : String) :
    (laidOver old (.mapping entries)).field? name =
      match find? (.text name) entries with
      | none => old.bind (·.field? name)
      | some value => some (laidOver (old.bind (·.field? name)) value) := by
  have nothing (absent : old.bind (·.field? name) = none) :
      (Value.mapping entries).field? name =
        match find? (.text name) entries with
        | none => old.bind (·.field? name)
        | some value => some (laidOver (old.bind (·.field? name)) value) := by
    rw [absent, field?]
    cases find? (.text name) entries with
    | none => rfl
    | some value => exact congrArg some (laidOver_none value).symm
  cases old with
  | none =>
      rw [laidOver_none]
      exact nothing rfl
  | some former =>
      cases former with
      | mapping base =>
          exact find?_mergeEntries (isText_of_entriesAreKeyed keyed)
            (areDistinct_of_entriesAreKeyed keyed)
      | _ => exact nothing rfl

theorem bind_at?_cons (old : Option Value) (name : String) (rest : List String) :
    old.bind (·.at? (name :: rest)) = (old.bind (·.field? name)).bind (·.at? rest) := by
  cases old with
  | none => rfl
  | some former => rfl

theorem exists_field_of_at?_cons {value element : Value} {name : String} {rest : List String}
    (reached : value.at? (name :: rest) = some element) :
    ∃ entries inner, value = .mapping entries ∧ find? (.text name) entries = some inner ∧
      inner.at? rest = some element := by
  rcases Option.bind_eq_some_iff.mp reached with ⟨inner, found, goesOn⟩
  cases value with
  | mapping entries => exact ⟨entries, inner, rfl, found, goesOn⟩
  | _ => cases found

/-- Where the upper value reaches something, that is laid over what the lower one has there. -/
theorem at?_laidOver {path : List String} {value element : Value} (keyed : value.isKeyed = true)
    (reached : value.at? path = some element) (old : Option Value) :
    (laidOver old value).at? path = some (laidOver (old.bind (·.at? path)) element) := by
  induction path generalizing value old with
  | nil =>
      cases Option.some.inj reached
      exact congrArg (fun former => some (laidOver former element)) (Option.bind_fun_some old).symm
  | cons name rest induction =>
      rcases exists_field_of_at?_cons reached with ⟨entries, inner, rfl, found, goesOn⟩
      have innerKeyed := isKeyed_of_mem keyed (mem_of_find? found)
      rw [at?, field?_laidOver keyed, found, bind_at?_cons]
      exact induction innerKeyed goesOn _

/-- Where the upper value reaches nothing and stops at a mapping, the lower one stays. -/
theorem at?_laidOver_of_none {path : List String} {value : Value} (keyed : value.isKeyed = true)
    (silent : value.at? path = none)
    (goesThrough : ∀ stem, stem <+: path → stem ≠ path →
      ∀ element, value.at? stem = some element → element.isMapping = true)
    (old : Option Value) : (laidOver old value).at? path = old.bind (·.at? path) := by
  induction path generalizing value old with
  | nil => cases silent
  | cons name rest induction =>
      have isMapping := goesThrough [] List.nil_prefix (List.cons_ne_nil name rest).symm value rfl
      cases value with
      | mapping entries =>
          rw [at?, field?_laidOver keyed, bind_at?_cons]
          cases found : find? (.text name) entries with
          | none => rfl
          | some inner =>
              have goesOn (stem : List String) :
                  (Value.mapping entries).at? (name :: stem) = inner.at? stem := by
                rw [at?, field?, found]
                rfl
              apply induction (isKeyed_of_mem keyed (mem_of_find? found))
                ((goesOn rest).symm.trans silent)
              intro stem isPrefix isProper element reached
              exact goesThrough (name :: stem) (List.prefix_cons_inj name |>.mpr isPrefix)
                (fun same => isProper (List.cons.inj same).2) element
                ((goesOn stem).trans reached)
      | _ => cases isMapping

/-! ## Once more -/

/-- Entries that are laid over a mapping change nothing there if none of them does. -/
theorem mergeEntries_of_settled {merged entries : List (Value × Value)}
    (keyed : entriesAreKeyed entries = true)
    (settled : ∀ key value, (key, value) ∈ entries →
      ∃ former, find? key merged = some former ∧ laidOver (some former) value = former) :
    mergeEntries merged entries = merged := by
  induction entries with
  | nil => rfl
  | cons entry rest induction =>
      rcases entry with ⟨key, value⟩
      rcases entriesAreKeyed_cons.mp keyed with ⟨⟨name, rfl⟩, _, _, keyed⟩
      rcases settled (.text name) value (List.mem_cons_self ..) with ⟨former, found, same⟩
      rw [mergeEntries, found, same, put_of_find? found]
      exact induction keyed fun key value member =>
        settled key value (List.mem_cons_of_mem _ member)

mutual

theorem laidOver_laidOver : ∀ value : Value, value.isKeyed = true → ∀ old : Option Value,
    laidOver (some (laidOver old value)) value = laidOver old value
  | .mapping entries, keyed, old => by
      rcases exists_laidOver_mapping old entries with ⟨merged, isMerged⟩
      have isField (name : String) := field?_laidOver keyed old name
      rw [isMerged] at isField ⊢
      refine congrArg Value.mapping (mergeEntries_of_settled keyed fun key value member => ?_)
      rcases find?_of_mem keyed member with ⟨name, rfl, found⟩
      specialize isField name
      rw [found] at isField
      exact ⟨_, isField, laidOver_laidOver_of_mem entries keyed _ member _⟩
  | .null, _, _ | .boolean _, _, _ | .number _, _, _ | .text _, _, _ | .list _, _, _
  | .date _, _, _ | .moment _, _, _ | .bytes _, _, _ | .set _, _, _ | .pair _ _, _, _ => rfl

theorem laidOver_laidOver_of_mem : ∀ entries : List (Value × Value),
    entriesAreKeyed entries = true → ∀ entry ∈ entries, ∀ old : Option Value,
      laidOver (some (laidOver old entry.2)) entry.2 = laidOver old entry.2
  | [], _, _, member, _ => nomatch member
  | (key, value) :: rest, keyed, entry, member, old => by
      rcases entriesAreKeyed_cons.mp keyed with ⟨_, _, valueKeyed, restKeyed⟩
      rcases List.mem_cons.mp member with rfl | later
      · exact laidOver_laidOver value valueKeyed old
      · exact laidOver_laidOver_of_mem rest restKeyed entry later old

end

/-! ## Merging -/

/-- What it is for a document to be another one with exactly what a third says in its place. -/
structure IsOverridden (base override merged : Value) : Prop where
  holds : ∀ path value, override.at? path = some value → value.isMapping = false →
    merged.at? path = some value
  keeps : ∀ path, override.at? path = none →
    (∀ stem, stem <+: path → stem ≠ path →
      ∀ value, override.at? stem = some value → value.isMapping = true) →
    merged.at? path = base.at? path
  /-- Lists are not joined. -/
  replaces : ∀ path items former, override.at? path = some (.list items) →
    base.at? path = some former → merged.at? path = some (.list items)
  spares : ∀ path entries, override.at? path = some (.mapping []) →
    base.at? path = some (.mapping entries) → merged.at? path = some (.mapping entries)
  settled : merge merged override = merged

/-- A merged document says what the upper one writes, and everything else as the lower one has
it; to merge the upper one again changes nothing. -/
theorem isOverridden_merge {override : Value} (keyed : override.isKeyed = true) (base : Value) :
    IsOverridden base override (merge base override) where
  holds path value reached plain := by
    rw [merge, at?_laidOver keyed reached, laidOver_of_not_isMapping plain]
  keeps path silent goesThrough := at?_laidOver_of_none keyed silent goesThrough (some base)
  replaces path items former reached _ := by
    rw [merge, at?_laidOver keyed reached, laidOver_of_not_isMapping rfl]
  spares path entries reached isMapping := by
    rw [merge, at?_laidOver keyed reached, Option.bind_some, isMapping, laidOver_empty]
  settled := laidOver_laidOver override keyed (some base)

/-- A document with a rate of its own, no tiers, and nothing about marking. -/
def slowDocument : Value :=
  .record [("bandwidth", .record [("upload_kbps", .whole 5000)]), ("tiers", .list []),
    ("marking", .record [])]

theorem isOverridden_merge_slowDocument : slowDocument.isKeyed = true ∧
    IsOverridden (Configuration.builtIn .system) slowDocument
      (merge (Configuration.builtIn .system) slowDocument) :=
  ⟨rfl, isOverridden_merge rfl (Configuration.builtIn .system)⟩

end Value

end UplinkShaper
