import UplinkShaper.Proofs.Config.Plain

/-!
Sections of a complete document: everything that settings are read from. Merged over the
built-in document, a document that the schema admits has each of them, in the form that
the schema asks for.
-/

namespace UplinkShaper

namespace Value

/-- The value under several names, one inside the other. -/
def at? (document : Value) : List String → Option Value
  | [] => some document
  | name :: rest => (document.field? name).bind (·.at? rest)

/-- Whether no key of a mapping comes twice. -/
def hasDistinctKeys : Value → Bool
  | .mapping entries => areDistinct entries
  | _ => true
where
  areDistinct : List (Value × Value) → Bool
    | [] => true
    | (key, _) :: rest => (find? key rest).isNone && areDistinct rest

theorem at?_single (document : Value) (name : String) :
    document.at? [name] = document.field? name :=
  Option.bind_fun_some _

theorem at?_pair {document element : Value} {name : String}
    (found : document.field? name = some element) (inner : String) :
    document.at? [name, inner] = element.field? inner := by
  rw [at?, found]
  exact at?_single element inner

theorem not_sameKey_text {name other : String} (different : other ≠ name) :
    ¬ (Value.text other).sameKey (.text name) = true := by
  rw [sameKey_text_iff]
  rintro ⟨⟩
  exact different rfl

theorem find?_put {name other : String} {value : Value} {entries : List (Value × Value)} :
    find? (.text name) (put (.text other) value entries) =
      if other = name then some value else find? (.text name) entries := by
  induction entries with
  | nil =>
      by_cases same : other = name
      · simp [put, find?, sameKey_text_iff, same]
      · simp [put, find?, sameKey_text_iff, same]
  | cons entry rest induction =>
      rcases entry with ⟨key, old⟩
      by_cases isOther : key.sameKey (.text other) = true
      · rw [put, if_pos isOther]
        cases sameKey_text_iff.mp isOther
        by_cases same : other = name
        · simp [find?, sameKey_text_iff, same]
        · simp [find?, sameKey_text_iff, same]
      · rw [put, if_neg isOther, find?, find?, induction]
        by_cases isName : key.sameKey (.text name) = true
        · have different : other ≠ name := by
            rintro rfl
            exact isOther isName
          rw [if_pos isName, if_pos isName, if_neg different]
        · rw [if_neg isName, if_neg isName]

/-- What stands under a name in a merged document. -/
theorem find?_mergeEntries {name : String} {base entries : List (Value × Value)}
    (texts : ∀ entry ∈ entries, entry.1.isText = true)
    (distinct : hasDistinctKeys.areDistinct entries = true) :
    find? (.text name) (mergeEntries base entries) =
      match find? (.text name) entries with
      | none => find? (.text name) base
      | some value => some (laidOver (find? (.text name) base) value) := by
  induction entries generalizing base with
  | nil => rfl
  | cons entry rest induction =>
      rcases entry with ⟨key, value⟩
      simp only [hasDistinctKeys.areDistinct, Bool.and_eq_true,
        Option.isNone_iff_eq_none] at distinct
      rcases List.forall_mem_cons.mp texts with ⟨isText, restTexts⟩
      rcases exists_text_of_isText isText with ⟨other, rfl⟩
      rw [mergeEntries, induction restTexts distinct.2, find?_put, find?]
      by_cases same : other = name
      · subst same
        rw [distinct.1, if_pos rfl, if_pos (sameKey_text_iff.mpr rfl)]
      · rw [if_neg same, if_neg (not_sameKey_text same)]

/-- A mapping in a mapping keeps its keys, if it is one still. -/
theorem exists_at?_merge {base inner : List (Value × Value)} {document element : Value}
    {outer name : String} (plain : document.isPlain = true)
    (distinct : document.hasDistinctKeys = true)
    (known : find? (.text outer) base = some (.mapping inner))
    (isKnown : (find? (.text name) inner).isSome = true)
    (found : (merge (.mapping base) document).field? outer = some element)
    (isMapping : ∃ entries, element = .mapping entries) :
    ∃ part, element.field? name = some part := by
  cases document with
  | mapping entries =>
      change find? (.text outer) (mergeEntries base entries) = some element at found
      have texts : ∀ entry ∈ entries, entry.1.isText = true :=
        fun entry member => (entriesArePlain_iff.mp plain entry member).1
      rw [find?_mergeEntries texts distinct, known] at found
      split at found
      case h_1 =>
        cases found
        exact Option.isSome_iff_exists.mp isKnown
      case h_2 value _ =>
        cases found
        exact exists_field?_merge isKnown isMapping
  | _ => cases found

end Value

namespace Schema

/-- The parts of a schema that values are read from: its fields, and the fields of those that
are open mappings themselves. -/
def sections : Schema → List (List String × Schema)
  | .record _ fields _ =>
      fields.flatMap fun (name, part) =>
        match part with
        | .record _ inner false => inner.map fun (field, part) => ([name, field], part)
        | part => [([name], part)]
  | _ => []

theorem exists_mapping_of_at? {base : List (Value × Value)} {outer name : String}
    (known : ((Value.mapping base).at? [outer, name]).isSome = true) :
    ∃ inner, Value.find? (.text outer) base = some (.mapping inner) ∧
      (Value.find? (.text name) inner).isSome = true := by
  cases found : (Value.mapping base).field? outer with
  | none =>
      rw [Value.at?, found] at known
      cases known
  | some element =>
      rw [Value.at?_pair found] at known
      cases element with
      | mapping inner => exact ⟨inner, found, known⟩
      | _ => cases known

/-- A document that is merged over one with all sections has them too, if a schema admits it. -/
theorem exists_section_of_admits {schema : Schema} {base : List (Value × Value)}
    {document : Value}
    (known : ∀ part ∈ schema.sections, ((Value.mapping base).at? part.1).isSome = true)
    (plain : document.isPlain = true) (distinct : document.hasDistinctKeys = true)
    (admitted : schema.Admits (Value.merge (.mapping base) document)) :
    ∀ part ∈ schema.sections,
      ∃ element, (Value.merge (.mapping base) document).at? part.1 = some element ∧
        part.2.Admits element := by
  cases schema with
  | record required fields isClosed =>
      rcases admitted.exists_entries with ⟨merged, isMapping⟩
      intro part isPart
      have isKnown := known part isPart
      rcases List.mem_flatMap.mp isPart with ⟨⟨name, inside⟩, isField, isSection⟩
      dsimp only at isSection
      split at isSection
      case h_1 inner =>
        rcases List.mem_map.mp isSection with ⟨⟨field, innermost⟩, isInner, rfl⟩
        rcases exists_mapping_of_at? isKnown with ⟨former, knownOuter, knownInner⟩
        rcases Value.exists_field?_merge (Option.isSome_of_mem knownOuter) ⟨merged, isMapping⟩ with
          ⟨element, found⟩
        have part := admitted.field isField found
        rcases Value.exists_at?_merge plain distinct knownOuter knownInner found
          part.exists_entries with ⟨innermostElement, foundInner⟩
        exact ⟨innermostElement, (Value.at?_pair found field).trans foundInner,
          part.field isInner foundInner⟩
      case h_2 =>
        cases List.mem_singleton.mp isSection
        rw [Value.at?_single] at isKnown
        rcases Value.exists_field?_merge isKnown ⟨merged, isMapping⟩ with ⟨element, found⟩
        exact ⟨element, (Value.at?_single _ name).trans found, admitted.field isField found⟩
  | _ =>
      intro part isPart
      cases isPart

end Schema

namespace Settings

theorem field_of_at? {document element : Value} {names : List String}
    (found : document.at? names = some element) : field document names = element := by
  induction names generalizing document with
  | nil => exact Option.some.inj found
  | cons name rest induction =>
      rcases Option.bind_eq_some_iff.mp found with ⟨inner, isInner, goesOn⟩
      rw [field, List.foldl_cons, isInner]
      exact induction goesOn

/-- Everything that settings are read from is in their document, and of the form that the
schema asks for. -/
def HasSections (settings : Settings) : Prop :=
  ∀ part ∈ Configuration.schema.sections,
    ∃ element, settings.document.at? part.1 = some element ∧ part.2.Admits element

example : Configuration.schema.sections.map (·.1) =
    [["interfaces", "wan"], ["interfaces", "lan"], ["bandwidth", "upload_kbps"],
      ["bandwidth", "download_kbps"], ["rtt_ms"], ["leaf_qdisc"], ["reserved"], ["tiers"],
      ["default"], ["commands"], ["marking", "chain"], ["marking", "log_marks"],
      ["state_path"], ["apply_retries"]] := rfl

theorem exists_section_of_check {locations : Locations} {document : Value}
    (plain : document.isPlain = true) (distinct : document.hasDistinctKeys = true)
    (checked : Configuration.schema.check
      (Value.merge (Configuration.builtIn locations) document) = .ok ()) :
    ∀ part ∈ Configuration.schema.sections, ∃ element,
      (Value.merge (Configuration.builtIn locations) document).at? part.1 = some element ∧
        part.2.Admits element := by
  apply Schema.exists_section_of_admits _ plain distinct (Schema.admits_of_check checked)
  have known : Configuration.schema.sections.all
      (fun part => ((Configuration.builtIn locations).at? part.1).isSome) = true := rfl
  exact List.all_eq_true.mp known

end Settings

end UplinkShaper
