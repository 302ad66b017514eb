import UplinkShaper.Config.Settings
import UplinkShaper.Proofs.Config.Schema

/-!
Merged documents. What is merged over a mapping keeps each of its keys, so settings have a
value wherever the built-in document has one, and the schema admits that value.
-/

namespace UplinkShaper

namespace Value

theorem isSome_find?_put {wanted key value : Value} {entries : List (Value × Value)}
    (found : (find? wanted entries).isSome = true) :
    (find? wanted (put key value entries)).isSome = true := by
  induction entries with
  | nil => cases found
  | cons entry rest induction =>
      rcases entry with ⟨other, old⟩
      by_cases isKey : other.sameKey key = true
      · rw [put, if_pos isKey]
        by_cases isWanted : other.sameKey wanted = true
        · simp [find?, isWanted]
        · simpa [find?, isWanted] using found
      · rw [put, if_neg isKey]
        by_cases isWanted : other.sameKey wanted = true
        · simp [find?, isWanted]
        · simp only [find?, if_neg isWanted] at found ⊢
          exact induction found

theorem isSome_find?_mergeEntries {wanted : Value} {base entries : List (Value × Value)}
    (found : (find? wanted base).isSome = true) :
    (find? wanted (mergeEntries base entries)).isSome = true := by
  induction entries generalizing base with
  | nil => exact found
  | cons entry rest induction =>
      rw [mergeEntries]
      exact induction (isSome_find?_put found)

/-- A document that is merged over a mapping keeps its keys, or is no mapping. -/
theorem exists_field?_merge {base : List (Value × Value)} {document : Value} {name : String}
    (known : (find? (.text name) base).isSome = true)
    (isMapping : ∃ entries, merge (.mapping base) document = .mapping entries) :
    ∃ element, (merge (.mapping base) document).field? name = some element := by
  cases document with
  | mapping entries =>
      exact Option.isSome_iff_exists.mp (isSome_find?_mergeEntries known)
  | _ => rcases isMapping with ⟨_, ⟨⟩⟩

end Value

namespace Schema

theorem Admits.exists_entries {required : List String} {fields : List (String × Schema)}
    {isClosed : Bool} {value : Value}
    (admitted : (Schema.record required fields isClosed).Admits value) :
    ∃ entries, value = .mapping entries := by
  rcases admitted with ⟨path, none⟩
  cases value with
  | mapping entries => exact ⟨entries, rfl⟩
  | _ => cases none

end Schema

namespace Settings

/-- What accepted settings take over from their complete document as it is. -/
theorem admits_of_ofDocument {locations : Locations} {document : Value} {source : Option Path}
    {settings : Settings} (accepted : ofDocument locations document source = .ok settings) :
    let complete := Value.merge (Configuration.builtIn locations) document
    Configuration.schema.Admits complete ∧ settings.leafQueue = textAt complete ["leaf_qdisc"] ∧
      settings.retries = numberAt complete ["apply_retries"] := by
  rcases Result.bind_eq_ok.mp accepted with ⟨_, checked, read⟩
  rcases Result.bind_eq_ok.mp read with ⟨_, _, read⟩
  rcases Result.bind_eq_ok.mp read with ⟨_, _, read⟩
  rcases Result.bind_eq_ok.mp read with ⟨_, _, read⟩
  rcases Result.bind_eq_ok.mp read with ⟨_, _, read⟩
  rw [← Result.pure_eq_ok.mp read]
  exact ⟨Schema.admits_of_check checked, rfl, rfl⟩

theorem field_of_field? {document element : Value} {name : String}
    (found : document.field? name = some element) : field document [name] = element := by
  rw [field, List.foldl_cons, List.foldl_nil, found]
  rfl

section Accepted

variable {locations : Locations} {document : Value} {source : Option Path} {settings : Settings}

/-- The kind of queue of accepted settings is one of those that there are. -/
theorem leafQueue_of_ofDocument (accepted : ofDocument locations document source = .ok settings) :
    settings.leafQueue ∈ Configuration.leafQueues := by
  rcases admits_of_ofDocument accepted with ⟨admitted, read, _⟩
  have present : ∃ element, (Value.merge (Configuration.builtIn locations) document).field?
      "leaf_qdisc" = some element := Value.exists_field?_merge rfl admitted.exists_entries
  rcases present with ⟨element, found⟩
  have listed : (Schema.scalar [.text] [.oneOf Configuration.leafQueues]).Admits element :=
    admitted.field (by simp) found
  rcases Schema.exists_name_of_admits listed with ⟨name, member, rfl⟩
  rw [read, textAt, field_of_field? found]
  exact member

/-- Attempts are never taken away. -/
theorem retries_nonneg_of_ofDocument
    (accepted : ofDocument locations document source = .ok settings) {retries : Int}
    (isWhole : settings.retries = .whole retries) : 0 ≤ retries := by
  rcases admits_of_ofDocument accepted with ⟨admitted, _, read⟩
  have present : ∃ element, (Value.merge (Configuration.builtIn locations) document).field?
      "apply_retries" = some element := Value.exists_field?_merge rfl admitted.exists_entries
  rcases present with ⟨element, found⟩
  have bounded : (Schema.scalar [.integer] [.atLeast 0]).Admits element :=
    admitted.field (by simp) found
  rcases Schema.exists_number_of_admits bounded with ⟨number, rfl, _⟩
  rw [read, numberAt, field_of_field? found] at isWhole
  have same : number = .whole retries := isWhole
  rw [same] at bounded
  exact Schema.le_of_admits bounded

end Accepted

end Settings

end UplinkShaper
