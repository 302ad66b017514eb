import Mathlib.Data.List.Basic
import UplinkShaper.Config.Schema
import UplinkShaper.Proofs.Results

/-!
Values that a schema admits: those that depart from it nowhere. Where in a document a
value stands plays no part in that, so a part of an admitted value is admitted by the
schema of its place.
-/

namespace UplinkShaper

namespace Schema

/-- A value departs from a schema nowhere. -/
def Admits (schema : Schema) (value : Value) : Prop :=
  ∃ path, schema.errors path value = []

theorem check_eq_ok_iff {schema : Schema} {document : Value} :
    schema.check document = .ok () ↔ schema.errors [] document = [] := by
  simp only [check]
  constructor
  · intro checked
    split at checked
    · assumption
    · split at checked
      · cases checked
      · rcases Result.bind_eq_ok.mp checked with ⟨_, _, impossible⟩
        cases impossible
  · intro none
    rw [none]

theorem admits_of_check {schema : Schema} {document : Value}
    (checked : schema.check document = .ok ()) : schema.Admits document :=
  ⟨[], check_eq_ok_iff.mp checked⟩

theorem admits_form_of_formErrors {forms : List Form} {path : List Value} {value : Value}
    (none : formErrors forms path value = []) : ∃ form ∈ forms, form.admits value = true := by
  simp only [formErrors] at none
  split at none
  case isTrue admitted => exact List.any_eq_true.mp admitted
  case isFalse => cases none

theorem Admits.form {forms : List Form} {rules : List ScalarRule} {value : Value}
    (admitted : (Schema.scalar forms rules).Admits value) :
    ∃ form ∈ forms, form.admits value = true := by
  rcases admitted with ⟨path, none⟩
  rw [errors, List.append_eq_nil_iff] at none
  exact admits_form_of_formErrors none.1

theorem Admits.rule {forms : List Form} {rules : List ScalarRule} {value : Value}
    (admitted : (Schema.scalar forms rules).Admits value) {rule : ScalarRule}
    (member : rule ∈ rules) : rule.complaint? value = none := by
  rcases admitted with ⟨path, none⟩
  rw [errors, List.append_eq_nil_iff] at none
  have noComplaint := List.map_eq_nil_iff.mp none.2
  exact List.filterMap_eq_nil_iff.mp noComplaint rule member

theorem Admits.item {forms : List Form} {item : Schema} {values : List Value}
    (admitted : (Schema.items forms item).Admits (.list values)) {element : Value}
    (member : element ∈ values) : item.Admits element := by
  rcases admitted with ⟨path, none⟩
  rw [errors, List.append_eq_nil_iff] at none
  rcases List.getElem_of_mem member with ⟨index, inside, rfl⟩
  refine ⟨path ++ [.whole index], ?_⟩
  refine List.flatten_eq_nil_iff.mp none.2 _ (List.mem_mapIdx.mpr ⟨index, inside, rfl⟩)

theorem admits_of_fieldErrors {path : List Value} {value element : Value}
    {fields : List (String × Schema)} (none : fieldErrors path value fields = []) {name : String}
    {schema : Schema} (member : (name, schema) ∈ fields)
    (found : value.field? name = some element) : schema.Admits element := by
  induction fields with
  | nil => cases member
  | cons head rest induction =>
      rcases head with ⟨other, otherSchema⟩
      rw [fieldErrors, List.append_eq_nil_iff] at none
      rcases List.mem_cons.mp member with equal | later
      · cases equal
        rw [found] at none
        exact ⟨_, none.1⟩
      · exact induction none.2 later

theorem Admits.field {required : List String} {fields : List (String × Schema)} {isClosed : Bool}
    {value element : Value} (admitted : (Schema.record required fields isClosed).Admits value)
    {name : String} {schema : Schema} (member : (name, schema) ∈ fields)
    (found : value.field? name = some element) : schema.Admits element := by
  rcases admitted with ⟨path, none⟩
  cases value with
  | mapping entries =>
      rw [errors, List.append_eq_nil_iff] at none
      rcases List.append_eq_nil_iff.mp none.2 with ⟨parts, _⟩
      rcases List.append_eq_nil_iff.mp parts with ⟨_, fieldsNone⟩
      exact admits_of_fieldErrors fieldsNone member found
  | _ => cases found

/-! ## Texts -/

/-- A value that has to be one of several names. -/
theorem exists_name_of_admits {forms : List Form} {names : List String} {value : Value}
    (admitted : (Schema.scalar forms [.oneOf names]).Admits value) :
    ∃ name ∈ names, value = .text name := by
  have none := admitted.rule (List.mem_singleton.mpr rfl)
  cases value with
  | text name =>
      simp only [ScalarRule.complaint?] at none
      split at none
      case isTrue listed => exact ⟨name, listed, rfl⟩
      case isFalse => cases none
  | _ => cases none

theorem exists_text_of_admits {value : Value} (admitted : (Schema.scalar [.text] []).Admits value) :
    ∃ text, value = .text text := by
  rcases admitted.form with ⟨form, isForm, formAdmits⟩
  cases List.mem_singleton.mp isForm
  cases value with
  | text text => exact ⟨text, rfl⟩
  | _ => cases formAdmits

/-! ## Whole numbers -/

theorem exists_number_of_admits {rules : List ScalarRule} {value : Value}
    (admitted : (Schema.scalar [.integer] rules).Admits value) :
    ∃ number, value = .number number ∧ number.isIntegral = true := by
  rcases admitted.form with ⟨form, isForm, formAdmits⟩
  cases List.mem_singleton.mp isForm
  cases value with
  | number number => exact ⟨number, rfl, formAdmits⟩
  | _ => cases formAdmits

theorem le_of_admits {forms : List Form} {minimum value : Int}
    (admitted : (Schema.scalar forms [.atLeast minimum]).Admits (.whole value)) :
    minimum ≤ value := by
  have notLess := admitted.rule (List.mem_singleton.mpr rfl)
  by_contra less
  have isLess : (Number.whole value).lt (.whole minimum) = true := by
    simp [Number.lt, Number.compare?, Int.compare_eq_lt, Int.not_le.mp less]
  simp only [ScalarRule.complaint?, Value.whole, isLess] at notLess
  cases notLess

end Schema

end UplinkShaper
