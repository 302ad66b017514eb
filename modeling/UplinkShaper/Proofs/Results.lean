import Mathlib.Data.List.Forall2
import UplinkShaper.Failure

/-!
Results that may be failures: what a sequence of two of them comes to, and how checks
and readings of whole lists succeed.
-/

namespace UplinkShaper

namespace Result

variable {ε α β : Type}

theorem bind_eq_ok {first : Except ε α} {next : α → Except ε β} {value : β} :
    first >>= next = .ok value ↔ ∃ middle, first = .ok middle ∧ next middle = .ok value := by
  cases first with
  | error => simp [bind, Except.bind]
  | ok middle => simp [bind, Except.bind]

@[simp]
theorem ok_bind (value : α) (next : α → Except ε β) :
    (Except.ok value >>= next) = next value := rfl

theorem pure_eq_ok {value result : α} :
    (pure value : Except ε α) = .ok result ↔ value = result := by
  simp [pure, Except.pure]

theorem map_eq_ok {change : α → β} {result : Except ε α} {value : β} :
    result.map change = .ok value ↔ ∃ before, result = .ok before ∧ change before = value := by
  cases result with
  | error => simp [Except.map]
  | ok before => simp [Except.map]

theorem mapError_eq_ok {δ : Type} {rename : ε → δ} {result : Except ε α} {value : α} :
    result.mapError rename = .ok value ↔ result = .ok value := by
  cases result with
  | error => simp [Except.mapError]
  | ok found => simp [Except.mapError]

theorem exists_of_isOk {result : Except ε α} (isOk : result.isOk = true) :
    ∃ value, result = .ok value := by
  cases result with
  | error => cases isOk
  | ok value => exact ⟨value, rfl⟩

theorem toOption_eq_some {result : Except ε α} {value : α} :
    result.toOption = some value ↔ result = .ok value := by
  cases result with
  | error => simp [Except.toOption]
  | ok => simp [Except.toOption]

/-- Checks of a list succeed if each of them does. -/
theorem forM_eq_ok {check : α → Except ε Unit} {items : List α} :
    items.forM check = .ok () ↔ ∀ item ∈ items, check item = .ok () := by
  induction items with
  | nil => simp [pure, Except.pure]
  | cons item items induction =>
      rw [List.forM, bind_eq_ok, List.forall_mem_cons]
      constructor
      · rintro ⟨_, first, others⟩
        exact ⟨first, induction.mp others⟩
      · rintro ⟨first, others⟩
        exact ⟨_, first, induction.mpr others⟩

theorem mapM_eq_ok_iff {read : α → Except ε β} {items : List α} {values : List β} :
    items.mapM read = .ok values ↔
      List.Forall₂ (fun item value => read item = .ok value) items values := by
  induction items generalizing values with
  | nil =>
      rw [List.mapM_nil, pure_eq_ok]
      constructor
      · rintro rfl
        exact .nil
      · rintro ⟨⟩
        rfl
  | cons item items induction =>
      rw [List.mapM_cons, bind_eq_ok]
      constructor
      · rintro ⟨value, first, rest⟩
        rcases bind_eq_ok.mp rest with ⟨others, second, equal⟩
        rw [← pure_eq_ok.mp equal]
        exact .cons first (induction.mp second)
      · intro related
        cases related with
        | @cons _ value _ others first second =>
            exact ⟨value, first, bind_eq_ok.mpr ⟨others, induction.mpr second, rfl⟩⟩

theorem exists_mapM_of_forall {read : α → Except ε β} {items : List α}
    (each : ∀ item ∈ items, ∃ value, read item = .ok value) :
    ∃ values, items.mapM read = .ok values := by
  induction items with
  | nil => exact ⟨[], rfl⟩
  | cons item items induction =>
      rcases List.forall_mem_cons.mp each with ⟨⟨value, first⟩, later⟩
      rcases induction later with ⟨values, others⟩
      exact ⟨value :: values, mapM_eq_ok_iff.mpr (.cons first (mapM_eq_ok_iff.mp others))⟩

theorem exists_of_mem_mapM {read : α → Except ε β} {items : List α} {values : List β}
    (result : items.mapM read = .ok values) {value : β} (member : value ∈ values) :
    ∃ item ∈ items, read item = .ok value := by
  induction mapM_eq_ok_iff.mp result with
  | nil => cases member
  | @cons item first items others one rest induction =>
      rcases List.mem_cons.mp member with rfl | later
      · exact ⟨item, List.mem_cons_self .., one⟩
      · rcases induction (mapM_eq_ok_iff.mpr rest) later with ⟨found, isItem, equal⟩
        exact ⟨found, List.mem_cons_of_mem _ isItem, equal⟩

theorem arithmetic_eq_ok {result : Except ArithmeticError α} {value : α} :
    arithmetic result = .ok value ↔ result = .ok value :=
  mapError_eq_ok

/-! ## Refusals -/

/-- A result that is the refusal of a class tree. -/
def IsRefusal (result : Except Failure α) : Prop :=
  ∃ error, result = .error (.allocation error)

theorem IsRefusal.bind {result : Except Failure α} (refused : IsRefusal result)
    (next : α → Except Failure β) : IsRefusal (result >>= next) := by
  rcases refused with ⟨error, rfl⟩
  exact ⟨error, rfl⟩

/-- A result that is a value or the refusal of a class tree, and no other failure. -/
def IsDecision (result : Except Failure α) : Prop :=
  (∃ value, result = .ok value) ∨ IsRefusal result

theorem IsDecision.bind {result : Except Failure α} {next : α → Except Failure β}
    (decision : IsDecision result) (later : ∀ value, result = .ok value → IsDecision (next value)) :
    IsDecision (result >>= next) := by
  rcases decision with ⟨value, rfl⟩ | refused
  · exact later value rfl
  · exact .inr (refused.bind next)

theorem isDecision_forM {check : α → Except Failure Unit} {items : List α}
    (decisions : ∀ item ∈ items, IsDecision (check item)) : IsDecision (items.forM check) := by
  induction items with
  | nil => exact .inl ⟨(), rfl⟩
  | cons item rest induction =>
      rcases List.forall_mem_cons.mp decisions with ⟨here, later⟩
      rw [List.forM]
      exact here.bind fun _ _ => induction later

theorem IsRefusal.not_ok {result : Except Failure α} (refused : IsRefusal result) (value : α) :
    result ≠ .ok value := by
  rcases refused with ⟨error, rfl⟩
  intro equal
  cases equal

end Result

end UplinkShaper
