import Mathlib.Data.Int.Interval
import Mathlib.Order.Monotone.Basic
import Mathlib.Tactic.IntervalCases
import UplinkShaper.Proofs.Results
import UplinkShaper.Shaping.Allocation

/-!
Ids of tiers. Reading decimal digits as hexadecimal ones keeps the order of numbers, so
different ids have different class handles, and the ids whose handles are wide enough
are those up to 9999.
-/

namespace UplinkShaper

namespace Allocation

/-! ## Decimal digits read as hexadecimal ones -/

theorem digitChar_value {digit : Nat} (small : digit < 10) :
    digit.digitChar.toNat - 48 = digit := by
  interval_cases digit <;> rfl

/-- The last digit, and the number before it read in the same way. -/
theorem readAsHexadecimal_step (value : Nat) :
    readAsHexadecimal value = 16 * readAsHexadecimal (value / 10) + value % 10 := by
  have small := Nat.mod_lt value (by decide : 0 < 10)
  by_cases short : value < 10
  · have zero : readAsHexadecimal (value / 10) = 0 := by
      rw [Nat.div_eq_of_lt short]
      rfl
    rw [zero, Nat.mod_eq_of_lt short, readAsHexadecimal, Nat.toDigits_of_lt_base short]
    simp [digitChar_value short]
  · rw [readAsHexadecimal, Nat.toDigits_of_base_le (by decide) (not_lt.mp short)]
    simp [readAsHexadecimal, digitChar_value small]

theorem readAsHexadecimal_strictMono : StrictMono readAsHexadecimal := by
  intro left right less
  induction right using Nat.strong_induction_on generalizing left with
  | _ right induction =>
      have leftStep := readAsHexadecimal_step left
      have rightStep := readAsHexadecimal_step right
      have leftDigit := Nat.mod_lt left (by decide : 0 < 10)
      rcases Nat.lt_or_ge (left / 10) (right / 10) with shorter | longer
      · have before := induction (right / 10) (by omega) shorter
        omega
      · have same : left / 10 = right / 10 := by omega
        rw [same] at leftStep
        omega

theorem readAsHexadecimal_le_largestMinor_iff {value : Nat} :
    readAsHexadecimal value ≤ largestMinor ↔ value ≤ 9999 := by
  have last : readAsHexadecimal 9999 = 0x9999 := by decide
  have next : readAsHexadecimal 10000 = 0x10000 := by decide
  constructor
  · intro narrow
    by_contra tooLong
    have := readAsHexadecimal_strictMono.monotone (not_le.mp tooLong)
    rw [show Nat.succ 9999 = 10000 from rfl, next] at this
    simp only [largestMinor] at narrow
    omega
  · intro short
    have := readAsHexadecimal_strictMono.monotone short
    rw [last] at this
    simp only [largestMinor]
    omega

/-! ## Checking ids -/

/-- An id that a tier may have. -/
def IsTierId (id : Int) : Prop :=
  2 ≤ id ∧ id ≤ 9999

instance (id : Int) : Decidable (IsTierId id) :=
  inferInstanceAs (Decidable (_ ∧ _))

theorem isWritable_of_lt {value : Int} {places : Nat} (few : places ≤ Text.digitLimit)
    (short : value.natAbs < 10 ^ places) : (Number.whole value).isWritable = true := by
  have power {limit : Nat} (below : places ≤ limit) : 10 ^ places ≤ Nat.pow 10 limit :=
    Nat.pow_le_pow_right (by decide) below
  simpa only [Number.isWritable, decide_eq_true_eq] using short.trans_le (power few)

theorem IsTierId.isWritable {id : Int} (proper : IsTierId id) :
    (Number.whole id).isWritable = true := by
  have least := proper.1
  have most := proper.2
  exact @isWritable_of_lt id 4 (by decide) (by omega)

theorem IsTierId.handle_narrow {id : Int} (proper : IsTierId id) :
    readAsHexadecimal id.toNat ≤ largestMinor := by
  have := proper.2
  exact readAsHexadecimal_le_largestMinor_iff.mpr (by omega)

/-- There are fewer than ten thousand different ids. -/
theorem length_le_of_distinct {ids : List Int} (distinct : ids.Nodup)
    (proper : ∀ id ∈ ids, IsTierId id) : ids.length ≤ 10000 := by
  have small : ids.toFinset ⊆ Finset.Icc 2 9999 := fun id member =>
    Finset.mem_Icc.mpr (proper id (List.mem_toFinset.mp member))
  have few := Finset.card_le_card small
  rw [List.toFinset_card_of_nodup distinct, Int.card_Icc] at few
  omega

/-- The ids that pass their check, and the request that comes of it. -/
theorem checkId_eq_ok_iff {seen : List Int} {spec : TierSpec} {request : Request} :
    checkId seen spec = .ok request ↔
      spec.id = .whole request.id ∧ IsTierId request.id ∧ request.id ∉ seen ∧
        request.spec = spec := by
  constructor
  · intro checked
    simp only [checkId] at checked
    split at checked
    case h_1 id isWhole =>
      split at checked
      · cases checked
      · split at checked
        · cases checked
        · split at checked
          · cases checked
          · split at checked
            · cases checked
            · split at checked
              · cases checked
              case isFalse positive notRoot writable narrow new =>
                cases checked
                have wide := readAsHexadecimal_le_largestMinor_iff.mp (not_lt.mp narrow)
                have proper : IsTierId id := by
                  simp only [rootId] at notRoot
                  exact ⟨by omega, by omega⟩
                exact ⟨isWhole, proper, new, rfl⟩
    case h_2 => cases checked
  · rintro ⟨isWhole, proper, new, same⟩
    have positive : ¬ request.id ≤ 0 := by have := proper.1; omega
    have notRoot : ¬ request.id = rootId := by have := proper.1; simp only [rootId]; omega
    have narrow := not_lt.mpr proper.handle_narrow
    simp only [checkId, isWhole, Value.whole, if_neg positive, if_neg notRoot,
      proper.isWritable, Bool.not_true, Bool.false_eq_true, if_false, if_neg narrow, if_neg new]
    rw [← same]

/-- The requests for specifications whose ids are proper ones and differ. -/
theorem checkIds_eq_ok_iff {seen : List Int} {specs : List TierSpec} {requests : List Request} :
    checkIds seen specs = .ok requests ↔
      requests.map (·.spec) = specs ∧
        (∀ request ∈ requests, request.spec.id = .whole request.id ∧ IsTierId request.id) ∧
        (requests.map (·.id)).Nodup ∧ ∀ request ∈ requests, request.id ∉ seen := by
  induction specs generalizing seen requests with
  | nil =>
      simp only [checkIds, Except.ok.injEq, List.map_eq_nil_iff]
      constructor
      · rintro rfl
        simp
      · rintro ⟨rfl, _⟩
        rfl
  | cons spec specs induction =>
      rw [checkIds, Result.bind_eq_ok]
      constructor
      · rintro ⟨first, checked, rest⟩
        rcases Result.bind_eq_ok.mp rest with ⟨others, second, equal⟩
        rw [← Result.pure_eq_ok.mp equal]
        rcases checkId_eq_ok_iff.mp checked with ⟨isWhole, proper, new, rfl⟩
        rcases induction.mp second with ⟨same, each, distinct, unseen⟩
        refine ⟨by simp [same], ?_, ?_, ?_⟩
        · exact List.forall_mem_cons.mpr ⟨⟨isWhole, proper⟩, each⟩
        · refine List.nodup_cons.mpr ⟨?_, distinct⟩
          intro repeated
          rcases List.mem_map.mp repeated with ⟨other, member, equalId⟩
          exact unseen other member (equalId ▸ List.mem_cons_self ..)
        · refine List.forall_mem_cons.mpr ⟨new, fun other member found => ?_⟩
          exact unseen other member (List.mem_cons_of_mem _ found)
      · rintro ⟨same, each, distinct, unseen⟩
        cases requests with
        | nil => cases same
        | cons first others =>
            rcases List.cons.inj same with ⟨rfl, sameRest⟩
            rcases List.forall_mem_cons.mp each with ⟨⟨isWhole, proper⟩, eachRest⟩
            rcases List.forall_mem_cons.mp unseen with ⟨new, unseenRest⟩
            rcases List.nodup_cons.mp distinct with ⟨notRepeated, distinctRest⟩
            refine ⟨first, checkId_eq_ok_iff.mpr ⟨isWhole, proper, new, rfl⟩, ?_⟩
            refine Result.bind_eq_ok.mpr ⟨others, induction.mpr ⟨sameRest, eachRest,
              distinctRest, fun other member => ?_⟩, rfl⟩
            intro found
            rcases List.mem_cons.mp found with equal | old
            · exact notRepeated (List.mem_map.mpr ⟨other, member, equal⟩)
            · exact unseenRest other member old

end Allocation

end UplinkShaper
