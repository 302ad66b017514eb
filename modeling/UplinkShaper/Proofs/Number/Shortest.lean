import Mathlib.Data.List.TakeWhile
import UplinkShaper.Number.Decimal
import UplinkShaper.Proofs.Number.Neighbours

/-!
The digits that doubles are written with. The shortest ones are found among at most seventeen,
and what they denote is rounded to the double again.
-/

namespace UplinkShaper

namespace Decimal

variable {value : Rat} {shown : List Char} {exponent : Int}

/-! ## Digits -/

theorem pow_length_toDigits_le {count : Nat} (positive : 0 < count) :
    10 ^ ((Nat.toDigits 10 count).length - 1) ≤ count := by
  by_cases single : (Nat.toDigits 10 count).length - 1 = 0
  · rw [single]
    exact positive
  · rw [← not_lt, ← Nat.length_toDigits_le_iff (by decide) (by omega)]
    omega

theorem lt_pow_length_toDigits (count : Nat) :
    count < 10 ^ (Nat.toDigits 10 count).length :=
  (Nat.length_toDigits_le_iff (by decide) Nat.length_toDigits_pos).mp le_rfl

/-- The first digit of a positive number is not zero. -/
theorem head?_toDigits_ne {count : Nat} (positive : 0 < count) :
    (Nat.toDigits 10 count).head? ≠ some '0' := by
  induction count using Nat.strong_induction_on with
  | _ count induction =>
      by_cases single : count < 10
      · rw [Nat.toDigits_of_lt_base single, List.head?_cons, ne_eq, Option.some.injEq,
          Nat.digitChar_eq_zero]
        omega
      · rw [Nat.toDigits_of_base_le (by decide) (by omega),
          List.head?_append_of_ne_nil _ Nat.toDigits_ne_nil]
        exact induction (count / 10) (by omega) (by omega)

/-- What digits denote, the first of them standing for a multiple of `10 ^ exponent`. -/
def denoted (shown : List Char) (exponent : Int) : Rat :=
  Nat.ofDigitChars 10 shown 0 * 10 ^ (exponent + 1 - shown.length)

theorem denoted_digits (value : Nat) (scale : Int) :
    denoted (digits value) (scale + ((digits value).length - 1 : Int)) = value * 10 ^ scale := by
  rw [denoted, digits, Nat.ofDigitChars_ten_toDigits]
  congr 2
  omega

theorem denoted_append_zeros (shown : List Char) (exponent : Int) (count : Nat) :
    denoted (shown ++ List.replicate count '0') exponent = denoted shown exponent := by
  rw [denoted, denoted, Nat.ofDigitChars_append, Nat.ofDigitChars_replicate_zero,
    List.length_append, List.length_replicate, Nat.cast_mul, Nat.cast_pow, Nat.cast_ofNat,
    mul_comm ((10 : Rat) ^ count), mul_assoc, ← zpow_natCast, ← zpow_add₀ (by norm_num)]
  congr 2
  push_cast
  omega

theorem exists_eq_dropTrailingZeros_append (shown : List Char) :
    ∃ count, shown = dropTrailingZeros shown ++ List.replicate count '0' := by
  refine ⟨(shown.reverse.takeWhile (· == '0')).length, ?_⟩
  have zeros : shown.reverse.takeWhile (· == '0') =
      List.replicate (shown.reverse.takeWhile (· == '0')).length '0' := by
    refine List.eq_replicate_of_mem fun character member => ?_
    exact eq_of_beq (List.mem_takeWhile_imp (p := (· == '0')) member)
  have parts := congrArg List.reverse
    (List.takeWhile_append_dropWhile (p := (· == '0')) (l := shown.reverse))
  rw [List.reverse_append, List.reverse_reverse] at parts
  rw [← List.reverse_replicate, ← zeros]
  exact parts.symm

theorem ten_zpow_exponent_le (positive : 0 < value) :
    (10 : Rat) ^ Decimal.exponent value ≤ value := by
  unfold Decimal.exponent
  split
  case isTrue large =>
    have whole : 0 < value.floor := Rat.le_floor_iff.mpr (by exact_mod_cast large)
    have least := @pow_length_toDigits_le value.floor.toNat (by omega)
    have isFloor : ((value.floor.toNat : Nat) : Rat) = value.floor := by
      exact_mod_cast Int.toNat_of_nonneg whole.le
    have length := @Nat.length_toDigits_pos 10 value.floor.toNat
    have isLength : ((digits value.floor.toNat).length : Int) - 1 =
        (((Nat.toDigits 10 value.floor.toNat).length - 1 : Nat) : Int) := by
      rw [digits]
      omega
    rw [isLength, zpow_natCast]
    calc (10 : Rat) ^ ((Nat.toDigits 10 value.floor.toNat).length - 1)
        ≤ ((value.floor.toNat : Nat) : Rat) := by exact_mod_cast least
      _ ≤ value := isFloor ▸ Rat.floor_le value
  case isFalse small =>
    have inverse : 1 < value⁻¹ := (one_lt_inv₀ positive).mpr (not_le.mp small)
    have ceil : 1 < value⁻¹.ceil := Rat.lt_ceil_iff.mpr (by exact_mod_cast inverse)
    have most := lt_pow_length_toDigits (value⁻¹.ceil - 1).toNat
    have isCeil : value⁻¹.ceil = ((value⁻¹.ceil - 1).toNat : Int) + 1 := by omega
    have bound : value⁻¹ ≤ 10 ^ (digits (value⁻¹.ceil - 1).toNat).length := by
      generalize (value⁻¹.ceil - 1).toNat = count at most isCeil
      calc value⁻¹ ≤ value⁻¹.ceil := Rat.le_ceil
        _ ≤ 10 ^ (digits count).length := by
          rw [isCeil]
          exact_mod_cast most
    rw [zpow_neg, zpow_natCast]
    exact inv_le_of_inv_le₀ positive bound

end Decimal

namespace Double

open Decimal

variable {value grid : Rat}

/-! ## Neighbours on a grid -/

theorem nearestEven_eq_or (value : Rat) :
    nearestEven value = value.floor ∨ nearestEven value = value.floor + 1 := by
  simp only [nearestEven]
  split
  · exact .inl rfl
  · split
    · exact .inr rfl
    · omega

theorem readsBack_iff {decimal : Rat} :
    readsBack value decimal = true ↔ round decimal = .finite value :=
  beq_iff_eq

theorem round_of_gridNeighbour? {significant : Nat} (nonneg : 0 ≤ value) (positive : 0 < grid)
    (found : gridNeighbour? value grid = some significant) :
    round (significant * grid) = .finite value := by
  have below : 0 ≤ (value / grid).floor :=
    Rat.le_floor_iff.mpr (by simpa using div_nonneg nonneg positive.le)
  have cast {whole : Int} (isNonneg : 0 ≤ whole) : ((whole.toNat : Nat) : Rat) = whole := by
    exact_mod_cast Int.toNat_of_nonneg isNonneg
  simp only [gridNeighbour?] at found
  split at found
  case h_1 readsBelow readsAbove =>
    cases found
    rcases nearestEven_eq_or (value / grid) with isBelow | isAbove
    · rw [isBelow, cast below]
      exact readsBack_iff.mp readsBelow
    · rw [isAbove, cast (by omega)]
      exact readsBack_iff.mp (by exact_mod_cast readsAbove)
  case h_2 reads _ =>
    cases found
    rw [cast below]
    exact readsBack_iff.mp reads
  case h_3 _ reads =>
    cases found
    rw [cast (by omega)]
    exact readsBack_iff.mp (by exact_mod_cast reads)
  case h_4 => cases found

/-- On a grid of sixteen digits one of the neighbours of a double reads back. -/
theorem exists_gridNeighbour? (valuePos : 0 < value) (exact : round value = .finite value)
    (positive : 0 < grid) (fine : 10 ^ 16 * grid ≤ value) :
    ∃ significant, gridNeighbour? value grid = some significant := by
  have near := abs_nearestEven_sub_le (value / grid)
  have distance : |nearestEven (value / grid) * grid - value| ≤ grid / 2 := by
    have scaled : (nearestEven (value / grid) : Rat) * grid - value =
        (nearestEven (value / grid) - value / grid) * grid := by
      rw [sub_mul, div_mul_cancel₀ _ positive.ne']
    rw [scaled, abs_mul, abs_of_pos positive]
    have := mul_le_mul_of_nonneg_right near positive.le
    linarith
  have reads : readsBack value (nearestEven (value / grid) * grid) = true :=
    readsBack_iff.mpr (round_eq_of_near valuePos exact (by linarith))
  simp only [gridNeighbour?]
  split
  case h_4 readsBelow readsAbove =>
    rcases nearestEven_eq_or (value / grid) with isBelow | isAbove
    · rw [isBelow, readsBelow] at reads
      cases reads
    · rw [isAbove, readsAbove] at reads
      cases reads
  all_goals exact ⟨_, rfl⟩

/-! ## The shortest digits -/

/-- Digits that begin with one other than zero and are rounded to a double. -/
structure IsWrittenAs (value : Rat) (shown : List Char) (exponent : Int) : Prop where
  areDigits : ∀ character ∈ shown, character.isDigit = true
  present : shown ≠ []
  leads : shown.head? ≠ some '0'
  rounded : round (denoted shown exponent) = .finite value

theorem isWrittenAs_of_round {significant : Nat} {scale : Int} (nonzero : value ≠ 0)
    (rounded : round (significant * 10 ^ scale) = .finite value) :
    IsWrittenAs value (dropTrailingZeros (digits significant))
      (scale + ((digits significant).length - 1 : Int)) := by
  rcases exists_eq_dropTrailingZeros_append (digits significant) with ⟨count, isWhole⟩
  have positive : 0 < significant := by
    refine Nat.pos_of_ne_zero fun isZero => nonzero ?_
    rw [isZero, Nat.cast_zero, zero_mul] at rounded
    cases rounded
    rfl
  have leads := head?_toDigits_ne positive
  have present : dropTrailingZeros (digits significant) ≠ [] := by
    intro isNothing
    have allZeros : digits significant = List.replicate count '0' := by
      rw [isWhole, isNothing, List.nil_append]
    cases count with
    | zero => exact Nat.toDigits_ne_nil allZeros
    | succ count => exact leads (congrArg List.head? allZeros)
  refine ⟨fun character member => ?_, present, ?_, ?_⟩
  · have isMember : character ∈ Nat.toDigits 10 significant := by
      change character ∈ digits significant
      rw [isWhole]
      exact List.mem_append_left _ member
    exact Nat.isDigit_of_mem_toDigits (by decide) (by decide) isMember
  · rw [← List.head?_append_of_ne_nil _ present, ← isWhole]
    exact leads
  · rw [← denoted_append_zeros _ _ count, ← isWhole, denoted_digits]
    exact rounded

/-- The shortest digits of a positive double are rounded to it. -/
theorem isWrittenAs_shortestDigits (positive : 0 < value) (exact : round value = .finite value) :
    IsWrittenAs value (shortestDigits value).1 (shortestDigits value).2 := by
  have powerPos (scale : Int) : (0 : Rat) < 10 ^ scale := by positivity
  unfold shortestDigits
  dsimp only
  cases found : (List.range 17).findSome? fun (count : Nat) =>
      (gridNeighbour? value ((10 : Rat) ^ (Decimal.exponent value - count))).map fun significant =>
        (dropTrailingZeros (digits significant),
          Decimal.exponent value - count + ((digits significant).length - 1 : Int)) with
  | none =>
      have fine : 10 ^ 16 * (10 : Rat) ^ (Decimal.exponent value - (16 : Nat)) ≤ value := by
        rw [← zpow_natCast, ← zpow_add₀ (by norm_num), add_sub_cancel]
        exact ten_zpow_exponent_le positive
      rcases exists_gridNeighbour? positive exact (powerPos _) fine with ⟨significant, isFound⟩
      have nothing := List.findSome?_eq_none_iff.mp found 16 (by decide)
      rw [isFound] at nothing
      cases nothing
  | some pair =>
      rcases List.exists_of_findSome?_eq_some found with ⟨count, _, isFound⟩
      rcases Option.map_eq_some_iff.mp isFound with ⟨significant, neighbours, rfl⟩
      exact isWrittenAs_of_round positive.ne'
        (round_of_gridNeighbour? positive.le (powerPos _) neighbours)

/-! ## Reading decimals -/

theorem round_eq_zero_of_small {decimal : Rat} (positive : 0 < decimal)
    (small : decimal < 2 ^ (-1075 : Int)) : round decimal = .finite 0 := by
  have step : (2 : Rat) ^ (-1074 : Int) ≤ spacing decimal :=
    zpow_le_zpow_right₀ one_le_two (le_max_right _ _)
  have half : (2 : Rat) ^ (-1075 : Int) = 2 ^ (-1074 : Int) / 2 := by
    rw [div_eq_mul_inv, ← zpow_sub_one₀ two_ne_zero]
    rfl
  have nothing : nearestEven (decimal / spacing decimal) = 0 := by
    apply nearestEven_eq_of_near
    rw [Int.cast_zero, sub_zero, abs_of_pos (div_pos positive (spacing_pos _)),
      div_lt_iff₀ (spacing_pos _)]
    linarith
  have large : ¬ (2 : Rat) ^ (1024 : Nat) ≤ 0 := by norm_num
  simp [round, positive.ne', positive.not_gt, nothing, abs_eq_magnitude, large, zero]

theorem two_zpow_le_ten_zpow : (2 : Rat) ^ (1200 : Int) ≤ 10 ^ (400 : Int) := by
  calc (2 : Rat) ^ (1200 : Int) = (2 ^ (3 : Int)) ^ (400 : Int) := zpow_mul 2 3 400
    _ ≤ 10 ^ (400 : Int) := zpow_le_zpow_left₀ (by decide) (by norm_num) (by norm_num)

theorem bound_le_ten_zpow : (bound : Rat) ≤ 10 ^ (400 : Int) := by
  have positive := halfGap_pos
  calc (bound : Rat) ≤ 2 ^ (1024 : Nat) := by
        rw [cast_bound, two_pow_1024]
        linarith
    _ = 2 ^ (1024 : Int) := (zpow_natCast 2 1024).symm
    _ ≤ 2 ^ (1200 : Int) := zpow_le_zpow_right₀ one_le_two (by decide)
    _ ≤ 10 ^ (400 : Int) := two_zpow_le_ten_zpow

theorem ten_zpow_neg_le : (10 : Rat) ^ (-400 : Int) ≤ 2 ^ (-1075 : Int) := by
  calc (10 : Rat) ^ (-400 : Int) = (10 ^ (400 : Int))⁻¹ := zpow_neg 10 400
    _ ≤ (2 ^ (1200 : Int))⁻¹ := inv_anti₀ (by positivity) two_zpow_le_ten_zpow
    _ = 2 ^ (-1200 : Int) := (zpow_neg 2 1200).symm
    _ ≤ 2 ^ (-1075 : Int) := zpow_le_zpow_right₀ one_le_two (by decide)

/-- A decimal that is rounded to a positive double is read as that double, with either sign. -/
theorem ofDecimal_of_round {significant : Nat} {scale : Int} (positive : 0 < value)
    (rounded : round (significant * 10 ^ scale) = .finite value) (negative : Bool) :
    ofDecimal negative significant scale = .finite (if negative then -value else value) := by
  have nonzero : significant ≠ 0 := by
    rintro rfl
    rw [Nat.cast_zero, zero_mul] at rounded
    cases rounded
    exact positive.ne rfl
  have least : (10 : Rat) ^ (scale + (Nat.toDigits 10 significant).length - 1) ≤
      significant * 10 ^ scale := by
    have digits := pow_length_toDigits_le (Nat.pos_of_ne_zero nonzero)
    have length := @Nat.length_toDigits_pos 10 significant
    have isSum : scale + (Nat.toDigits 10 significant).length - 1 =
        (((Nat.toDigits 10 significant).length - 1 : Nat) : Int) + scale := by omega
    rw [isSum, zpow_add₀ (by norm_num), zpow_natCast]
    gcongr
    exact_mod_cast digits
  have most : (significant : Rat) * 10 ^ scale <
      10 ^ (scale + (Nat.toDigits 10 significant).length) := by
    have digits := lt_pow_length_toDigits significant
    rw [add_comm, zpow_add₀ (by norm_num), zpow_natCast]
    gcongr
    exact_mod_cast digits
  have notVast : ¬ 400 < scale + (Nat.toDigits 10 significant).length := by
    intro vast
    have power : (10 : Rat) ^ (400 : Int) ≤
        10 ^ (scale + (Nat.toDigits 10 significant).length - 1) :=
      zpow_le_zpow_right₀ (by norm_num) (by omega)
    rw [round_eq_infinite (bound_le_ten_zpow.trans (power.trans least))] at rounded
    cases rounded
  have notTiny : ¬ scale + (Nat.toDigits 10 significant).length < -400 := by
    intro tiny
    have power : (10 : Rat) ^ (scale + (Nat.toDigits 10 significant).length) ≤
        10 ^ (-400 : Int) :=
      zpow_le_zpow_right₀ (by norm_num) (by omega)
    have decimalPos : (0 : Rat) < significant * 10 ^ scale := by
      have : (0 : Rat) < significant := by exact_mod_cast Nat.pos_of_ne_zero nonzero
      positivity
    have small := most.trans_le (power.trans ten_zpow_neg_le)
    rw [round_eq_zero_of_small decimalPos small] at rounded
    cases rounded
    exact positive.ne rfl
  simp only [ofDecimal, if_neg nonzero, if_neg notVast, if_neg notTiny]
  cases negative with
  | false => simpa using rounded
  | true => simpa [neg_mul] using round_neg rounded positive.ne'

end Double

end UplinkShaper
