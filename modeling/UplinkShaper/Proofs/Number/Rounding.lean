import Mathlib.Algebra.Order.Field.Power
import Mathlib.Data.Rat.Floor
import Mathlib.Tactic.FieldSimp
import Mathlib.Tactic.Linarith
import Mathlib.Tactic.Positivity
import UplinkShaper.Number

/-!
Rounding to doubles. The spacing of doubles around a value is known from its binary
exponent. So a binary fraction of up to 53 bits is its own rounding, and rounding a value
of at least one takes away at most the `2 ^ 53`rd part of it.
-/

namespace UplinkShaper

/-! ## The nearest integer -/

@[simp]
theorem nearestEven_intCast (value : Int) : nearestEven (value : Rat) = value := by
  simp [nearestEven, Rat.floor_intCast]

@[simp]
theorem truncate_intCast (value : Int) : truncate (value : Rat) = value := by
  simp [truncate, Rat.floor_intCast]

theorem sub_half_le_nearestEven (value : Rat) : value - 1 / 2 ≤ nearestEven value := by
  have floorLe := Rat.floor_le value
  have ltNext := Rat.lt_floor_add_one value
  push_cast at ltNext
  simp only [nearestEven]
  split
  · linarith
  · split
    · push_cast
      linarith
    · have parityNonneg : (0 : Rat) ≤ ((value.floor % 2 : Int) : Rat) := by
        exact_mod_cast Int.emod_nonneg _ (by decide)
      push_cast
      linarith

namespace Double

/-! ## Binary exponents -/

theorem abs_eq_magnitude (value : Rat) : value.abs = |value| := by
  rcases le_total 0 value with nonneg | nonpos
  · simp [Rat.abs, nonneg, abs_of_nonneg]
  · rw [abs_of_nonpos nonpos, Rat.abs]
    split
    · linarith
    · rfl

theorem magnitude_eq_natAbs_div_den (value : Rat) :
    |value| = (value.num.natAbs : Rat) / value.den := by
  conv_lhs => rw [← Rat.num_div_den value]
  rw [abs_div, Nat.abs_cast, Nat.cast_natAbs, Int.cast_abs]

/-- A quotient of natural numbers lies around the quotient of their leading powers. -/
theorem quotient_bounds {top bottom : Nat} (topPos : top ≠ 0) (bottomPos : bottom ≠ 0) :
    (2 : Rat) ^ ((top.log2 : Int) - bottom.log2 - 1) ≤ (top : Rat) / bottom ∧
      (top : Rat) / bottom < (2 : Rat) ^ ((top.log2 : Int) - bottom.log2 + 1) := by
  have topLow : ((2 : Rat) ^ top.log2) ≤ top := by exact_mod_cast Nat.log2_self_le topPos
  have topHigh : (top : Rat) < 2 ^ (top.log2 + 1) := by exact_mod_cast Nat.lt_log2_self
  have bottomLow : ((2 : Rat) ^ bottom.log2) ≤ bottom := by
    exact_mod_cast Nat.log2_self_le bottomPos
  have bottomHigh : (bottom : Rat) < 2 ^ (bottom.log2 + 1) := by
    exact_mod_cast Nat.lt_log2_self
  have positive : (0 : Rat) < bottom := by exact_mod_cast Nat.pos_of_ne_zero bottomPos
  have powerPos : (0 : Rat) < 2 ^ bottom.log2 := by positivity
  constructor
  · rw [zpow_sub₀ two_ne_zero, zpow_sub₀ two_ne_zero, zpow_one, zpow_natCast, zpow_natCast,
      div_div, div_le_div_iff₀ (by positivity) positive]
    rw [pow_succ] at bottomHigh
    nlinarith
  · rw [zpow_add₀ two_ne_zero, zpow_sub₀ two_ne_zero, zpow_one, zpow_natCast, zpow_natCast,
      div_mul_eq_mul_div, div_lt_div_iff₀ positive powerPos]
    rw [pow_succ] at topHigh
    nlinarith

theorem two_zpow_binaryExponent_le {value : Rat} (nonzero : value ≠ 0) :
    (2 : Rat) ^ binaryExponent value ≤ |value| := by
  have numerator : value.num.natAbs ≠ 0 := by simpa using nonzero
  have bounds := quotient_bounds numerator value.den_nz
  rw [← magnitude_eq_natAbs_div_den] at bounds
  simp only [binaryExponent, abs_eq_magnitude]
  split
  · assumption
  · exact bounds.1

theorem lt_two_zpow_binaryExponent {value : Rat} (nonzero : value ≠ 0) :
    |value| < (2 : Rat) ^ (binaryExponent value + 1) := by
  have numerator : value.num.natAbs ≠ 0 := by simpa using nonzero
  have bounds := quotient_bounds numerator value.den_nz
  rw [← magnitude_eq_natAbs_div_den] at bounds
  simp only [binaryExponent, abs_eq_magnitude]
  split
  · exact bounds.2
  case isFalse above =>
    rw [sub_add_cancel]
    exact not_le.mp above

theorem binaryExponent_lt_of_abs_lt {value : Rat} (nonzero : value ≠ 0) {bound : Int}
    (small : |value| < (2 : Rat) ^ bound) : binaryExponent value < bound := by
  have below := two_zpow_binaryExponent_le nonzero
  exact (zpow_lt_zpow_iff_right₀ one_lt_two).mp (below.trans_lt small)

theorem binaryExponent_nonneg {value : Rat} (large : 1 ≤ |value|) :
    0 ≤ binaryExponent value := by
  have nonzero : value ≠ 0 := by
    rintro rfl
    norm_num at large
  have above := lt_two_zpow_binaryExponent nonzero
  have positive : (2 : Rat) ^ (0 : Int) < 2 ^ (binaryExponent value + 1) := by
    simpa using large.trans_lt above
  have := (zpow_lt_zpow_iff_right₀ one_lt_two).mp positive
  omega

/-! ## Binary fractions -/

theorem spacing_pos (value : Rat) : 0 < spacing value := by
  simp only [spacing]
  positivity

/-- The spacing of doubles divides a binary fraction of up to 53 bits. -/
theorem exists_div_spacing_eq {value : Int} {places : Nat} (nonzero : value ≠ 0)
    (small : |value| < 2 ^ 53) (few : places ≤ 1074) :
    ∃ multiple : Int, (value : Rat) / 2 ^ places / spacing (value / 2 ^ places) = multiple := by
  have nonzeroRat : (value : Rat) / 2 ^ places ≠ 0 :=
    div_ne_zero (by exact_mod_cast nonzero) (by positivity)
  have smallRat : |(value : Rat) / 2 ^ places| < (2 : Rat) ^ (53 - places : Int) := by
    have power : |(2 : Rat) ^ places| = 2 ^ places := abs_of_pos (by positivity)
    rw [abs_div, power, zpow_sub₀ two_ne_zero, zpow_natCast]
    exact div_lt_div_of_pos_right (by exact_mod_cast small) (by positivity)
  have exponent := binaryExponent_lt_of_abs_lt nonzeroRat smallRat
  have bounded : ∃ more : Nat,
      max (binaryExponent ((value : Rat) / 2 ^ places) - 52) (-1074) =
        -((places + more : Nat) : Int) :=
    ⟨(-(max (binaryExponent ((value : Rat) / 2 ^ places) - 52) (-1074)) - places).toNat, by omega⟩
  rcases bounded with ⟨more, equal⟩
  refine ⟨value * 2 ^ more, ?_⟩
  rw [spacing, equal, zpow_neg, zpow_natCast, div_inv_eq_mul, pow_add, ← mul_assoc,
    div_mul_cancel₀ _ (by positivity)]
  push_cast
  rfl

/-- Binary fractions of up to 53 bits are doubles. -/
theorem round_div_two_pow {value : Int} {places : Nat} (small : |value| < 2 ^ 53)
    (few : places ≤ 1074) : round ((value : Rat) / 2 ^ places) = .finite (value / 2 ^ places) := by
  by_cases nonzero : value = 0
  · simp [round, nonzero]
  · rcases exists_div_spacing_eq nonzero small few with ⟨multiple, equal⟩
    have rounded : (nearestEven ((value : Rat) / 2 ^ places / spacing (value / 2 ^ places)) : Rat) *
        spacing (value / 2 ^ places) = value / 2 ^ places := by
      rw [equal, nearestEven_intCast, ← equal]
      exact div_mul_cancel₀ _ (spacing_pos _).ne'
    have nonzeroRat : (value : Rat) / 2 ^ places ≠ 0 :=
      div_ne_zero (by exact_mod_cast nonzero) (by positivity)
    have below : ¬ (2 : Rat) ^ (1024 : Nat) ≤ |(value : Rat) / 2 ^ places| := by
      rw [not_le, abs_div, abs_of_pos (by positivity : (0 : Rat) < 2 ^ places)]
      calc |(value : Rat)| / 2 ^ places ≤ |(value : Rat)| :=
            div_le_self (abs_nonneg _) (one_le_pow₀ one_le_two)
        _ < 2 ^ 53 := by exact_mod_cast small
        _ ≤ 2 ^ (1024 : Nat) := pow_le_pow_right₀ one_le_two (by decide)
    simp only [round, if_neg nonzeroRat, rounded, abs_eq_magnitude, if_neg below]

/-- Whole numbers of up to 53 bits are doubles. -/
theorem round_intCast {value : Int} (small : |value| < 2 ^ 53) :
    round (value : Rat) = .finite value := by
  simpa using @round_div_two_pow value 0 small (Nat.zero_le _)

theorem ofInt_eq_ok {value : Int} (small : |value| < 2 ^ 53) :
    Double.ofInt value = .ok (.finite value) := by
  simp [Double.ofInt, round_intCast small]

theorem finite_add_finite {left right : Int} (small : |left + right| < 2 ^ 53) :
    (Double.finite left).add (.finite right) = .finite ((left + right : Int) : Rat) := by
  rw [← round_intCast small]
  simp [add]

theorem finite_sub_finite {left right : Int} (nonzero : right ≠ 0)
    (small : |left - right| < 2 ^ 53) :
    (Double.finite left).sub (.finite right) = .finite ((left - right : Int) : Rat) := by
  have negated : (Double.finite right).neg = .finite ((-right : Int) : Rat) := by
    simp [neg, nonzero]
  rw [sub, negated, finite_add_finite (by rwa [← sub_eq_add_neg]), ← sub_eq_add_neg]

@[simp]
theorem finite_sub_zero (value : Rat) :
    (Double.finite value).sub (.finite 0) = .finite value := by
  simp [sub, neg, add]

@[simp]
theorem finite_sub_self (value : Rat) :
    (Double.finite value).sub (.finite value) = .finite 0 := by
  simp only [sub, neg]
  split
  case isTrue isZero => simp [isZero, add]
  case isFalse => simp [add, round]

theorem finite_mul_finite {left right : Int} (leftPos : 0 ≤ left) (rightPos : 0 ≤ right)
    (small : |left * right| < 2 ^ 53) :
    (Double.finite left).mul (.finite right) = .finite ((left * right : Int) : Rat) := by
  have leftSign : ¬ (left : Rat) < 0 := by exact_mod_cast not_lt.mpr leftPos
  have rightSign : ¬ (right : Rat) < 0 := by exact_mod_cast not_lt.mpr rightPos
  by_cases isZero : left = 0 ∨ right = 0
  · rcases isZero with rfl | rfl <;> simp [mul, isNegative, toRat?, zero, leftSign, rightSign]
  · have nonzero : ¬ ((left : Rat) = 0 ∨ (right : Rat) = 0) := by exact_mod_cast isZero
    rw [← round_intCast small]
    simp only [mul, toRat?, if_neg nonzero]
    push_cast
    rfl

/-! ## Division to the floor -/

theorem truncate_div {value divisor : Int} (nonneg : 0 ≤ value) (positive : 0 < divisor) :
    truncate ((value : Rat) / divisor) = value / divisor := by
  have quotientNonneg : ¬ (value : Rat) / divisor < 0 := by
    rw [not_lt]
    exact div_nonneg (by exact_mod_cast nonneg) (by exact_mod_cast positive.le)
  rcases Int.eq_ofNat_of_zero_le positive.le with ⟨count, rfl⟩
  rw [truncate, if_neg quotientNonneg]
  exact Rat.floor_intCast_div_natCast value count

theorem remainder_finite {value divisor : Int} (nonneg : 0 ≤ value) (positive : 0 < divisor) :
    (Double.finite value).remainder (.finite divisor) =
      .finite ((value % divisor : Int) : Rat) := by
  have divisorNonzero : (divisor : Rat) ≠ 0 := by exact_mod_cast positive.ne'
  have sign : ¬ (value : Rat) < 0 := by exact_mod_cast not_lt.mpr nonneg
  have rest : (value : Rat) - ((value / divisor : Int) : Rat) * divisor =
      ((value % divisor : Int) : Rat) := by
    have whole := Int.emod_def value divisor
    rw [whole]
    push_cast
    ring
  simp only [remainder, toRat?, if_neg divisorNonzero, truncate_div nonneg positive, rest,
    isNegative, zero, decide_eq_false sign]
  split
  case isTrue isZero => simp [isZero]
  case isFalse => rfl

theorem finite_mul_div_finite {divisor quotient : Int} (positive : 0 < divisor)
    (nonneg : 0 ≤ quotient) (small : quotient < 2 ^ 53) :
    (Double.finite ((divisor * quotient : Int) : Rat)).div (.finite divisor) =
      .finite quotient := by
  have divisorNonzero : (divisor : Rat) ≠ 0 := by exact_mod_cast positive.ne'
  have productSign : ¬ ((divisor * quotient : Int) : Rat) < 0 := by
    exact_mod_cast not_lt.mpr (mul_nonneg positive.le nonneg)
  have divisorSign : ¬ (divisor : Rat) < 0 := by exact_mod_cast not_lt.mpr positive.le
  have exactly : ((divisor * quotient : Int) : Rat) / divisor = quotient := by
    push_cast
    exact mul_div_cancel_left₀ _ divisorNonzero
  have rounded : round (quotient : Rat) = .finite quotient :=
    round_intCast (by rw [abs_lt]; omega)
  simp only [div, toRat?, if_neg divisorNonzero, isNegative, decide_eq_false productSign,
    decide_eq_false divisorSign, exactly, rounded]
  split
  case isTrue isZero =>
    rw [← exactly, isZero]
    simp [zero]
  case isFalse => rfl

/-- Taking a remainder away from a whole number is exact. -/
theorem finite_sub_remainder {value divisor : Int} (nonneg : 0 ≤ value)
    (positive : 0 < divisor) (small : value < 2 ^ 53) :
    (Double.finite value).sub (.finite ((value % divisor : Int) : Rat)) =
      .finite ((divisor * (value / divisor) : Int) : Rat) := by
  have parts := Int.mul_ediv_add_emod value divisor
  have modNonneg : 0 ≤ value % divisor := Int.emod_nonneg _ positive.ne'
  have wholeNonneg : 0 ≤ divisor * (value / divisor) :=
    mul_nonneg positive.le (Int.ediv_nonneg nonneg positive.le)
  by_cases isZero : value % divisor = 0
  · have whole : divisor * (value / divisor) = value := by omega
    rw [isZero, whole]
    simp
  · rw [finite_sub_finite isZero (by rw [abs_lt]; omega)]
    congr 2
    omega

/-- The quotient of whole numbers below `2 ^ 53` is the exact one. -/
theorem floorDiv_finite {value divisor : Int} (nonneg : 0 ≤ value) (positive : 0 < divisor)
    (small : value < 2 ^ 53) :
    (Double.finite value).floorDiv (.finite divisor) =
      .finite ((value / divisor : Int) : Rat) := by
  have quotientNonneg : 0 ≤ value / divisor := Int.ediv_nonneg nonneg positive.le
  have quotientLe : value / divisor ≤ value := Int.ediv_le_self _ nonneg
  have modSign : ¬ ((value % divisor : Int) : Rat) < 0 := by
    exact_mod_cast not_lt.mpr (Int.emod_nonneg _ positive.ne')
  have divisorSign : ¬ (divisor : Rat) < 0 := by exact_mod_cast not_lt.mpr positive.le
  have sameSign : (Double.finite ((value % divisor : Int) : Rat)).isNegative =
      (Double.finite (divisor : Rat)).isNegative := by
    simp [isNegative, modSign, divisorSign]
  simp only [floorDiv, remainder_finite nonneg positive, sameSign, ne_eq, not_true_eq_false,
    and_false, if_false, finite_sub_remainder nonneg positive small,
    finite_mul_div_finite positive quotientNonneg (by omega), floor, Rat.floor_intCast,
    finite_sub_self, toRat?]
  norm_num

/-! ## How much rounding takes away -/

theorem spacing_le_of_one_le {value : Rat} (large : 1 ≤ value) :
    spacing value ≤ value / 2 ^ 52 := by
  have positive : 0 < value := by linarith
  have magnitude : |value| = value := abs_of_pos positive
  have exponent : 0 ≤ binaryExponent value := binaryExponent_nonneg (by rwa [magnitude])
  have below := two_zpow_binaryExponent_le positive.ne'
  rw [spacing, max_eq_left (by omega), zpow_sub₀ two_ne_zero]
  rw [magnitude] at below
  exact_mod_cast div_le_div_of_nonneg_right below (by positivity : (0 : Rat) ≤ 2 ^ 52)

/-- Rounding a value of at least one makes it smaller by its `2 ^ 53`rd part at most. -/
theorem le_of_round_eq_finite {value result : Rat} (large : 1 ≤ value)
    (rounded : round value = .finite result) : value * (1 - 1 / 2 ^ 53) ≤ result := by
  have positive := spacing_pos value
  have nonzero : value ≠ 0 := by
    rintro rfl
    norm_num at large
  have nearest := sub_half_le_nearestEven (value / spacing value)
  have scaled : value - spacing value / 2 ≤
      nearestEven (value / spacing value) * spacing value := by
    have := mul_le_mul_of_nonneg_right nearest positive.le
    rw [sub_mul, div_mul_cancel₀ _ positive.ne'] at this
    linarith
  have step := spacing_le_of_one_le large
  have equal : (nearestEven (value / spacing value) : Rat) * spacing value = result := by
    simp only [round, if_neg nonzero] at rounded
    split at rounded
    · cases rounded
    · split at rounded
      case isTrue isZero =>
        simp only [zero] at rounded
        split at rounded
        · cases rounded
        · injection rounded with same
          rw [isZero, same]
      case isFalse => injection rounded
  rw [← equal]
  calc value * (1 - 1 / 2 ^ 53) = value - value / 2 ^ 52 / 2 := by ring
    _ ≤ value - spacing value / 2 := by linarith
    _ ≤ _ := scaled

/-- A value of at least one is rounded to a positive number. -/
theorem round_of_one_le {value : Rat} (large : 1 ≤ value) :
    round value = .infinite false ∨
      ∃ result, round value = .finite result ∧ value * (1 - 1 / 2 ^ 53) ≤ result := by
  have nonzero : value ≠ 0 := by
    rintro rfl
    norm_num at large
  have sign : ¬ value < 0 := by linarith
  cases rounded : round value with
  | finite result => exact .inr ⟨result, rfl, le_of_round_eq_finite large rounded⟩
  | infinite negative =>
      left
      simp only [round, if_neg nonzero, decide_eq_false sign, zero] at rounded
      split at rounded
      · rw [← rounded]
      · split at rounded <;> simp at rounded
  | negativeZero =>
      simp only [round, if_neg nonzero, decide_eq_false sign, zero] at rounded
      split at rounded
      · cases rounded
      · split at rounded <;> simp at rounded
  | notANumber =>
      simp only [round, if_neg nonzero, decide_eq_false sign, zero] at rounded
      split at rounded
      · cases rounded
      · split at rounded <;> simp at rounded

end Double

end UplinkShaper
