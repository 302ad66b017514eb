import Mathlib.Tactic.GCongr
import UplinkShaper.Proofs.Number.Magnitudes

/-!
What doubles can hold. A double is a multiple of the spacing around it, so it is its own
rounding, and so is the result of every rounding. What agrees with a double in sixteen digits
is rounded to it.
-/

namespace UplinkShaper

theorem nearestEven_eq_of_near {value : Rat} {whole : Int} (near : |value - whole| < 1 / 2) :
    nearestEven value = whole := by
  have nearest := abs_nearestEven_sub_le value
  have close : |((nearestEven value - whole : Int) : Rat)| < 1 := by
    push_cast
    calc |(nearestEven value : Rat) - whole|
        = |(nearestEven value - value) + (value - whole)| := by rw [sub_add_sub_cancel]
      _ ≤ |(nearestEven value : Rat) - value| + |value - whole| := abs_add_le _ _
      _ < 1 := by linarith
  have same : nearestEven value - whole = 0 := Int.abs_lt_one_iff.mp (by exact_mod_cast close)
  omega

theorem nearestEven_neg (value : Rat) : nearestEven (-value) = -nearestEven value := by
  have floorLe := Rat.floor_le value
  have ltNext := Rat.lt_floor_add_one value
  push_cast at ltNext
  rcases lt_trichotomy (value - value.floor) (1 / 2) with less | half | more
  · have isBelow : nearestEven value = value.floor := by simp only [nearestEven, if_pos less]
    rw [isBelow]
    apply nearestEven_eq_of_near
    rw [abs_lt]
    push_cast
    constructor <;> linarith
  · have least : -(value.floor + 1) ≤ (-value).floor := by
      apply Rat.le_floor_iff.mpr
      push_cast
      linarith
    have most : ((-value).floor : Rat) < ((-(value.floor + 1) + 1 : Int) : Rat) := by
      have := Rat.floor_le (-value)
      push_cast
      linarith
    have opposite : (-value).floor = -(value.floor + 1) := by
      have := Int.cast_lt.mp most
      omega
    have rest : -value - ((-(value.floor + 1) : Int) : Rat) = 1 / 2 := by
      push_cast
      linarith
    simp only [nearestEven, opposite, rest, half, lt_irrefl, if_false]
    omega
  · have isAbove : nearestEven value = value.floor + 1 := by
      simp only [nearestEven, if_neg (not_lt.mpr more.le), if_pos more]
    rw [isAbove]
    apply nearestEven_eq_of_near
    rw [abs_lt]
    push_cast
    constructor <;> linarith

namespace Double

variable {value : Rat}

/-- A number that a double can be. Those that stand for no rational always can. -/
def IsDouble : Double → Prop
  | .finite value => round value = .finite value
  | _ => True

instance (double : Double) : Decidable double.IsDouble :=
  match double with
  | .finite value => inferInstanceAs (Decidable (round value = .finite value))
  | .negativeZero | .infinite _ | .notANumber => .isTrue trivial

/-- The exponent of the spacing around a value. -/
def lastExponent (value : Rat) : Int :=
  max (binaryExponent value - 52) (-1074)

theorem spacing_eq (value : Rat) : spacing value = 2 ^ lastExponent value :=
  rfl

theorem exists_two_zpow_eq {low high : Int} (le : low ≤ high) :
    ∃ multiple : Int, (2 : Rat) ^ high = multiple * 2 ^ low := by
  refine ⟨2 ^ (high - low).toNat, ?_⟩
  have more : ((high - low).toNat : Int) = high - low := Int.toNat_of_nonneg (by omega)
  rw [Int.cast_pow, ← zpow_natCast, more, Int.cast_ofNat, ← zpow_add₀ two_ne_zero,
    sub_add_cancel]

/-! ## Doubles as multiples -/

/-- What is nearer to a multiple of the spacing than half of it is rounded to the multiple. -/
theorem round_eq_of_near_multiple {near : Rat} {multiple : Int} (nonzero : near ≠ 0)
    (isMultiple : value = multiple * spacing near) (isNear : |near - value| < spacing near / 2)
    (valueNonzero : value ≠ 0) (below : |value| < 2 ^ (1024 : Nat)) :
    round near = .finite value := by
  have positive := spacing_pos near
  have nearest : nearestEven (near / spacing near) = multiple := by
    apply nearestEven_eq_of_near
    rw [div_sub' positive.ne', mul_comm (spacing near), ← isMultiple, abs_div,
      abs_of_pos positive, div_lt_iff₀ positive]
    linarith
  simp only [round, if_neg nonzero, nearest, ← isMultiple, abs_eq_magnitude,
    if_neg (not_le.mpr below), if_neg valueNonzero]

theorem round_eq_of_isMultiple {multiple : Int} (isMultiple : value = multiple * spacing value)
    (below : |value| < 2 ^ (1024 : Nat)) : round value = .finite value := by
  by_cases nonzero : value = 0
  · simp [round, nonzero]
  · refine round_eq_of_near_multiple nonzero isMultiple ?_ nonzero below
    rw [sub_self, abs_zero]
    exact half_pos (spacing_pos value)

/-- Numbers of up to 53 bits are doubles, unless they are too large. -/
theorem round_mul_two_zpow {significand exponent : Int} (few : |significand| ≤ 2 ^ 53)
    (fine : -1074 ≤ exponent) (below : |(significand : Rat) * 2 ^ exponent| < 2 ^ (1024 : Nat)) :
    round (significand * 2 ^ exponent) = .finite (significand * 2 ^ exponent) := by
  -- The largest significand is half of itself at the next exponent.
  obtain ⟨fewer, more, same, bits, least⟩ : ∃ fewer more : Int,
      (significand : Rat) * 2 ^ exponent = fewer * 2 ^ more ∧ |fewer| < 2 ^ 53 ∧
        -1074 ≤ more := by
    rcases few.lt_or_eq with less | equal
    · exact ⟨significand, exponent, rfl, less, fine⟩
    · rcases abs_eq (by positivity) |>.mp equal with rfl | rfl
      · refine ⟨2 ^ 52, exponent + 1, ?_, by norm_num, by omega⟩
        rw [zpow_add₀ two_ne_zero]
        push_cast
        ring
      · refine ⟨-2 ^ 52, exponent + 1, ?_, by norm_num, by omega⟩
        rw [zpow_add₀ two_ne_zero]
        push_cast
        ring
  rw [same] at below ⊢
  by_cases isZero : fewer = 0
  · simp [round, isZero]
  have nonzero : (fewer : Rat) * 2 ^ more ≠ 0 :=
    mul_ne_zero (by exact_mod_cast isZero) (by positivity)
  have small : |(fewer : Rat) * 2 ^ more| < 2 ^ (53 + more) := by
    have power : |(2 : Rat) ^ more| = 2 ^ more := abs_of_pos (by positivity)
    rw [abs_mul, power, zpow_add₀ two_ne_zero]
    gcongr
    exact_mod_cast bits
  have exponentLt := binaryExponent_lt_of_abs_lt nonzero small
  have enough : lastExponent ((fewer : Rat) * 2 ^ more) ≤ more := max_le (by omega) least
  rcases exists_two_zpow_eq enough with ⟨multiple, equal⟩
  have isMultiple : (fewer : Rat) * 2 ^ more =
      (fewer * multiple : Int) * spacing ((fewer : Rat) * 2 ^ more) := by
    rw [spacing_eq, Int.cast_mul, mul_assoc, ← equal]
  exact round_eq_of_isMultiple isMultiple below

theorem abs_div_spacing_lt (nonzero : value ≠ 0) : |value / spacing value| < 2 ^ 53 := by
  have positive := spacing_pos value
  rw [abs_div, abs_of_pos positive, div_lt_iff₀ positive]
  calc |value| < 2 ^ (binaryExponent value + 1) := lt_two_zpow_binaryExponent nonzero
    _ ≤ 2 ^ ((53 : Nat) + lastExponent value) :=
      zpow_le_zpow_right₀ one_le_two (by
        have := le_max_left (binaryExponent value - 52) (-1074)
        rw [lastExponent]
        omega)
    _ = 2 ^ 53 * spacing value := by rw [zpow_add₀ two_ne_zero, zpow_natCast, spacing_eq]

/-- Every rounding gives a double. -/
theorem isDouble_round (value : Rat) : (round value).IsDouble := by
  unfold round
  split
  case isTrue => rfl
  case isFalse nonzero =>
    dsimp only
    split
    case isTrue => trivial
    case isFalse below =>
      split
      case isTrue => cases decide (value < 0) <;> trivial
      case isFalse =>
        rw [abs_eq_magnitude, not_le] at below
        have bits := abs_div_spacing_lt nonzero
        have near := abs_nearestEven_sub_le (value / spacing value)
        have few : |(nearestEven (value / spacing value) : Rat)| < 2 ^ 53 + 1 := by
          have := abs_sub_abs_le_abs_sub (nearestEven (value / spacing value) : Rat)
            (value / spacing value)
          linarith
        have few : |nearestEven (value / spacing value)| < 2 ^ 53 + 1 := by exact_mod_cast few
        exact round_mul_two_zpow (Int.lt_add_one_iff.mp few) (le_max_right _ _) below

theorem isDouble_zero (negative : Bool) : (zero negative).IsDouble := by
  cases negative <;> trivial

/-- A double other than zero is a multiple of its spacing below the next power of two. -/
theorem exists_eq_mul_spacing (nonzero : value ≠ 0) (exact : round value = .finite value) :
    (∃ multiple : Int, value = multiple * spacing value) ∧ |value| < 2 ^ (1024 : Nat) := by
  simp only [round, if_neg nonzero] at exact
  split at exact
  case isTrue => cases exact
  case isFalse below =>
    split at exact
    case isTrue =>
      cases negative : decide (value < 0) with
      | true =>
          rw [negative] at exact
          cases exact
      | false =>
          rw [negative] at exact
          cases exact
          exact absurd rfl nonzero
    case isFalse =>
      injection exact with same
      rw [abs_eq_magnitude, same, not_le] at below
      exact ⟨⟨_, same.symm⟩, below⟩

/-! ## Signs -/

theorem spacing_neg (value : Rat) : spacing (-value) = spacing value := by
  simp only [spacing, binaryExponent, abs_eq_magnitude, abs_neg, Rat.neg_num, Int.natAbs_neg,
    Rat.neg_den]

theorem round_neg {result : Rat} (rounded : round value = .finite result) (nonzero : result ≠ 0) :
    round (-value) = .finite (-result) := by
  have valueNonzero : value ≠ 0 := by
    rintro rfl
    simp only [round, if_pos] at rounded
    cases rounded
    exact nonzero rfl
  simp only [round, if_neg valueNonzero] at rounded
  simp only [round, neg_eq_zero, if_neg valueNonzero, spacing_neg, neg_div, nearestEven_neg,
    Int.cast_neg, neg_mul, abs_eq_magnitude, abs_neg] at rounded ⊢
  split at rounded
  case isTrue => cases rounded
  case isFalse below =>
    rw [if_neg below]
    split at rounded
    case isTrue =>
      cases negative : decide (value < 0) with
      | true =>
          rw [negative] at rounded
          cases rounded
      | false =>
          rw [negative] at rounded
          cases rounded
          exact absurd rfl nonzero
    case isFalse notZero =>
      injection rounded with same
      rw [if_neg notZero, same]

/-! ## Neighbours -/

/-- Multiples of a step are a step apart. -/
theorem add_step_le {step low high : Rat} {lower upper : Int} (positive : 0 < step)
    (isLow : low = lower * step) (isHigh : high = upper * step) (less : low < high) :
    low + step ≤ high := by
  rw [isLow, isHigh] at less
  have next : ((lower + 1 : Int) : Rat) ≤ upper := by
    exact_mod_cast (lt_of_mul_lt_mul_right less positive.le : (lower : Rat) < upper)
  calc low + step = ((lower + 1 : Int) : Rat) * step := by
        rw [isLow]
        push_cast
        ring
    _ ≤ upper * step := by gcongr
    _ = high := isHigh.symm

/-- A positive double is not below the lowest of its bits. -/
theorem lastExponent_le_of_isMultiple {multiple : Int} (positive : 0 < value)
    (isMultiple : value = multiple * spacing value) :
    lastExponent value ≤ binaryExponent value := by
  have isZero : (0 : Rat) = ((0 : Int) : Rat) * spacing value := by rw [Int.cast_zero, zero_mul]
  have least := add_step_le (spacing_pos value) isZero isMultiple positive
  have most := lt_two_zpow_binaryExponent positive.ne'
  rw [abs_of_pos positive] at most
  rw [zero_add] at least
  have := (zpow_lt_zpow_iff_right₀ one_lt_two).mp (least.trans_lt most)
  rw [lastExponent] at *
  omega

theorem two_zpow_div_le_spacing (value : Rat) :
    (2 : Rat) ^ binaryExponent value / 2 ^ 52 ≤ spacing value := by
  rw [spacing_eq, ← zpow_natCast, ← zpow_sub₀ two_ne_zero]
  exact zpow_le_zpow_right₀ one_le_two (le_max_left _ _)

/-- What differs from a positive double by half of its `10 ^ 16`th part at most is rounded to
it. -/
theorem round_eq_of_near {near : Rat} (positive : 0 < value) (exact : round value = .finite value)
    (isNear : 2 * 10 ^ 16 * |near - value| ≤ value) : round near = .finite value := by
  rcases exists_eq_mul_spacing positive.ne' exact with ⟨⟨multiple, isMultiple⟩, below⟩
  have fine := lastExponent_le_of_isMultiple positive isMultiple
  rcases exists_two_zpow_eq fine with ⟨first, isFirst⟩
  rcases exists_two_zpow_eq (fine.trans (Int.le_add_one le_rfl)) with ⟨next, isNext⟩
  rw [← spacing_eq] at isFirst isNext
  have least := two_zpow_binaryExponent_le positive.ne'
  have most := lt_two_zpow_binaryExponent positive.ne'
  have step := two_zpow_div_le_spacing value
  have distance := abs_le.mp (le_refl |near - value|)
  have nearPos : 0 < near := by linarith
  have nearLeast := two_zpow_binaryExponent_le nearPos.ne'
  have nearMost := lt_two_zpow_binaryExponent nearPos.ne'
  have nearStep := two_zpow_div_le_spacing near
  rw [abs_of_pos positive] at least most
  rw [abs_of_pos nearPos] at nearLeast nearMost
  have double : (2 : Rat) ^ (binaryExponent value + 1) = 2 * 2 ^ binaryExponent value := by
    rw [zpow_add_one₀ two_ne_zero, mul_comm]
  have half : (2 : Rat) ^ (binaryExponent value - 1) = 2 ^ binaryExponent value / 2 :=
    zpow_sub_one₀ two_ne_zero _
  rcases lt_trichotomy (binaryExponent near) (binaryExponent value) with less | equal | more
  · -- A power of two is approached from below, where the spacing may be half as large.
    have nearLess : near < 2 ^ binaryExponent value :=
      nearMost.trans_le (zpow_le_zpow_right₀ one_le_two (by omega))
    have isPower : value = 2 ^ binaryExponent value := by
      by_contra different
      have less := lt_of_le_of_ne least (Ne.symm different)
      have apart := add_step_le (spacing_pos value) isFirst isMultiple less
      linarith
    have exponent : binaryExponent near = binaryExponent value - 1 := by
      have : (2 : Rat) ^ (binaryExponent value - 1) < 2 ^ (binaryExponent near + 1) := by
        rw [half]
        linarith
      have := (zpow_lt_zpow_iff_right₀ one_lt_two).mp this
      omega
    have finer : lastExponent near ≤ binaryExponent value := by
      rw [lastExponent] at *
      omega
    rcases exists_two_zpow_eq finer with ⟨nearMultiple, isNearMultiple⟩
    rw [← isPower] at isNearMultiple
    refine round_eq_of_near_multiple nearPos.ne' isNearMultiple ?_ positive.ne' below
    rw [exponent, half] at nearStep
    linarith
  · have same : spacing near = spacing value := by rw [spacing, spacing, equal]
    refine round_eq_of_near_multiple nearPos.ne' (same ▸ isMultiple) ?_ positive.ne' below
    rw [same]
    linarith
  · -- Between a double and the next power of two there is a whole step.
    have above : (2 : Rat) ^ (binaryExponent value + 1) ≤ near :=
      (zpow_le_zpow_right₀ one_le_two (by omega)).trans nearLeast
    have apart := add_step_le (spacing_pos value) isMultiple isNext most
    linarith

/-! ## Arithmetic -/

theorem isDouble_neg {double : Double} (isDouble : double.IsDouble) : double.neg.IsDouble := by
  cases double with
  | finite value =>
      simp only [neg]
      split
      case isTrue => exact trivial
      case isFalse nonzero => exact round_neg isDouble nonzero
  | negativeZero => exact isDouble_zero false
  | infinite negative => exact trivial
  | notANumber => exact trivial

theorem isDouble_add {left right : Double} (isDouble : left.IsDouble)
    (isDoubleToo : right.IsDouble) : (left.add right).IsDouble := by
  unfold add
  split
  case h_3 => split <;> exact trivial
  case h_6 => exact isDoubleToo
  case h_7 => exact isDouble
  case h_8 => exact isDouble_round _
  all_goals exact trivial

theorem isDouble_mul (left right : Double) : (left.mul right).IsDouble := by
  unfold mul
  dsimp only
  split
  case h_1 =>
    split
    · exact isDouble_zero _
    · exact isDouble_round _
  all_goals split <;> exact trivial

end Double

namespace Number

/-- A whole number, or one that a double can be. -/
def IsDouble : Number → Prop
  | .whole _ => True
  | .real double => double.IsDouble

instance (number : Number) : Decidable number.IsDouble :=
  match number with
  | .whole _ => .isTrue trivial
  | .real double => inferInstanceAs (Decidable double.IsDouble)

theorem isDouble_simplify {number : Number} (isDouble : number.IsDouble) :
    number.simplify.IsDouble := by
  unfold simplify
  split
  · exact trivial
  · exact isDouble

theorem isDouble_of_mul {left right product : Number} (multiplied : left.mul right = .ok product) :
    product.IsDouble := by
  unfold mul at multiplied
  split at multiplied
  · cases multiplied
    exact trivial
  · rcases Result.bind_eq_ok.mp multiplied with ⟨first, _, rest⟩
    rcases Result.bind_eq_ok.mp rest with ⟨second, _, equal⟩
    rw [← Result.pure_eq_ok.mp equal]
    exact Double.isDouble_mul first second

end Number

end UplinkShaper
