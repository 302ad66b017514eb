import UplinkShaper.Proofs.Number.Rounding

/-!
Which numbers are rounded to finite doubles. The largest double is `2 ^ 1024 - 2 ^ 971`;
a number is rounded to an infinity from halfway to where the next double would be.
-/

namespace UplinkShaper

theorem nearestEven_le_add_half (value : Rat) : nearestEven value ≤ value + 1 / 2 := by
  have floorLe := Rat.floor_le value
  simp only [nearestEven]
  split
  · linarith
  · split
    · push_cast
      linarith
    · have parity : ((value.floor % 2 : Int) : Rat) ≤ 1 := by
        exact_mod_cast Int.lt_add_one_iff.mp (Int.emod_lt_of_pos _ (by decide))
      push_cast
      linarith

/-- Halfway below an even number is rounded up to it. -/
theorem even_le_nearestEven {value : Rat} {half : Int}
    (near : ((2 * half : Int) : Rat) - 1 / 2 ≤ value) :
    2 * half ≤ nearestEven value := by
  have ltNext := Rat.lt_floor_add_one value
  have least : 2 * half - 1 ≤ value.floor := by
    apply Rat.le_floor_iff.mpr
    push_cast at near ⊢
    linarith
  rcases least.lt_or_eq with above | equal
  · have isFloor : value.floor ≤ nearestEven value := by
      simp only [nearestEven]
      split
      · exact le_refl _
      · split
        · omega
        · have := Int.emod_nonneg value.floor (by decide : (2 : Int) ≠ 0)
          omega
    omega
  · have rest : ¬ value - value.floor < 1 / 2 := by
      rw [← equal]
      push_cast at near ⊢
      linarith
    simp only [nearestEven, if_neg rest]
    split
    · omega
    · omega

namespace Double

/-- Halfway between the largest double and the power of two after it. -/
def bound : Int := 2 ^ 1024 - 2 ^ 970

/-- The multiple of the spacing that a number is rounded to. -/
def significand (value : Rat) : Int :=
  nearestEven (value / spacing value)

/-- Half the distance between the two largest doubles. -/
def halfGap : Rat := 2 ^ (970 : Int)

/-! ## Powers of two around the bound -/

theorem halfGap_pos : 0 < halfGap := by
  simp only [halfGap]
  positivity

theorem two_zpow_970_add (places : Nat) :
    (2 : Rat) ^ (970 + places : Int) = 2 ^ places * halfGap := by
  rw [halfGap, ← zpow_natCast, ← zpow_add₀ two_ne_zero, add_comm]

theorem two_pow_1024 : (2 : Rat) ^ (1024 : Nat) = 2 ^ 54 * halfGap := by
  rw [← two_zpow_970_add, ← zpow_natCast]
  rfl

theorem cast_bound : (bound : Rat) = (2 ^ 54 - 1) * halfGap := by
  rw [sub_mul, one_mul, ← two_pow_1024, bound, Int.cast_sub, Int.cast_pow, Int.cast_pow]
  rfl

/-! ## Significands -/

theorem spacing_eq_of_one_le {value : Rat} (large : 1 ≤ value) :
    spacing value = (2 : Rat) ^ (binaryExponent value - 52) := by
  have exponent := binaryExponent_nonneg (large.trans (le_abs_self value))
  rw [spacing, max_eq_left (by omega)]

theorem binaryExponent_bounds {value : Rat} (large : 1 ≤ value) :
    (2 : Rat) ^ binaryExponent value ≤ value ∧ value < 2 ^ (binaryExponent value + 1) := by
  have positive : 0 < value := by linarith
  have least := two_zpow_binaryExponent_le positive.ne'
  have most := lt_two_zpow_binaryExponent positive.ne'
  rw [abs_of_pos positive] at least most
  exact ⟨least, most⟩

theorem significand_bounds {value : Rat} (large : 1 ≤ value) :
    2 ^ 52 ≤ significand value ∧ significand value ≤ 2 ^ 53 := by
  rcases binaryExponent_bounds large with ⟨least, most⟩
  have positive := spacing_pos value
  have low : (2 : Rat) ^ 52 ≤ value / spacing value := by
    rw [le_div_iff₀ positive, spacing_eq_of_one_le large, ← zpow_natCast, ← zpow_add₀ two_ne_zero]
    rwa [show ((52 : Nat) : Int) + (binaryExponent value - 52) = binaryExponent value by omega]
  have high : value / spacing value < 2 ^ 53 := by
    rw [div_lt_iff₀ positive, spacing_eq_of_one_le large, ← zpow_natCast, ← zpow_add₀ two_ne_zero]
    rwa [show ((53 : Nat) : Int) + (binaryExponent value - 52) = binaryExponent value + 1 by omega]
  constructor
  · have := @even_le_nearestEven (value / spacing value) (2 ^ 51) (by push_cast; linarith)
    simpa [significand] using this
  · have near := nearestEven_le_add_half (value / spacing value)
    have less : ((significand value : Int) : Rat) < 2 ^ 53 + 1 := by
      rw [significand]
      linarith
    have := (by exact_mod_cast less : significand value < 2 ^ 53 + 1)
    omega

/-- A number of at least one is rounded to an infinity or to a positive double. -/
theorem round_eq_of_one_le {value : Rat} (large : 1 ≤ value) :
    round value =
      if (2 : Rat) ^ (1024 : Nat) ≤ significand value * spacing value then .infinite false
      else .finite (significand value * spacing value) := by
  have nonzero : value ≠ 0 := by linarith
  have sign : ¬ value < 0 := by linarith
  have least : (2 : Rat) ^ 52 ≤ significand value := by
    exact_mod_cast (significand_bounds large).1
  have positive : 0 < (significand value : Rat) * spacing value := by
    have := spacing_pos value
    positivity
  simp only [round, if_neg nonzero, decide_eq_false sign, abs_eq_magnitude]
  rw [significand] at positive ⊢
  rw [abs_of_pos positive, if_neg positive.ne']

theorem four_mul_le_spacing {value : Rat} (large : 1 ≤ value)
    (more : 1023 < binaryExponent value) : 4 * halfGap ≤ spacing value := by
  rw [spacing_eq_of_one_le large, show (4 : Rat) = 2 ^ 2 by norm_num, ← two_zpow_970_add]
  exact zpow_le_zpow_right₀ one_le_two (by omega)

/-- What is rounded with a small exponent, or to fewer than 54 bits below the bound, stays
below the bound. -/
theorem significand_mul_lt_bound {value : Rat} (large : 1 ≤ value)
    (small : binaryExponent value < 1023 ∨
      binaryExponent value = 1023 ∧ significand value < 2 ^ 53) :
    (significand value : Rat) * spacing value < bound := by
  have positive := halfGap_pos
  have most : (significand value : Rat) ≤ 2 ^ 53 := by
    exact_mod_cast (significand_bounds large).2
  rw [cast_bound, spacing_eq_of_one_le large]
  rcases small with less | ⟨equal, few⟩
  · have step : (2 : Rat) ^ (binaryExponent value - 52) ≤ halfGap :=
      zpow_le_zpow_right₀ one_le_two (by omega)
    have stepPos : (0 : Rat) < 2 ^ (binaryExponent value - 52) := by positivity
    nlinarith
  · have few : (significand value : Rat) ≤ 2 ^ 53 - 1 := by
      exact_mod_cast Int.le_sub_one_of_lt few
    rw [equal, show (1023 : Int) - 52 = 970 + (1 : Nat) by norm_num, two_zpow_970_add]
    nlinarith

theorem significand_mul_lt_bound_of_lt {value : Rat} (large : 1 ≤ value) (below : value < bound) :
    (significand value : Rat) * spacing value < bound := by
  have positive := halfGap_pos
  have least := (binaryExponent_bounds large).1
  rw [cast_bound] at below
  rcases lt_trichotomy (binaryExponent value) 1023 with less | equal | more
  · exact significand_mul_lt_bound large (.inl less)
  · have near := nearestEven_le_add_half (value / spacing value)
    have scaled : value / spacing value < 2 ^ 53 - 1 / 2 := by
      rw [div_lt_iff₀ (spacing_pos value), spacing_eq_of_one_le large, equal,
        show (1023 : Int) - 52 = 970 + (1 : Nat) by norm_num, two_zpow_970_add]
      linarith
    have few : ((significand value : Int) : Rat) < 2 ^ 53 := by
      rw [significand]
      linarith
    exact significand_mul_lt_bound large (.inr ⟨equal, by exact_mod_cast few⟩)
  · have power : (2 : Rat) ^ (1024 : Nat) ≤ 2 ^ binaryExponent value := by
      rw [← zpow_natCast]
      exact zpow_le_zpow_right₀ one_le_two (by push_cast; omega)
    rw [two_pow_1024] at power
    linarith

/-- Below the bound a number is rounded to a finite double. -/
theorem exists_round_eq_finite {value : Rat} (large : 1 ≤ value) (below : value < bound) :
    ∃ result, round value = .finite result := by
  have positive := halfGap_pos
  have less := significand_mul_lt_bound_of_lt large below
  rw [cast_bound] at less
  rw [round_eq_of_one_le large, two_pow_1024, if_neg (by linarith)]
  exact ⟨_, rfl⟩

/-- A finite double is below the bound. -/
theorem lt_bound_of_round_eq_finite {value result : Rat} (large : 1 ≤ value)
    (rounded : round value = .finite result) : result < bound := by
  rw [round_eq_of_one_le large] at rounded
  split at rounded
  case isTrue => cases rounded
  case isFalse small =>
    injection rounded with equal
    rw [← equal]
    rw [not_le, two_pow_1024] at small
    have positive := halfGap_pos
    have least : (2 : Rat) ^ 52 ≤ significand value := by
      exact_mod_cast (significand_bounds large).1
    rcases lt_trichotomy (binaryExponent value) 1023 with less | isTop | more
    · exact significand_mul_lt_bound large (.inl less)
    · rw [spacing_eq_of_one_le large, isTop,
        show (1023 : Int) - 52 = 970 + (1 : Nat) by norm_num, two_zpow_970_add] at small
      have few : (significand value : Rat) < 2 ^ 53 := by nlinarith
      exact significand_mul_lt_bound large (.inr ⟨isTop, by exact_mod_cast few⟩)
    · have step := four_mul_le_spacing large more
      nlinarith

/-- From the bound on a number is rounded to an infinity. -/
theorem round_eq_infinite {value : Rat} (above : (bound : Rat) ≤ value) :
    round value = .infinite false := by
  have positive : 1 ≤ halfGap := one_le_zpow₀ one_le_two (by norm_num)
  rw [cast_bound] at above
  have large : 1 ≤ value := by linarith
  rcases binaryExponent_bounds large with ⟨_, most⟩
  have least : (2 : Rat) ^ 52 ≤ significand value := by
    exact_mod_cast (significand_bounds large).1
  have exponent : 1023 ≤ binaryExponent value := by
    by_contra low
    have power : (2 : Rat) ^ (binaryExponent value + 1) ≤ 2 ^ (970 + (53 : Nat) : Int) :=
      zpow_le_zpow_right₀ one_le_two (by omega)
    rw [two_zpow_970_add] at power
    linarith
  rw [round_eq_of_one_le large, if_pos]
  rw [two_pow_1024]
  rcases exponent.lt_or_eq with more | equal
  · have step := four_mul_le_spacing large more
    nlinarith
  · have step : spacing value = 2 ^ 1 * halfGap := by
      rw [spacing_eq_of_one_le large, ← equal, ← two_zpow_970_add]
      norm_num
    have half : ((2 * 2 ^ 52 : Int) : Rat) - 1 / 2 ≤ value / spacing value := by
      rw [le_div_iff₀ (spacing_pos value), step]
      push_cast
      linarith
    have top : ((2 * 2 ^ 52 : Int) : Rat) ≤ significand value := by
      exact_mod_cast even_le_nearestEven half
    push_cast at top
    rw [step]
    nlinarith

/-! ## Whole numbers -/

theorem ofInt_eq_overflow {value : Int} (above : bound ≤ value) :
    ofInt value = .error .overflow := by
  have infinite : round value = .infinite false := round_eq_infinite (by exact_mod_cast above)
  rw [ofInt, infinite]

/-- The positive whole numbers that have a finite double. -/
theorem exists_ofInt_eq_ok_iff {value : Int} (positive : 0 < value) :
    (∃ double, ofInt value = .ok double) ↔ value < bound := by
  have large : (1 : Rat) ≤ value := by exact_mod_cast positive
  constructor
  · rintro ⟨double, equal⟩
    by_contra above
    rw [ofInt_eq_overflow (not_lt.mp above)] at equal
    cases equal
  · intro below
    rcases exists_round_eq_finite large (by exact_mod_cast below) with ⟨result, rounded⟩
    exact ⟨.finite result, by rw [ofInt, rounded]⟩

end Double

end UplinkShaper
