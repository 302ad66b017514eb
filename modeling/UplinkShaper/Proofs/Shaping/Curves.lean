import UplinkShaper.Backend.Words
import UplinkShaper.Proofs.Number.Range
import UplinkShaper.Proofs.Results

/-!
Curves of tiers. A realtime tier's burst is at least its sustained rate, whatever that
rate is: the factor of the burst outweighs both roundings of the product. A burst can be
written in a command whenever there is one, a sustained rate if it has a finite double.
-/

namespace UplinkShaper

namespace Number

theorem le_real_finite {whole : Int} {value : Rat} (below : (whole : Rat) ≤ value) :
    (Number.whole whole).le (.real (.finite value)) = true := by
  rcases below.lt_or_eq with less | equal
  · simp [le, compare?, compareWithDouble?, less]
  · simp [le, compare?, compareWithDouble?, equal]

theorem le_real_infinite (whole : Int) :
    (Number.whole whole).le (.real (.infinite false)) = true := by
  simp [le, compare?, compareWithDouble?]

theorem whole_le_whole {left right : Int} :
    (Number.whole left).le (.whole right) = true ↔ left ≤ right := by
  simp only [le, compare?, bne_iff_ne, ne_eq, compare_gt_iff_gt, not_lt]

@[simp]
theorem whole_eq_whole {left right : Int} :
    (Number.whole left).eq (.whole right) = true ↔ left = right := by
  simp only [Number.eq, Number.compare?, beq_iff_eq, Option.some.injEq]
  exact compare_eq_iff_eq

theorem le_simplify_finite {whole : Int} {value : Rat} (below : (whole : Rat) ≤ value) :
    (Number.whole whole).le (Number.real (.finite value)).simplify = true := by
  by_cases integral : value.den = 1
  · have same : (value.num : Rat) = value := Rat.coe_int_num_of_den_eq_one integral
    simp only [simplify, toInt?, if_pos integral]
    apply whole_le_whole.mpr
    rw [← same] at below
    exact_mod_cast below
  · simp only [simplify, toInt?, if_neg integral]
    exact le_real_finite below

end Number

namespace ServiceCurve

/-- The burst of a positive rate is a rounded product, which outweighs the rate by more
than rounding takes away. -/
theorem exists_product_of_mul {rate : Int} {factor : Rat} {reached : Number}
    (positive : 0 < rate) (large : 3 / 2 ≤ factor)
    (product : (Number.whole rate).mul (.real (.finite factor)) = .ok reached) :
    ∃ exact : Rat, reached = .real (Double.round exact) ∧ 1 ≤ exact ∧
      (rate : Rat) ≤ exact * (1 - 1 / 2 ^ 53) := by
  have rateLarge : (1 : Rat) ≤ rate := by exact_mod_cast positive
  rcases Double.round_of_one_le rateLarge with tooLarge | ⟨near, rounded, close⟩
  · simp [Number.mul, Number.toDouble, Double.ofInt, tooLarge, bind, Except.bind] at product
  · have nearPos : 0 < near := by linarith
    have productLarge : (1 : Rat) ≤ near * factor := by nlinarith
    have nonzero : ¬ (near = 0 ∨ factor = 0) := by
      rintro (isZero | isZero) <;> linarith
    have unfolded : reached = .real (Double.round (near * factor)) := by
      simp [Number.mul, Number.toDouble, Double.ofInt, rounded, bind, Except.bind, pure,
        Except.pure, Double.mul, Double.toRat?, nonzero] at product
      exact product.symm
    -- Two roundings take less away than the factor adds.
    exact ⟨near * factor, unfolded, productLarge, by nlinarith⟩

/-- The burst of a positive rate is not below the rate. -/
theorem whole_le_mul {rate : Int} {factor : Rat} {reached : Number} (positive : 0 < rate)
    (large : 3 / 2 ≤ factor)
    (product : (Number.whole rate).mul (.real (.finite factor)) = .ok reached) :
    (Number.whole rate).le reached.simplify = true := by
  rcases exists_product_of_mul positive large product with ⟨exact, rfl, exactLarge, enough⟩
  rcases Double.round_of_one_le exactLarge with tooLarge | ⟨result, rounded, close⟩
  · rw [tooLarge]
    exact Number.le_real_infinite rate
  · rw [rounded]
    exact Number.le_simplify_finite (enough.trans close)

/-- A curve that goes with a rate and a priority class: there is a burst, with its
duration, for realtime classes only, and it reaches the sustained rate. -/
structure Fits (curve : ServiceCurve) (rate : Int) (priority : Priority) : Prop where
  sustained : curve.sustained = .whole rate
  burst : curve.burst.isSome = priority.isRealtime
  duration : ∀ burst ∈ curve.burst, burst.duration.isSome = true
  reaches : ∀ burst ∈ curve.burst, curve.sustained.le burst.rate = true

/-- The bursts of priority classes are so many halves of the rate. -/
theorem exists_halves_of_burstProfile? {priority : Priority} {profile : BurstProfile}
    (found : priority.burstProfile? = some profile) :
    ∃ (halves : Int) (duration : Nat), profile.multiplier = .finite (halves / 2) ∧
      profile.duration = duration ∧ 0 < halves ∧ halves ≤ 4 := by
  cases priority <;> simp only [Priority.burstProfile?, Option.some.injEq, reduceCtorEq] at found
  · exact ⟨4, 10, by rw [← found]; norm_num, by rw [← found]; rfl, by decide, by decide⟩
  · exact ⟨3, 20, by rw [← found]; norm_num, by rw [← found]; rfl, by decide, by decide⟩

theorem exists_factor_of_burstProfile? {priority : Priority} {profile : BurstProfile}
    (found : priority.burstProfile? = some profile) :
    ∃ factor : Rat, profile.multiplier = .finite factor ∧ 3 / 2 ≤ factor := by
  cases priority <;> simp only [Priority.burstProfile?, Option.some.injEq, reduceCtorEq] at found
  · exact ⟨2, by rw [← found], by norm_num⟩
  · exact ⟨3 / 2, by rw [← found], le_refl _⟩

theorem fits_of_ofRate {rate : Int} {priority : Priority} {curve : ServiceCurve}
    (positive : 0 < rate) (made : ofRate (.whole rate) priority = .ok curve) :
    curve.Fits rate priority := by
  have realtime := priority.burstProfile?_isSome
  simp only [ofRate] at made
  split at made
  case h_1 noProfile =>
    cases made
    rw [noProfile] at realtime
    exact ⟨rfl, realtime, by simp, by simp⟩
  case h_2 profile found =>
    rcases Result.bind_eq_ok.mp made with ⟨reached, product, equal⟩
    rw [← Result.pure_eq_ok.mp equal]
    rw [found] at realtime
    refine ⟨rfl, realtime, by simp, ?_⟩
    rcases exists_factor_of_burstProfile? found with ⟨factor, isFinite, large⟩
    rw [isFinite] at product
    simpa using whole_le_mul positive large (Result.arithmetic_eq_ok.mp product)

/-! ## Curves as words -/

/-- A product that was rounded has a finite double, or is infinite itself. -/
theorem exists_toDouble_simplify_round {exact : Rat} (large : 1 ≤ exact) :
    ∃ double, (Number.real (Double.round exact)).simplify.toDouble = .ok double := by
  rcases Double.round_of_one_le large with tooLarge | ⟨result, rounded, close⟩
  · rw [tooLarge]
    exact ⟨.infinite false, rfl⟩
  · rw [rounded]
    by_cases integral : result.den = 1
    · have same : (result.num : Rat) = result := Rat.coe_int_num_of_den_eq_one integral
      have below := Double.lt_bound_of_round_eq_finite large rounded
      have resultPos : 0 < result := by linarith
      rw [← same] at below resultPos
      simp only [Number.simplify, Number.toInt?, if_pos integral]
      exact (Double.exists_ofInt_eq_ok_iff (by exact_mod_cast resultPos)).mpr
        (by exact_mod_cast below)
    · simp only [Number.simplify, Number.toInt?, if_neg integral]
      exact ⟨.finite result, rfl⟩

/-- The curve of a rate with a finite double can be written. -/
theorem exists_words_of_ofRate {rate : Int} {priority : Priority} {curve : ServiceCurve}
    (positive : 0 < rate) (below : rate < Double.bound)
    (made : ofRate (.whole rate) priority = .ok curve) :
    ∃ words, Words.curve curve = .ok words := by
  rcases (Double.exists_ofInt_eq_ok_iff positive).mpr below with ⟨near, isNear⟩
  have sustained : Words.rate (.whole rate) = .ok (Words.double near ++ "kbit") := by
    rw [Words.rate, Number.toDouble, isNear]
    rfl
  simp only [ofRate] at made
  split at made
  case h_1 noProfile =>
    cases made
    exact ⟨["ls", "rate", Words.double near ++ "kbit"], by rw [Words.curve, sustained]; rfl⟩
  case h_2 profile found =>
    rcases Result.bind_eq_ok.mp made with ⟨reached, product, equal⟩
    rw [← Result.pure_eq_ok.mp equal]
    rcases exists_factor_of_burstProfile? found with ⟨factor, isFinite, large⟩
    rw [isFinite] at product
    rcases exists_product_of_mul positive large (Result.arithmetic_eq_ok.mp product) with
      ⟨exact, rfl, exactLarge, _⟩
    rcases exists_toDouble_simplify_round exactLarge with ⟨double, isDouble⟩
    have burst : Words.rate (Number.real (Double.round exact)).simplify =
        .ok (Words.double double ++ "kbit") := by
      rw [Words.rate, isDouble]
      rfl
    rw [Words.curve]
    dsimp only
    rw [sustained, burst]
    exact ⟨_, rfl⟩

end ServiceCurve

end UplinkShaper
