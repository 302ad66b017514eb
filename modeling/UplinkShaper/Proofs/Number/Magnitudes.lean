import UplinkShaper.Proofs.Number.Range
import UplinkShaper.Proofs.Results

/-!
The values of numbers, and how large they become. Finite numbers compare as the rationals do
that they stand for. Each operation on doubles rounds once, and rounding at most doubles a
magnitude; so what is computed of numbers that are far below the largest double is finite, and
has a whole part.
-/

namespace UplinkShaper

namespace Number

/-! ## Values -/

/-- The rational that a finite number stands for. -/
def value? : Number → Option Rat
  | .whole value => some value
  | .real value => value.toRat?

theorem value?_simplify (number : Number) : number.simplify.value? = number.value? := by
  rcases number with whole | (rational | _ | _ | _)
  · rfl
  · by_cases integral : rational.den = 1
    · simp only [simplify, toInt?, if_pos integral, value?, Double.toRat?, Option.some.injEq]
      exact Rat.coe_int_num_of_den_eq_one integral
    · simp only [simplify, toInt?, if_neg integral]
  · rfl
  · rfl
  · rfl

theorem whole_mul_half {whole halves : Int} (positive : 0 < whole) (halvesPositive : 0 < halves)
    (small : whole * halves < 2 ^ 53) :
    (Number.whole whole).mul (.real (.finite (halves / 2))) =
      .ok (.real (.finite ((whole * halves : Int) / 2))) := by
  have product : 0 < whole * halves := mul_pos positive halvesPositive
  have wholeSmall : |whole| < 2 ^ 53 := by
    rw [abs_of_pos positive]
    exact (le_mul_of_one_le_right positive.le halvesPositive).trans_lt small
  have rounded := @Double.round_div_two_pow (whole * halves) 1 (by rwa [abs_of_pos product])
    (by decide)
  rw [pow_one] at rounded
  have nonzero : ¬ ((whole : Rat) = 0 ∨ (halves : Rat) / 2 = 0) := by
    have := positive.ne'
    have := halvesPositive.ne'
    rintro (isZero | isZero)
    · simp_all
    · simp_all
  have exactly : (whole : Rat) * (halves / 2) = (whole * halves : Int) / 2 := by
    push_cast
    ring
  rw [Number.mul, toDouble, Double.ofInt_eq_ok wholeSmall, toDouble]
  · simp only [Result.ok_bind, Double.mul, Double.toRat?, if_neg nonzero, exactly, rounded]
    rfl
  · intro _ _ _ impossible
    cases impossible

/-! ## Order -/

/-- How two rationals compare. -/
def orderOf (left right : Rat) : Ordering :=
  if left < right then .lt else if left = right then .eq else .gt

theorem swap_orderOf (left right : Rat) : (orderOf left right).swap = orderOf right left := by
  grind [orderOf, Ordering.swap]

theorem compare_eq_orderOf (left right : Int) : compare left right = orderOf left right := by
  rcases lt_trichotomy left right with less | rfl | more
  · rw [compare_lt_iff_lt.mpr less, orderOf, if_pos (by exact_mod_cast less)]
  · simp [orderOf]
  · rw [compare_gt_iff_gt.mpr more, orderOf, if_neg (by exact_mod_cast more.not_gt),
      if_neg (by exact_mod_cast more.ne')]

theorem compareWithDouble?_of_toRat? {whole : Int} {right : Double} {second : Rat}
    (isRight : right.toRat? = some second) :
    compareWithDouble? whole right = some (orderOf whole second) := by
  cases right <;> cases isRight
  · rfl
  · rw [compareWithDouble?, compare_eq_orderOf, Int.cast_zero]

/-- Finite numbers compare as the rationals do that they stand for. -/
theorem compare?_of_value? {left right : Number} {first second : Rat}
    (isLeft : left.value? = some first) (isRight : right.value? = some second) :
    left.compare? right = some (orderOf first second) := by
  cases left with
  | whole whole =>
      cases isLeft
      cases right with
      | whole other =>
          cases isRight
          rw [compare?, compare_eq_orderOf]
      | real double => exact compareWithDouble?_of_toRat? isRight
  | real double =>
      cases right with
      | whole other =>
          cases isRight
          rw [compare?, compareWithDouble?_of_toRat? isLeft, Option.map_some, swap_orderOf]
      | real other => cases double <;> cases other <;> cases isLeft <;> cases isRight <;> rfl

theorem le_iff_of_value? {left right : Number} {first second : Rat}
    (isLeft : left.value? = some first) (isRight : right.value? = some second) :
    left.le right = true ↔ first ≤ second := by
  rw [le, compare?_of_value? isLeft isRight]
  simp only [orderOf]
  grind

theorem lt_iff_of_value? {left right : Number} {first second : Rat}
    (isLeft : left.value? = some first) (isRight : right.value? = some second) :
    left.lt right = true ↔ first < second := by
  rw [lt, compare?_of_value? isLeft isRight]
  simp only [orderOf]
  grind

/-- What is above zero is not at most zero. -/
theorem le_zero_of_pos {number : Number} (positive : (0 : Number).lt number = true) :
    number.le 0 = false := by
  have isZero : (0 : Number).value? = some 0 := congrArg some Int.cast_zero
  cases found : number.value? with
  | some value =>
      have above := (lt_iff_of_value? isZero found).mp positive
      rw [Bool.eq_false_iff, ne_eq, le_iff_of_value? found isZero]
      exact above.not_ge
  | none =>
      cases number with
      | whole value => cases found
      | real value =>
          cases value with
          | infinite negative =>
              cases negative with
              | false => rfl
              | true => cases positive
          | notANumber => cases positive
          | negativeZero => cases found
          | finite value => cases found

end Number

/-! ## Rounding -/

theorem abs_nearestEven_sub_le (value : Rat) : |(nearestEven value : Rat) - value| ≤ 1 / 2 := by
  have least := sub_half_le_nearestEven value
  have most := nearestEven_le_add_half value
  rw [abs_le]
  constructor <;> linarith

/-- A number is rounded to zero, or to an integer at most twice as large. -/
theorem abs_nearestEven_le (value : Rat) : |(nearestEven value : Rat)| ≤ 2 * |value| := by
  by_cases isZero : nearestEven value = 0
  · rw [isZero, Int.cast_zero, abs_zero]
    positivity
  · have near := abs_nearestEven_sub_le value
    have large : (1 : Rat) ≤ |(nearestEven value : Rat)| := by
      exact_mod_cast Int.one_le_abs isZero
    have between := abs_sub_abs_le_abs_sub (nearestEven value : Rat) value
    linarith

/-- Dropping the fraction moves a number toward zero. -/
theorem truncate_between (value : Rat) :
    (0 ≤ (truncate value : Rat) ∧ (truncate value : Rat) ≤ value) ∨
      (value ≤ truncate value ∧ (truncate value : Rat) ≤ 0) := by
  unfold truncate
  split
  case isTrue negative =>
    refine .inr ⟨Rat.le_ceil, ?_⟩
    exact_mod_cast Rat.ceil_le_iff.mpr (by exact_mod_cast negative.le)
  case isFalse nonneg =>
    refine .inl ⟨?_, Rat.floor_le value⟩
    exact_mod_cast Rat.le_floor_iff.mpr (by exact_mod_cast not_lt.mp nonneg)

theorem abs_truncate_le (value : Rat) : |(truncate value : Rat)| ≤ |value| := by
  rcases truncate_between value with ⟨nonneg, less⟩ | ⟨more, nonpos⟩
  · rw [abs_of_nonneg nonneg, abs_of_nonneg (nonneg.trans less)]
    exact less
  · rw [abs_of_nonpos nonpos, abs_of_nonpos (more.trans nonpos)]
    linarith

/-- What dropping the fraction takes away is not more than there is. -/
theorem abs_sub_truncate_le (value : Rat) : |value - truncate value| ≤ |value| := by
  rcases truncate_between value with ⟨nonneg, less⟩ | ⟨more, nonpos⟩
  · rw [abs_of_nonneg (by linarith), abs_of_nonneg (nonneg.trans less)]
    linarith
  · rw [abs_of_nonpos (by linarith), abs_of_nonpos (more.trans nonpos)]
    linarith

namespace Double

/-- A magnitude up to which nothing is rounded to an infinity. -/
def IsBounded (limit : Rat) : Prop :=
  limit < bound

theorem IsBounded.mono {limit less : Rat} (bounded : IsBounded limit) (isLess : less ≤ limit) :
    IsBounded less :=
  lt_of_le_of_lt isLess bounded

theorem IsBounded.lt {limit : Rat} (bounded : IsBounded limit) : limit < 2 ^ (1024 : Nat) := by
  have positive := halfGap_pos
  unfold IsBounded at bounded
  rw [cast_bound] at bounded
  rw [two_pow_1024]
  linarith

/-- A finite double of at most some magnitude. -/
def IsWithin (limit : Rat) (double : Double) : Prop :=
  ∃ value, double.toRat? = some value ∧ |value| ≤ limit

variable {left right double : Double} {limit leftLimit rightLimit value : Rat}

theorem IsWithin.mono (within : left.IsWithin leftLimit) (more : leftLimit ≤ limit) :
    left.IsWithin limit := by
  rcases within with ⟨value, isValue, small⟩
  exact ⟨value, isValue, small.trans more⟩

theorem isWithin_finite (small : |value| ≤ limit) : (finite value).IsWithin limit :=
  ⟨value, rfl, small⟩

theorem isWithin_zero (negative : Bool) (nonneg : 0 ≤ limit) :
    (zero negative).IsWithin limit := by
  cases negative with
  | false => exact ⟨0, rfl, by rwa [abs_zero]⟩
  | true => exact ⟨0, rfl, by rwa [abs_zero]⟩

theorem isWithin_round (small : 2 * |value| ≤ limit) (bounded : IsBounded limit) :
    (round value).IsWithin limit := by
  have nonneg : 0 ≤ limit := le_trans (by positivity) small
  unfold round
  split
  · exact isWithin_finite (by rwa [abs_zero])
  · have positive := spacing_pos value
    have rounded : |(nearestEven (value / spacing value) : Rat) * spacing value| ≤ limit := by
      have near := abs_nearestEven_le (value / spacing value)
      rw [abs_mul, abs_of_pos positive]
      calc |(nearestEven (value / spacing value) : Rat)| * spacing value
          ≤ 2 * |value / spacing value| * spacing value := by gcongr
        _ = 2 * |value| := by
          rw [abs_div, abs_of_pos positive, mul_assoc, div_mul_cancel₀ _ positive.ne']
        _ ≤ limit := small
    dsimp only
    rw [abs_eq_magnitude, if_neg (not_le.mpr (rounded.trans_lt bounded.lt))]
    split
    · exact isWithin_zero _ nonneg
    · exact isWithin_finite rounded

/-! ## Operations -/

theorem IsWithin.neg (within : double.IsWithin limit) : double.neg.IsWithin limit := by
  rcases within with ⟨value, isValue, small⟩
  cases double with
  | finite own =>
      cases isValue
      by_cases isZero : value = 0
      · exact ⟨0, by rw [Double.neg, if_pos isZero]; rfl, by rwa [isZero] at small⟩
      · exact ⟨-value, by rw [Double.neg, if_neg isZero]; rfl, by rwa [abs_neg]⟩
  | negativeZero =>
      cases isValue
      exact ⟨0, rfl, small⟩
  | infinite negative => cases isValue
  | notANumber => cases isValue

theorem IsWithin.add (leftWithin : left.IsWithin leftLimit)
    (rightWithin : right.IsWithin rightLimit) (enough : 2 * (leftLimit + rightLimit) ≤ limit)
    (bounded : IsBounded limit) :
    (left.add right).IsWithin limit := by
  rcases leftWithin with ⟨first, isFirst, firstSmall⟩
  rcases rightWithin with ⟨second, isSecond, secondSmall⟩
  have firstNonneg := abs_nonneg first
  have secondNonneg := abs_nonneg second
  cases left with
  | negativeZero =>
      have isSum : negativeZero.add right = right := by cases right <;> rfl
      rw [isSum]
      exact ⟨second, isSecond, by linarith⟩
  | finite =>
      cases isFirst
      cases right with
      | negativeZero => exact ⟨first, rfl, by linarith⟩
      | finite =>
          cases isSecond
          have sum := abs_add_le first second
          exact isWithin_round (by linarith) bounded
      | infinite => cases isSecond
      | notANumber => cases isSecond
  | infinite => cases isFirst
  | notANumber => cases isFirst

theorem IsWithin.sub (leftWithin : left.IsWithin leftLimit)
    (rightWithin : right.IsWithin rightLimit) (enough : 2 * (leftLimit + rightLimit) ≤ limit)
    (bounded : IsBounded limit) :
    (left.sub right).IsWithin limit :=
  leftWithin.add rightWithin.neg enough bounded

theorem IsWithin.mul (leftWithin : left.IsWithin leftLimit)
    (rightWithin : right.IsWithin rightLimit) (enough : 2 * (leftLimit * rightLimit) ≤ limit)
    (bounded : IsBounded limit) :
    (left.mul right).IsWithin limit := by
  rcases leftWithin with ⟨first, isFirst, firstSmall⟩
  rcases rightWithin with ⟨second, isSecond, secondSmall⟩
  have product : 2 * |first * second| ≤ limit := by
    have := mul_le_mul firstSmall secondSmall (abs_nonneg _) ((abs_nonneg _).trans firstSmall)
    rw [abs_mul]
    linarith
  unfold Double.mul
  simp only [isFirst, isSecond]
  split
  · exact isWithin_zero _ (le_trans (by positivity) product)
  · exact isWithin_round product bounded

theorem IsWithin.div {divisor : Rat} (within : double.IsWithin leftLimit) (large : 1 ≤ divisor)
    (enough : 2 * leftLimit ≤ limit) (bounded : IsBounded limit) :
    (double.div (.finite divisor)).IsWithin limit := by
  rcases within with ⟨value, isValue, small⟩
  have nonneg := abs_nonneg value
  have positive : 0 < divisor := by linarith
  have quotient : |value / divisor| ≤ |value| := by
    rw [abs_div, abs_of_pos positive]
    exact div_le_self nonneg large
  have isDivisor : (finite divisor).toRat? = some divisor := rfl
  unfold Double.div
  simp only [isValue, isDivisor]
  rw [if_neg positive.ne']
  split
  · exact isWithin_zero _ (by linarith)
  · exact isWithin_round (by linarith) bounded

theorem IsWithin.remainder {divisor : Rat} (within : double.IsWithin limit)
    (positive : 0 < divisor) : (double.remainder (.finite divisor)).IsWithin limit := by
  rcases within with ⟨value, isValue, small⟩
  have rest : |value - truncate (value / divisor) * divisor| ≤ limit := by
    have less := abs_sub_truncate_le (value / divisor)
    calc |value - truncate (value / divisor) * divisor|
        = |value / divisor - truncate (value / divisor)| * divisor := by
          rw [← abs_of_pos positive, ← abs_mul, abs_of_pos positive, sub_mul,
            div_mul_cancel₀ _ positive.ne']
      _ ≤ |value / divisor| * divisor := by gcongr
      _ = |value| := by rw [abs_div, abs_of_pos positive, div_mul_cancel₀ _ positive.ne']
      _ ≤ limit := small
  have isDivisor : (finite divisor).toRat? = some divisor := rfl
  unfold Double.remainder
  simp only [isValue, isDivisor]
  rw [if_neg positive.ne']
  split
  · exact isWithin_zero _ ((abs_nonneg _).trans small)
  · exact isWithin_finite rest

theorem IsWithin.floor (within : double.IsWithin limit) : double.floor.IsWithin (limit + 1) := by
  rcases within with ⟨value, isValue, small⟩
  cases double with
  | finite own =>
      cases isValue
      have least := Rat.lt_floor_add_one value
      have most := Rat.floor_le value
      rw [abs_le] at small
      refine isWithin_finite (abs_le.mpr ⟨?_, ?_⟩)
      · push_cast at least
        linarith
      · linarith
  | negativeZero =>
      cases isValue
      exact ⟨0, rfl, by linarith⟩
  | infinite => cases isValue
  | notANumber => cases isValue

theorem IsWithin.floorDiv {divisor : Rat} (within : double.IsWithin leftLimit)
    (large : 1 ≤ divisor) (enough : 32 * leftLimit + 8 ≤ limit) (bounded : IsBounded limit) :
    (double.floorDiv (.finite divisor)).IsWithin limit := by
  have nonneg : 0 ≤ leftLimit := by
    rcases within with ⟨value, _, small⟩
    exact (abs_nonneg _).trans small
  have one : (finite 1).IsWithin 1 := isWithin_finite (by norm_num)
  have rest : (double.remainder (.finite divisor)).IsWithin leftLimit :=
    within.remainder (by linarith)
  have multiple : (double.sub (double.remainder (.finite divisor))).IsWithin (4 * leftLimit) :=
    within.sub rest (by linarith) (bounded.mono (by linarith))
  have quotient : ((double.sub (double.remainder (.finite divisor))).div (.finite divisor)).IsWithin
      (8 * leftLimit) :=
    multiple.div large (by linarith) (bounded.mono (by linarith))
  -- The quotient is taken as it is or less one.
  have adjusted (isLess : Prop) [Decidable isLess] : (if isLess then
      ((double.sub (double.remainder (.finite divisor))).div (.finite divisor)).sub (.finite 1)
      else (double.sub (double.remainder (.finite divisor))).div (.finite divisor)).IsWithin
        (2 * (8 * leftLimit + 1)) := by
    split
    · exact quotient.sub one (le_refl _) (bounded.mono (by linarith))
    · exact quotient.mono (by linarith)
  unfold Double.floorDiv
  dsimp only
  -- Its floor is raised by one at most.
  split
  · split
    · exact (adjusted _).floor.add one (by linarith) bounded
    · exact (adjusted _).floor.mono (by linarith)
  · exact (adjusted _).floor.mono (by linarith)

theorem IsWithin.exists_wholePart (within : double.IsWithin limit) :
    ∃ whole, double.wholePart = .ok whole ∧ |(whole : Rat)| ≤ limit := by
  rcases within with ⟨value, isValue, small⟩
  cases double with
  | finite own =>
      cases isValue
      exact ⟨truncate value, rfl, (abs_truncate_le value).trans small⟩
  | negativeZero =>
      cases isValue
      exact ⟨0, rfl, by simpa using small⟩
  | infinite => cases isValue
  | notANumber => cases isValue

end Double

/-! ## Numbers of either kind -/

namespace Number

/-- A finite number of at most some magnitude. -/
def IsWithin (limit : Rat) (number : Number) : Prop :=
  ∃ value, number.value? = some value ∧ |value| ≤ limit

instance (limit : Rat) (number : Number) : Decidable (number.IsWithin limit) :=
  match isValue : number.value? with
  | some value => decidable_of_iff (|value| ≤ limit) (by simp [IsWithin, isValue])
  | none => .isFalse (by simp [IsWithin, isValue])

variable {number left right : Number} {limit leftLimit rightLimit : Rat}

theorem IsWithin.mono (within : number.IsWithin leftLimit) (more : leftLimit ≤ limit) :
    number.IsWithin limit := by
  rcases within with ⟨value, isValue, small⟩
  exact ⟨value, isValue, small.trans more⟩

theorem isWithin_whole {value : Int} :
    (Number.whole value).IsWithin limit ↔ |(value : Rat)| ≤ limit := by
  constructor
  · rintro ⟨_, ⟨⟩, small⟩
    exact small
  · exact fun small => ⟨value, rfl, small⟩

theorem isWithin_real {double : Double} :
    (Number.real double).IsWithin limit ↔ double.IsWithin limit :=
  Iff.rfl

theorem IsWithin.exists_toDouble (within : number.IsWithin leftLimit)
    (enough : 2 * leftLimit ≤ limit) (bounded : Double.IsBounded limit) :
    ∃ double, number.toDouble = .ok double ∧ double.IsWithin limit := by
  cases number with
  | whole value =>
      have small := isWithin_whole.mp within
      have rounded : (Double.round value).IsWithin limit :=
        Double.isWithin_round (by linarith) bounded
      refine ⟨Double.round value, ?_, rounded⟩
      rcases rounded with ⟨_, isValue, _⟩
      change Double.ofInt value = _
      unfold Double.ofInt
      split
      case h_1 isInfinite =>
        rw [isInfinite] at isValue
        cases isValue
      case h_2 => rfl
  | real double =>
      have nonneg : 0 ≤ leftLimit := by
        rcases within with ⟨_, _, small⟩
        exact (abs_nonneg _).trans small
      exact ⟨double, rfl, (isWithin_real.mp within).mono (by linarith)⟩

theorem mul_real (left : Number) (right : Double) :
    left.mul (.real right) =
      (do return .real ((← left.toDouble).mul (← (Number.real right).toDouble))) := by
  cases left <;> rfl

theorem real_mul (left : Double) (right : Number) :
    (Number.real left).mul right =
      (do return .real ((← (Number.real left).toDouble).mul (← right.toDouble))) := by
  cases right <;> rfl

theorem IsWithin.exists_mul (leftWithin : left.IsWithin leftLimit)
    (rightWithin : right.IsWithin rightLimit) (leftLarge : 1 ≤ leftLimit)
    (rightLarge : 1 ≤ rightLimit) (enough : 8 * (leftLimit * rightLimit) ≤ limit)
    (bounded : Double.IsBounded limit) :
    ∃ product, left.mul right = .ok product ∧ product.IsWithin limit := by
  have leftMost : leftLimit ≤ leftLimit * rightLimit :=
    le_mul_of_one_le_right (by linarith) rightLarge
  have rightMost : rightLimit ≤ leftLimit * rightLimit :=
    le_mul_of_one_le_left (by linarith) leftLarge
  rcases leftWithin.exists_toDouble (le_refl _) (bounded.mono (by linarith)) with
    ⟨first, isFirst, firstWithin⟩
  rcases rightWithin.exists_toDouble (le_refl _) (bounded.mono (by linarith)) with
    ⟨second, isSecond, secondWithin⟩
  have product : (first.mul second).IsWithin limit :=
    firstWithin.mul secondWithin (by linarith) bounded
  cases left with
  | whole leftValue =>
      cases right with
      | whole rightValue =>
          have small := mul_le_mul (isWithin_whole.mp leftWithin) (isWithin_whole.mp rightWithin)
            (abs_nonneg _) (by linarith)
          refine ⟨.whole (leftValue * rightValue), rfl, isWithin_whole.mpr ?_⟩
          push_cast
          rw [abs_mul]
          linarith
      | real double =>
          refine ⟨.real (first.mul second), ?_, product⟩
          rw [mul_real, isFirst, isSecond]
          rfl
  | real double =>
      refine ⟨.real (first.mul second), ?_, product⟩
      rw [real_mul, isFirst, isSecond]
      rfl

theorem exists_floorDiv_hundred (within : number.IsWithin leftLimit)
    (enough : 32 * leftLimit + 8 ≤ limit) (bounded : Double.IsBounded limit) :
    ∃ quotient, number.floorDiv 100 = .ok quotient ∧ quotient.IsWithin limit := by
  have nonneg : 0 ≤ leftLimit := by
    rcases within with ⟨_, _, small⟩
    exact (abs_nonneg _).trans small
  cases number with
  | whole value =>
      have small := isWithin_whole.mp within
      refine ⟨.whole (value.fdiv 100), rfl, isWithin_whole.mpr ?_⟩
      have quotient : |value.fdiv 100| ≤ |value| + 1 := by
        rw [Int.fdiv_eq_ediv_of_nonneg _ (by decide), abs_le]
        have least := neg_abs_le value
        have most := le_abs_self value
        have nonneg := abs_nonneg value
        constructor <;> omega
      have quotientRat : |((value.fdiv 100 : Int) : Rat)| ≤ |(value : Rat)| + 1 := by
        exact_mod_cast quotient
      linarith
  | real double =>
      have hundred : Number.toDouble 100 = .ok (.finite (100 : Int)) :=
        Double.ofInt_eq_ok (by norm_num)
      refine ⟨.real (double.floorDiv (.finite (100 : Int))), ?_, ?_⟩
      · change (do return Number.real (double.floorDiv (← Number.toDouble 100)) :
          Except ArithmeticError Number) = _
        rw [hundred]
        rfl
      · exact (isWithin_real.mp within).floorDiv (by norm_num) enough bounded

theorem IsWithin.exists_wholePart (within : number.IsWithin limit) :
    ∃ whole, number.wholePart = .ok whole ∧ |(whole : Rat)| ≤ limit := by
  cases number with
  | whole value => exact ⟨value, rfl, isWithin_whole.mp within⟩
  | real double => exact Double.IsWithin.exists_wholePart (isWithin_real.mp within)

/-- A number far below the largest double. -/
def IsModerate (number : Number) : Prop :=
  number.IsWithin (10 ^ 200)

instance (number : Number) : Decidable number.IsModerate :=
  inferInstanceAs (Decidable (number.IsWithin (10 ^ 200)))

end Number

end UplinkShaper
