import UplinkShaper.Proofs.Allocation.Claims
import UplinkShaper.Proofs.Allocation.Decisions
import UplinkShaper.Proofs.Allocation.WellFormed
import UplinkShaper.Proofs.Number.Magnitudes

/-!
Class trees of moderate numbers. While no number that is asked for comes near the largest
double all arithmetic succeeds, in whatever form the numbers are written. A tree is then
made or refused for a reason, and no other failure is left.
-/

namespace UplinkShaper

/-- A specification whose numbers are all far below the largest double. -/
structure TierSpec.IsModerate (spec : TierSpec) : Prop where
  id : ∃ number, spec.id = .number number ∧ number.IsModerate
  share : ∀ share ∈ spec.share, share.IsModerate
  rate : ∀ rate ∈ spec.rate, rate.IsModerate
  ratePercent : ∀ percent ∈ spec.ratePercent, percent.IsModerate
  parent : spec.parent.IsModerate

/-! ## Numbers that can be written -/

theorem Double.isBounded_of_le {limit : Rat} (small : limit ≤ 10 ^ 250) :
    Double.IsBounded limit := by
  have power : ((2 : Rat) ^ 4) ^ 250 = 2 ^ 30 * halfGap := by
    rw [← two_zpow_970_add, ← pow_mul, ← zpow_natCast]
    norm_num
  calc limit ≤ 10 ^ 250 := small
    _ ≤ (2 ^ 4) ^ 250 := by gcongr; norm_num
    _ = 2 ^ 30 * halfGap := power
    _ < bound := by
      rw [cast_bound]
      exact mul_lt_mul_of_pos_right (by norm_num) halfGap_pos

namespace Number

variable {number : Number}

theorem IsWithin.isWritable_of_lt {places : Nat} (within : number.IsWithin (10 ^ places))
    (few : places < Text.digitLimit) : number.isWritable = true := by
  cases number with
  | whole value =>
      have small : |value| ≤ 10 ^ places := by exact_mod_cast isWithin_whole.mp within
      have natSmall : value.natAbs ≤ 10 ^ places := by
        rw [Int.abs_eq_natAbs] at small
        exact_mod_cast small
      exact Allocation.isWritable_of_lt few
        (natSmall.trans_lt (Nat.pow_lt_pow_right (by decide) places.lt_succ_self))
  | real => rfl

theorem IsWithin.isWritable (within : number.IsWithin (10 ^ 250)) : number.isWritable = true :=
  within.isWritable_of_lt (by decide)

theorem le_of_whole_le_finite {whole : Int} {value : Rat}
    (below : (Number.whole whole).le (.real (.finite value)) = true) : (whole : Rat) ≤ value := by
  by_contra above
  rw [not_le] at above
  simp [le, compare?, compareWithDouble?, above.not_gt, above.ne'] at below

theorem IsModerate.isWritable (moderate : number.IsModerate) : number.isWritable = true :=
  IsWithin.isWritable (IsWithin.mono moderate (by norm_num))

theorem IsModerate.exists_toDouble (moderate : number.IsModerate) :
    ∃ double, number.toDouble = .ok double := by
  rcases IsWithin.exists_toDouble moderate (le_refl _) (Double.isBounded_of_le (by norm_num)) with
    ⟨double, isDouble, _⟩
  exact ⟨double, isDouble⟩

/-- Doubles that are equal stand for one rational. -/
theorem toRat?_of_compare? {left right : Double} {value : Rat}
    (order : left.compare? right = some .eq) (isValue : right.toRat? = some value) :
    left.toRat? = some value := by
  cases right with
  | infinite => cases isValue
  | notANumber => cases isValue
  | finite | negativeZero =>
      cases isValue
      cases left with
      | infinite negative => cases negative <;> cases order
      | notANumber => cases order
      | finite | negativeZero =>
          simp only [Double.compare?, Double.toRat?, Option.some.injEq, order_eq_iff] at order ⊢ <;>
            exact order

/-- Numbers that are equal stand for one rational. -/
theorem value?_of_eq {left right : Number} {value : Rat} (equal : left.eq right = true)
    (isValue : right.value? = some value) : left.value? = some value := by
  have order : left.compare? right = some .eq := by simpa [Number.eq] using equal
  cases right with
  | whole =>
      cases isValue
      rcases toInt?_eq_some_iff.mp (eq_whole_iff.mp equal) with rfl | rfl | ⟨rfl, rfl⟩
      · rfl
      · rfl
      · rfl
  | real double =>
      cases left with
      | real => exact toRat?_of_compare? order isValue
      | whole =>
          cases double with
          | infinite => cases isValue
          | notANumber => cases isValue
          | finite | negativeZero =>
              cases isValue
              simp only [compare?, compareWithDouble?, Option.some.injEq, order_eq_iff,
                compare_eq_iff_eq] at order
              subst order
              rfl

theorem IsModerate.of_eq {left right : Number} (moderate : right.IsModerate)
    (equal : left.eq right = true) : left.IsModerate := by
  rcases moderate with ⟨value, isValue, small⟩
  exact ⟨value, value?_of_eq equal isValue, small⟩

end Number

theorem TierSpec.IsModerate.isWritable {spec : TierSpec} (moderate : spec.IsModerate) :
    spec.id.isWritable = true := by
  rcases moderate.id with ⟨number, isNumber, idModerate⟩
  rw [isNumber]
  exact idModerate.isWritable

/-! ## Sums of shares -/

namespace Double

/-- A sum of numbers that are not negative. -/
def IsSum (double : Double) : Prop :=
  double = .infinite false ∨ ∃ value, double.toRat? = some value ∧ 0 ≤ value

theorem isSum_round {value : Rat} (nonneg : 0 ≤ value) : (round value).IsSum := by
  unfold round
  split
  · exact .inr ⟨0, rfl, le_refl _⟩
  · have positive := spacing_pos value
    have scaled : 0 ≤ nearestEven (value / spacing value) := by
      have least := sub_half_le_nearestEven (value / spacing value)
      have quotient : 0 ≤ value / spacing value := by positivity
      have above : (-1 : Rat) < nearestEven (value / spacing value) := by linarith
      have : -1 < nearestEven (value / spacing value) := by exact_mod_cast above
      omega
    have scaledRat : (0 : Rat) ≤ nearestEven (value / spacing value) := by exact_mod_cast scaled
    have notNegative : decide (value < 0) = false := by simpa using nonneg
    dsimp only
    rw [notNegative]
    split
    · exact .inl rfl
    · split
      · exact .inr ⟨0, rfl, le_refl _⟩
      · exact .inr ⟨_, rfl, by positivity⟩

theorem IsSum.add {left right : Double} (leftSum : left.IsSum) (rightSum : right.IsSum) :
    (left.add right).IsSum := by
  rcases leftSum with rfl | ⟨first, isFirst, firstNonneg⟩
  · rcases rightSum with rfl | ⟨second, isSecond, _⟩
    · exact .inl rfl
    · cases right <;> first | exact .inl rfl | cases isSecond
  · rcases rightSum with rfl | ⟨second, isSecond, secondNonneg⟩
    · cases left <;> first | exact .inl rfl | cases isFirst
    · cases left with
      | negativeZero =>
          have isSum : negativeZero.add right = right := by cases right <;> rfl
          rw [isSum]
          exact .inr ⟨second, isSecond, secondNonneg⟩
      | finite =>
          cases isFirst
          cases right with
          | negativeZero => exact .inr ⟨first, rfl, firstNonneg⟩
          | finite =>
              cases isSecond
              exact isSum_round (add_nonneg firstNonneg secondNonneg)
          | infinite => cases isSecond
          | notANumber => cases isSecond
      | infinite => cases isFirst
      | notANumber => cases isFirst

/-- A sum that is not above a hundred is finite. -/
theorem IsSum.isWithin_hundred {double : Double} (isSum : double.IsSum)
    (notAbove : Allocation.isAbove double Allocation.hundred = false) : double.IsWithin 100 := by
  rcases isSum with rfl | ⟨value, isValue, nonneg⟩
  · cases notAbove
  · refine ⟨value, isValue, ?_⟩
    rw [abs_of_nonneg nonneg]
    by_contra above
    rw [not_le] at above
    have order : double.compare? Allocation.hundred = some .gt := by
      cases double with
      | finite =>
          cases isValue
          simp [compare?, Allocation.hundred, toRat?, above.not_gt, above.ne']
      | negativeZero =>
          cases isValue
          norm_num at above
      | infinite => cases isValue
      | notANumber => cases isValue
    simp [Allocation.isAbove, order] at notAbove

end Double

namespace Allocation

variable {requests others : List Request} {request last final : Request}
  {totals : List (Number × Double)}

/-- What holds of the first share of a parent and is kept when one is added holds of all
rows of a table. -/
theorem forall_addShare {holds : Number → Double → Prop} {parent : Number} {share : Double}
    (first : holds parent ((Double.finite 0).add share))
    (more : ∀ other total, holds other total → holds other (total.add share))
    (each : ∀ row ∈ totals, holds row.1 row.2) :
    ∀ row ∈ addShare parent share totals, holds row.1 row.2 := by
  induction totals with
  | nil => exact List.forall_mem_cons.mpr ⟨first, by simp⟩
  | cons head rest induction =>
      rcases List.forall_mem_cons.mp each with ⟨here, later⟩
      rw [addShare]
      split
      · exact List.forall_mem_cons.mpr ⟨more _ _ here, later⟩
      · exact List.forall_mem_cons.mpr ⟨here, induction later⟩

/-- The rows of a table of sums belong to parents of requests, and are sums of shares. -/
theorem forall_shareTotals {holds : Number → Double → Prop}
    (first : ∀ request ∈ requests, ∀ share, request.spec.kind = .percentage →
      (request.spec.share.getD 0).toDouble = .ok share →
        holds request.spec.parent ((Double.finite 0).add share) ∧
          ∀ other total, holds other total → holds other (total.add share))
    (summed : shareTotals requests = .ok totals) : ∀ row ∈ totals, holds row.1 row.2 := by
  induction requests using List.reverseRecOn generalizing totals with
  | nil =>
      cases summed
      simp
  | append_singleton done request induction =>
      rw [shareTotals, List.foldlM_append] at summed
      rcases Result.bind_eq_ok.mp summed with ⟨before, summedDone, rest⟩
      have kept := induction (fun other member => first other (List.mem_append_left _ member))
        summedDone
      rw [List.foldlM_cons] at rest
      cases kind : request.spec.kind with
      | reserved =>
          simp only [kind, Result.ok_bind, List.foldlM_nil] at rest
          cases rest
          exact kept
      | percentage =>
          simp only [kind, List.foldlM_nil, bind_pure] at rest
          rcases Result.bind_eq_ok.mp rest with ⟨share, isShare, equal⟩
          cases equal
          rcases first request (by simp) share kind (Result.arithmetic_eq_ok.mp isShare) with
            ⟨begins, grows⟩
          exact forall_addShare begins grows kept

/-- The rows of a table of sums belong to parents of requests. -/
theorem exists_parent_of_shareTotals (summed : shareTotals requests = .ok totals) :
    ∀ row ∈ totals, ∃ request ∈ requests, row.1 = request.spec.parent := by
  refine @forall_shareTotals _ _ (fun parent _ => ∃ request ∈ requests,
    parent = request.spec.parent) ?_ summed
  exact fun request member _ _ _ => ⟨⟨request, member, rfl⟩, fun _ _ holds => holds⟩

theorem isSum_of_le {share : Number} {double : Double} (isDouble : share.toDouble = .ok double)
    (nonneg : (0 : Number).le share = true) (atMost : share.le 100 = true) : double.IsSum := by
  cases share with
  | whole value =>
      have least : 0 ≤ value := Number.whole_le_whole.mp nonneg
      have most : value ≤ 100 := Number.whole_le_whole.mp atMost
      rw [Number.toDouble, Double.ofInt_eq_ok (by rw [abs_lt]; omega)] at isDouble
      cases isDouble
      exact .inr ⟨value, rfl, by exact_mod_cast least⟩
  | real =>
      cases isDouble
      cases double with
      | finite value =>
          have least := @Number.le_of_whole_le_finite 0 value nonneg
          exact .inr ⟨value, rfl, by exact_mod_cast least⟩
      | negativeZero => exact .inr ⟨0, rfl, le_refl _⟩
      | infinite negative =>
          cases negative with
          | false => exact .inl rfl
          | true => cases nonneg
      | notANumber => cases nonneg

/-- Everything that arithmetic needs is known of a request. -/
structure IsComputable (request : Request) : Prop where
  moderate : request.spec.IsModerate
  reserved : request.spec.kind = .reserved →
    request.spec.rate.isSome = true ∨ request.spec.ratePercent.isSome = true
  percentage : request.spec.kind = .percentage → request.spec.share.isSome = true

theorem share_isSome_of_checkRequest (percentage : request.spec.kind = .percentage)
    (checked : checkRequest request = .ok ()) : request.spec.share.isSome = true := by
  cases given : request.spec.share with
  | some => rfl
  | none =>
      simp only [checkRequest, percentage, given, refuse] at checked
      cases checked

theorem isComputable_of_checkRequest (moderate : request.spec.IsModerate)
    (checked : checkRequest request = .ok ()) : IsComputable request := by
  refine ⟨moderate, fun reserved => ?_,
    fun percentage => share_isSome_of_checkRequest percentage checked⟩
  simp only [checkRequest, reserved, refuse] at checked
  split at checked
  · cases checked
  case isFalse differs =>
    cases given : request.spec.rate with
    | some => exact .inl rfl
    | none =>
        right
        cases relative : request.spec.ratePercent with
        | some => rfl
        | none => simp [given, relative] at differs

theorem share_bounds_of_checkRequest (percentage : request.spec.kind = .percentage)
    (checked : checkRequest request = .ok ()) :
    (0 : Number).le (request.spec.share.getD 0) = true ∧
      (request.spec.share.getD 0).le 100 = true := by
  simp only [checkRequest, percentage] at checked
  split at checked
  · cases checked
  case h_2 share given =>
    rw [given]
    split at checked
    case isTrue within => exact Bool.and_eq_true_iff.mp within
    case isFalse => cases checked

/-- The sums of checked shares. -/
theorem isSum_of_shareTotals (checked : ∀ request ∈ requests, checkRequest request = .ok ())
    (summed : shareTotals requests = .ok totals) : ∀ row ∈ totals, row.2.IsSum := by
  refine @forall_shareTotals _ _ (fun _ total => total.IsSum) ?_ summed
  intro request member share percentage isDouble
  rcases share_bounds_of_checkRequest percentage (checked request member) with ⟨least, most⟩
  have shareSum := isSum_of_le isDouble least most
  have zero : (Double.finite 0).IsSum := .inr ⟨0, rfl, le_refl _⟩
  exact ⟨zero.add shareSum, fun _ _ totalSum => totalSum.add shareSum⟩

/-! ## Everything before the rates -/

theorem exists_toDouble_of_checkRequest (percentage : request.spec.kind = .percentage)
    (checked : checkRequest request = .ok ()) :
    ∃ double, (request.spec.share.getD 0).toDouble = .ok double := by
  rcases share_bounds_of_checkRequest percentage checked with ⟨least, most⟩
  generalize request.spec.share.getD 0 = share at least most ⊢
  cases share with
  | whole value =>
      have nonneg : 0 ≤ value := Number.whole_le_whole.mp least
      have atMost : value ≤ 100 := Number.whole_le_whole.mp most
      exact ⟨_, Double.ofInt_eq_ok (by rw [abs_lt]; omega)⟩
  | real double => exact ⟨double, rfl⟩

/-- Shares that have been checked can be added up. -/
theorem exists_shareTotals (checked : ∀ request ∈ requests, checkRequest request = .ok ()) :
    ∃ totals, shareTotals requests = .ok totals := by
  induction requests using List.reverseRecOn with
  | nil => exact ⟨[], rfl⟩
  | append_singleton done request induction =>
      rcases induction fun other member => checked other (List.mem_append_left _ member) with
        ⟨totals, summed⟩
      rw [shareTotals, List.foldlM_append]
      simp only [shareTotals] at summed
      rw [summed, Result.ok_bind, List.foldlM_cons]
      cases kind : request.spec.kind with
      | reserved => exact ⟨totals, rfl⟩
      | percentage =>
          rcases exists_toDouble_of_checkRequest kind (checked request (by simp)) with
            ⟨double, isDouble⟩
          simp only [isDouble]
          exact ⟨_, rfl⟩

theorem settled_of_none (isOpen : last.spec.share = none)
    (summed : shareTotals others = .ok totals) :
    settled others last = .ok { last with spec := { last.spec with
      share := some (remainder (totalUnder? last.spec.parent totals)) } } := by
  simp only [settled, isOpen, Option.isSome_none, Bool.false_eq_true, if_false, summed]
  rfl

/-- Once requests have been checked, the default tier gets its share, and all shares can be
added up with it. -/
theorem exists_settled_totals
    (checked : ∀ request ∈ declared others last, checkRequest request = .ok ()) :
    ∃ final totals, settled others last = .ok final ∧
      shareTotals (others ++ [final]) = .ok totals := by
  rcases exists_shareTotals checked with ⟨totals, summed⟩
  cases given : last.spec.share with
  | some =>
      rw [declared_of_isSome (by rw [given]; rfl)] at summed
      exact ⟨last, totals, by rw [settled, given]; rfl, summed⟩
  | none =>
      rw [declared_of_none given] at summed
      have isDouble : ∃ double,
          (remainder (totalUnder? last.spec.parent totals)).toDouble = .ok double := by
        unfold remainder
        split
        · exact ⟨_, rfl⟩
        · exact ⟨_, Double.ofInt_eq_ok (by decide)⟩
      rcases isDouble with ⟨double, isDouble⟩
      have taken : ∃ final, settled others last = .ok final ∧
          final.spec.share = some (remainder (totalUnder? last.spec.parent totals)) :=
        ⟨_, settled_of_none given summed, rfl⟩
      rcases taken with ⟨final, finished, isShare⟩
      rcases shareTotals_concat_isOk summed isShare isDouble with ⟨complete, completeSummed⟩
      exact ⟨final, complete, finished, completeSummed⟩

theorem checkTotals_eq_ok_iff :
    checkTotals totals = .ok () ↔ ∀ row ∈ totals, isAbove row.2 hundred = false := by
  simp only [checkTotals]
  split
  case h_1 found =>
    refine iff_of_false (by simp [refuse]) fun none => ?_
    have isAboveRow := List.find?_some found
    simp [none _ (List.mem_of_find?_eq_some found)] at isAboveRow
  case h_2 none =>
    refine iff_of_true rfl fun row member => ?_
    simpa using List.find?_eq_none.mp none row member

theorem isDecision_checkTotals (writable : ∀ row ∈ totals, row.1.isWritable = true) :
    Result.IsDecision (checkTotals totals) := by
  unfold checkTotals
  split
  case h_1 found => exact .inr (isRefusal_refuse rfl (writable _ (List.mem_of_find?_eq_some found)))
  case h_2 => exact .inl ⟨(), rfl⟩

/-- What is left of sums of at most a hundred. -/
theorem isModerate_remainder (within : ∀ row ∈ totals, row.2.IsWithin 100) (parent : Number) :
    (remainder (totalUnder? parent totals)).IsModerate := by
  cases found : totalUnder? parent totals with
  | none => exact Number.isWithin_whole.mpr (by norm_num)
  | some total =>
      rcases Option.map_eq_some_iff.mp found with ⟨row, isRow, rfl⟩
      have isWithin := within row (List.mem_of_find?_eq_some isRow)
      have whole : (Double.finite 100).IsWithin 100 := Double.isWithin_finite (by norm_num)
      have rest := whole.sub isWithin (le_refl _) (Double.isBounded_of_le (by norm_num))
      exact Number.isWithin_real.mpr (rest.mono (by norm_num))

/-- The default tier gets a moderate share. -/
theorem exists_moderate_settled (moderate : last.spec.IsModerate)
    (checked : ∀ request ∈ declared others last, checkRequest request = .ok ())
    (summed : shareTotals (declared others last) = .ok totals)
    (within : checkTotals totals = .ok ()) :
    ∃ final, settled others last = .ok final ∧ final.spec.IsModerate := by
  cases given : last.spec.share with
  | some => exact ⟨last, by rw [settled, given]; rfl, moderate⟩
  | none =>
      rw [declared_of_none given] at checked summed
      have sums : ∀ row ∈ totals, row.2.IsWithin 100 := fun row member =>
        (isSum_of_shareTotals checked summed row member).isWithin_hundred
          (checkTotals_eq_ok_iff.mp within row member)
      refine ⟨_, settled_of_none given summed, ?_⟩
      exact { moderate with
        share := by
          rintro share ⟨⟩
          exact isModerate_remainder sums last.spec.parent }

/-- Everything before the rates succeeds, or it is refused for a reason. -/
theorem isDecision_settleAll {roundTrip : Number} {capacity : LinkCapacity}
    (writable : ∀ request ∈ others ++ [last],
      request.spec.id.isWritable = true ∧ request.spec.parent.isWritable = true) :
    Result.IsDecision (settleAll roundTrip capacity others last) := by
  have included : declared others last ⊆ others ++ [last] := by
    unfold declared
    split
    · exact List.Subset.refl _
    · exact List.subset_append_left ..
  rw [settleAll]
  refine (Result.isDecision_forM fun request member =>
    isDecision_checkRequest (writable request (included member)).1).bind fun _ checks => ?_
  have checked := Result.forM_eq_ok.mp checks
  rcases exists_shareTotals checked with ⟨totals, summed⟩
  rw [summed, Result.ok_bind]
  have parents : ∀ row ∈ totals, row.1.isWritable = true := by
    intro row member
    rcases exists_parent_of_shareTotals summed row member with ⟨request, isRequest, isParent⟩
    rw [isParent]
    exact (writable request (included isRequest)).2
  refine (isDecision_checkTotals parents).bind fun _ _ => ?_
  rcases exists_settled_totals checked with ⟨final, completeTotals, finished, completeSummed⟩
  simp only [finished, completeSummed, Result.ok_bind]
  refine (isDecision_inLayers fun request member => ?_).bind fun _ _ => .inl ⟨_, rfl⟩
  rcases List.mem_append.mp member with other | isFinal
  · exact writable request (List.mem_append_left _ other)
  · rw [List.mem_singleton.mp isFinal, (settled_spec finished).2]
    exact writable last (by simp)

/-! ## Rates -/

/-- The rates of known classes are found, and are in range. -/
def KnowsInRange (capacity : Int) (known : List Int) (rates : List (Int × Int)) : Prop :=
  ∀ id ∈ known, ∃ rate, knownRate? rates (.whole id) = some rate ∧ InRange capacity rate

theorem knownRate?_cons (id rate other : Int) (rates : List (Int × Int)) :
    knownRate? ((id, rate) :: rates) (.whole other) =
      if other = id then some rate else knownRate? rates (.whole other) := by
  by_cases same : other = id <;> simp [knownRate?, same]

theorem KnowsInRange.cons {capacity : Int} {known : List Int} {rates : List (Int × Int)}
    {id rate : Int} (knows : KnowsInRange capacity known rates) (range : InRange capacity rate) :
    KnowsInRange capacity (known ++ [id]) ((id, rate) :: rates) := by
  intro other member
  rw [knownRate?_cons]
  split
  case isTrue => exact ⟨rate, rfl, range⟩
  case isFalse apart =>
    rcases List.mem_append.mp member with old | new
    · exact knows other old
    · exact absurd (List.mem_singleton.mp new) apart

/-- A parent is found by any number that is equal to its id. -/
theorem knownRate?_eq_of_eq {rates : List (Int × Int)} {parent : Number} {id : Int}
    (equal : parent.eq (.whole id) = true) :
    knownRate? rates parent = knownRate? rates (.whole id) := by
  have stands := Number.eq_whole_iff.mp equal
  have same : ∀ known : Int, parent.eq (.whole known) = (Number.whole id).eq (.whole known) := by
    intro known
    rw [Bool.eq_iff_iff, Number.eq_whole_iff, Number.eq_whole_iff, stands]
    rfl
  simp only [knownRate?, same]

variable {setting : Setting} {rates : List (Int × Int)} {rate : Int}

theorem InRange.isWithin {capacity : Int} {places : Nat} (range : InRange capacity rate)
    (small : capacity ≤ 10 ^ places) : (Number.whole rate).IsWithin (10 ^ places) := by
  rcases range with ⟨positive, fits⟩
  have below : |rate| ≤ 10 ^ places := by
    rw [abs_of_pos positive]
    exact fits.trans small
  rw [← Int.cast_le (R := Rat), Int.cast_abs, Int.cast_pow, Int.cast_ofNat] at below
  exact Number.isWithin_whole.mpr below

theorem isWithin_of_inRange {capacity : Int} (small : Exact capacity)
    (range : InRange capacity rate) : (Number.whole rate).IsWithin (10 ^ 20) :=
  range.isWithin (small.trans (by norm_num))

theorem exists_percentOf_within {percent : Number} {rateLimit percentLimit limit : Rat}
    (isRate : (Number.whole rate).IsWithin rateLimit) (isPercent : percent.IsWithin percentLimit)
    (rateLarge : 1 ≤ rateLimit) (percentLarge : 1 ≤ percentLimit)
    (enough : 256 * (rateLimit * percentLimit) + 8 ≤ limit) (bounded : Double.IsBounded limit) :
    ∃ value, percentOf rate percent = .ok value ∧ (Number.whole value).IsWithin limit := by
  have most : 8 * (rateLimit * percentLimit) ≤ limit := by nlinarith
  rcases isRate.exists_mul isPercent rateLarge percentLarge (le_refl _) (bounded.mono most) with
    ⟨product, isProduct, small⟩
  rcases Number.exists_floorDiv_hundred small (by linarith) bounded with
    ⟨quotient, isQuotient, less⟩
  rcases less.exists_wholePart with ⟨value, isWhole, few⟩
  refine ⟨value, ?_, Number.isWithin_whole.mpr few⟩
  rw [percentOf, Result.arithmetic_eq_ok, isProduct, Result.ok_bind, isQuotient, Result.ok_bind,
    isWhole]

theorem exists_percentOf {percent : Number} (isRate : (Number.whole rate).IsWithin (10 ^ 20))
    (moderate : percent.IsModerate) :
    ∃ value, percentOf rate percent = .ok value ∧ (Number.whole value).isWritable = true := by
  rcases exists_percentOf_within isRate moderate (by norm_num) (by norm_num)
    (by norm_num : _ ≤ (10 : Rat) ^ 250) (Double.isBounded_of_le (le_refl _)) with
    ⟨value, isPercent, small⟩
  exact ⟨value, isPercent, small.isWritable⟩

theorem exists_rateOf (small : Exact setting.capacity.rate) (computable : IsComputable request)
    (isKnown : ∃ rate, knownRate? rates request.spec.parent = some rate ∧
      InRange setting.capacity.rate rate) :
    ∃ value, rateOf setting.capacity.rate rates request.spec = .ok value ∧
      (Number.whole value).isWritable = true := by
  have capacityRange : InRange setting.capacity.rate setting.capacity.rate :=
    ⟨setting.capacity.positive, le_refl _⟩
  cases kind : request.spec.kind with
  | reserved =>
      simp only [rateOf, kind]
      cases fixed : request.spec.rate with
      | some rate =>
          have moderate := computable.moderate.rate rate fixed
          rcases Number.IsWithin.exists_wholePart moderate with ⟨value, isWhole, few⟩
          refine ⟨value, Result.arithmetic_eq_ok.mpr isWhole, ?_⟩
          exact Number.IsModerate.isWritable (Number.isWithin_whole.mpr few)
      | none =>
          cases relative : request.spec.ratePercent with
          | some percent =>
              exact exists_percentOf (isWithin_of_inRange small capacityRange)
                (computable.moderate.ratePercent percent relative)
          | none =>
              have neither := computable.reserved kind
              simp [fixed, relative] at neither
  | percentage =>
      simp only [rateOf, kind]
      rcases isKnown with ⟨parentRate, found, range⟩
      rcases Option.isSome_iff_exists.mp (computable.percentage kind) with ⟨share, isShare⟩
      rw [isShare, found]
      exact exists_percentOf (isWithin_of_inRange small range)
        (computable.moderate.share share isShare)

theorem exists_size {roundTrip : Number} (isRate : (Number.whole rate).IsWithin (10 ^ 20))
    (moderate : roundTrip.IsModerate) :
    ∃ bytes, Buffer.size (.whole rate) roundTrip = .ok bytes := by
  have product : ∃ product, (Number.whole rate).mul roundTrip = .ok product ∧
      product.IsWithin (10 ^ 240) :=
    isRate.exists_mul moderate (by norm_num) (by norm_num) (by norm_num)
      (Double.isBounded_of_le (by norm_num))
  rcases product with ⟨product, isProduct, small⟩
  rcases small.exists_wholePart with ⟨value, isWhole, _⟩
  refine ⟨Buffer.limit value, ?_⟩
  rw [Buffer.size, Result.arithmetic_eq_ok.mpr isProduct, Result.ok_bind,
    Result.arithmetic_eq_ok.mpr isWhole, Result.ok_bind]
  rfl

/-- Once its rate is computed, a tier is made if the rate is in range, and else it is refused. -/
theorem isDecision_tierOf_of_rateOf (computed : rateOf setting.capacity.rate rates request.spec =
      .ok rate) (idWritable : request.spec.id.isWritable = true)
    (writable : (Number.whole rate).isWritable = true ∧
      (Number.whole setting.capacity.rate).isWritable = true)
    (parts : InRange setting.capacity.rate rate →
      (∃ curve, ServiceCurve.ofRate (.whole rate) request.spec.priority = .ok curve) ∧
        ∃ bytes, Buffer.size (.whole rate) setting.roundTrip = .ok bytes) :
    Result.IsDecision (tierOf setting rates request) := by
  by_cases range : InRange setting.capacity.rate rate
  · have checked : checkRate setting.capacity.rate rate request.spec.id = .ok () :=
      checkRate_eq_ok_iff.mpr range
    rcases parts range with ⟨⟨curve, isCurve⟩, bytes, isSize⟩
    rw [tierOf]
    simp only [computed, checked, isCurve, isSize, Result.ok_bind]
    exact .inl ⟨_, rfl⟩
  · exact .inr (tierOf_refusal computed range idWritable writable)

/-- A parent whose rate is known, and in range. -/
def KnowsParent (setting : Setting) (rates : List (Int × Int)) (request : Request) : Prop :=
  ∃ rate, knownRate? rates request.spec.parent = some rate ∧ InRange setting.capacity.rate rate

/-- A tier is made, with a rate in range, or it is refused. -/
theorem isDecision_tierOf (small : Exact setting.capacity.rate)
    (delay : setting.roundTrip.IsModerate) (computable : IsComputable request)
    (isKnown : KnowsParent setting rates request) :
    Result.IsDecision (tierOf setting rates request) := by
  rcases exists_rateOf small computable isKnown with ⟨rate, computed, writable⟩
  have capacityWritable := InRange.isWritable small
    (show InRange setting.capacity.rate setting.capacity.rate from
      ⟨setting.capacity.positive, le_refl _⟩)
  refine isDecision_tierOf_of_rateOf computed computable.moderate.isWritable
    ⟨writable, capacityWritable⟩ fun range => ⟨?_, ?_⟩
  · exact ofRate_isOk range.1 (range.2.trans small) request.spec.priority
  · exact exists_size (isWithin_of_inRange small range) delay

/-- Tiers with their parents first are made until one of them is refused. -/
theorem failure_of_makeTiers {known : List Int} {failure : Failure}
    (decisions : ∀ request ∈ requests, ∀ rates, KnowsParent setting rates request →
      Result.IsDecision (tierOf setting rates request))
    (first : ParentsFirst known requests)
    (knows : KnowsInRange setting.capacity.rate known rates)
    (failed : (makeTiers setting rates requests).failure = some failure) :
    ∃ error, failure = .allocation error := by
  induction requests generalizing known rates with
  | nil => cases failed
  | cons request rest induction =>
      rcases List.forall_mem_cons.mp decisions with ⟨here, later⟩
      rcases isReady_iff.mp first.1 with ⟨parent, isKnown, equal⟩
      rcases knows parent isKnown with ⟨parentRate, found, parentRange⟩
      rw [← knownRate?_eq_of_eq equal] at found
      rcases here rates ⟨parentRate, found, parentRange⟩ with ⟨tier, isMade⟩ | ⟨error, refused⟩
      · have made := made_of_tierOf isMade
        rw [makeTiers_cons_ok isMade, made.id] at failed
        exact induction later first.2 (knows.cons ⟨made.positive, made.fits⟩) failed
      · rw [makeTiers_cons_error refused] at failed
        exact ⟨error, (Option.some.inj failed).symm⟩

end Allocation

namespace TreeRequest

open Allocation

theorem isDecision_prepare {request : TreeRequest} {roundTrip : Number}
    (writable : ∀ spec ∈ request.specs,
      spec.id.isWritable = true ∧ spec.parent.isWritable = true) :
    Result.IsDecision (request.prepare roundTrip) := by
  have decision := @isDecision_checkIds [] request.specs fun spec member =>
    (writable spec member).1
  rcases decision with ⟨requests, checked⟩ | refused
  · rcases exists_of_checkIds checked with ⟨others, last, rfl, same, isLast⟩
    change Result.IsDecision (Allocation.prepare roundTrip request.capacity
      (request.reserved ++ request.tiers) request.defaultSpec)
    rw [prepare_eq_settleAll checked same isLast]
    apply isDecision_settleAll
    intro asked member
    apply writable
    rw [specs, ← same]
    rcases List.mem_append.mp member with other | isFinal
    · exact List.mem_append_left _ (List.mem_map_of_mem other)
    · rw [List.mem_singleton.mp isFinal, isLast]
      exact List.mem_append_right _ (List.mem_cons_self ..)
  · exact .inr (refused.bind _)

/-- All requests in layers are computable. -/
theorem isComputable_of_prepare {request : TreeRequest} {roundTrip : Number} {prepared : Prepared}
    (moderate : ∀ spec ∈ request.specs, spec.IsModerate)
    (percentage : request.defaultSpec.kind = .percentage)
    (ready : request.prepare roundTrip = .ok prepared) :
    ∀ layered ∈ prepared.requests, IsComputable layered := by
  rcases exists_settles_of_prepare ready with
    ⟨others, last, final, checked, same, isLast, settles, _, _⟩
  have othersModerate : ∀ other ∈ others, other.spec.IsModerate := by
    intro other member
    apply moderate
    rw [specs, ← same]
    exact List.mem_append_left _ (List.mem_map_of_mem member)
  have lastModerate : last.spec.IsModerate := by
    apply moderate
    rw [isLast]
    exact List.mem_append_right _ (List.mem_cons_self ..)
  have finalComputable : IsComputable final := by
    have finished := settles.finished
    cases given : last.spec.share.isSome with
    | true =>
        rw [settled_of_isSome given finished]
        refine isComputable_of_checkRequest lastModerate (settles.requests last ?_)
        rw [declared_of_isSome given]
        simp
    | false =>
        rcases settles.totals with ⟨totals, summed, within⟩
        rcases exists_moderate_settled lastModerate settles.requests summed within with
          ⟨other, isOther, otherModerate⟩
        rw [finished] at isOther
        cases isOther
        have kind : final.spec.kind = .percentage := by
          rw [(settled_spec finished).2, isLast]
          exact percentage
        refine ⟨otherModerate, by simp [kind], fun _ => ?_⟩
        simp only [settled, given, Bool.false_eq_true, if_false] at finished
        rcases Result.bind_eq_ok.mp finished with ⟨_, _, equal⟩
        rw [← Result.pure_eq_ok.mp equal]
        rfl
  intro layered member
  rcases List.mem_append.mp ((inLayers_perm settles.layers).mem_iff.mp member) with other | isFinal
  · refine isComputable_of_checkRequest (othersModerate layered other)
      (settles.requests layered ?_)
    unfold declared
    split
    · exact List.mem_append_left _ other
    · exact other
  · rw [List.mem_singleton.mp isFinal]
    exact finalComputable

/-- A class tree is made or refused if each of its tiers is, and everything before them. -/
theorem isDecision_compile_of_tiers {request : TreeRequest} {roundTrip : Number}
    (decision : Result.IsDecision (request.prepare roundTrip))
    (tiers : ∀ prepared, request.prepare roundTrip = .ok prepared →
      ∀ layered ∈ prepared.requests, ∀ rates, KnowsParent prepared.setting rates layered →
        Result.IsDecision (tierOf prepared.setting rates layered)) :
    Result.IsDecision (request.compile roundTrip) := by
  rw [compile]
  refine decision.bind fun prepared ready => ?_
  have knows : KnowsInRange prepared.setting.capacity.rate [rootId]
      [(rootId, prepared.setting.capacity.rate)] := by
    intro id member
    rw [List.mem_singleton.mp member]
    exact ⟨_, by simp [knownRate?], prepared.setting.capacity.positive, le_refl _⟩
  dsimp only
  split
  case h_1 failure failed =>
    rcases failure_of_makeTiers (tiers prepared ready) (isLayered_of_prepare ready).first knows
      failed with ⟨error, rfl⟩
    exact .inr ⟨error, rfl⟩
  case h_2 => exact .inl ⟨_, rfl⟩

/-- With moderate numbers, and a link whose shares are exact, a class tree is made or it is
refused. -/
theorem isDecision_compile {request : TreeRequest} {roundTrip : Number}
    (moderate : ∀ spec ∈ request.specs, spec.IsModerate)
    (percentage : request.defaultSpec.kind = .percentage) (small : Exact request.capacity.rate)
    (delay : roundTrip.IsModerate) : Result.IsDecision (request.compile roundTrip) := by
  have writable : ∀ spec ∈ request.specs,
      spec.id.isWritable = true ∧ spec.parent.isWritable = true := fun spec member =>
    ⟨(moderate spec member).isWritable, (moderate spec member).parent.isWritable⟩
  refine isDecision_compile_of_tiers (isDecision_prepare writable) ?_
  intro prepared ready layered member rates isKnown
  have layers := isLayered_of_prepare ready
  rcases exists_settles_of_prepare ready with ⟨_, _, _, _, _, _, _, _, sameDelay⟩
  exact isDecision_tierOf (layers.capacity ▸ small) (sameDelay ▸ delay)
    (isComputable_of_prepare moderate percentage ready layered member) isKnown

end TreeRequest

end UplinkShaper
