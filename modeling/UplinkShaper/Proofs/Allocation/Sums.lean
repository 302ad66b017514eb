import UplinkShaper.Proofs.Allocation.Moderation

/-!
Sums of shares. The total of a class is what its tiers claim of it, added up as doubles in the
order in which they are written, and this sum is what the check of the totals and the rest for a
default tier look at. It depends on the order as far as doubles are rounded. Shares that are no
finer than doubles can add up exactly have one sum.
-/

namespace UplinkShaper

open Allocation

/-- What a tier claims of the hundred percent of a class, as a double. -/
def TierSpec.claimUnder? (id : Int) (spec : TierSpec) : Option Double :=
  if spec.kind = .percentage ∧ spec.parent.toInt? = some id then
    spec.share.bind fun share => share.toDouble.toOption
  else none

namespace Allocation

/-- The sum of claims, which is found if there are any. -/
def totalOf (claims : List Double) : Option Double :=
  if claims.isEmpty then none else some (claims.foldl Double.add (.finite 0))

theorem totalOf_concat (claims : List Double) (claim : Double) :
    totalOf (claims ++ [claim]) = some (((totalOf claims).getD (.finite 0)).add claim) := by
  cases claims with
  | nil => rfl
  | cons head rest => simp [totalOf]

/-- What requests claim of a class. -/
def claimsOf (id : Int) (requests : List Request) : List Double :=
  (requests.map (·.spec)).filterMap (TierSpec.claimUnder? id)

theorem claimsOf_concat (id : Int) (done : List Request) (request : Request) :
    claimsOf id (done ++ [request]) =
      claimsOf id done ++ (request.spec.claimUnder? id).toList := by
  simp only [claimsOf, List.map_append, List.map_singleton, List.filterMap_append,
    List.filterMap_cons, List.filterMap_nil]
  cases request.spec.claimUnder? id <;> rfl

/-- Requests for which sums can be formed: their parents may be classes, and their shares are
given. -/
structure IsClaim (request : Request) : Prop where
  parent : ∃ id : Int, request.spec.parent.toInt? = some id
  share : request.spec.kind = .percentage → request.spec.share.isSome = true

variable {requests : List Request} {totals : List (Number × Double)}

theorem whole_shareTotals (each : ∀ request ∈ requests, IsClaim request)
    (summed : shareTotals requests = .ok totals) :
    ∀ row ∈ totals, ∃ id : Int, row.1.toInt? = some id := by
  intro row member
  rcases exists_parent_of_shareTotals summed row member with ⟨request, isRequest, isParent⟩
  rw [isParent]
  exact (each request isRequest).parent

/-- The total of a class is the sum of what is claimed of it. -/
theorem totalUnder_shareTotals (each : ∀ request ∈ requests, IsClaim request)
    (summed : shareTotals requests = .ok totals) {key : Number} {id : Int}
    (isKey : key.toInt? = some id) : totalUnder? key totals = totalOf (claimsOf id requests) := by
  induction requests using List.reverseRecOn generalizing totals with
  | nil =>
      cases summed
      rfl
  | append_singleton done request induction =>
      have eachDone : ∀ other ∈ done, IsClaim other :=
        fun other member => each other (List.mem_append_left _ member)
      have claim : IsClaim request := each request (by simp)
      rw [shareTotals, List.foldlM_append] at summed
      rcases Result.bind_eq_ok.mp summed with ⟨before, summedDone, rest⟩
      have found := induction eachDone summedDone
      rw [List.foldlM_cons] at rest
      rw [claimsOf_concat]
      cases kind : request.spec.kind with
      | reserved =>
          simp only [kind, Result.ok_bind, List.foldlM_nil] at rest
          cases rest
          rw [found, TierSpec.claimUnder?, if_neg (by simp [kind]), Option.toList_none,
            List.append_nil]
      | percentage =>
          rcases claim.parent with ⟨place, isParent⟩
          rcases Option.isSome_iff_exists.mp (claim.share kind) with ⟨share, isShare⟩
          simp only [kind, List.foldlM_nil, bind_pure, isShare, Option.getD_some] at rest
          rcases Result.bind_eq_ok.mp rest with ⟨double, isDouble, equal⟩
          cases equal
          have toDouble := Result.arithmetic_eq_ok.mp isDouble
          have whole := whole_shareTotals eachDone summedDone
          rw [totalUnder_addShare isKey isParent whole, found]
          by_cases same : place = id
          · have claims : request.spec.claimUnder? id = some double := by
              rw [TierSpec.claimUnder?, if_pos ⟨kind, same ▸ isParent⟩, isShare, Option.bind_some,
                toDouble]
              rfl
            rw [if_pos same, claims, Option.toList_some, totalOf_concat]
          · have claimsNot : request.spec.claimUnder? id = none := by
              rw [TierSpec.claimUnder?, if_neg]
              rintro ⟨_, isHere⟩
              exact same (Option.some.inj (isParent.symm.trans isHere))
            rw [if_neg same, claimsNot, Option.toList_none, List.append_nil]

/-! ## No sum above a hundred -/

/-- Adding to a table keeps its parents, and at most adds one at the end. -/
theorem parents_addShare (parent : Number) (share : Double) (totals : List (Number × Double)) :
    (addShare parent share totals).map (·.1) = totals.map (·.1) ∨
      (∀ row ∈ totals, row.1.eq parent = false) ∧
        (addShare parent share totals).map (·.1) = totals.map (·.1) ++ [parent] := by
  induction totals with
  | nil => exact .inr ⟨by simp, rfl⟩
  | cons row rest induction =>
      rw [addShare]
      split
      case isTrue => exact .inl rfl
      case isFalse differs =>
        rw [List.map_cons, List.map_cons]
        rcases induction with kept | ⟨absent, added⟩
        · exact .inl (congrArg _ kept)
        · refine .inr ⟨List.forall_mem_cons.mpr ⟨by simpa using differs, absent⟩, ?_⟩
          rw [added, List.cons_append]

/-- Each class has one row in a table of sums. -/
theorem distinct_shareTotals (each : ∀ request ∈ requests, IsClaim request)
    (summed : shareTotals requests = .ok totals) : (totals.map (·.1.toInt?)).Nodup := by
  induction requests using List.reverseRecOn generalizing totals with
  | nil =>
      cases summed
      exact List.nodup_nil
  | append_singleton done request induction =>
      have eachDone : ∀ other ∈ done, IsClaim other :=
        fun other member => each other (List.mem_append_left _ member)
      rw [shareTotals, List.foldlM_append] at summed
      rcases Result.bind_eq_ok.mp summed with ⟨before, summedDone, rest⟩
      have distinct := induction eachDone summedDone
      rw [List.foldlM_cons] at rest
      cases kind : request.spec.kind with
      | reserved =>
          simp only [kind, Result.ok_bind, List.foldlM_nil] at rest
          cases rest
          exact distinct
      | percentage =>
          rcases (each request (by simp)).parent with ⟨place, isParent⟩
          simp only [kind, List.foldlM_nil, bind_pure] at rest
          rcases Result.bind_eq_ok.mp rest with ⟨double, _, equal⟩
          cases equal
          have mapped : ∀ table : List (Number × Double),
              table.map (·.1.toInt?) = (table.map (·.1)).map Number.toInt? := by
            intro table
            rw [List.map_map]
            rfl
          rw [mapped] at distinct ⊢
          rcases parents_addShare request.spec.parent double before with kept | ⟨absent, added⟩
          · rwa [kept]
          · rw [added, List.map_append, List.map_singleton]
            refine List.nodup_append.mpr ⟨distinct, List.nodup_singleton _, ?_⟩
            rintro id isOld other isNew rfl
            rw [List.mem_singleton.mp isNew, isParent, List.map_map] at isOld
            rcases List.mem_map.mp isOld with ⟨row, member, isRow⟩
            have equal := (Number.eq_iff_of_toInt? isRow isParent).mpr rfl
            rw [absent row member] at equal
            cases equal

theorem totalUnder_of_mem (distinct : (totals.map (·.1.toInt?)).Nodup)
    (whole : ∀ row ∈ totals, ∃ id : Int, row.1.toInt? = some id) {row : Number × Double}
    (member : row ∈ totals) : totalUnder? row.1 totals = some row.2 := by
  induction totals with
  | nil => cases member
  | cons head rest induction =>
      rcases List.forall_mem_cons.mp whole with ⟨⟨place, isHead⟩, wholeRest⟩
      rcases List.nodup_cons.mp distinct with ⟨new, distinctRest⟩
      rcases whole row member with ⟨id, isRow⟩
      rw [totalUnder_cons isRow isHead]
      rcases List.mem_cons.mp member with rfl | later
      · rw [if_pos (Option.some.inj (isHead.symm.trans isRow))]
      · rw [if_neg, induction distinctRest wholeRest later]
        rintro rfl
        exact new (List.mem_map.mpr ⟨row, later, isRow.trans isHead.symm⟩)

/-- The check of the totals looks at the sums that classes have. -/
theorem checkTotals_iff_claimsOf (each : ∀ request ∈ requests, IsClaim request)
    (summed : shareTotals requests = .ok totals) :
    checkTotals totals = .ok () ↔
      ∀ id, isAbove ((claimsOf id requests).foldl Double.add (.finite 0)) hundred = false := by
  rw [checkTotals_eq_ok_iff]
  constructor
  · intro within id
    have found := @totalUnder_shareTotals _ _ each summed (.whole id) id rfl
    rw [totalOf] at found
    split at found
    case isTrue none =>
      rw [List.isEmpty_iff.mp none]
      rfl
    case isFalse =>
      rcases Option.map_eq_some_iff.mp found with ⟨row, isRow, isTotal⟩
      rw [← isTotal]
      exact within row (List.mem_of_find?_eq_some isRow)
  · intro within row member
    have whole := whole_shareTotals each summed
    have found := totalUnder_of_mem (distinct_shareTotals each summed) whole member
    rcases whole row member with ⟨id, isRow⟩
    rw [totalUnder_shareTotals each summed isRow, totalOf] at found
    split at found
    · cases found
    · rw [← Option.some.inj found]
      exact within id

/-- What the same claims leave in another order is the same as far as the rounding is. -/
theorem remainder_totalOf_eq_iff {claims moved : List Double} (perm : claims.Perm moved) :
    remainder (totalOf claims) = remainder (totalOf moved) ↔
      hundred.sub (claims.foldl Double.add (.finite 0)) =
        hundred.sub (moved.foldl Double.add (.finite 0)) := by
  have sameEmpty : claims.isEmpty = moved.isEmpty := perm.isEmpty_eq
  unfold totalOf
  rw [sameEmpty]
  split
  case isTrue isEmpty =>
    have noClaims := List.isEmpty_iff.mp (sameEmpty.trans isEmpty)
    exact iff_of_true rfl (by rw [noClaims, List.isEmpty_iff.mp isEmpty])
  case isFalse => exact ⟨Number.real.inj, congrArg Number.real⟩

end Allocation

/-! ## Sums that are exact -/

namespace Double

/-- A share that doubles add up exactly: a number of parts of a percent, of which `2 ^ 32` are one
percent. -/
def IsFine (claim : Double) : Prop :=
  ∃ parts : Int, 0 ≤ parts ∧ parts ≤ 100 * 2 ^ 32 ∧ claim.toRat? = some ((parts : Rat) / 2 ^ 32)

theorem finite_add_fine {start parts : Int} {claim : Double}
    (isClaim : claim.toRat? = some ((parts : Rat) / 2 ^ 32)) (nonneg : 0 ≤ start + parts)
    (small : start + parts < 2 ^ 53) :
    (Double.finite ((start : Rat) / 2 ^ 32)).add claim =
      .finite (((start + parts : Int) : Rat) / 2 ^ 32) := by
  have rounded := @round_div_two_pow (start + parts) 32 (by rw [abs_lt]; omega) (by decide)
  cases claim with
  | finite value =>
      have same : value = (parts : Rat) / 2 ^ 32 := Option.some.inj isClaim
      rw [same, ← rounded, Int.cast_add, add_div]
      rfl
  | negativeZero =>
      have none : (parts : Rat) / 2 ^ 32 = 0 := (Option.some.inj isClaim).symm
      rw [Int.cast_add, add_div, none, add_zero]
      rfl
  | infinite => cases isClaim
  | notANumber => cases isClaim

/-- Fine shares add up to their exact sum. -/
theorem foldl_add_fine {claims : List Double} {start : Int} (nonneg : 0 ≤ start)
    (few : start + 100 * 2 ^ 32 * claims.length < 2 ^ 53) (fine : ∀ claim ∈ claims, claim.IsFine) :
    claims.foldl Double.add (.finite ((start : Rat) / 2 ^ 32)) =
      .finite ((start : Rat) / 2 ^ 32 + (claims.map fun claim => claim.toRat?.getD 0).sum) := by
  induction claims generalizing start with
  | nil => simp
  | cons claim rest induction =>
      rcases List.forall_mem_cons.mp fine with ⟨⟨parts, least, most, isClaim⟩, fineRest⟩
      rw [List.length_cons] at few
      push_cast at few
      rw [List.foldl_cons, finite_add_fine isClaim (by omega) (by omega),
        induction (by omega) (by omega) fineRest, List.map_cons, List.sum_cons, isClaim,
        Option.getD_some, Int.cast_add, add_div, add_assoc]

/-- Fine shares have one sum, in whatever order they are added up. -/
theorem foldl_add_perm {claims moved : List Double} (perm : claims.Perm moved)
    (few : claims.length ≤ 10000) (fine : ∀ claim ∈ claims, claim.IsFine) :
    claims.foldl Double.add (.finite 0) = moved.foldl Double.add (.finite 0) := by
  have movedFine : ∀ claim ∈ moved, claim.IsFine :=
    fun claim member => fine claim (perm.mem_iff.mpr member)
  have first := @foldl_add_fine claims 0 (le_refl _) (by omega) fine
  have second := @foldl_add_fine moved 0 (le_refl _) (by rw [← perm.length_eq]; omega) movedFine
  simp only [Int.cast_zero, zero_div, zero_add] at first second
  rw [first, second, (perm.map _).sum_eq]

end Double

namespace Allocation

theorem toRat?_of_toDouble {share : Number} {claim : Double}
    (least : (0 : Number).le share = true) (most : share.le 100 = true)
    (isDouble : share.toDouble = .ok claim) : claim.toRat? = share.value? := by
  cases share with
  | whole value =>
      have nonneg : 0 ≤ value := Number.whole_le_whole.mp least
      have atMost : value ≤ 100 := Number.whole_le_whole.mp most
      rw [Number.toDouble, Double.ofInt_eq_ok (by rw [abs_lt]; omega)] at isDouble
      cases isDouble
      rfl
  | real =>
      cases isDouble
      rfl

/-- Checked shares are no larger than a hundred, so they are fine if they are written so. -/
theorem isFine_of_claimUnder? {request : Request} {claim : Double} {id : Int}
    (asked : request.spec.kind = .percentage → ∀ share ∈ request.spec.share,
      ∃ parts : Int, share.value? = some ((parts : Rat) / 2 ^ 32))
    (checked : checkRequest request = .ok ()) (claims : request.spec.claimUnder? id = some claim) :
    claim.IsFine := by
  unfold TierSpec.claimUnder? at claims
  split at claims
  case isFalse => cases claims
  case isTrue below =>
    rcases Option.bind_eq_some_iff.mp claims with ⟨share, isShare, isDouble⟩
    rcases asked below.1 share isShare with ⟨parts, isValue⟩
    rcases share_bounds_of_checkRequest below.1 checked with ⟨least, most⟩
    rw [isShare, Option.getD_some] at least most
    have same := toRat?_of_toDouble least most (Result.toOption_eq_some.mp isDouble)
    have zero : Number.value? 0 = some 0 := rfl
    have all : Number.value? 100 = some 100 := rfl
    rw [Number.le_iff_of_value? zero isValue, le_div_iff₀ (by positivity), zero_mul] at least
    rw [Number.le_iff_of_value? isValue all, div_le_iff₀ (by positivity)] at most
    exact ⟨parts, by exact_mod_cast least, by exact_mod_cast most, same.trans isValue⟩

end Allocation

end UplinkShaper
