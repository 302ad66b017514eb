import UplinkShaper.Proofs.Allocation.Preparation
import UplinkShaper.Proofs.Allocation.Shares
import UplinkShaper.Proofs.Allocation.Tiers

/-!
What requests take of the hundred percent of a class. A parent may be written as a whole
number or as a double, so requests are counted by the whole number that their parent
stands for. Once all checks have passed, no class is asked for more than a hundred
percent, and a default tier without a share of its own brings the total of its class to
exactly a hundred.
-/

namespace UplinkShaper

namespace Number

/-- The numbers that stand for a whole number. -/
theorem toInt?_eq_some_iff {number : Number} {value : Int} :
    number.toInt? = some value ↔
      number = .whole value ∨ number = .real (.finite value) ∨
        number = .real .negativeZero ∧ value = 0 := by
  rcases number with other | (rational | _ | _ | _)
  · simp [toInt?]
  · simp only [toInt?, Option.ite_none_right_eq_some, Option.some.injEq, reduceCtorEq, real.injEq,
      Double.finite.injEq, false_and, or_false, false_or]
    constructor
    · rintro ⟨isWhole, rfl⟩
      exact ((Rat.den_eq_one_iff rational).mp isWhole).symm
    · rintro rfl
      simp
  · simp [toInt?, eq_comm]
  · simp [toInt?]
  · simp [toInt?]

theorem order_eq_iff {left right : Rat} :
    (if left < right then Ordering.lt else if left = right then .eq else .gt) = .eq ↔
      left = right := by
  grind

/-- Numbers that stand for whole numbers are equal if these are. -/
theorem eq_iff_of_toInt? {left right : Number} {first second : Int}
    (isLeft : left.toInt? = some first) (isRight : right.toInt? = some second) :
    left.eq right = true ↔ first = second := by
  rcases toInt?_eq_some_iff.mp isLeft with rfl | rfl | ⟨rfl, rfl⟩ <;>
    rcases toInt?_eq_some_iff.mp isRight with rfl | rfl | ⟨rfl, rfl⟩ <;>
      simp only [eq, compare?, compareWithDouble?, Double.compare?, Double.toRat?, beq_iff_eq,
        Option.map_some, Option.some.injEq, Ordering.swap_eq_eq, order_eq_iff,
        compare_eq_iff_eq]
  all_goals norm_cast
  all_goals exact eq_comm

/-- A number equals a whole number if it stands for it. -/
theorem eq_whole_iff {number : Number} {value : Int} :
    number.eq (.whole value) = true ↔ number.toInt? = some value := by
  constructor
  · intro equal
    rw [toInt?_eq_some_iff]
    rcases number with other | (rational | _ | negative | _)
    · left
      simpa only [eq, compare?, beq_iff_eq, Option.some.injEq, compare_eq_iff_eq,
        whole.injEq] using equal
    · simp only [eq, compare?, compareWithDouble?, Option.map_some, beq_iff_eq, Option.some.injEq,
        Ordering.swap_eq_eq, order_eq_iff] at equal
      rw [equal]
      exact .inr (.inl rfl)
    · simp only [eq, compare?, compareWithDouble?, Option.map_some, beq_iff_eq, Option.some.injEq,
        Ordering.swap_eq_eq, compare_eq_iff_eq] at equal
      exact .inr (.inr ⟨rfl, equal⟩)
    · cases negative <;> simp [eq, compare?, compareWithDouble?] at equal
    · simp [eq, compare?, compareWithDouble?] at equal
  · intro stands
    exact (eq_iff_of_toInt? stands rfl).mpr rfl

end Number

theorem Tier.isChildOf_iff {id : Int} {tier : Tier} :
    tier.isChildOf id = true ↔ tier.parent.toInt? = some id :=
  Number.eq_whole_iff

namespace Allocation

theorem StandsFor.toInt? {number : Number} {share : Int} (stands : StandsFor number share) :
    number.toInt? = some share := by
  rcases stands with rfl | rfl
  · rfl
  · simp [Number.toInt?]

/-! ## Claims -/

/-- What a request takes of the hundred percent of a class. -/
def claimOf (id : Int) (request : Request) : Int :=
  if request.spec.kind = .percentage ∧ request.spec.parent.toInt? = some id then
    (request.spec.share.bind Number.toInt?).getD 0
  else 0

def claims (id : Int) (requests : List Request) : Int :=
  (requests.map (claimOf id)).sum

/-- A request below a class, for a whole share if it asks for one. -/
structure IsWholeClaim (request : Request) : Prop where
  parent : ∃ id : Int, request.spec.parent.toInt? = some id
  share : request.spec.kind = .percentage →
    ∃ share : Int, request.spec.share = some (.whole share) ∧ 0 ≤ share ∧ share ≤ 100

theorem claims_concat (id : Int) (done : List Request) (request : Request) :
    claims id (done ++ [request]) = claims id done + claimOf id request := by
  simp [claims]

theorem claims_concat_of_reserved (done : List Request) {request : Request}
    (kind : request.spec.kind = .reserved) :
    (claims · (done ++ [request])) = (claims · done) := by
  funext id
  simp [claims_concat, claimOf, kind]

/-- A share adds to the claims on its own class. -/
theorem claims_concat_of_percentage (done : List Request) {request : Request} {place share : Int}
    (kind : request.spec.kind = .percentage) (isParent : request.spec.parent.toInt? = some place)
    (isShare : request.spec.share = some (.whole share)) :
    (claims · (done ++ [request])) =
      Function.update (claims · done) place (claims place done + share) := by
  funext id
  rw [claims_concat]
  by_cases same : place = id
  · subst same
    rw [Function.update_self, claimOf, if_pos ⟨kind, isParent⟩, isShare]
    rfl
  · rw [Function.update_of_ne (Ne.symm same)]
    simp [claimOf, isParent, same]

theorem claims_perm {id : Int} {first second : List Request} (perm : first.Perm second) :
    claims id first = claims id second :=
  (perm.map _).sum_eq

theorem IsWholeClaim.bounds {request : Request} (isWhole : IsWholeClaim request) (id : Int) :
    0 ≤ claimOf id request ∧ claimOf id request ≤ 100 := by
  simp only [claimOf]
  split
  case isTrue below =>
    rcases isWhole.share below.1 with ⟨share, isShare, bounds⟩
    simpa [isShare, Number.toInt?] using bounds
  case isFalse => omega

theorem claims_bounds {requests : List Request} (each : ∀ request ∈ requests, IsWholeClaim request)
    (id : Int) : 0 ≤ claims id requests ∧ claims id requests ≤ 100 * requests.length := by
  induction requests with
  | nil => simp [claims]
  | cons request rest induction =>
      rcases List.forall_mem_cons.mp each with ⟨here, later⟩
      have first := here.bounds id
      have others := induction later
      simp only [claims, List.map_cons, List.sum_cons, List.length_cons] at others ⊢
      push_cast
      omega

/-! ## Sums by parent -/

/-- The rows of a table hold the sums of the classes that their parents stand for. -/
structure SumsTo (amount : Int → Int) (totals : List (Number × Double)) : Prop where
  whole : ∀ row ∈ totals, ∃ id : Int, row.1.toInt? = some id
  found : ∀ {parent : Number} {id : Int}, parent.toInt? = some id →
    totalUnder? parent totals = some (.finite (amount id)) ∨
      totalUnder? parent totals = none ∧ amount id = 0

theorem totalUnder_cons {key parent : Number} {total : Double} {rest : List (Number × Double)}
    {id place : Int} (isKey : key.toInt? = some id) (isParent : parent.toInt? = some place) :
    totalUnder? key ((parent, total) :: rest) =
      if place = id then some total else totalUnder? key rest := by
  have equal := Number.eq_iff_of_toInt? isParent isKey
  simp only [totalUnder?, List.find?_cons]
  split
  case h_1 same => rw [if_pos (equal.mp same), Option.map_some]
  case h_2 differs =>
    rw [if_neg]
    intro same
    simp [equal.mpr same] at differs

theorem totalUnder_addShare {key parent : Number} {share : Double}
    {totals : List (Number × Double)} {id place : Int} (isKey : key.toInt? = some id)
    (isParent : parent.toInt? = some place)
    (whole : ∀ row ∈ totals, ∃ id : Int, row.1.toInt? = some id) :
    totalUnder? key (addShare parent share totals) =
      if place = id then some (((totalUnder? key totals).getD (.finite 0)).add share)
      else totalUnder? key totals := by
  induction totals with
  | nil => rw [addShare, totalUnder_cons isKey isParent]; rfl
  | cons row rest induction =>
      rcases row with ⟨other, total⟩
      rcases List.forall_mem_cons.mp whole with ⟨⟨known, isKnown⟩, wholeRest⟩
      have later := induction wholeRest
      have equal := Number.eq_iff_of_toInt? isKnown isParent
      rw [addShare]
      split
      case isTrue same =>
        rw [totalUnder_cons isKey isKnown, totalUnder_cons isKey isKnown, equal.mp same]
        split <;> rfl
      case isFalse differs =>
        have apart : known ≠ place := fun same => differs (equal.mpr same)
        rw [totalUnder_cons isKey isKnown, totalUnder_cons isKey isKnown, later]
        grind

theorem whole_addShare {parent : Number} {share : Double} {totals : List (Number × Double)}
    {place : Int} (isParent : parent.toInt? = some place)
    (whole : ∀ row ∈ totals, ∃ id : Int, row.1.toInt? = some id) :
    ∀ row ∈ addShare parent share totals, ∃ id : Int, row.1.toInt? = some id := by
  induction totals with
  | nil => simp [addShare, isParent]
  | cons row rest induction =>
      rcases row with ⟨other, total⟩
      rcases List.forall_mem_cons.mp whole with ⟨isKnown, wholeRest⟩
      rw [addShare]
      split
      · exact List.forall_mem_cons.mpr ⟨isKnown, wholeRest⟩
      · exact List.forall_mem_cons.mpr ⟨isKnown, induction wholeRest⟩

theorem SumsTo.addShare {amount : Int → Int} {totals : List (Number × Double)} {parent : Number}
    {place share : Int} (sums : SumsTo amount totals) (isParent : parent.toInt? = some place)
    (small : |amount place + share| < 2 ^ 53) :
    SumsTo (Function.update amount place (amount place + share))
      (addShare parent (.finite share) totals) := by
  refine ⟨whole_addShare isParent sums.whole, fun {key id} isKey => ?_⟩
  rw [totalUnder_addShare isKey isParent sums.whole]
  by_cases same : place = id
  · subst same
    left
    rw [if_pos rfl, Function.update_self]
    rcases sums.found isKey with found | ⟨missing, zero⟩
    · rw [found, Option.getD_some, Double.finite_add_finite small]
    · rw [zero] at small
      have added := @Double.finite_add_finite 0 share small
      rw [missing, zero]
      exact congrArg some added
  · rw [if_neg same, Function.update_of_ne (Ne.symm same)]
    exact sums.found isKey

/-- The totals of whole claims are their sums. -/
theorem sumsTo_shareTotals {requests : List Request} {totals : List (Number × Double)}
    (each : ∀ request ∈ requests, IsWholeClaim request) (few : requests.length ≤ 10000)
    (summed : shareTotals requests = .ok totals) : SumsTo (claims · requests) totals := by
  induction requests using List.reverseRecOn generalizing totals with
  | nil =>
      cases summed
      exact ⟨by simp, fun _ => .inr ⟨rfl, rfl⟩⟩
  | append_singleton done request induction =>
      have eachDone : ∀ other ∈ done, IsWholeClaim other :=
        fun other member => each other (List.mem_append_left _ member)
      have isWhole : IsWholeClaim request := each request (by simp)
      have fewDone : done.length ≤ 10000 := by
        rw [List.length_append] at few
        omega
      rw [shareTotals, List.foldlM_append] at summed
      rcases Result.bind_eq_ok.mp summed with ⟨before, summedDone, rest⟩
      have sums := induction eachDone fewDone summedDone
      rw [List.foldlM_cons] at rest
      cases kind : request.spec.kind with
      | reserved =>
          simp only [kind, Result.ok_bind, List.foldlM_nil] at rest
          cases rest
          rwa [claims_concat_of_reserved done kind]
      | percentage =>
          rcases isWhole.parent with ⟨place, isParent⟩
          rcases isWhole.share kind with ⟨share, isShare, nonneg, atMost⟩
          have exactly : arithmetic (Number.whole share).toDouble = .ok (.finite share) := by
            rw [Result.arithmetic_eq_ok, Number.toDouble,
              Double.ofInt_eq_ok (by rw [abs_lt]; omega)]
          have bounds := claims_bounds eachDone place
          simp only [kind, isShare, Option.getD_some, exactly, Result.ok_bind] at rest
          cases rest
          rw [claims_concat_of_percentage done kind isParent isShare]
          exact sums.addShare isParent (by rw [abs_lt]; omega)

/-! ## What the checks leave -/

theorem SumsTo.le_hundred {amount : Int → Int} {totals : List (Number × Double)}
    (sums : SumsTo amount totals) (checked : checkTotals totals = .ok ()) (id : Int) :
    amount id ≤ 100 := by
  rcases @SumsTo.found _ _ sums (.whole id) id rfl with found | ⟨_, zero⟩
  · rcases Option.map_eq_some_iff.mp found with ⟨row, isRow, total⟩
    by_contra above
    rw [not_le] at above
    have isAboveRow : isAbove row.2 hundred = true := total ▸ isAbove_hundred_iff.mpr above
    simp only [checkTotals] at checked
    split at checked
    · cases checked
    case h_2 none =>
      exact List.find?_eq_none.mp none row (List.mem_of_find?_eq_some isRow) isAboveRow
  · omega

/-- A checked request whose share is a whole one, if it has any. -/
theorem isWholeClaim_of_checkRequest {request : Request}
    (parent : ∃ id : Int, request.spec.parent.toInt? = some id)
    (whole : request.spec.kind = .percentage →
      ∀ share ∈ request.spec.share, ∃ value : Int, share = .whole value)
    (checked : checkRequest request = .ok ()) : IsWholeClaim request := by
  refine ⟨parent, fun percentage => ?_⟩
  simp only [checkRequest, percentage] at checked
  split at checked
  · cases checked
  case h_2 share given =>
    rcases whole percentage share given with ⟨value, rfl⟩
    split at checked
    case isTrue within =>
      rcases Bool.and_eq_true_iff.mp within with ⟨above, below⟩
      exact ⟨value, given, Number.whole_le_whole.mp above, Number.whole_le_whole.mp below⟩
    case isFalse => cases checked

/-- Requests whose parents and shares are whole numbers, where they have a share. -/
structure HaveWholeShares (requests : List Request) : Prop where
  few : requests.length ≤ 10000
  parents : ∀ request ∈ requests, ∃ id : Int, request.spec.parent.toInt? = some id
  shares : ∀ request ∈ requests, request.spec.kind = .percentage →
    ∀ share ∈ request.spec.share, ∃ value : Int, share = .whole value

section Settles

variable {prepared : Prepared} {others : List Request} {last final : Request}

theorem declared_of_none (isOpen : last.spec.share = none) : declared others last = others := by
  simp [declared, isOpen]

theorem declared_of_isSome (isGiven : last.spec.share.isSome = true) :
    declared others last = others ++ [last] := by
  simp [declared, isGiven]

theorem Settles.isWholeClaim (settles : Settles prepared others last final)
    (whole : HaveWholeShares (others ++ [last])) :
    ∀ request ∈ declared others last, IsWholeClaim request := by
  intro request member
  have among : request ∈ others ++ [last] := by
    simp only [declared] at member
    split at member
    · exact member
    · exact List.mem_append_left _ member
  exact isWholeClaim_of_checkRequest (whole.parents request among) (whole.shares request among)
    (settles.requests request member)

theorem Settles.sumsTo_declared (settles : Settles prepared others last final)
    (whole : HaveWholeShares (others ++ [last])) :
    ∃ totals, shareTotals (declared others last) = .ok totals ∧
      checkTotals totals = .ok () ∧ SumsTo (claims · (declared others last)) totals := by
  have few : (declared others last).length ≤ 10000 := by
    have most := whole.few
    rw [List.length_append] at most
    simp only [declared]
    split
    · rwa [List.length_append]
    · omega
  rcases settles.totals with ⟨totals, summed, checked⟩
  exact ⟨totals, summed, checked, sumsTo_shareTotals (settles.isWholeClaim whole) few summed⟩

theorem Settles.declared_bounds (settles : Settles prepared others last final)
    (whole : HaveWholeShares (others ++ [last])) (id : Int) :
    0 ≤ claims id (declared others last) ∧ claims id (declared others last) ≤ 100 := by
  rcases settles.sumsTo_declared whole with ⟨totals, _, checked, sums⟩
  exact ⟨(claims_bounds (settles.isWholeClaim whole) id).1, sums.le_hundred checked id⟩

/-- A default tier without a share takes what the others leave of its class. -/
theorem Settles.exists_taken (settles : Settles prepared others last final)
    (whole : HaveWholeShares (others ++ [last])) (isOpen : last.spec.share = none) {id : Int}
    (isParent : last.spec.parent.toInt? = some id) :
    ∃ number, final.spec = { last.spec with share := some number } ∧
      StandsFor number (100 - claims id others) := by
  have bounds := settles.declared_bounds whole id
  rcases settles.sumsTo_declared whole with ⟨totals, summed, _, sums⟩
  have finished := settles.finished
  rw [declared_of_none isOpen] at bounds summed sums
  simp only [settled, isOpen, Option.isSome_none, Bool.false_eq_true, if_false] at finished
  rw [summed, Result.ok_bind, Result.pure_eq_ok] at finished
  rw [← finished]
  exact ⟨_, rfl, standsFor_remainder (sums.found isParent) bounds.1 bounds.2⟩

theorem Settles.claimOf_final (settles : Settles prepared others last final)
    (whole : HaveWholeShares (others ++ [last])) (isOpen : last.spec.share = none) {id : Int}
    (isParent : last.spec.parent.toInt? = some id) :
    claimOf id final = if last.spec.kind = .percentage then 100 - claims id others else 0 := by
  rcases settles.exists_taken whole isOpen isParent with ⟨number, taken, stands⟩
  rw [claimOf, taken]
  simp [isParent, stands.toInt?]

theorem settled_of_isSome (isGiven : last.spec.share.isSome = true)
    (finished : settled others last = .ok final) : final = last := by
  rw [settled, if_pos isGiven] at finished
  cases finished
  rfl

/-- No class is asked for more than a hundred percent. -/
theorem Settles.claims_le (settles : Settles prepared others last final)
    (whole : HaveWholeShares (others ++ [last])) (id : Int) :
    claims id (others ++ [final]) ≤ 100 := by
  have bounds := settles.declared_bounds whole id
  cases given : last.spec.share with
  | some share =>
      have isGiven : last.spec.share.isSome = true := by rw [given]; rfl
      rw [declared_of_isSome isGiven] at bounds
      rw [settled_of_isSome isGiven settles.finished]
      exact bounds.2
  | none =>
      rw [declared_of_none given] at bounds
      rw [claims_concat]
      rcases whole.parents last (by simp) with ⟨place, isParent⟩
      by_cases same : place = id
      · subst same
        rw [settles.claimOf_final whole given isParent]
        split <;> omega
      · have elsewhere : claimOf id final = 0 := by
          rcases settles.exists_taken whole given isParent with ⟨number, taken, _⟩
          simp [claimOf, taken, isParent, same]
        omega

/-- The class of a default tier without a share is asked for a hundred percent. -/
theorem Settles.claims_eq_hundred (settles : Settles prepared others last final)
    (whole : HaveWholeShares (others ++ [last])) (isOpen : last.spec.share = none)
    (percentage : last.spec.kind = .percentage) {id : Int}
    (isParent : last.spec.parent.toInt? = some id) : claims id (others ++ [final]) = 100 := by
  rw [claims_concat, settles.claimOf_final whole isOpen isParent, if_pos percentage]
  omega

/-- Each share is a whole percentage in the end. -/
theorem Settles.exists_standsFor (settles : Settles prepared others last final)
    (whole : HaveWholeShares (others ++ [last])) {request : Request}
    (member : request ∈ others ++ [final]) (percentage : request.spec.kind = .percentage) :
    ∃ number share, request.spec.share = some number ∧ StandsFor number share ∧
      0 ≤ share ∧ share ≤ 100 := by
  have ofDeclared : request ∈ declared others last →
      ∃ number share, request.spec.share = some number ∧ StandsFor number share ∧
        0 ≤ share ∧ share ≤ 100 := by
    intro isDeclared
    rcases (settles.isWholeClaim whole request isDeclared).share percentage with
      ⟨share, isShare, bounds⟩
    exact ⟨_, share, isShare, .inl rfl, bounds⟩
  cases given : last.spec.share with
  | some share =>
      have isGiven : last.spec.share.isSome = true := by rw [given]; rfl
      rw [settled_of_isSome isGiven settles.finished] at member
      exact ofDeclared (by rwa [declared_of_isSome isGiven])
  | none =>
      rcases List.mem_append.mp member with other | isFinal
      · exact ofDeclared (by rwa [declared_of_none given])
      · rw [List.mem_singleton.mp isFinal]
        rcases whole.parents last (by simp) with ⟨place, isParent⟩
        rcases settles.exists_taken whole given isParent with ⟨number, taken, stands⟩
        have bounds := settles.declared_bounds whole place
        rw [declared_of_none given] at bounds
        exact ⟨number, _, by rw [taken], stands, by omega, by omega⟩

end Settles

end Allocation

end UplinkShaper
