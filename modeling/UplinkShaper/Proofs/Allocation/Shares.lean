import Mathlib.Algebra.BigOperators.Group.List.Basic
import UplinkShaper.Proofs.Number.Rounding
import UplinkShaper.Proofs.Results
import UplinkShaper.Shaping.Allocation

/-!
Shares that are whole numbers. Their sums by parent are formed of doubles, and these are
the exact sums, as are the share that the default tier takes and the rates that shares
come to.
-/

namespace UplinkShaper

/-- A tier as it is asked for, with whole numbers. -/
structure WholeSpec where
  id : Int
  label : String
  kind : TierKind
  priority : Priority
  share : Option Int
  rate : Option Int
  ratePercent : Option Int
  parent : Int

namespace WholeSpec

def toSpec (spec : WholeSpec) : TierSpec where
  id := .whole spec.id
  label := spec.label
  kind := spec.kind
  priority := spec.priority
  share := spec.share.map .whole
  rate := spec.rate.map .whole
  ratePercent := spec.ratePercent.map .whole
  parent := .whole spec.parent

def request (spec : WholeSpec) : Allocation.Request where
  id := spec.id
  spec := spec.toSpec

/-- A reserved tier has a rate or a percentage of the link, not both. Any other tier has
a share. -/
structure IsProper (spec : WholeSpec) : Prop where
  reserved : spec.kind = .reserved → spec.rate.isSome ≠ spec.ratePercent.isSome
  percentage : spec.kind = .percentage → ∃ share, spec.share = some share ∧ 0 ≤ share ∧ share ≤ 100

/-- What a tier takes of a parent's hundred percent. -/
def claim (parent : Int) (spec : WholeSpec) : Int :=
  if spec.kind = .percentage ∧ spec.parent = parent then spec.share.getD 0 else 0

def claimed (parent : Int) (specs : List WholeSpec) : Int :=
  (specs.map (claim parent)).sum

theorem IsProper.claim_bounds {spec : WholeSpec} (proper : spec.IsProper) (parent : Int) :
    0 ≤ claim parent spec ∧ claim parent spec ≤ 100 := by
  simp only [claim]
  split
  case isTrue below =>
    rcases proper.percentage below.1 with ⟨share, isShare, nonneg, small⟩
    rw [isShare]
    exact ⟨nonneg, small⟩
  case isFalse => omega

theorem claimed_append (parent : Int) (first second : List WholeSpec) :
    claimed parent (first ++ second) = claimed parent first + claimed parent second := by
  rw [claimed, List.map_append, List.sum_append]
  rfl

theorem claimed_bounds {specs : List WholeSpec} (proper : ∀ spec ∈ specs, spec.IsProper)
    (parent : Int) : 0 ≤ claimed parent specs ∧ claimed parent specs ≤ 100 * specs.length := by
  induction specs with
  | nil => simp [claimed]
  | cons spec rest induction =>
      rcases List.forall_mem_cons.mp proper with ⟨properSpec, properRest⟩
      have here := properSpec.claim_bounds parent
      have later := induction properRest
      simp only [claimed, List.map_cons, List.sum_cons, List.length_cons] at later ⊢
      push_cast
      omega

end WholeSpec

namespace Allocation

open WholeSpec

/-! ## Tables of sums -/

/-- The sums of some parents. -/
def tableOf (parents : List Int) (amount : Int → Int) : List (Number × Double) :=
  parents.map fun parent => (.whole parent, .finite (amount parent))

theorem addShare_table {parents : List Int} {amount : Int → Int} {parent share : Int}
    (distinct : parents.Nodup) (fresh : parent ∉ parents → amount parent = 0)
    (small : |amount parent + share| < 2 ^ 53) :
    addShare (.whole parent) (.finite share) (tableOf parents amount) =
      tableOf (if parent ∈ parents then parents else parents ++ [parent])
        (Function.update amount parent (amount parent + share)) := by
  induction parents with
  | nil =>
      have zero := fresh (by simp)
      rw [zero, zero_add] at small
      have sum : (Double.finite 0).add (.finite share) = .finite share := by
        simpa using @Double.finite_add_finite 0 share (by simpa using small)
      simp [tableOf, addShare, zero, sum]
  | cons head rest induction =>
      rcases List.nodup_cons.mp distinct with ⟨new, distinctRest⟩
      by_cases same : head = parent
      · subst same
        have others : rest.map (fun other => (Number.whole other,
            Double.finite ((Function.update amount head (amount head + share) other : Int) : Rat))) =
            rest.map fun other => (Number.whole other, Double.finite (amount other)) := by
          apply List.map_congr_left
          intro other member
          have different : other ≠ head := fun equal => new (equal ▸ member)
          rw [Function.update_of_ne different]
        simp [tableOf, addShare, Number.eq, Number.compare?, others,
          Double.finite_add_finite small]
      · have differs : (Number.whole head).eq (.whole parent) = false := by
          simpa [Number.eq, Number.compare?, compare_eq_iff_eq] using same
        have later := induction distinctRest
          (fun absent => fresh (by simp [absent, Ne.symm same]))
        have unchanged := Function.update_of_ne (f := amount) same (amount parent + share)
        unfold tableOf at later ⊢
        by_cases known : parent ∈ rest
        · rw [if_pos known] at later
          rw [if_pos (List.mem_cons_of_mem _ known), List.map_cons, List.map_cons, addShare,
            differs, later, unchanged]
          rfl
        · have absent : parent ∉ head :: rest := by simp [known, Ne.symm same]
          rw [if_neg known] at later
          rw [if_neg absent, List.map_cons, List.cons_append, List.map_cons, addShare, differs,
            later, unchanged]
          rfl

/-- The table of the sums of some specifications, a row for each parent of a share. -/
def IsTableOf (specs : List WholeSpec) (totals : List (Number × Double)) : Prop :=
  ∃ parents : List Int, parents.Nodup ∧
    (∀ parent, parent ∈ parents ↔
      ∃ spec ∈ specs, spec.kind = .percentage ∧ spec.parent = parent) ∧
    totals = tableOf parents (claimed · specs)

/-- The shares under a parent that has none sum to zero. -/
theorem claimed_eq_zero {specs : List WholeSpec} {parent : Int}
    (absent : ¬ ∃ spec ∈ specs, spec.kind = .percentage ∧ spec.parent = parent) :
    claimed parent specs = 0 := by
  simp only [claimed]
  rw [List.sum_eq_zero]
  intro amount member
  rcases List.mem_map.mp member with ⟨spec, isSpec, rfl⟩
  rw [claim, if_neg]
  intro below
  exact absent ⟨spec, isSpec, below⟩

theorem isTableOf_addShare {specs : List WholeSpec} {totals : List (Number × Double)}
    {spec : WholeSpec} {share : Int} (table : IsTableOf specs totals)
    (percentage : spec.kind = .percentage) (isShare : spec.share = some share)
    (small : |claimed spec.parent specs + share| < 2 ^ 53) :
    IsTableOf (specs ++ [spec]) (addShare (.whole spec.parent) (.finite share) totals) := by
  rcases table with ⟨parents, distinct, named, rfl⟩
  have fresh : spec.parent ∉ parents → claimed spec.parent specs = 0 := by
    intro absent
    exact claimed_eq_zero fun found => absent ((named _).mpr found)
  refine ⟨if spec.parent ∈ parents then parents else parents ++ [spec.parent], ?_, ?_, ?_⟩
  · split
    · exact distinct
    case isFalse absent =>
      refine List.nodup_append.mpr ⟨distinct, List.nodup_singleton _, ?_⟩
      intro parent member other isOther equal
      rw [equal, List.mem_singleton.mp isOther] at member
      exact absent member
  · intro parent
    have asked : (∃ other ∈ specs ++ [spec], other.kind = .percentage ∧ other.parent = parent) ↔
        parent ∈ parents ∨ spec.parent = parent := by
      rw [named]
      simp only [List.mem_append, List.mem_singleton, or_and_right, exists_or, exists_eq_left,
        percentage, true_and]
    rw [asked]
    split
    case isTrue present =>
      constructor
      · exact Or.inl
      · rintro (old | rfl)
        · exact old
        · exact present
    case isFalse =>
      rw [List.mem_append, List.mem_singleton]
      exact or_congr_right eq_comm
  · have added := @addShare_table parents (claimed · specs) spec.parent share distinct fresh small
    rw [added]
    congr 1
    funext parent
    rw [claimed_append]
    by_cases same : parent = spec.parent
    · subst same
      simp [claimed, claim, percentage, isShare]
    · rw [Function.update_of_ne same]
      simp [claimed, claim, Ne.symm same]

theorem isTableOf_reserved {specs : List WholeSpec} {totals : List (Number × Double)}
    {spec : WholeSpec} (table : IsTableOf specs totals) (reserved : spec.kind = .reserved) :
    IsTableOf (specs ++ [spec]) totals := by
  rcases table with ⟨parents, distinct, named, rfl⟩
  refine ⟨parents, distinct, ?_, ?_⟩
  · intro parent
    rw [named]
    simp [or_and_right, exists_or, reserved]
  · congr 1
    funext parent
    rw [claimed_append]
    simp [claimed, claim, reserved]

/-- As many specifications as there are ids: their shares sum to exact doubles. -/
theorem exists_isTableOf {specs : List WholeSpec} (proper : ∀ spec ∈ specs, spec.IsProper)
    (few : specs.length ≤ 10000) :
    ∃ totals, shareTotals (specs.map (·.request)) = .ok totals ∧ IsTableOf specs totals := by
  -- The table is built from the front, so the sums of what is done grow at their end.
  induction specs using List.reverseRecOn with
  | nil => exact ⟨[], rfl, [], List.nodup_nil, by simp, rfl⟩
  | append_singleton done spec induction =>
      have properDone : ∀ other ∈ done, other.IsProper :=
        fun other member => proper other (List.mem_append_left _ member)
      have properSpec : spec.IsProper := proper spec (by simp)
      have fewDone : done.length ≤ 10000 := by
        rw [List.length_append] at few
        omega
      rcases induction properDone fewDone with ⟨totals, summed, table⟩
      rw [List.map_append, shareTotals, List.foldlM_append]
      simp only [shareTotals] at summed
      rw [summed, Result.ok_bind, List.map_singleton, List.foldlM_cons]
      cases kind : spec.kind with
      | reserved =>
          refine ⟨totals, ?_, isTableOf_reserved table kind⟩
          simp [request, toSpec, kind]
      | percentage =>
          rcases properSpec.percentage kind with ⟨share, isShare, nonneg, atMost⟩
          have bounds := claimed_bounds properDone spec.parent
          have exactly : arithmetic (Number.whole share).toDouble = .ok (.finite share) := by
            rw [Result.arithmetic_eq_ok, Number.toDouble,
              Double.ofInt_eq_ok (by rw [abs_lt]; omega)]
          refine ⟨addShare (.whole spec.parent) (.finite share) totals, ?_,
            isTableOf_addShare table kind isShare (by rw [abs_lt]; omega)⟩
          simp [request, toSpec, kind, isShare, exactly]

/-! ## What is done with the sums -/

theorem isAbove_hundred_iff {amount : Int} :
    isAbove (.finite amount) hundred = true ↔ 100 < amount := by
  simp only [isAbove, hundred, Double.compare?, Double.toRat?, beq_iff_eq, Option.some.injEq]
  constructor
  · intro above
    split at above
    · cases above
    · split at above
      · cases above
      case isFalse notLess notEqual =>
        exact_mod_cast lt_of_le_of_ne (not_lt.mp notLess) (Ne.symm notEqual)
  · intro above
    have aboveRat : (100 : Rat) < amount := by exact_mod_cast above
    rw [if_neg aboveRat.not_gt, if_neg aboveRat.ne']

/-- A refusal whose numbers can be written says why. -/
theorem isRefusal_refuse {cause : AllocationCause} {tier value : Value}
    (tierWritable : tier.isWritable = true) (causeWritable : cause.isWritable = true) :
    Result.IsRefusal (refuse cause tier value : Except Failure α) := by
  rw [refuse, Failure.ofAllocation, tierWritable, causeWritable]
  exact ⟨_, rfl⟩

/-- No sum is above a hundred. -/
def WithinHundred (specs : List WholeSpec) : Prop :=
  ∀ parent, claimed parent specs ≤ 100

theorem checkTotals_of_within {specs : List WholeSpec} {totals : List (Number × Double)}
    (table : IsTableOf specs totals) (within : WithinHundred specs) :
    checkTotals totals = .ok () := by
  rcases table with ⟨parents, _, _, rfl⟩
  have none : (tableOf parents (claimed · specs)).find?
      (fun row => isAbove row.2 hundred) = none := by
    rw [List.find?_eq_none]
    intro row member
    rcases List.mem_map.mp member with ⟨parent, _, rfl⟩
    rw [isAbove_hundred_iff]
    exact not_lt.mpr (within parent)
  simp only [checkTotals, none]

theorem checkTotals_refusal {specs : List WholeSpec} {totals : List (Number × Double)}
    (table : IsTableOf specs totals) (exceeds : ¬ WithinHundred specs)
    (writable : ∀ spec ∈ specs, (Number.whole spec.parent).isWritable = true) :
    Result.IsRefusal (checkTotals totals) := by
  rcases table with ⟨parents, _, named, rfl⟩
  rcases not_forall.mp exceeds with ⟨parent, above⟩
  rw [not_le] at above
  have present : parent ∈ parents := by
    rw [named]
    by_contra absent
    rw [claimed_eq_zero absent] at above
    omega
  simp only [checkTotals]
  split
  case h_1 shown total found =>
    rcases List.mem_map.mp (List.mem_of_find?_eq_some found) with ⟨other, isParent, equal⟩
    rcases (named other).mp isParent with ⟨spec, isSpec, _, rfl⟩
    rw [← (Prod.mk.inj equal).1]
    exact isRefusal_refuse rfl (writable spec isSpec)
  case h_2 none =>
    have row : (Number.whole parent, Double.finite ((claimed parent specs : Int) : Rat)) ∈
        tableOf parents (claimed · specs) := List.mem_map_of_mem present
    have notAbove := List.find?_eq_none.mp none _ row
    exact absurd (isAbove_hundred_iff.mpr above) notAbove

theorem totalUnder_table {specs : List WholeSpec} {totals : List (Number × Double)}
    (table : IsTableOf specs totals) (parent : Int) :
    totalUnder? (.whole parent) totals = some (.finite (claimed parent specs)) ∨
      totalUnder? (.whole parent) totals = none ∧ claimed parent specs = 0 := by
  rcases table with ⟨parents, _, named, rfl⟩
  have same : ∀ other : Int, (Number.whole other).eq (.whole parent) = decide (other = parent) := by
    intro other
    simp [Number.eq, Number.compare?, beq_eq_decide]
  by_cases present : parent ∈ parents
  · left
    have found : parents.find? (fun other => decide (other = parent)) = some parent := by
      cases result : parents.find? (fun other => decide (other = parent)) with
      | none =>
          have missing := List.find?_eq_none.mp result parent present
          simp at missing
      | some other =>
          have equal := List.find?_some result
          rw [of_decide_eq_true equal]
    simp [totalUnder?, tableOf, List.find?_map, Function.comp_def, same, found]
  · right
    refine ⟨?_, claimed_eq_zero fun asked => present ((named parent).mpr asked)⟩
    simp only [totalUnder?, tableOf, Option.map_eq_none_iff, List.find?_eq_none]
    intro row member
    rcases List.mem_map.mp member with ⟨other, isParent, rfl⟩
    rw [same]
    simp only [decide_eq_true_eq]
    rintro rfl
    exact present isParent

/-! ## Shares and rates -/

/-- A number that stands for a whole share. -/
def StandsFor (number : Number) (share : Int) : Prop :=
  number = .whole share ∨ number = .real (.finite share)

/-- What is left of a hundred percent, where the sum is found or is zero. -/
theorem standsFor_remainder {sum : Option Double} {amount : Int}
    (isSum : sum = some (.finite amount) ∨ sum = none ∧ amount = 0) (nonneg : 0 ≤ amount)
    (within : amount ≤ 100) : StandsFor (remainder sum) (100 - amount) := by
  rcases isSum with rfl | ⟨rfl, rfl⟩
  · right
    rw [remainder, hundred]
    by_cases zero : amount = 0
    · rw [zero]
      simp
    · have left := @Double.finite_sub_finite 100 _ zero (by rw [abs_lt]; omega)
      exact congrArg Number.real left
  · left
    rfl

/-- The default tier takes what is left of a hundred percent. -/
theorem remainder_standsFor {specs : List WholeSpec} {totals : List (Number × Double)}
    (table : IsTableOf specs totals) {parent : Int} (nonneg : 0 ≤ claimed parent specs)
    (within : claimed parent specs ≤ 100) :
    StandsFor (remainder (totalUnder? (.whole parent) totals)) (100 - claimed parent specs) :=
  standsFor_remainder (totalUnder_table table parent) nonneg within

/-- A share of a rate that a link can have is the exact one, rounded down. -/
theorem percentOf_standsFor {rate share : Int} {number : Number}
    (stands : StandsFor number share) (rateNonneg : 0 ≤ rate) (rateSmall : rate ≤ 2 ^ 46)
    (shareNonneg : 0 ≤ share) (shareSmall : share ≤ 100) :
    percentOf rate number = .ok (rate * share / 100) := by
  have productNonneg : 0 ≤ rate * share := mul_nonneg rateNonneg shareNonneg
  have productSmall : rate * share < 2 ^ 53 := by nlinarith
  rcases stands with rfl | rfl
  · have quotient := Int.fdiv_eq_ediv_of_nonneg (rate * share) (by decide : (0 : Int) ≤ 100)
    rw [← quotient]
    rfl
  · have rateExact : Double.ofInt rate = .ok (.finite rate) :=
      Double.ofInt_eq_ok (by rw [abs_lt]; omega)
    have hundredExact : Double.ofInt 100 = .ok (.finite ((100 : Int) : Rat)) :=
      Double.ofInt_eq_ok (by decide)
    have product := Double.finite_mul_finite rateNonneg shareNonneg (by rw [abs_lt]; omega)
    have quotient := @Double.floorDiv_finite _ 100 productNonneg (by decide) productSmall
    have unfolded : percentOf rate (.real (.finite share)) = arithmetic (do
        let product := (← Double.ofInt rate).mul (.finite share)
        (Number.real (product.floorDiv (← Double.ofInt 100))).wholePart) := by
      simp only [percentOf, Number.mul, Number.floorDiv, Number.toDouble, pure_bind, bind_assoc]
      rfl
    rw [unfolded, rateExact, hundredExact, Result.ok_bind, Result.ok_bind, product, quotient]
    simp only [Number.wholePart, Double.wholePart, truncate_intCast, arithmetic, Except.mapError]

end Allocation

end UplinkShaper
