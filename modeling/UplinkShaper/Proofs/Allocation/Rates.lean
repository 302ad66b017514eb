import UplinkShaper.Proofs.Allocation.Ids
import UplinkShaper.Proofs.Allocation.Layers
import UplinkShaper.Proofs.Allocation.Shares
import UplinkShaper.Proofs.Allocation.Tiers

/-!
Rates from the root down. A tier's rate follows from its parent's, and tiers with their
parents first are made with exactly these rates, until one of them is out of range.
-/

namespace UplinkShaper

namespace Allocation

open WholeSpec

/-- What a tier gets of its parent: the share it asks for, or what others leave. -/
def shareOf (specs : List WholeSpec) (spec : WholeSpec) : Int :=
  spec.share.getD (100 - claimed spec.parent specs)

/-- The rate that a tier comes to below a parent with a rate. -/
def rateBelow (capacity : Int) (specs : List WholeSpec) (spec : WholeSpec) (parentRate : Int) :
    Int :=
  match spec.kind with
  | .reserved => spec.rate.getD (capacity * spec.ratePercent.getD 0 / 100)
  | .percentage => parentRate * shareOf specs spec / 100

/-- The rates of classes, by recursion from the root. -/
inductive RateOf (capacity : Int) (specs : List WholeSpec) : Int → Int → Prop
  | root : RateOf capacity specs rootId capacity
  | tier {spec : WholeSpec} {parentRate : Int} : spec ∈ specs →
      RateOf capacity specs spec.parent parentRate →
        RateOf capacity specs spec.id (rateBelow capacity specs spec parentRate)

/-- A rate that a tier may have. -/
def InRange (capacity rate : Int) : Prop :=
  1 ≤ rate ∧ rate ≤ capacity

/-- Ids that name one class each. -/
structure ProperIds (specs : List WholeSpec) : Prop where
  distinct : (specs.map (·.id)).Nodup
  proper : ∀ spec ∈ specs, IsTierId spec.id

theorem ProperIds.eq_of_id_eq {specs : List WholeSpec} (ids : ProperIds specs)
    {first second : WholeSpec} (firstMember : first ∈ specs) (secondMember : second ∈ specs)
    (same : first.id = second.id) : first = second :=
  List.inj_on_of_nodup_map ids.distinct firstMember secondMember same

theorem ProperIds.ne_root {specs : List WholeSpec} (ids : ProperIds specs) {spec : WholeSpec}
    (member : spec ∈ specs) : spec.id ≠ rootId := by
  have wide := (ids.proper spec member).1
  simp only [rootId]
  omega

theorem RateOf.inversion {capacity : Int} {specs : List WholeSpec} {id rate : Int}
    (isRate : RateOf capacity specs id rate) :
    id = rootId ∧ rate = capacity ∨
      ∃ spec ∈ specs, spec.id = id ∧ ∃ parentRate, RateOf capacity specs spec.parent parentRate ∧
        rate = rateBelow capacity specs spec parentRate := by
  cases isRate with
  | root => exact .inl ⟨rfl, rfl⟩
  | tier member above => exact .inr ⟨_, member, rfl, _, above, rfl⟩

/-- A class has one rate. -/
theorem RateOf.unique {capacity : Int} {specs : List WholeSpec} (ids : ProperIds specs)
    {id first second : Int} (isFirst : RateOf capacity specs id first)
    (isSecond : RateOf capacity specs id second) : first = second := by
  induction isFirst generalizing second with
  | root =>
      rcases isSecond.inversion with ⟨_, equal⟩ | ⟨spec, member, isRoot, _⟩
      · exact equal.symm
      · exact absurd isRoot (ids.ne_root member)
  | @tier spec parentRate member above induction =>
      rcases isSecond.inversion with ⟨isRoot, _⟩ | ⟨other, otherMember, same, _, otherAbove, rfl⟩
      · exact absurd isRoot (ids.ne_root member)
      · rw [ids.eq_of_id_eq otherMember member same] at otherAbove ⊢
        rw [induction otherAbove]

/-! ## One tier -/

/-- A request that comes of a specification, with a number for the share it gets. -/
structure ComesOf (specs : List WholeSpec) (spec : WholeSpec) (request : Request) : Prop where
  id : request.id = spec.id
  others : request.spec = { spec.toSpec with share := request.spec.share }
  share : spec.kind = .percentage →
    ∃ number, request.spec.share = some number ∧ StandsFor number (shareOf specs spec)

/-- A specification whose rate can be computed. -/
structure HasRate (specs : List WholeSpec) (spec : WholeSpec) : Prop where
  reserved : spec.kind = .reserved → spec.rate.isSome ≠ spec.ratePercent.isSome
  percentage : spec.kind = .percentage → 0 ≤ shareOf specs spec ∧ shareOf specs spec ≤ 100

/-- A link whose shares are exact. -/
def Exact (capacity : Int) : Prop :=
  capacity ≤ 2 ^ 46

theorem rateOf_comesOf {capacity parentRate : Int} {specs : List WholeSpec} {spec : WholeSpec}
    {request : Request} {rates : List (Int × Int)} (comes : ComesOf specs spec request)
    (computable : HasRate specs spec) (small : Exact capacity)
    (known : knownRate? rates (.whole spec.parent) = some parentRate)
    (range : InRange capacity parentRate) :
    rateOf capacity rates request.spec = .ok (rateBelow capacity specs spec parentRate) := by
  have kindSame : request.spec.kind = spec.kind := congrArg TierSpec.kind comes.others
  have rateSame : request.spec.rate = spec.rate.map .whole := congrArg TierSpec.rate comes.others
  have percentSame : request.spec.ratePercent = spec.ratePercent.map .whole :=
    congrArg TierSpec.ratePercent comes.others
  have parentSame : request.spec.parent = .whole spec.parent :=
    congrArg TierSpec.parent comes.others
  cases kind : spec.kind with
  | reserved =>
      have one := computable.reserved kind
      simp only [rateOf, rateBelow, kindSame, kind, rateSame, percentSame]
      cases fixed : spec.rate with
      | some rate => rfl
      | none =>
          cases relative : spec.ratePercent with
          | none => simp [fixed, relative] at one
          | some percent =>
              have quotient := Int.fdiv_eq_ediv_of_nonneg (capacity * percent)
                (by decide : (0 : Int) ≤ 100)
              simp only [Option.map_none, Option.map_some, Option.getD_none, Option.getD_some,
                ← quotient]
              rfl
  | percentage =>
      rcases comes.share kind with ⟨number, isShare, stands⟩
      rcases computable.percentage kind with ⟨nonneg, atMost⟩
      simp only [rateOf, rateBelow, kindSame, kind, isShare, parentSame, known]
      have positive := range.1
      exact percentOf_standsFor stands (by omega) (range.2.trans small) nonneg atMost

/-- A rate with a finite double has a curve. -/
theorem exists_ofRate {rate : Int} {double : Double} (isDouble : Double.ofInt rate = .ok double)
    (priority : Priority) : ∃ curve, ServiceCurve.ofRate (.whole rate) priority = .ok curve := by
  simp only [ServiceCurve.ofRate]
  split
  · exact ⟨_, rfl⟩
  case h_2 profile found =>
    have product : (Number.whole rate).mul (.real profile.multiplier) =
        .ok (.real (double.mul profile.multiplier)) := by
      have unfolded : (Number.whole rate).mul (.real profile.multiplier) =
        (do return .real ((← Double.ofInt rate).mul profile.multiplier)) := rfl
      rw [unfolded, isDouble]
      rfl
    rw [product]
    exact ⟨_, rfl⟩

theorem ofRate_isOk {rate : Int} (positive : 0 < rate) (small : Exact rate)
    (priority : Priority) : ∃ curve, ServiceCurve.ofRate (.whole rate) priority = .ok curve :=
  exists_ofRate (Double.ofInt_eq_ok (by unfold Exact at small; rw [abs_lt]; omega)) priority

/-- The tier for a request whose rate is in range. -/
theorem tierOf_inRange {setting : Setting} {rates : List (Int × Int)} {request : Request}
    {rate roundTrip : Int} (small : Exact setting.capacity.rate)
    (delay : setting.roundTrip = .whole roundTrip)
    (computed : rateOf setting.capacity.rate rates request.spec = .ok rate)
    (range : InRange setting.capacity.rate rate) :
    ∃ tier, tierOf setting rates request = .ok tier ∧ tier.id = request.id ∧ tier.rate = rate := by
  have checked : checkRate setting.capacity.rate rate request.spec.id = .ok () :=
    checkRate_eq_ok_iff.mpr range
  rcases ofRate_isOk range.1 (range.2.trans small) request.spec.priority
    with ⟨curve, curveMade⟩
  have bufferMade : Buffer.size (.whole rate) setting.roundTrip =
      .ok (Buffer.limit (rate * roundTrip)) := by
    rw [delay]
    rfl
  rw [tierOf]
  simp only [computed, checked, curveMade, bufferMade, Result.ok_bind]
  exact ⟨_, rfl, rfl, rfl⟩

/-- A rate out of range is refused. -/
theorem tierOf_refusal {setting : Setting} {rates : List (Int × Int)} {request : Request}
    {rate : Int} (computed : rateOf setting.capacity.rate rates request.spec = .ok rate)
    (out : ¬ InRange setting.capacity.rate rate) (idWritable : request.spec.id.isWritable = true)
    (writable : (Number.whole rate).isWritable = true ∧
      (Number.whole setting.capacity.rate).isWritable = true) :
    Result.IsRefusal (tierOf setting rates request) := by
  rw [tierOf]
  simp only [computed, Result.ok_bind]
  refine Result.IsRefusal.bind ?_ _
  simp only [checkRate]
  simp only [InRange] at out
  split
  · exact isRefusal_refuse idWritable rfl
  case isFalse positive =>
    rw [if_pos (by omega)]
    apply isRefusal_refuse idWritable
    rw [AllocationCause.isWritable, writable.1, writable.2]
    rfl

/-! ## All tiers -/

/-- Rates are known for some classes. -/
def KnowsRates (capacity : Int) (specs : List WholeSpec) (known : List Int)
    (rates : List (Int × Int)) : Prop :=
  ∀ id ∈ known, ∃ rate, knownRate? rates (.whole id) = some rate ∧
    RateOf capacity specs id rate ∧ InRange capacity rate

theorem knowsRates_cons {capacity : Int} {specs : List WholeSpec} {known : List Int}
    {rates : List (Int × Int)} {id rate : Int} (knows : KnowsRates capacity specs known rates)
    (isRate : RateOf capacity specs id rate) (range : InRange capacity rate) :
    KnowsRates capacity specs (known ++ [id]) ((id, rate) :: rates) := by
  intro other member
  by_cases same : other = id
  · subst same
    exact ⟨rate, by simp [knownRate?], isRate, range⟩
  · rcases List.mem_append.mp member with old | new
    · rcases knows other old with ⟨oldRate, found, isOld, oldRange⟩
      refine ⟨oldRate, ?_, isOld, oldRange⟩
      have differs : (Number.whole other).eq (.whole id) = false := by
        simpa [Number.eq, Number.compare?, compare_eq_iff_eq] using same
      rw [← found, knownRate?, List.find?_cons_of_neg (by simp [differs])]
      rfl
    · exact absurd (List.mem_singleton.mp new) same

/-- The requests for some specifications, and numbers that can be written. -/
structure Computable (setting : Setting) (specs : List WholeSpec) (request : Request) : Prop where
  source : ∃ spec ∈ specs, ComesOf specs spec request ∧ HasRate specs spec ∧
    ∀ parentRate, InRange setting.capacity.rate parentRate →
      (Number.whole (rateBelow setting.capacity.rate specs spec parentRate)).isWritable = true
  id : request.spec.id.isWritable = true

/-- Tiers with their parents first are made with the rates of their classes, until a rate
is out of range, which is refused. -/
theorem makeTiers_outcome {setting : Setting} {specs : List WholeSpec} {known : List Int}
    {rates : List (Int × Int)} {requests : List Request} {roundTrip : Int}
    (small : Exact setting.capacity.rate) (delay : setting.roundTrip = .whole roundTrip)
    (capacityWritable : (Number.whole setting.capacity.rate).isWritable = true)
    (computable : ∀ request ∈ requests, Computable setting specs request)
    (first : ParentsFirst known requests)
    (knows : KnowsRates setting.capacity.rate specs known rates) :
    ((makeTiers setting rates requests).failure = none ∧
        ∀ request ∈ requests, ∃ rate, RateOf setting.capacity.rate specs request.id rate ∧
          InRange setting.capacity.rate rate) ∨
      ((∃ error, (makeTiers setting rates requests).failure = some (.allocation error)) ∧
        ∃ request ∈ requests, ∃ rate, RateOf setting.capacity.rate specs request.id rate ∧
          ¬ InRange setting.capacity.rate rate) := by
  induction requests generalizing known rates with
  | nil => exact .inl ⟨rfl, by simp⟩
  | cons request rest induction =>
      rcases List.forall_mem_cons.mp computable with ⟨here, later⟩
      rcases here.source with ⟨spec, member, comes, hasRate, writable⟩
      have isParent : request.spec.parent = .whole spec.parent :=
        congrArg TierSpec.parent comes.others
      rcases isReady_iff.mp first.1 with ⟨parent, isKnown, equal⟩
      rw [isParent, Number.whole_eq_whole] at equal
      subst equal
      rcases knows _ isKnown with ⟨parentRate, found, isParentRate, parentRange⟩
      have computed := rateOf_comesOf comes hasRate small found parentRange
      have isRate := comes.id ▸ RateOf.tier member isParentRate
      by_cases range :
          InRange setting.capacity.rate (rateBelow setting.capacity.rate specs spec parentRate)
      · rcases tierOf_inRange small delay computed range with ⟨tier, isMade, tierId, tierRate⟩
        rw [makeTiers_cons_ok isMade, tierId, tierRate]
        rcases induction later first.2 (knowsRates_cons knows isRate range)
          with ⟨complete, all⟩ | ⟨failed, other, otherMember, otherRate⟩
        · exact .inl ⟨complete, List.forall_mem_cons.mpr ⟨⟨_, isRate, range⟩, all⟩⟩
        · exact .inr ⟨failed, other, List.mem_cons_of_mem _ otherMember, otherRate⟩
      · rcases tierOf_refusal computed range here.id
          ⟨writable parentRate parentRange, capacityWritable⟩ with ⟨error, refused⟩
        rw [makeTiers_cons_error refused]
        exact .inr ⟨⟨error, rfl⟩, request, List.mem_cons_self .., _, isRate, range⟩

end Allocation

end UplinkShaper
