import UplinkShaper.Proofs.Allocation.WellFormed
import UplinkShaper.Proofs.Number.Neighbours

/-!
Numbers in class trees. A tree that is made of shares that doubles can be has only such numbers:
sustained rates are whole, bursts are rounded products, and what is left of a hundred percent
is a rounded sum.
-/

namespace UplinkShaper

/-- The share of a tier, if there is one, is a number that a double can be. -/
def TierSpec.HasDoubles (spec : TierSpec) : Prop :=
  ∀ share ∈ spec.share, share.IsDouble

def TreeRequest.HasDoubles (request : TreeRequest) : Prop :=
  ∀ spec ∈ request.specs, spec.HasDoubles

structure ServiceCurve.HasDoubles (curve : ServiceCurve) : Prop where
  sustained : curve.sustained.IsDouble
  burst : ∀ burst ∈ curve.burst, burst.rate.IsDouble

structure Tier.HasDoubles (tier : Tier) : Prop where
  share : ∀ share ∈ tier.share, share.IsDouble
  curve : tier.curve.HasDoubles

def ClassTree.HasDoubles (tree : ClassTree) : Prop :=
  ∀ tier ∈ tree.tiers, tier.HasDoubles

theorem ServiceCurve.hasDoubles_of_ofRate {rate : Int} {priority : Priority} {curve : ServiceCurve}
    (made : ofRate (.whole rate) priority = .ok curve) : curve.HasDoubles := by
  unfold ofRate at made
  split at made
  case h_1 =>
    cases made
    exact { sustained := trivial, burst := nofun }
  case h_2 =>
    rcases Result.bind_eq_ok.mp made with ⟨reached, product, equal⟩
    rw [← Result.pure_eq_ok.mp equal]
    refine { sustained := trivial, burst := ?_ }
    rintro _ ⟨⟩
    exact Number.isDouble_simplify (Number.isDouble_of_mul (Result.arithmetic_eq_ok.mp product))

namespace Allocation

variable {prepared : Prepared} {others : List Request} {last final : Request}

theorem isDouble_remainder (claimed : Option Double) : (remainder claimed).IsDouble := by
  cases claimed with
  | none => exact trivial
  | some total =>
      change (hundred.add total.neg).IsDouble
      cases total.neg with
      | finite value => exact Double.isDouble_round _
      | negativeZero => exact (by decide +kernel : Double.IsDouble hundred)
      | infinite negative => exact trivial
      | notANumber => exact trivial

/-- The default tier has its own share or what is left. -/
theorem hasDoubles_of_settled (given : last.spec.HasDoubles)
    (finished : settled others last = .ok final) : final.spec.HasDoubles := by
  unfold settled at finished
  split at finished
  case isTrue =>
    cases finished
    exact given
  case isFalse =>
    rcases Result.bind_eq_ok.mp finished with ⟨totals, _, equal⟩
    rw [← Result.pure_eq_ok.mp equal]
    rintro _ ⟨⟩
    exact isDouble_remainder _

theorem hasDoubles_of_settles (settles : Settles prepared others last final)
    (given : ∀ request ∈ others ++ [last], request.spec.HasDoubles) :
    ∀ request ∈ prepared.requests, request.spec.HasDoubles := by
  intro request member
  rcases List.forall_mem_append.mp given with ⟨each, givenLast⟩
  rcases List.mem_append.mp ((inLayers_perm settles.layers).mem_iff.mp member) with
    isOther | isFinal
  · exact each request isOther
  · rw [List.mem_singleton.mp isFinal]
    exact hasDoubles_of_settled (givenLast last (List.mem_singleton_self last)) settles.finished

end Allocation

open Allocation in
theorem TreeRequest.HasDoubles.of_compile {request : TreeRequest} {roundTrip : Number}
    {tree : ClassTree} (given : request.HasDoubles)
    (compiled : request.compile roundTrip = .ok tree) : tree.HasDoubles := by
  rcases compile_eq_ok_iff.mp compiled with ⟨prepared, ready, complete, rfl⟩
  rcases exists_settles_of_prepare ready with ⟨others, last, _, _, same, isLast, settles, _⟩
  have asked : ∀ layered ∈ prepared.requests, layered.spec.HasDoubles := by
    refine hasDoubles_of_settles settles fun other member => given other.spec ?_
    rw [specs, ← same, defaultSpec, ← isLast]
    simpa using List.mem_map_of_mem (f := Request.spec) member
  intro tier member
  rcases exists_made (made_of_makeTiers complete) member with ⟨layered, isLayered, made⟩
  exact {
    share := by rw [made.share]; exact asked layered isLayered
    curve := ServiceCurve.hasDoubles_of_ofRate made.ofRate }

end UplinkShaper
