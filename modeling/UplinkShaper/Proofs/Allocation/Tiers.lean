import UplinkShaper.Proofs.Shaping.Curves
import UplinkShaper.Shaping.Allocation

/-!
Tiers from requests. A tier that is made keeps what its request says; its rate is
positive and not above the link, and its curve and queue limit go with its rate. A list
of tiers is made from the front, so a list that is made completely has one such tier for
each request, in order.
-/

namespace UplinkShaper

/-- The link of the requests that serve as examples. -/
def LinkCapacity.tenMegabits : LinkCapacity := ⟨.upload, 10000, by decide⟩

namespace Allocation

/-- A tier that was made from a request. -/
structure Made (setting : Setting) (request : Request) (tier : Tier) : Prop where
  id : tier.id = request.id
  label : tier.label = request.spec.label
  parent : tier.parent = request.spec.parent
  kind : tier.kind = request.spec.kind
  priority : tier.priority = request.spec.priority
  share : tier.share = request.spec.share
  isDefault : tier.isDefault = decide (request.id = setting.defaultId)
  positive : 0 < tier.rate
  fits : tier.rate ≤ setting.capacity.rate
  ofRate : ServiceCurve.ofRate (.whole tier.rate) tier.priority = .ok tier.curve
  buffer : Buffer.minimum ≤ tier.buffer ∧ tier.buffer ≤ Buffer.maximum

theorem Made.curve {setting : Setting} {request : Request} {tier : Tier}
    (made : Made setting request tier) : tier.curve.Fits tier.rate tier.priority :=
  ServiceCurve.fits_of_ofRate made.positive made.ofRate

theorem checkRate_eq_ok_iff {capacity rate : Int} {tier : Value} :
    checkRate capacity rate tier = .ok () ↔ 0 < rate ∧ rate ≤ capacity := by
  unfold checkRate refuse
  constructor
  · intro checked
    split at checked
    · cases checked
    · split at checked
      · cases checked
      · omega
  · rintro ⟨positive, fits⟩
    rw [if_neg (by omega), if_neg (by omega)]

theorem buffer_bounds {rate roundTrip : Number} {bytes : Int}
    (made : Buffer.size rate roundTrip = .ok bytes) :
    Buffer.minimum ≤ bytes ∧ bytes ≤ Buffer.maximum := by
  rcases Result.bind_eq_ok.mp made with ⟨product, _, rest⟩
  rcases Result.bind_eq_ok.mp rest with ⟨whole, _, equal⟩
  rw [← Result.pure_eq_ok.mp equal]
  exact ⟨Buffer.minimum_le_limit whole, Buffer.limit_le_maximum whole⟩

theorem made_of_tierOf {setting : Setting} {rates : List (Int × Int)} {request : Request}
    {tier : Tier} (result : tierOf setting rates request = .ok tier) :
    Made setting request tier := by
  rcases Result.bind_eq_ok.mp result with ⟨rate, _, rest⟩
  rcases Result.bind_eq_ok.mp rest with ⟨_, checked, rest⟩
  rcases Result.bind_eq_ok.mp rest with ⟨curve, curveMade, rest⟩
  rcases Result.bind_eq_ok.mp rest with ⟨buffer, bufferMade, equal⟩
  rcases checkRate_eq_ok_iff.mp checked with ⟨positive, fits⟩
  rw [← Result.pure_eq_ok.mp equal]
  exact {
    id := rfl
    label := rfl
    parent := rfl
    kind := rfl
    priority := rfl
    share := rfl
    isDefault := rfl
    positive := positive
    fits := fits
    ofRate := curveMade
    buffer := buffer_bounds bufferMade }

/-! ## Lists of tiers -/

theorem makeTiers_cons_ok {setting : Setting} {rates : List (Int × Int)} {request : Request}
    {rest : List Request} {tier : Tier} (result : tierOf setting rates request = .ok tier) :
    makeTiers setting rates (request :: rest) =
      { makeTiers setting ((tier.id, tier.rate) :: rates) rest with
        tiers := tier :: (makeTiers setting ((tier.id, tier.rate) :: rates) rest).tiers } := by
  simp only [makeTiers, result]

theorem makeTiers_cons_error {setting : Setting} {rates : List (Int × Int)} {request : Request}
    {rest : List Request} {failure : Failure}
    (result : tierOf setting rates request = .error failure) :
    makeTiers setting rates (request :: rest) = { tiers := [], failure := some failure } := by
  simp only [makeTiers, result]

theorem made_of_makeTiers {setting : Setting} {rates : List (Int × Int)}
    {requests : List Request} (complete : (makeTiers setting rates requests).failure = none) :
    List.Forall₂ (Made setting) requests (makeTiers setting rates requests).tiers := by
  induction requests generalizing rates with
  | nil => exact .nil
  | cons request rest induction =>
      cases result : tierOf setting rates request with
      | error failure =>
          rw [makeTiers_cons_error result] at complete
          cases complete
      | ok tier =>
          rw [makeTiers_cons_ok result] at complete ⊢
          exact .cons (made_of_tierOf result) (induction complete)

end Allocation

end UplinkShaper
