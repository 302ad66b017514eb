import UplinkShaper.Plan
import UplinkShaper.Proofs.Allocation.Acceptance
import UplinkShaper.Proofs.Allocation.Division
import UplinkShaper.Proofs.Number.Magnitudes
import UplinkShaper.Proofs.Shaping.Curves

/-!
Trees for a larger link. What comes before the rates does not look at the link, so a request
in whole percentages comes to the same tiers in the same order on a larger one. From the root
down no rate is lower then, and neither are the curves and the queue limits that go with rates.
-/

namespace UplinkShaper

/-- A tier that takes the place of another one and has no less of anything. -/
structure Tier.IsAtMost (tier larger : Tier) : Prop where
  outline : tier.outline = larger.outline
  share : tier.share = larger.share
  isDefault : tier.isDefault = larger.isDefault
  rate : tier.rate ≤ larger.rate
  sustained : tier.curve.sustained.le larger.curve.sustained = true
  burst : Option.Rel (fun burst other => burst.duration = other.duration ∧
    burst.rate.le other.rate = true) tier.curve.burst larger.curve.burst
  buffer : tier.buffer ≤ larger.buffer
  frames : Plan.queueLimit Plan.fairQueue tier ≤ Plan.queueLimit Plan.fairQueue larger

/-! ## Curves and queue limits -/

namespace ServiceCurve

/-- The burst that a rate comes to, with the factor of the priority class. -/
theorem burst_of_ofRate {rate : Int} {priority : Priority} {curve : ServiceCurve}
    (positive : 0 < rate) (small : rate ≤ 2 ^ 46)
    (made : ofRate (.whole rate) priority = .ok curve) :
    Option.Rel (fun profile burst => burst.duration = some profile.duration ∧
      ∃ factor : Rat, profile.multiplier = .finite factor ∧ 0 < factor ∧
        burst.rate.value? = some (rate * factor)) priority.burstProfile? curve.burst := by
  simp only [ofRate] at made
  split at made
  case h_1 noProfile =>
    cases made
    rw [noProfile]
    exact .none
  case h_2 profile found =>
    rcases exists_halves_of_burstProfile? found with ⟨halves, _, isFactor, _, more, most⟩
    have bounded : rate * halves < 2 ^ 53 := by nlinarith
    rw [isFactor, Number.whole_mul_half positive more bounded] at made
    cases made
    rw [found]
    refine .some ⟨rfl, _, isFactor, ?_, ?_⟩
    · have morePos : (0 : Rat) < halves := by exact_mod_cast more
      positivity
    · rw [Number.value?_simplify, Int.cast_mul, mul_div_assoc]
      rfl

/-- A curve of a larger rate has no smaller burst. -/
theorem burst_rel_of_ofRate {rate larger : Int} {priority : Priority} {curve other : ServiceCurve}
    (positive : 0 < rate) (isLarger : rate ≤ larger) (small : larger ≤ 2 ^ 46)
    (made : ofRate (.whole rate) priority = .ok curve)
    (otherMade : ofRate (.whole larger) priority = .ok other) :
    Option.Rel (fun burst longer => burst.duration = longer.duration ∧
      burst.rate.le longer.rate = true) curve.burst other.burst := by
  have here := burst_of_ofRate positive (isLarger.trans small) made
  have there := burst_of_ofRate (positive.trans_le isLarger) small otherMade
  generalize priority.burstProfile? = profile, curve.burst = burst, other.burst = longer
    at here there
  cases here with
  | none =>
      cases there
      exact .none
  | some first =>
      rcases first with ⟨duration, factor, isFactor, nonneg, reached⟩
      cases there with
      | some second =>
          rcases second with ⟨sameDuration, same, isSame, _, reachedThere⟩
          cases isFactor.symm.trans isSame
          refine .some ⟨duration.trans sameDuration.symm, ?_⟩
          rw [Number.le_iff_of_value? reached reachedThere]
          exact mul_le_mul_of_nonneg_right (by exact_mod_cast isLarger) nonneg.le

end ServiceCurve

namespace Buffer

theorem size_whole (rate roundTrip : Int) :
    size (.whole rate) (.whole roundTrip) = .ok (limit (rate * roundTrip)) :=
  rfl

theorem limit_mono {product larger : Int} (isLarger : product ≤ larger) :
    limit product ≤ limit larger := by
  simp only [limit]
  omega

theorem wholeFrames_mono {bytes more : Int} (isMore : bytes ≤ more) :
    wholeFrames bytes ≤ wholeFrames more := by
  simp only [wholeFrames, frameSize]
  omega

end Buffer

namespace Allocation

/-! ## Rates -/

/-- Rates of the same classes, in the range of links whose shares are exact. -/
def RatesRise : List (Int × Int) → List (Int × Int) → Prop :=
  List.Forall₂ fun row higher =>
    row.1 = higher.1 ∧ 0 < row.2 ∧ row.2 ≤ higher.2 ∧ higher.2 ≤ 2 ^ 46

theorem RatesRise.le {rates higher : List (Int × Int)} (rise : RatesRise rates higher)
    {parent : Number} {rate above : Int} (found : knownRate? rates parent = some rate)
    (foundAbove : knownRate? higher parent = some above) :
    0 < rate ∧ rate ≤ above ∧ above ≤ 2 ^ 46 := by
  induction rise with
  | nil => cases found
  | @cons row other rest others here _ induction =>
      rcases row with ⟨id, amount⟩
      rcases other with ⟨_, more⟩
      rcases here with ⟨rfl, bounds⟩
      simp only [knownRate?, List.find?_cons] at found foundAbove induction
      cases isParent : parent.eq (.whole id) with
      | true =>
          simp only [isParent, Option.map_some, Option.some.injEq] at found foundAbove
          rwa [← found, ← foundAbove]
      | false =>
          simp only [isParent] at found foundAbove
          exact induction found foundAbove

/-- A request whose percentages are whole. -/
structure TakesWhole (request : Request) : Prop where
  percent : request.spec.kind = .reserved →
    ∀ percent ∈ request.spec.ratePercent, ∃ value : Int, percent = .whole value
  share : request.spec.kind = .percentage →
    ∃ number share, request.spec.share = some number ∧ StandsFor number share ∧
      0 ≤ share ∧ share ≤ 100

theorem percentOf_whole (rate percent : Int) :
    percentOf rate (.whole percent) = .ok (rate * percent / 100) := by
  have quotient := Int.fdiv_eq_ediv_of_nonneg (rate * percent) (by decide : (0 : Int) ≤ 100)
  rw [← quotient]
  rfl

theorem div_hundred_mono {rate above percent : Int} (isAbove : rate ≤ above)
    (nonneg : 0 ≤ percent) : rate * percent / 100 ≤ above * percent / 100 :=
  Int.ediv_le_ediv (by decide) (mul_le_mul_of_nonneg_right isAbove nonneg)

/-- A positive rate rises with the link and with the rates of the classes above. -/
theorem rate_le_of_rateOf {capacity larger : Int} {rates higher : List (Int × Int)}
    {request : Request} {rate above : Int} (whole : TakesWhole request)
    (linkPositive : 0 < capacity) (isLarger : capacity ≤ larger) (rise : RatesRise rates higher)
    (computed : rateOf capacity rates request.spec = .ok rate)
    (computedAbove : rateOf larger higher request.spec = .ok above) (positive : 0 < rate) :
    rate ≤ above := by
  cases kind : request.spec.kind with
  | reserved =>
      simp only [rateOf, kind] at computed computedAbove
      cases fixed : request.spec.rate with
      | some amount =>
          rw [fixed] at computed computedAbove
          cases computed.symm.trans computedAbove
          exact le_refl _
      | none =>
          rw [fixed] at computed computedAbove
          cases relative : request.spec.ratePercent with
          | none =>
              rw [relative] at computed
              cases computed
          | some number =>
              rcases whole.percent kind number relative with ⟨percent, rfl⟩
              simp only [relative, percentOf_whole, Except.ok.injEq] at computed computedAbove
              subst computed computedAbove
              -- No percentage of a link is positive unless it is a positive percentage.
              have nonneg : 0 ≤ percent := by
                by_contra negative
                have product := mul_neg_of_pos_of_neg linkPositive (not_le.mp negative)
                omega
              exact div_hundred_mono isLarger nonneg
  | percentage =>
      rcases whole.share kind with ⟨number, share, isShare, stands, nonneg, atMost⟩
      simp only [rateOf, kind, isShare] at computed computedAbove
      cases found : knownRate? rates request.spec.parent with
      | none =>
          rw [found] at computed
          cases computed
      | some parentRate =>
          cases foundAbove : knownRate? higher request.spec.parent with
          | none =>
              rw [foundAbove] at computedAbove
              cases computedAbove
          | some parentAbove =>
              rcases rise.le found foundAbove with ⟨parentPositive, isAbove, small⟩
              have parentNonneg := parentPositive.le.trans isAbove
              have exactly := percentOf_standsFor stands parentPositive.le (isAbove.trans small)
                nonneg atMost
              have exactlyAbove := percentOf_standsFor stands parentNonneg small nonneg atMost
              simp only [found, exactly, Except.ok.injEq] at computed
              simp only [foundAbove, exactlyAbove, Except.ok.injEq] at computedAbove
              rw [← computed, ← computedAbove]
              exact div_hundred_mono isAbove nonneg

/-! ## Tiers -/

/-- A setting with a larger link and a longer round trip. -/
structure Setting.IsAtMost (setting larger : Setting) : Prop where
  capacity : setting.capacity.rate ≤ larger.capacity.rate
  small : larger.capacity.rate ≤ 2 ^ 46
  roundTrip : ∃ roundTrip longer : Int, setting.roundTrip = .whole roundTrip ∧
    larger.roundTrip = .whole longer ∧ 0 ≤ roundTrip ∧ roundTrip ≤ longer
  defaultId : setting.defaultId = larger.defaultId

/-- What the rate and the queue limit of a tier come from. -/
theorem parts_of_tierOf {setting : Setting} {rates : List (Int × Int)} {request : Request}
    {tier : Tier} (result : tierOf setting rates request = .ok tier) :
    rateOf setting.capacity.rate rates request.spec = .ok tier.rate ∧
      Buffer.size (.whole tier.rate) setting.roundTrip = .ok tier.buffer := by
  rcases Result.bind_eq_ok.mp result with ⟨rate, computed, rest⟩
  rcases Result.bind_eq_ok.mp rest with ⟨_, _, rest⟩
  rcases Result.bind_eq_ok.mp rest with ⟨_, _, rest⟩
  rcases Result.bind_eq_ok.mp rest with ⟨buffer, bufferMade, equal⟩
  rw [← Result.pure_eq_ok.mp equal]
  exact ⟨computed, bufferMade⟩

theorem isAtMost_of_tierOf {setting larger : Setting} {rates higher : List (Int × Int)}
    {request : Request} {tier other : Tier} (whole : TakesWhole request)
    (settings : setting.IsAtMost larger) (rise : RatesRise rates higher)
    (result : tierOf setting rates request = .ok tier)
    (otherResult : tierOf larger higher request = .ok other) : tier.IsAtMost other := by
  have made := made_of_tierOf result
  have otherMade := made_of_tierOf otherResult
  rcases parts_of_tierOf result with ⟨computed, bufferMade⟩
  rcases parts_of_tierOf otherResult with ⟨otherComputed, otherBufferMade⟩
  rcases settings.roundTrip with ⟨roundTrip, longer, delay, otherDelay, nonneg, isLonger⟩
  have rate : tier.rate ≤ other.rate :=
    rate_le_of_rateOf whole setting.capacity.positive settings.capacity rise computed
      otherComputed made.positive
  have buffer : tier.buffer ≤ other.buffer := by
    rw [delay, Buffer.size_whole, Except.ok.injEq] at bufferMade
    rw [otherDelay, Buffer.size_whole, Except.ok.injEq] at otherBufferMade
    rw [← bufferMade, ← otherBufferMade]
    exact Buffer.limit_mono (mul_le_mul rate isLonger nonneg otherMade.positive.le)
  have samePriority : tier.priority = other.priority := made.priority.trans otherMade.priority.symm
  constructor
  case outline =>
    simp only [Tier.outline, made.id, made.label, made.parent, made.kind, otherMade.id,
      otherMade.label, otherMade.parent, otherMade.kind, samePriority]
  case share => exact made.share.trans otherMade.share.symm
  case isDefault => rw [made.isDefault, otherMade.isDefault, settings.defaultId]
  case rate => exact rate
  case sustained =>
    rw [made.curve.sustained, otherMade.curve.sustained]
    exact Number.whole_le_whole.mpr rate
  case burst =>
    exact ServiceCurve.burst_rel_of_ofRate made.positive rate
      (otherMade.fits.trans settings.small) made.ofRate (samePriority ▸ otherMade.ofRate)
  case buffer => exact buffer
  case frames => exact Buffer.wholeFrames_mono buffer

theorem isAtMost_of_makeTiers {setting larger : Setting} {rates higher : List (Int × Int)}
    {requests : List Request} (whole : ∀ request ∈ requests, TakesWhole request)
    (settings : setting.IsAtMost larger) (rise : RatesRise rates higher)
    (complete : (makeTiers setting rates requests).failure = none)
    (otherComplete : (makeTiers larger higher requests).failure = none) :
    List.Forall₂ Tier.IsAtMost (makeTiers setting rates requests).tiers
      (makeTiers larger higher requests).tiers := by
  induction requests generalizing rates higher with
  | nil => exact .nil
  | cons request rest induction =>
      rcases List.forall_mem_cons.mp whole with ⟨here, later⟩
      cases result : tierOf setting rates request with
      | error failure =>
          rw [makeTiers_cons_error result] at complete
          cases complete
      | ok tier =>
          cases otherResult : tierOf larger higher request with
          | error failure =>
              rw [makeTiers_cons_error otherResult] at otherComplete
              cases otherComplete
          | ok other =>
              rw [makeTiers_cons_ok result] at complete ⊢
              rw [makeTiers_cons_ok otherResult] at otherComplete ⊢
              have made := made_of_tierOf result
              have otherMade := made_of_tierOf otherResult
              have atMost := isAtMost_of_tierOf here settings rise result otherResult
              refine .cons atMost (induction later (.cons ⟨?_, ?_, ?_, ?_⟩ rise) complete
                otherComplete)
              · exact made.id.trans otherMade.id.symm
              · exact made.positive
              · exact atMost.rate
              · exact otherMade.fits.trans settings.small

/-! ## Trees -/

/-- What comes before the rates does not look at the link or the round trip. -/
theorem settings_of_prepare {roundTrip longer : Number} {capacity larger : LinkCapacity}
    {specs : List TierSpec} {default : TierSpec} {prepared other : Prepared}
    (ready : prepare roundTrip capacity specs default = .ok prepared)
    (otherReady : prepare longer larger specs default = .ok other) :
    prepared.requests = other.requests ∧
      prepared.setting.defaultId = other.setting.defaultId := by
  rcases exists_settles_of_prepare ready with ⟨others, last, final, checked, _, _, settles, _⟩
  rcases exists_settles_of_prepare otherReady with
    ⟨_, _, _, otherChecked, _, _, otherSettles, _⟩
  rcases List.append_inj' (Except.ok.inj (checked.symm.trans otherChecked)) rfl with
    ⟨rfl, isLast⟩
  cases List.singleton_inj.mp isLast
  cases Except.ok.inj (settles.finished.symm.trans otherSettles.finished)
  exact ⟨Except.ok.inj (settles.layers.symm.trans otherSettles.layers),
    settles.defaultId.trans otherSettles.defaultId.symm⟩

end Allocation

namespace TreeRequest

open Allocation

/-- Percentages are whole numbers, where they are given and count. -/
structure AsksWholePercents (request : TreeRequest) : Prop where
  shares : request.AsksWholeShares
  reserved : ∀ spec ∈ request.specs, spec.kind = .reserved →
    ∀ percent ∈ spec.ratePercent, ∃ value : Int, percent = .whole value

/-- The same tiers on another link. -/
def onLink (request : TreeRequest) (capacity : LinkCapacity) : TreeRequest :=
  { request with capacity := capacity }

theorem takesWhole_of_prepare {request : TreeRequest} {roundTrip : Number} {prepared : Prepared}
    (whole : request.AsksWholePercents) (ready : request.prepare roundTrip = .ok prepared) :
    ∀ asked ∈ prepared.requests, TakesWhole asked := by
  rcases exists_settles_of_prepare ready with ⟨others, last, final, checked, _, _, settles, _⟩
  have specs := (checkIds_eq_ok_iff.mp checked).1
  intro asked member
  have asks := (inLayers_perm settles.layers).mem_iff.mp member
  have wholeShares := haveWholeShares whole.shares checked settles
  refine ⟨fun reserved => ?_, settles.exists_standsFor wholeShares asks⟩
  have ofRequest : ∀ given ∈ others ++ [last], given.spec.kind = .reserved →
      ∀ percent ∈ given.spec.ratePercent, ∃ value : Int, percent = .whole value := by
    intro given isGiven
    refine whole.reserved given.spec ?_
    rw [TreeRequest.specs, defaultSpec, ← specs]
    exact List.mem_map_of_mem isGiven
  rcases List.mem_append.mp asks with other | isFinal
  · exact ofRequest asked (List.mem_append_left _ other) reserved
  · rw [List.mem_singleton.mp isFinal, (settled_spec settles.finished).2] at reserved ⊢
    exact ofRequest last (by simp) reserved

/-- On a larger link, and for a longer round trip, a request in whole percentages comes to the
same tiers in the same order, and none of them has less of anything. -/
theorem isAtMost_onLink (request : TreeRequest) (larger : LinkCapacity) (roundTrip longer : Int)
    (tree other : ClassTree) (whole : request.AsksWholePercents)
    (isLarger : request.capacity.rate ≤ larger.rate) (small : larger.rate ≤ 2 ^ 46)
    (positive : 1 ≤ roundTrip) (isLonger : roundTrip ≤ longer)
    (compiled : request.compile (.whole roundTrip) = .ok tree)
    (compiledLarger : (request.onLink larger).compile (.whole longer) = .ok other) :
    List.Forall₂ Tier.IsAtMost tree.tiers other.tiers := by
  rcases compile_eq_ok_iff.mp compiled with ⟨prepared, ready, complete, rfl⟩
  rcases compile_eq_ok_iff.mp compiledLarger with ⟨otherPrepared, otherReady, otherComplete, rfl⟩
  rcases settings_of_prepare ready otherReady with ⟨requests, defaultId⟩
  have whole := takesWhole_of_prepare whole ready
  rcases exists_settles_of_prepare ready with
    ⟨_, _, _, _, _, _, _, sameCapacity, sameRoundTrip⟩
  rcases exists_settles_of_prepare otherReady with
    ⟨_, _, _, _, _, _, _, otherCapacity, otherRoundTrip⟩
  simp only [onLink] at otherCapacity
  have settings : prepared.setting.IsAtMost otherPrepared.setting := by
    refine ⟨?_, ?_, ⟨roundTrip, longer, sameRoundTrip, otherRoundTrip, by omega, isLonger⟩,
      defaultId⟩
    · rwa [sameCapacity, otherCapacity]
    · rwa [otherCapacity]
  have rise : RatesRise [(rootId, prepared.setting.capacity.rate)]
      [(rootId, otherPrepared.setting.capacity.rate)] :=
    .cons ⟨rfl, prepared.setting.capacity.positive, settings.capacity, settings.small⟩ .nil
  simp only [outcome, treeOf] at complete otherComplete ⊢
  rw [← requests] at otherComplete ⊢
  exact isAtMost_of_makeTiers whole settings rise complete otherComplete

end TreeRequest

namespace WholeRequest

theorem asksWholePercents (request : WholeRequest) : request.toRequest.AsksWholePercents := by
  have ofSpec : ∀ spec ∈ request.toRequest.specs, ∃ whole : WholeSpec, whole.toSpec = spec := by
    intro spec member
    rw [TreeRequest.specs, TreeRequest.defaultSpec, ← map_toSpec] at member
    rcases List.mem_map.mp member with ⟨whole, _, same⟩
    exact ⟨whole, same⟩
  constructor
  · intro spec member _ share given
    rcases ofSpec spec member with ⟨whole, rfl⟩
    rcases Option.map_eq_some_iff.mp given with ⟨value, _, rfl⟩
    exact ⟨value, rfl⟩
  · intro spec member _ percent given
    rcases ofSpec spec member with ⟨whole, rfl⟩
    rcases Option.map_eq_some_iff.mp given with ⟨value, _, rfl⟩
    exact ⟨value, rfl⟩

end WholeRequest

namespace TreeRequest

/-- A link of twice the rate. -/
def twentyMegabits : LinkCapacity := ⟨.upload, 20000, by decide⟩

theorem exists_isAtMost_nested :
    ∃ tree other, WholeRequest.nested.toRequest.compile (.whole 50) = .ok tree ∧
      (WholeRequest.nested.toRequest.onLink twentyMegabits).compile (.whole 80) = .ok other ∧
        List.Forall₂ Tier.IsAtMost tree.tiers other.tiers := by
  have isMade : (WholeRequest.nested.toRequest.compile (.whole 50)).isOk = true := by
    decide +kernel
  have isMadeLarger :
      ((WholeRequest.nested.toRequest.onLink twentyMegabits).compile (.whole 80)).isOk = true := by
    decide +kernel
  rcases Result.exists_of_isOk isMade with ⟨tree, compiled⟩
  rcases Result.exists_of_isOk isMadeLarger with ⟨other, compiledLarger⟩
  exact ⟨tree, other, compiled, compiledLarger, isAtMost_onLink _ _ 50 80 tree other
    WholeRequest.nested.asksWholePercents (by decide) (by decide) (by decide) (by decide)
    compiled compiledLarger⟩

end TreeRequest

end UplinkShaper
