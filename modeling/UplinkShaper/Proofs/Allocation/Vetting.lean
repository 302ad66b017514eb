import UplinkShaper.Proofs.Allocation.Growth
import UplinkShaper.Proofs.Allocation.Moderation
import UplinkShaper.Proofs.Allocation.Strays

/-!
The rules for what a tier asks for, and the default tier. A default tier without a share is not
checked with the others. If it is to share its class it gets the rest, which is in order; but a
reserved one is made whatever rates it has: two rates are accepted, and none at all is a failure
of another kind. A request with any other default tier is refused for a reason, or it comes to a
tree all of whose tiers have kept the rules.
-/

namespace UplinkShaper

open Allocation WholeSpec

namespace WholeSpec

/-- A default tier that keeps the rule for reserved tiers, also where nothing checks it. -/
def IsRegular (spec : WholeSpec) : Prop :=
  spec.kind = .reserved → spec.share = none → spec.rate.isSome ≠ spec.ratePercent.isSome

instance (value : Int) : Decidable (IsShortNumber value) :=
  inferInstanceAs (Decidable (value.natAbs < 10 ^ 4000))

instance (spec : WholeSpec) : Decidable spec.IsShort :=
  decidable_of_iff (IsShortNumber spec.id ∧ IsShortNumber spec.parent ∧
      (∀ share ∈ spec.share, IsShortNumber share) ∧ (∀ rate ∈ spec.rate, IsShortNumber rate) ∧
        ∀ percent ∈ spec.ratePercent, IsShortNumber percent)
    ⟨fun ⟨id, parent, share, rate, percent⟩ => ⟨id, parent, share, rate, percent⟩,
      fun short => ⟨short.id, short.parent, short.share, short.rate, short.ratePercent⟩⟩

end WholeSpec

namespace WholeRequest

variable {request : WholeRequest} {roundTrip : Number} {prepared : Prepared} {tree : ClassTree}

/-- A tree that is made only of tiers that keep the rules: a reserved one asks for one rate, and
any other one for a share, but for the default tier, which may take a share. -/
structure KeepsRules (request : WholeRequest) (tree : ClassTree) : Prop where
  reserved : ∀ spec ∈ request.specs, spec.kind = .reserved →
    spec.rate.isSome ≠ spec.ratePercent.isSome
  percentage : ∀ spec ∈ request.specs, spec.kind = .percentage →
    ∃ share, 0 ≤ share ∧ share ≤ 100 ∧
      (spec.share = some share ∨ spec = request.defaultSpec ∧ spec.share = none) ∧
      ∃ tier ∈ tree.tiers, tier.id = spec.id ∧ ∃ number ∈ tier.share, StandsFor number share

/-- A request that is refused for a reason or comes to a tree that keeps the rules. -/
def IsVetted (request : WholeRequest) (roundTrip : Number) : Prop :=
  Result.IsRefusal (request.toRequest.compile roundTrip) ∨
    ∃ tree, request.toRequest.compile roundTrip = .ok tree ∧ request.KeepsRules tree

/-! ## Rules -/

/-- What a successful preparation has found, in terms of the specifications. -/
theorem exists_settles (ready : request.toRequest.prepare roundTrip = .ok prepared) :
    ∃ final, checkIds [] request.toRequest.specs =
        .ok (request.others.map (·.request) ++ [request.defaultSpec.request]) ∧
      Settles prepared (request.others.map (·.request)) request.defaultSpec.request final := by
  have checked : ∃ requests, checkIds [] (request.specs.map (·.toSpec)) = .ok requests := by
    rcases exists_settles_of_prepare ready with ⟨_, _, _, checked, _⟩
    rw [map_toSpec]
    exact ⟨_, checked⟩
  rcases checked with ⟨requests, checked⟩
  rcases checkIds_whole_eq_ok_iff.mp checked with ⟨ids, rfl⟩
  rw [prepare_toRequest ids] at ready
  rcases settles_of_settleAll ready with ⟨⟨final, settles⟩, _⟩
  refine ⟨final, ?_, settles⟩
  rw [map_toSpec, specs, List.map_append] at checked
  exact checked

/-- Nothing that is checked breaks a rule. -/
theorem isProper_of_settles {final : Request}
    (settles :
      Settles prepared (request.others.map (·.request)) request.defaultSpec.request final) :
    ∀ spec ∈ declaredSpecs request.others request.defaultSpec, spec.IsProper := by
  have checked := settles.requests
  rw [declared_map_request] at checked
  exact fun spec member => checkRequest_eq_ok_iff.mp (checked _ (List.mem_map_of_mem member))

/-- A reserved tier has one rate if it is checked, or else is a regular default tier. -/
theorem reserved_of_settles (regular : request.defaultSpec.IsRegular) {final : Request}
    (settles : Settles prepared (request.others.map (·.request)) request.defaultSpec.request final)
    {spec : WholeSpec} (member : spec ∈ request.specs) (reserved : spec.kind = .reserved) :
    spec.rate.isSome ≠ spec.ratePercent.isSome := by
  have proper := isProper_of_settles settles
  unfold declaredSpecs at proper
  rcases List.mem_append.mp member with other | isDefault
  · refine (proper spec ?_).reserved reserved
    split
    · exact List.mem_append_left _ other
    · exact other
  · cases given : request.defaultSpec.share with
    | none =>
        rw [List.mem_singleton.mp isDefault] at reserved ⊢
        exact regular reserved given
    | some share =>
        rw [given] at proper
        exact (proper spec member).reserved reserved

/-- What was asked for is prepared as it is, but the default tier may get a share. -/
theorem exists_asked_of_spec {final : Request}
    (finished : settled (request.others.map (·.request)) request.defaultSpec.request = .ok final)
    {spec : WholeSpec} (member : spec ∈ request.specs) :
    ∃ asked ∈ request.others.map (·.request) ++ [final], asked.id = spec.id ∧
      asked.spec.kind = spec.kind ∧ (asked.spec.share = spec.share.map .whole ∨
        spec = request.defaultSpec ∧ spec.share = none) := by
  rcases List.mem_append.mp member with other | isDefault
  · exact ⟨spec.request, List.mem_append_left _ (List.mem_map_of_mem other), rfl, rfl, .inl rfl⟩
  · rcases settled_spec finished with ⟨sameId, same⟩
    rw [List.mem_singleton.mp isDefault]
    refine ⟨final, by simp, sameId, by rw [same]; rfl, ?_⟩
    cases given : request.defaultSpec.share with
    | none => exact .inr ⟨rfl, rfl⟩
    | some share =>
        have isGiven : request.defaultSpec.request.spec.share = some (.whole share) :=
          congrArg (Option.map Number.whole) given
        left
        rw [settled_of_isSome (by rw [isGiven]; rfl) finished, isGiven]
        rfl

/-- Conversely everything that was prepared was asked for. -/
theorem exists_spec_of_asked {final : Request}
    (finished : settled (request.others.map (·.request)) request.defaultSpec.request = .ok final)
    {asked : Request} (member : asked ∈ request.others.map (·.request) ++ [final]) :
    ∃ spec ∈ request.specs, asked.spec = { spec.toSpec with share := asked.spec.share } := by
  rcases List.mem_append.mp member with other | isFinal
  · rcases List.mem_map.mp other with ⟨spec, isSpec, rfl⟩
    exact ⟨spec, List.mem_append_left _ isSpec, rfl⟩
  · rw [List.mem_singleton.mp isFinal]
    exact ⟨request.defaultSpec, by simp [specs], (settled_spec finished).2⟩

theorem keepsRules_of_compile (regular : request.defaultSpec.IsRegular)
    (compiled : request.toRequest.compile roundTrip = .ok tree) : request.KeepsRules tree := by
  rcases TreeRequest.compile_eq_ok_iff.mp compiled with ⟨prepared, ready, complete, rfl⟩
  rcases exists_settles ready with ⟨final, checked, settles⟩
  refine ⟨fun spec => reserved_of_settles regular settles, fun spec member percentage => ?_⟩
  have whole := TreeRequest.haveWholeShares request.asksWholePercents.shares checked settles
  rcases exists_asked_of_spec settles.finished member with ⟨asked, isAsked, sameId, sameKind, share⟩
  rcases settles.exists_standsFor whole isAsked (sameKind.trans percentage) with
    ⟨number, value, isShare, stands, nonneg, atMost⟩
  have layered := (inLayers_perm settles.layers).mem_iff.mpr isAsked
  rcases exists_tier_of_made (made_of_makeTiers complete) layered with ⟨tier, isTier, made⟩
  refine ⟨value, nonneg, atMost, ?_, tier, isTier, made.id.trans sameId, number,
    made.share.trans isShare, stands⟩
  refine share.imp_left fun same => ?_
  rw [same] at isShare
  rcases Option.map_eq_some_iff.mp isShare with ⟨given, isGiven, rfl⟩
  rw [isGiven, Option.some.injEq, ← Option.some.injEq, ← stands.toInt?]
  rfl

/-- A tree that keeps the rules has a regular default tier. -/
theorem isRegular_of_keepsRules (keeps : request.KeepsRules tree) :
    request.defaultSpec.IsRegular := by
  intro reserved _
  exact keeps.reserved _ (List.mem_append_right _ (List.mem_cons_self ..)) reserved

/-! ## Links of any common size -/

theorem isBounded_places : Double.IsBounded (10 ^ 305) := by
  have power : 2 ^ 17 * ((2 : Rat) ^ 10) ^ 100 = 2 ^ 47 * Double.halfGap := by
    rw [← Double.two_zpow_970_add, ← pow_mul, ← pow_add, ← zpow_natCast]
    norm_num
  calc (10 : Rat) ^ 305 = 10 ^ 5 * (10 ^ 3) ^ 100 := by rw [← pow_mul, ← pow_add]
    _ ≤ 2 ^ 17 * (2 ^ 10) ^ 100 := by gcongr <;> norm_num
    _ = 2 ^ 47 * Double.halfGap := power
    _ < Double.bound := by
      rw [Double.cast_bound]
      exact mul_lt_mul_of_pos_right (by norm_num) Double.halfGap_pos

/-- Twice the largest rates, and percentages of them, stay within what doubles can hold. -/
theorem places_bounds :
    2 * 10 ^ 300 ≤ (10 : Rat) ^ 305 ∧ 256 * (10 ^ 300 * 100) + 8 ≤ (10 : Rat) ^ 305 := by
  have large : (1 : Rat) ≤ 10 ^ 300 := one_le_pow₀ (by norm_num)
  have power : (10 : Rat) ^ 305 = 10 ^ 5 * 10 ^ 300 := pow_add 10 5 300
  rw [power]
  generalize (10 : Rat) ^ 300 = places at large
  constructor <;> linarith

theorem isWithin_of_standsFor {number : Number} {share : Int} (stands : StandsFor number share)
    (nonneg : 0 ≤ share) (atMost : share ≤ 100) : number.IsWithin 100 := by
  have small : |(share : Rat)| ≤ 100 := by
    rw [abs_of_nonneg (by exact_mod_cast nonneg)]
    exact_mod_cast atMost
  rcases stands with rfl | rfl <;> exact ⟨share, rfl, small⟩

/-- The rate of a tier that keeps the rules can be computed, and written. -/
theorem exists_rateOf {capacity : Int} {rates : List (Int × Int)} {asked : Request}
    {spec : WholeSpec} (source : asked.spec = { spec.toSpec with share := asked.spec.share })
    (short : spec.IsShort)
    (reserved : spec.kind = .reserved → spec.rate.isSome ≠ spec.ratePercent.isSome)
    (percentage : asked.spec.kind = .percentage →
      ∃ number share, asked.spec.share = some number ∧ StandsFor number share ∧
        0 ≤ share ∧ share ≤ 100)
    (positive : 0 < capacity) (small : capacity < 10 ^ 300)
    (known : ∃ rate, knownRate? rates asked.spec.parent = some rate ∧ InRange capacity rate) :
    ∃ rate, rateOf capacity rates asked.spec = .ok rate ∧
      (Number.whole rate).isWritable = true := by
  have sameKind : asked.spec.kind = spec.kind := congrArg TierSpec.kind source
  cases kind : spec.kind with
  | reserved =>
      have sameRate : asked.spec.rate = spec.rate.map .whole := congrArg TierSpec.rate source
      have samePercent : asked.spec.ratePercent = spec.ratePercent.map .whole :=
        congrArg TierSpec.ratePercent source
      have one := reserved kind
      simp only [rateOf, sameKind, kind, sameRate, samePercent]
      cases fixed : spec.rate with
      | some rate => exact ⟨rate, rfl, (short.rate rate fixed).isWritable⟩
      | none =>
          cases relative : spec.ratePercent with
          | none => simp [fixed, relative] at one
          | some percent =>
              have capacityShort : capacity.natAbs < 10 ^ 300 := by
                rw [← Int.natAbs_of_nonneg positive.le] at small
                exact_mod_cast small
              exact ⟨_, percentOf_whole capacity percent, isWritable_of_lt (by decide)
                (natAbs_percentage_lt capacityShort (short.ratePercent percent relative))⟩
  | percentage =>
      rcases percentage (sameKind.trans kind) with ⟨number, share, isShare, stands, nonneg, atMost⟩
      rcases known with ⟨parentRate, found, range⟩
      simp only [rateOf, sameKind, kind, isShare, found]
      rcases exists_percentOf_within (range.isWithin small.le)
        (isWithin_of_standsFor stands nonneg atMost) (one_le_pow₀ (by norm_num)) (by norm_num)
        places_bounds.2 isBounded_places with ⟨value, isValue, within⟩
      exact ⟨value, isValue, within.isWritable_of_lt (by decide)⟩

/-- With short numbers, a link far below the largest double and a regular default tier, a
request comes to a tree or is refused for a reason. -/
theorem isDecision_compile {roundTrip : Int} (short : ∀ spec ∈ request.specs, spec.IsShort)
    (small : request.capacity.rate < 10 ^ 300) (regular : request.defaultSpec.IsRegular) :
    Result.IsDecision (request.toRequest.compile (.whole roundTrip)) := by
  have writable : ∀ spec ∈ request.toRequest.specs,
      spec.id.isWritable = true ∧ spec.parent.isWritable = true := by
    intro spec member
    rw [TreeRequest.specs, TreeRequest.defaultSpec, ← map_toSpec] at member
    rcases List.mem_map.mp member with ⟨whole, isWhole, rfl⟩
    exact ⟨(short whole isWhole).id.isWritable, (short whole isWhole).parent.isWritable⟩
  refine TreeRequest.isDecision_compile_of_tiers (TreeRequest.isDecision_prepare writable) ?_
  intro prepared ready layered member rates known
  rcases exists_settles ready with ⟨final, checked, settles⟩
  rcases exists_settles_of_prepare ready with ⟨_, _, _, _, _, _, _, sameCapacity, sameDelay⟩
  change prepared.setting.capacity = request.capacity at sameCapacity
  have isSmall : prepared.setting.capacity.rate < 10 ^ 300 := by rwa [sameCapacity]
  have whole := TreeRequest.haveWholeShares request.asksWholePercents.shares checked settles
  have isAsked := (inLayers_perm settles.layers).mem_iff.mp member
  rcases exists_spec_of_asked settles.finished isAsked with ⟨spec, isSpec, source⟩
  rcases exists_rateOf source (short spec isSpec) (reserved_of_settles regular settles isSpec)
    (settles.exists_standsFor whole isAsked) prepared.setting.capacity.positive isSmall known with
    ⟨rate, computed, isWritable⟩
  have linkRange : InRange prepared.setting.capacity.rate prepared.setting.capacity.rate :=
    ⟨prepared.setting.capacity.positive, le_refl _⟩
  have idWritable : layered.spec.id.isWritable = true := by
    rw [source]
    exact (short spec isSpec).id.isWritable
  refine isDecision_tierOf_of_rateOf computed idWritable
    ⟨isWritable, (linkRange.isWithin isSmall.le).isWritable_of_lt (by decide)⟩
    fun range => ⟨?_, ?_⟩
  · rcases (range.isWithin isSmall.le).exists_toDouble places_bounds.1 isBounded_places with
      ⟨double, isDouble, _⟩
    exact exists_ofRate isDouble _
  · rw [sameDelay]
    exact ⟨_, Buffer.size_whole rate roundTrip⟩

/-! ## Which requests are vetted -/

/-- A request is refused for a reason or comes to a tree whose tiers all keep the rules if and
only if its default tier is regular, or something else about it is refused. -/
theorem isVetted_iff (request : WholeRequest) (roundTrip : Int)
    (short : ∀ spec ∈ request.specs, spec.IsShort) (small : request.capacity.rate < 10 ^ 300) :
    request.IsVetted (.whole roundTrip) ↔ request.defaultSpec.IsRegular ∨
      Result.IsRefusal (request.toRequest.compile (.whole roundTrip)) := by
  constructor
  · rintro (refused | ⟨tree, _, keeps⟩)
    · exact .inr refused
    · exact .inl (isRegular_of_keepsRules keeps)
  · rintro (regular | refused)
    · rcases @isDecision_compile request roundTrip short small regular with
        ⟨tree, compiled⟩ | refused
      · exact .inr ⟨tree, compiled, keepsRules_of_compile regular compiled⟩
      · exact .inl refused
    · exact .inl refused

/-- A default tier that is reserved and keeps the rule. -/
def metered : WholeRequest where
  capacity := .tenMegabits
  reserved := []
  tiers := []
  default := some {
    id := 999, label := "Default", kind := .reserved, priority := .bulk
    share := none, rate := some 1000, ratePercent := none, parent := 1 }

theorem isVetted_metered :
    (∀ spec ∈ metered.specs, spec.IsShort) ∧ metered.capacity.rate < 10 ^ 300 ∧
      metered.IsVetted 50 := by
  have short : ∀ spec ∈ metered.specs, spec.IsShort := by decide +kernel
  have small : metered.capacity.rate < 10 ^ 300 := by decide +kernel
  refine ⟨short, small, (isVetted_iff metered 50 short small).mpr (.inl fun _ _ => ?_)⟩
  decide

/-- A reserved default tier without any rate. -/
def unmetered : WholeRequest where
  capacity := .tenMegabits
  reserved := []
  tiers := []
  default := some {
    id := 999, label := "Default", kind := .reserved, priority := .bulk
    share := none, rate := none, ratePercent := none, parent := 1 }

/-- A reserved default tier with two rates. -/
def meteredTwice : WholeRequest where
  capacity := .tenMegabits
  reserved := []
  tiers := []
  default := some {
    id := 999, label := "Default", kind := .reserved, priority := .bulk
    share := none, rate := some 1000, ratePercent := some 20, parent := 1 }

theorem not_isVetted_of_not_isRegular (irregular : ¬ request.defaultSpec.IsRegular)
    (unrefused : request.toRequest.cause? roundTrip = none) : ¬ request.IsVetted roundTrip := by
  rintro (⟨error, failed⟩ | ⟨tree, _, keeps⟩)
  · rw [TreeRequest.cause?, failed] at unrefused
    cases unrefused
  · exact irregular (isRegular_of_keepsRules keeps)

theorem not_isVetted_unmetered_meteredTwice :
    ¬ unmetered.IsVetted 50 ∧ ¬ meteredTwice.IsVetted 50 := by
  constructor
  · refine not_isVetted_of_not_isRegular (fun regular => ?_) (by decide +kernel)
    exact regular rfl rfl rfl
  · refine not_isVetted_of_not_isRegular (fun regular => ?_) (by decide +kernel)
    exact regular rfl rfl rfl

end WholeRequest

end UplinkShaper
