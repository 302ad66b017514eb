import UplinkShaper.Proofs.Allocation.Preparation
import UplinkShaper.Proofs.Allocation.Rates

/-!
Checks before the rates. For specifications in whole numbers each check succeeds under a
condition that can be read off the specifications, and refuses them otherwise, with no
other kind of failure.
-/

namespace UplinkShaper

namespace WholeSpec

/-- The default tier where none is given. -/
def standard : WholeSpec where
  id := defaultTierId
  label := "Default"
  kind := .percentage
  priority := .bulk
  share := none
  rate := none
  ratePercent := none
  parent := rootId

/-- A number of at most four thousand digits. -/
def IsShortNumber (value : Int) : Prop :=
  value.natAbs < 10 ^ 4000

theorem IsShortNumber.isWritable {value : Int} (short : IsShortNumber value) :
    (Number.whole value).isWritable = true :=
  Allocation.isWritable_of_lt (by decide) short

/-- A specification whose numbers are short. -/
structure IsShort (spec : WholeSpec) : Prop where
  id : IsShortNumber spec.id
  parent : IsShortNumber spec.parent
  share : ∀ share ∈ spec.share, IsShortNumber share
  rate : ∀ rate ∈ spec.rate, IsShortNumber rate
  ratePercent : ∀ percent ∈ spec.ratePercent, IsShortNumber percent

theorem isShortNumber_of_lt {value : Int} (few : value.natAbs < 10 ^ 5) :
    IsShortNumber value := by
  have power {places : Nat} (below : 5 ≤ places) : 10 ^ 5 ≤ 10 ^ places :=
    Nat.pow_le_pow_right (by decide) below
  exact lt_of_lt_of_le few (power (by decide))

theorem standard_isShort : standard.IsShort where
  id := isShortNumber_of_lt (by decide)
  parent := isShortNumber_of_lt (by decide)
  share := by simp [standard]
  rate := by simp [standard]
  ratePercent := by simp [standard]

/-- A chain of parents that ends at the root. -/
inductive ReachesRoot (specs : List WholeSpec) : Int → Prop
  | root : ReachesRoot specs rootId
  | tier {spec : WholeSpec} : spec ∈ specs → ReachesRoot specs spec.parent →
      ReachesRoot specs spec.id

end WholeSpec

namespace Allocation

open WholeSpec

/-! ## Numbers that can be written -/

/-- A rate that a link with exact shares has. -/
theorem InRange.isWritable {capacity rate : Int} (small : Exact capacity)
    (range : InRange capacity rate) : (Number.whole rate).isWritable = true := by
  simp only [InRange] at range
  simp only [Exact] at small
  exact @isWritable_of_lt rate 14 (by decide) (by omega)

/-! ## Ids -/

theorem isDecision_checkId {seen : List Int} {spec : TierSpec}
    (writable : spec.id.isWritable = true) : Result.IsDecision (checkId seen spec) := by
  unfold checkId
  split
  case h_1 id isWhole =>
    have idWritable : (Number.whole id).isWritable = true := by
      rw [isWhole] at writable
      exact writable
    split
    · exact .inr (isRefusal_refuse writable rfl)
    · split
      · exact .inr (isRefusal_refuse writable rfl)
      · rw [idWritable, if_neg (by decide)]
        split
        · exact .inr (isRefusal_refuse writable rfl)
        · split
          · exact .inr (isRefusal_refuse writable rfl)
          · exact .inl ⟨_, rfl⟩
  case h_2 => exact .inr (isRefusal_refuse writable rfl)

theorem isDecision_checkIds {seen : List Int} {specs : List TierSpec}
    (writable : ∀ spec ∈ specs, spec.id.isWritable = true) :
    Result.IsDecision (checkIds seen specs) := by
  induction specs generalizing seen with
  | nil => exact .inl ⟨[], rfl⟩
  | cons spec rest induction =>
      rcases List.forall_mem_cons.mp writable with ⟨here, later⟩
      rw [checkIds]
      refine (isDecision_checkId here).bind fun request _ => ?_
      exact (induction later).bind fun others _ => .inl ⟨_, rfl⟩

/-- The only requests with whole ids for some specifications. -/
theorem eq_map_request {specs : List WholeSpec} {requests : List Request}
    (same : requests.map (·.spec) = specs.map (·.toSpec))
    (whole : ∀ request ∈ requests, request.spec.id = .whole request.id) :
    requests = specs.map (·.request) := by
  induction specs generalizing requests with
  | nil => exact List.map_eq_nil_iff.mp same
  | cons spec rest induction =>
      cases requests with
      | nil => cases same
      | cons first others =>
          rcases List.cons.inj same with ⟨sameFirst, sameRest⟩
          rcases List.forall_mem_cons.mp whole with ⟨wholeFirst, wholeRest⟩
          have idSame : first.id = spec.id := by
            have ids := congrArg TierSpec.id sameFirst
            rw [wholeFirst] at ids
            injection ids.symm with inside
            injection inside with equal
            exact equal.symm
          rw [List.map_cons, induction sameRest wholeRest]
          congr 1
          cases first
          exact congrArg₂ Request.mk idSame sameFirst

theorem checkIds_whole_eq_ok_iff {specs : List WholeSpec} {requests : List Request} :
    checkIds [] (specs.map (·.toSpec)) = .ok requests ↔
      ProperIds specs ∧ requests = specs.map (·.request) := by
  rw [checkIds_eq_ok_iff]
  constructor
  · rintro ⟨same, each, distinct, _⟩
    have equal := eq_map_request same fun request member => (each request member).1
    subst equal
    refine ⟨⟨?_, ?_⟩, rfl⟩
    · simpa [request, Function.comp_def] using distinct
    · intro spec member
      exact (each spec.request (List.mem_map_of_mem member)).2
  · rintro ⟨ids, rfl⟩
    refine ⟨by simp [request, Function.comp_def], ?_, ?_, by simp⟩
    · intro asked member
      rcases List.mem_map.mp member with ⟨spec, isSpec, rfl⟩
      exact ⟨rfl, ids.proper spec isSpec⟩
    · simpa [request, Function.comp_def] using ids.distinct

/-! ## Requests -/

theorem checkRequest_eq_ok_iff {spec : WholeSpec} :
    checkRequest spec.request = .ok () ↔ spec.IsProper := by
  cases kind : spec.kind with
  | reserved =>
      have rateSame : (spec.rate.map Number.whole).isSome = spec.rate.isSome := Option.isSome_map ..
      have percentSame : (spec.ratePercent.map Number.whole).isSome = spec.ratePercent.isSome :=
        Option.isSome_map ..
      simp only [checkRequest, request, toSpec, kind, rateSame, percentSame, refuse]
      constructor
      · intro checked
        split at checked
        · cases checked
        case isFalse differs => exact ⟨fun _ => differs, by simp [kind]⟩
      · intro proper
        rw [if_neg (proper.reserved kind)]
  | percentage =>
      simp only [checkRequest, request, toSpec, kind, refuse]
      constructor
      · intro checked
        refine ⟨by simp [kind], fun _ => ?_⟩
        cases given : spec.share with
        | none =>
            rw [given] at checked
            cases checked
        | some share =>
            rw [given] at checked
            simp only [Option.map_some] at checked
            split at checked
            case isTrue within =>
              rcases Bool.and_eq_true_iff.mp within with ⟨above, below⟩
              exact ⟨share, rfl, Number.whole_le_whole.mp above, Number.whole_le_whole.mp below⟩
            case isFalse => cases checked
      · intro proper
        rcases proper.percentage kind with ⟨share, isShare, nonneg, atMost⟩
        have above : (0 : Number).le (.whole share) = true := Number.whole_le_whole.mpr nonneg
        have below : (Number.whole share).le 100 = true := Number.whole_le_whole.mpr atMost
        simp only [isShare, Option.map_some, above, below, Bool.and_self, if_true]

theorem isDecision_checkRequest {request : Request}
    (writable : request.spec.id.isWritable = true) :
    Result.IsDecision (checkRequest request) := by
  unfold checkRequest
  dsimp only
  split
  · split
    · exact .inr (isRefusal_refuse writable rfl)
    · exact .inl ⟨_, rfl⟩
  · split
    · exact .inr (isRefusal_refuse writable rfl)
    · split
      · exact .inl ⟨_, rfl⟩
      · exact .inr (isRefusal_refuse writable rfl)

/-! ## The default tier -/

/-- The specifications whose shares are declared: the default one's may be open. -/
def declaredSpecs (others : List WholeSpec) (last : WholeSpec) : List WholeSpec :=
  if last.share.isSome then others ++ [last] else others

theorem declared_map_request (others : List WholeSpec) (last : WholeSpec) :
    declared (others.map (·.request)) last.request =
      (declaredSpecs others last).map (·.request) := by
  have given : last.request.spec.share.isSome = last.share.isSome := Option.isSome_map ..
  rw [declared, declaredSpecs, given]
  split
  · rw [List.map_append, List.map_singleton]
  · rfl

theorem claimed_declaredSpecs (parent : Int) (others : List WholeSpec) (last : WholeSpec) :
    claimed parent (declaredSpecs others last) = claimed parent (others ++ [last]) := by
  simp only [declaredSpecs]
  split
  · rfl
  case isFalse isOpen =>
    rw [Option.not_isSome_iff_eq_none] at isOpen
    rw [claimed_append]
    simp [claimed, claim, isOpen]

theorem declaredSpecs_isProper {others : List WholeSpec} {last : WholeSpec}
    (percentage : last.kind = .percentage) :
    (∀ spec ∈ declaredSpecs others last, spec.IsProper) ↔
      (∀ spec ∈ others, spec.IsProper) ∧ ∀ share ∈ last.share, 0 ≤ share ∧ share ≤ 100 := by
  simp only [declaredSpecs]
  cases given : last.share with
  | none => simp
  | some share =>
      have proper : last.IsProper ↔ 0 ≤ share ∧ share ≤ 100 := by
        constructor
        · intro isProper
          rcases isProper.percentage percentage with ⟨other, isShare, bounds⟩
          rw [given] at isShare
          cases isShare
          exact bounds
        · intro bounds
          exact ⟨by simp [percentage], fun _ => ⟨share, given, bounds⟩⟩
      simp [or_imp, forall_and, proper]

theorem comesOf_request {specs : List WholeSpec} {spec : WholeSpec}
    (share : spec.kind = .percentage → spec.share.isSome = true) :
    ComesOf specs spec spec.request := by
  refine ⟨rfl, rfl, fun percentage => ?_⟩
  rcases Option.isSome_iff_exists.mp (share percentage) with ⟨value, isShare⟩
  refine ⟨.whole value, by rw [request, toSpec, isShare]; rfl, .inl ?_⟩
  rw [shareOf, isShare]
  rfl

/-- The default tier gets a number for its share. -/
theorem exists_settled {others : List WholeSpec} {last : WholeSpec}
    (proper : ∀ spec ∈ others, spec.IsProper) (few : others.length ≤ 10000)
    (within : claimed last.parent (others ++ [last]) ≤ 100) :
    ∃ final, settled (others.map (·.request)) last.request = .ok final ∧
      ComesOf (others ++ [last]) last final := by
  simp only [settled]
  cases given : last.share with
  | some share =>
      have isSome : last.request.spec.share.isSome = true := by rw [request, toSpec, given]; rfl
      rw [if_pos isSome]
      exact ⟨_, rfl, comesOf_request fun _ => by rw [given]; rfl⟩
  | none =>
      have isNone : ¬ last.request.spec.share.isSome = true := by
        rw [request, toSpec, given]
        simp
      rcases exists_isTableOf proper few with ⟨totals, summed, table⟩
      have same : claimed last.parent (others ++ [last]) = claimed last.parent others := by
        rw [claimed_append]
        simp [claimed, claim, given]
      rw [same] at within
      have stands := remainder_standsFor table (claimed_bounds proper last.parent).1 within
      rw [if_neg isNone, summed]
      refine ⟨_, rfl, rfl, rfl, fun _ => ⟨_, rfl, ?_⟩⟩
      rw [shareOf, given, same]
      exact stands

theorem StandsFor.toDouble_isOk {number : Number} {share : Int} (stands : StandsFor number share)
    (nonneg : 0 ≤ share) (small : share ≤ 100) : ∃ double, number.toDouble = .ok double := by
  rcases stands with rfl | rfl
  · exact ⟨_, Double.ofInt_eq_ok (by rw [abs_lt]; omega)⟩
  · exact ⟨_, rfl⟩

theorem shareTotals_concat_isOk {requests : List Request} {final : Request} {number : Number}
    {totals : List (Number × Double)} {double : Double} (summed : shareTotals requests = .ok totals)
    (isShare : final.spec.share = some number) (isDouble : number.toDouble = .ok double) :
    ∃ complete, shareTotals (requests ++ [final]) = .ok complete := by
  rw [shareTotals, List.foldlM_append]
  simp only [shareTotals] at summed
  rw [summed, Result.ok_bind, List.foldlM_cons]
  cases kind : final.spec.kind with
  | reserved => exact ⟨totals, rfl⟩
  | percentage =>
      simp only [isShare, Option.getD_some, isDouble]
      exact ⟨_, rfl⟩

/-! ## Layers -/

theorem isDecision_inLayers {declared known : List Int} {pending : List Request}
    (writable : ∀ request ∈ pending,
      request.spec.id.isWritable = true ∧ request.spec.parent.isWritable = true) :
    Result.IsDecision (inLayers declared known pending) := by
  fun_induction inLayers declared known pending with
  | case1 => exact .inl ⟨[], rfl⟩
  | case2 known first others _ layer induction =>
      refine (induction fun request member => ?_).bind fun later _ => .inl ⟨_, rfl⟩
      exact writable request (List.mem_filter.mp member).1
  | case3 known first others stuck =>
      rcases writable first (List.mem_cons_self ..) with ⟨idWritable, parentWritable⟩
      unfold unreachable
      dsimp only
      split
      · exact .inr (isRefusal_refuse idWritable rfl)
      · exact .inr (isRefusal_refuse idWritable parentWritable)

theorem ComesOf.parent {specs : List WholeSpec} {spec : WholeSpec} {request : Request}
    (comes : ComesOf specs spec request) : request.spec.parent = .whole spec.parent :=
  congrArg TierSpec.parent comes.others

/-- Chains of requests are chains of specifications. -/
theorem rooted_iff {specs : List WholeSpec} {requests : List Request}
    (source : ∀ request ∈ requests, ∃ spec ∈ specs, ComesOf specs spec request)
    (target : ∀ spec ∈ specs, ∃ request ∈ requests, ComesOf specs spec request)
    {spec : WholeSpec} {request : Request} (comes : ComesOf specs spec request) :
    Rooted [rootId] requests request ↔ ReachesRoot specs spec.parent := by
  constructor
  · intro rooted
    induction rooted generalizing spec with
    | near ready =>
        rcases isReady_iff.mp ready with ⟨id, member, equal⟩
        rw [comes.parent, Number.whole_eq_whole, List.mem_singleton.mp member] at equal
        rw [equal]
        exact .root
    | far member equal _ induction =>
        rcases source _ member with ⟨above, aboveMember, aboveComes⟩
        rw [comes.parent, Number.whole_eq_whole, aboveComes.id] at equal
        rw [equal]
        exact .tier aboveMember (induction aboveComes)
  · intro reaches
    generalize isParent : spec.parent = parent at reaches
    induction reaches generalizing spec request with
    | root =>
        refine .near (isReady_iff.mpr ⟨rootId, List.mem_cons_self .., ?_⟩)
        rw [comes.parent, isParent, Number.whole_eq_whole]
    | @tier above aboveMember _ induction =>
        rcases target above aboveMember with ⟨other, otherMember, otherComes⟩
        refine .far otherMember ?_ (induction otherComes rfl)
        rw [comes.parent, isParent, otherComes.id, Number.whole_eq_whole]

theorem layered_cases {declared : List Int} {specs : List WholeSpec} {requests : List Request}
    (source : ∀ request ∈ requests, ∃ spec ∈ specs, ComesOf specs spec request)
    (target : ∀ spec ∈ specs, ∃ request ∈ requests, ComesOf specs spec request)
    (short : ∀ spec ∈ specs, spec.IsShort) :
    ((∀ spec ∈ specs, ReachesRoot specs spec.parent) ∧
        ∃ layered, inLayers declared [rootId] requests = .ok layered) ∨
      ((¬ ∀ spec ∈ specs, ReachesRoot specs spec.parent) ∧
        Result.IsRefusal (inLayers declared [rootId] requests)) := by
  have writable : ∀ request ∈ requests,
      request.spec.id.isWritable = true ∧ request.spec.parent.isWritable = true := by
    intro request member
    rcases source request member with ⟨spec, isSpec, comes⟩
    have idSame : request.spec.id = .whole spec.id := congrArg TierSpec.id comes.others
    rw [idSame, comes.parent]
    exact ⟨(short spec isSpec).id.isWritable, (short spec isSpec).parent.isWritable⟩
  rcases isDecision_inLayers writable with ⟨layered, ordered⟩ | refused
  · left
    refine ⟨fun spec member => ?_, layered, ordered⟩
    rcases target spec member with ⟨request, isRequest, comes⟩
    exact (rooted_iff source target comes).mp (inLayers_isOk_iff.mp ⟨layered, ordered⟩ _ isRequest)
  · refine .inr ⟨fun rooted => ?_, refused⟩
    have ordered : ∃ layered, inLayers declared [rootId] requests = .ok layered := by
      apply inLayers_isOk
      intro request member
      rcases source request member with ⟨spec, isSpec, comes⟩
      exact (rooted_iff source target comes).mpr (rooted spec isSpec)
    rcases ordered with ⟨layered, ordered⟩
    exact refused.not_ok layered ordered

/-! ## Everything before the rates -/

/-- What has to hold before rates are computed, ids apart. -/
structure IsPlaced (others : List WholeSpec) (last : WholeSpec) : Prop where
  proper : ∀ spec ∈ others, spec.IsProper
  default : ∀ share ∈ last.share, 0 ≤ share ∧ share ≤ 100
  shares : ∀ parent, claimed parent (others ++ [last]) ≤ 100
  rooted : ∀ spec ∈ others ++ [last], ReachesRoot (others ++ [last]) spec.parent

/-- Requests for some specifications, in layers. -/
structure IsPreparation (specs : List WholeSpec) (prepared : Prepared) : Prop where
  first : ParentsFirst [rootId] prepared.requests
  source : ∀ request ∈ prepared.requests, ∃ spec ∈ specs, ComesOf specs spec request
  target : ∀ spec ∈ specs, ∃ request ∈ prepared.requests, ComesOf specs spec request

theorem ProperIds.length_le {specs : List WholeSpec} (ids : ProperIds specs) :
    specs.length ≤ 10000 := by
  have proper : ∀ id ∈ specs.map (·.id), IsTierId id := by
    intro id member
    rcases List.mem_map.mp member with ⟨spec, isSpec, rfl⟩
    exact ids.proper spec isSpec
  simpa using length_le_of_distinct ids.distinct proper

theorem shareOf_bounds {others : List WholeSpec} {last : WholeSpec}
    (declaredProper : ∀ spec ∈ declaredSpecs others last, spec.IsProper)
    (within : ∀ parent, claimed parent (others ++ [last]) ≤ 100)
    (lastKind : last.kind = .percentage) {spec : WholeSpec} (member : spec ∈ others ++ [last])
    (percentage : spec.kind = .percentage) :
    0 ≤ shareOf (others ++ [last]) spec ∧ shareOf (others ++ [last]) spec ≤ 100 := by
  rcases (declaredSpecs_isProper lastKind).mp declaredProper with ⟨proper, default⟩
  cases given : spec.share with
  | some share =>
      rw [shareOf, given, Option.getD_some]
      rcases List.mem_append.mp member with other | isLast
      · rcases (proper spec other).percentage percentage with ⟨value, isShare, bounds⟩
        rw [given] at isShare
        cases isShare
        exact bounds
      · rw [List.mem_singleton.mp isLast] at given
        exact default share given
  | none =>
      have most := within spec.parent
      have least := (claimed_bounds declaredProper spec.parent).1
      rw [claimed_declaredSpecs] at least
      rw [shareOf, given, Option.getD_none]
      omega

theorem checkRequests_eq_ok_iff {specs : List WholeSpec} :
    (specs.map (·.request)).forM checkRequest = .ok () ↔ ∀ spec ∈ specs, spec.IsProper := by
  rw [Result.forM_eq_ok]
  constructor
  · intro checked spec member
    exact checkRequest_eq_ok_iff.mp (checked _ (List.mem_map_of_mem member))
  · intro proper request member
    rcases List.mem_map.mp member with ⟨spec, isSpec, rfl⟩
    exact checkRequest_eq_ok_iff.mpr (proper spec isSpec)

theorem checkRequests_refusal {specs : List WholeSpec} (short : ∀ spec ∈ specs, spec.IsShort)
    (improper : ¬ ∀ spec ∈ specs, spec.IsProper) :
    Result.IsRefusal ((specs.map (·.request)).forM checkRequest) := by
  have decision : Result.IsDecision ((specs.map (·.request)).forM checkRequest) := by
    apply Result.isDecision_forM
    intro request member
    rcases List.mem_map.mp member with ⟨spec, isSpec, rfl⟩
    exact isDecision_checkRequest (short spec isSpec).id.isWritable
  apply decision.resolve_left
  intro succeeds
  rcases succeeds with ⟨_, checked⟩
  exact improper (checkRequests_eq_ok_iff.mp checked)

theorem declaredSpecs_subset (others : List WholeSpec) (last : WholeSpec) :
    declaredSpecs others last ⊆ others ++ [last] := by
  simp only [declaredSpecs]
  split
  · exact List.Subset.refl _
  · exact List.subset_append_left ..

section Settled

variable {others : List WholeSpec} {last : WholeSpec} {final : Request}

/-- Proper requests stay as they are, only the default tier may get its share. -/
theorem exists_source (proper : ∀ spec ∈ others, spec.IsProper)
    (comes : ComesOf (others ++ [last]) last final) :
    (∀ request ∈ others.map (·.request) ++ [final],
        ∃ spec ∈ others ++ [last], ComesOf (others ++ [last]) spec request) ∧
      ∀ spec ∈ others ++ [last], ∃ request ∈ others.map (·.request) ++ [final],
        ComesOf (others ++ [last]) spec request := by
  have othersCome : ∀ spec ∈ others, ComesOf (others ++ [last]) spec spec.request := by
    intro spec member
    apply comesOf_request
    intro kind
    rcases (proper spec member).percentage kind with ⟨share, isShare, _⟩
    rw [isShare]
    rfl
  constructor
  · intro request member
    rcases List.mem_append.mp member with other | isFinal
    · rcases List.mem_map.mp other with ⟨spec, isSpec, rfl⟩
      exact ⟨spec, List.mem_append_left _ isSpec, othersCome spec isSpec⟩
    · rw [List.mem_singleton.mp isFinal]
      exact ⟨last, by simp, comes⟩
  · intro spec member
    rcases List.mem_append.mp member with other | isLast
    · exact ⟨spec.request, List.mem_append_left _ (List.mem_map_of_mem other),
        othersCome spec other⟩
    · rw [List.mem_singleton.mp isLast]
      exact ⟨final, by simp, comes⟩

theorem exists_completeTotals (percentage : last.kind = .percentage)
    (few : others.length ≤ 10000)
    (declaredProper : ∀ spec ∈ declaredSpecs others last, spec.IsProper)
    (shares : ∀ parent, claimed parent (others ++ [last]) ≤ 100)
    (comes : ComesOf (others ++ [last]) last final) :
    ∃ totals, shareTotals (others.map (·.request) ++ [final]) = .ok totals := by
  have proper := ((declaredSpecs_isProper percentage).mp declaredProper).1
  rcases exists_isTableOf proper few with ⟨othersTotals, othersSummed, _⟩
  rcases comes.share percentage with ⟨number, isShare, stands⟩
  have bounds := shareOf_bounds declaredProper shares percentage (by simp) percentage
  rcases stands.toDouble_isOk bounds.1 bounds.2 with ⟨double, isDouble⟩
  exact shareTotals_concat_isOk othersSummed isShare isDouble

theorem isPreparation_of_inLayers {specs : List WholeSpec} {requests : List Request}
    {declaredIds : List Int} {prepared : Prepared}
    (source : ∀ request ∈ requests, ∃ spec ∈ specs, ComesOf specs spec request)
    (target : ∀ spec ∈ specs, ∃ request ∈ requests, ComesOf specs spec request)
    (ordered : inLayers declaredIds [rootId] requests = .ok prepared.requests) :
    IsPreparation specs prepared := by
  have perm := inLayers_perm ordered
  constructor
  · exact inLayers_parentsFirst ordered
  · intro request member
    exact source request (perm.mem_iff.mp member)
  · intro spec member
    rcases target spec member with ⟨request, isRequest, isSource⟩
    exact ⟨request, perm.mem_iff.mpr isRequest, isSource⟩

end Settled

/-- Everything before the rates succeeds, or it is refused for a reason. -/
theorem settleAll_cases {roundTrip : Number} {capacity : LinkCapacity} {others : List WholeSpec}
    {last : WholeSpec} (percentage : last.kind = .percentage)
    (few : (others ++ [last]).length ≤ 10000) (short : ∀ spec ∈ others ++ [last], spec.IsShort) :
    (IsPlaced others last ∧ ∃ prepared,
        settleAll roundTrip capacity (others.map (·.request)) last.request = .ok prepared ∧
          prepared.setting.capacity = capacity ∧ prepared.setting.roundTrip = roundTrip ∧
            IsPreparation (others ++ [last]) prepared) ∨
      (¬ IsPlaced others last ∧
        Result.IsRefusal
          (settleAll roundTrip capacity (others.map (·.request)) last.request)) := by
  have included := declaredSpecs_subset others last
  have fewOthers : others.length ≤ 10000 := by
    rw [List.length_append] at few
    omega
  have fewDeclared : (declaredSpecs others last).length ≤ 10000 := by
    simp only [declaredSpecs]
    split <;> assumption
  rw [settleAll, declared_map_request]
  by_cases declaredProper : ∀ spec ∈ declaredSpecs others last, spec.IsProper
  case neg =>
    have refused := checkRequests_refusal (fun spec member => short spec (included member))
      declaredProper
    refine .inr ⟨fun placed => declaredProper ?_, refused.bind _⟩
    exact (declaredSpecs_isProper percentage).mpr ⟨placed.proper, placed.default⟩
  have checked := checkRequests_eq_ok_iff.mpr declaredProper
  rcases (declaredSpecs_isProper percentage).mp declaredProper with ⟨proper, default⟩
  rcases exists_isTableOf declaredProper fewDeclared with ⟨totals, summed, table⟩
  simp only [checked, summed, Result.ok_bind]
  by_cases within : WithinHundred (declaredSpecs others last)
  case neg =>
    have refused := checkTotals_refusal table within fun spec member =>
      (short spec (included member)).parent.isWritable
    refine .inr ⟨fun placed => within fun parent => ?_, refused.bind _⟩
    rw [claimed_declaredSpecs]
    exact placed.shares parent
  have shares : ∀ parent, claimed parent (others ++ [last]) ≤ 100 := by
    intro parent
    rw [← claimed_declaredSpecs]
    exact within parent
  rcases exists_settled proper fewOthers (shares last.parent) with ⟨final, finished, comes⟩
  rcases exists_source proper comes with ⟨source, target⟩
  rcases exists_completeTotals percentage fewOthers declaredProper shares comes with
    ⟨complete, summedAgain⟩
  simp only [checkTotals_of_within table within, finished, summedAgain, Result.ok_bind]
  rcases layered_cases source target short with ⟨rooted, layered, ordered⟩ | ⟨notRooted, refused⟩
  · rw [ordered]
    exact .inl ⟨⟨proper, default, shares, rooted⟩, _, rfl, rfl, rfl,
      isPreparation_of_inLayers source target ordered⟩
  · exact .inr ⟨fun placed => notRooted placed.rooted, refused.bind _⟩

end Allocation

end UplinkShaper
