import UplinkShaper.Proofs.Allocation.Division
import UplinkShaper.Proofs.Allocation.Orders
import UplinkShaper.Proofs.Allocation.Sums
import UplinkShaper.Proofs.Classify.Landing

/-!
Tiers asked for in another order. All steps look at tiers one by one, or at which tiers there
are, but for one: shares are added up as doubles in the order in which they are written, and what
rounding makes of a sum depends on this order. A reordered request comes to the same tiers if
its sums are the same to whom they matter: on the same side of a hundred percent, and with the
same rest for a default tier without a share. Shares that are no finer than doubles can add up
exactly come to the same in any order.
-/

namespace UplinkShaper

open Allocation

namespace TreeRequest

/-- The same tiers in another order. -/
structure IsReordering (first second : TreeRequest) : Prop where
  capacity : first.capacity = second.capacity
  reserved : first.reserved.Perm second.reserved
  tiers : first.tiers.Perm second.tiers
  default : first.default = second.default

def IsAccepted (request : TreeRequest) (roundTrip : Number) : Prop :=
  ∃ tree, request.compile roundTrip = .ok tree

/-- Requests of which both or none are accepted, for the same tiers. -/
structure ComesToSame (first second : TreeRequest) (roundTrip : Number) : Prop where
  accepted : first.IsAccepted roundTrip ↔ second.IsAccepted roundTrip
  tiers : ∀ tree other, first.compile roundTrip = .ok tree →
    second.compile roundTrip = .ok other → tree.tiers.Perm other.tiers

/-- What is claimed of a class, in the order of the tiers. -/
def claimsUnder (request : TreeRequest) (id : Int) : List Double :=
  request.specs.filterMap (TierSpec.claimUnder? id)

/-- The sum of what is claimed of a class, formed from the front and rounded each time. -/
def sumUnder (request : TreeRequest) (id : Int) : Double :=
  (request.claimsUnder id).foldl Double.add (.finite 0)

/-- Requests whose sums make no difference: they are on the same side of a hundred percent, and
leave the same to a default tier without a share. -/
structure SharesAlike (first second : TreeRequest) : Prop where
  within : ∀ id, isAbove (first.sumUnder id) hundred = isAbove (second.sumUnder id) hundred
  rest : first.defaultSpec.share = none → ∀ id, first.defaultSpec.parent.toInt? = some id →
    hundred.sub (first.sumUnder id) = hundred.sub (second.sumUnder id)

variable {first second : TreeRequest}

theorem IsReordering.symm (reordered : first.IsReordering second) : second.IsReordering first :=
  ⟨reordered.capacity.symm, reordered.reserved.symm, reordered.tiers.symm, reordered.default.symm⟩

theorem IsReordering.defaultSpec_eq (reordered : first.IsReordering second) :
    first.defaultSpec = second.defaultSpec :=
  congrArg (·.getD (.standard none)) reordered.default

theorem IsReordering.others_perm (reordered : first.IsReordering second) :
    (first.reserved ++ first.tiers).Perm (second.reserved ++ second.tiers) :=
  reordered.reserved.append reordered.tiers

theorem IsReordering.specs_perm (reordered : first.IsReordering second) :
    first.specs.Perm second.specs := by
  unfold specs
  rw [reordered.defaultSpec_eq]
  exact reordered.others_perm.append_right _

theorem IsReordering.claims_perm (reordered : first.IsReordering second) (id : Int) :
    (first.claimsUnder id).Perm (second.claimsUnder id) :=
  reordered.specs_perm.filterMap _

theorem SharesAlike.symm (reordered : first.IsReordering second)
    (alike : first.SharesAlike second) : second.SharesAlike first := by
  refine ⟨fun id => (alike.within id).symm, fun isOpen id isParent => (alike.rest ?_ id ?_).symm⟩
  · rwa [reordered.defaultSpec_eq]
  · rwa [reordered.defaultSpec_eq]

end TreeRequest

namespace Allocation

/-! ## Requests in another order -/

/-- Requests can be moved as their specifications are. -/
theorem exists_moved {others : List Request} {specs : List TierSpec}
    (perm : (others.map (·.spec)).Perm specs) :
    ∃ moved, moved.map (·.spec) = specs ∧ others.Perm moved := by
  have each : List.Forall₂ (fun spec request => request.spec = spec) (others.map (·.spec)) others :=
    List.forall₂_map_left_iff.mpr (List.forall₂_same.mpr fun _ _ => rfl)
  rcases List.perm_comp_forall₂ perm.symm each with ⟨moved, movedEach, movedPerm⟩
  refine ⟨moved, ?_, movedPerm.symm⟩
  exact List.forall₂_eq_eq_eq ▸ List.forall₂_map_left_iff.mpr movedEach.flip

theorem mem_of_mem_declared {others : List Request} {last request : Request}
    (member : request ∈ declared others last) : request ∈ others ++ [last] := by
  unfold declared at member
  split at member
  · exact member
  · exact List.mem_append_left _ member

theorem mem_declared_perm {others moved : List Request} (perm : others.Perm moved)
    (last request : Request) : request ∈ declared moved last ↔ request ∈ declared others last := by
  unfold declared
  split
  · rw [List.mem_append, List.mem_append, perm.mem_iff]
  · exact perm.mem_iff.symm

end Allocation

namespace TreeRequest

variable {first second : TreeRequest} {roundTrip : Number} {prepared : Prepared}
  {requests others : List Request} {last final : Request}

/-- A default tier without a share claims nothing, whether it is counted or not. -/
theorem claimsOf_declared {request : TreeRequest}
    (same : (others ++ [last]).map (·.spec) = request.specs) (id : Int) :
    claimsOf id (declared others last) = request.claimsUnder id := by
  rw [claimsUnder, ← same]
  cases given : last.spec.share with
  | some share =>
      rw [declared_of_isSome (by rw [given]; rfl)]
      rfl
  | none =>
      have nothing : last.spec.claimUnder? id = none := by simp [TierSpec.claimUnder?, given]
      rw [declared_of_none given, List.map_append, List.filterMap_append, List.map_singleton,
        List.filterMap_cons, nothing]
      exact (List.append_nil _).symm

/-- Sums can be formed once the layers have taken all tiers. -/
theorem isClaim_of_settles (settles : Settles prepared others last final) :
    ∀ request ∈ declared others last, IsClaim request := by
  intro request member
  exact ⟨exists_parent_of_settles settles request (mem_of_mem_declared member),
    fun percentage => share_isSome_of_checkRequest percentage (settles.requests request member)⟩

/-- The sums of a request that passes all checks are within a hundred percent, and a default
tier without a share gets the rest of them. -/
theorem sums_of_settles {request : TreeRequest}
    (same : (others ++ [last]).map (·.spec) = request.specs)
    (settles : Settles prepared others last final) :
    (∀ id, isAbove (request.sumUnder id) hundred = false) ∧
      (last.spec.share = none → ∀ id, last.spec.parent.toInt? = some id →
        final.spec.share = some (remainder (totalOf (request.claimsUnder id)))) := by
  have claims := isClaim_of_settles settles
  rcases settles.totals with ⟨totals, summed, within⟩
  refine ⟨fun id => ?_, fun isOpen id isParent => ?_⟩
  · rw [sumUnder, ← claimsOf_declared same]
    exact (checkTotals_iff_claimsOf claims summed).mp within id
  · have total := totalUnder_shareTotals claims summed isParent
    rw [claimsOf_declared same] at total
    rw [declared_of_none isOpen] at summed
    rw [← Except.ok.inj ((settled_of_none isOpen summed).symm.trans settles.finished), total]

/-! ### The steps of the preparation -/

/-- The ids of the same tiers pass their check in the other order. -/
theorem exists_checkIds_moved (reordered : first.IsReordering second)
    (checked : checkIds [] first.specs = .ok (others ++ [last]))
    (same : others.map (·.spec) = first.reserved ++ first.tiers)
    (isLast : last.spec = first.defaultSpec) :
    ∃ moved, others.Perm moved ∧ checkIds [] second.specs = .ok (moved ++ [last]) := by
  rcases exists_moved (same ▸ reordered.others_perm) with ⟨moved, movedSpecs, perm⟩
  have lastPerm : (others ++ [last]).Perm (moved ++ [last]) := perm.append_right _
  rcases checkIds_eq_ok_iff.mp checked with ⟨_, each, distinct, _⟩
  refine ⟨moved, perm, checkIds_eq_ok_iff.mpr ⟨?_, fun request member => ?_, ?_, by simp⟩⟩
  · rw [List.map_append, movedSpecs, List.map_singleton, isLast, reordered.defaultSpec_eq]
    rfl
  · exact each request (lastPerm.mem_iff.mpr member)
  · exact (lastPerm.map _).nodup_iff.mp distinct

section Moved

variable {moved : List Request} (perm : others.Perm moved)
  (specs : (others ++ [last]).map (·.spec) = first.specs)
  (movedSpecs : (moved ++ [last]).map (·.spec) = second.specs)
  (settles : Settles prepared others last final)

include perm settles

theorem checkRequest_moved : ∀ request ∈ declared moved last, checkRequest request = .ok () :=
  fun request member => settles.requests request ((mem_declared_perm perm last request).mp member)

theorem isClaim_moved : ∀ request ∈ declared moved last, IsClaim request :=
  fun request member =>
    isClaim_of_settles settles request ((mem_declared_perm perm last request).mp member)

include specs movedSpecs

/-- Sums that are alike are all within a hundred percent, or none of them is. -/
theorem exists_totals_of_sharesAlike (alike : first.SharesAlike second) :
    ∃ totals, shareTotals (declared moved last) = .ok totals ∧ checkTotals totals = .ok () := by
  rcases exists_shareTotals (checkRequest_moved perm settles) with ⟨totals, summed⟩
  refine ⟨totals, summed, ?_⟩
  refine (checkTotals_iff_claimsOf (isClaim_moved perm settles) summed).mpr fun id => ?_
  rw [claimsOf_declared movedSpecs]
  exact (alike.within id).symm.trans ((sums_of_settles specs settles).1 id)

/-- Sums that are alike leave the default tier the same share. -/
theorem settled_of_sharesAlike (reordered : first.IsReordering second)
    (alike : first.SharesAlike second) (isLast : last.spec = first.defaultSpec) :
    settled moved last = .ok final := by
  cases given : last.spec.share with
  | some share =>
      have isGiven : last.spec.share.isSome = true := by rw [given]; rfl
      rw [settled_of_isSome isGiven settles.finished, settled, if_pos isGiven]
  | none =>
      rcases exists_totals_of_sharesAlike perm specs movedSpecs settles alike with
        ⟨totals, summed, _⟩
      rcases exists_parent_of_settles settles last (by simp) with ⟨id, isParent⟩
      have total := totalUnder_shareTotals (isClaim_moved perm settles) summed isParent
      have rest := alike.rest (isLast ▸ given) id (isLast ▸ isParent)
      have taken := (sums_of_settles specs settles).2 given id isParent
      rw [claimsOf_declared movedSpecs] at total
      rw [declared_of_none given] at summed
      rw [settled_of_none given summed, total,
        ← (remainder_totalOf_eq_iff (reordered.claims_perm id)).mpr rest, ← taken]
      rcases settled_spec settles.finished with ⟨sameId, sameSpec⟩
      rw [← sameSpec, ← sameId]

end Moved

/-- Layers take the same tiers in any order. -/
theorem exists_inLayers_moved {pending moved layered : List Request} {ids : List Int}
    (perm : pending.Perm moved) (layers : inLayers ids [rootId] pending = .ok layered)
    (keys : List Int) :
    ∃ other, inLayers keys [rootId] moved = .ok other ∧ layered.Perm other := by
  have rooted : ∀ request ∈ moved, Rooted [rootId] moved request :=
    fun request member => (inLayers_isOk_iff.mp ⟨_, layers⟩ request
      (perm.mem_iff.mpr member)).mono (List.Subset.refl _) perm.subset
  rcases @inLayers_isOk keys _ _ rooted with ⟨other, otherLayers⟩
  have otherPerm := inLayers_perm otherLayers
  exact ⟨other, otherLayers, (inLayers_perm layers).trans (perm.trans otherPerm.symm)⟩

/-- Everything before the rates comes to the same for requests whose sums are alike. -/
theorem exists_prepare_of_sharesAlike (reordered : first.IsReordering second)
    (alike : first.SharesAlike second) (ready : first.prepare roundTrip = .ok prepared) :
    ∃ other, second.prepare roundTrip = .ok other ∧ prepared.setting = other.setting ∧
      prepared.requests.Perm other.requests := by
  rcases exists_settles_of_prepare ready with
    ⟨others, last, final, checked, same, isLast, settles, sameCapacity, sameRoundTrip⟩
  rcases exists_checkIds_moved reordered checked same isLast with ⟨moved, perm, movedChecked⟩
  have specs := (checkIds_eq_ok_iff.mp checked).1
  have movedSpecs := (checkIds_eq_ok_iff.mp movedChecked).1
  have movedRequests := checkRequest_moved perm settles
  rcases exists_totals_of_sharesAlike perm specs movedSpecs settles alike with
    ⟨totals, summed, within⟩
  have finished := settled_of_sharesAlike perm specs movedSpecs settles reordered alike isLast
  have complete : ∃ totals, shareTotals (moved ++ [final]) = .ok totals := by
    rcases exists_settled_totals movedRequests with ⟨other, totals, otherFinished, isComplete⟩
    cases finished.symm.trans otherFinished
    exact ⟨totals, isComplete⟩
  rcases complete with ⟨completeTotals, completeSummed⟩
  rcases exists_inLayers_moved (perm.append_right [final]) settles.layers
    ((moved ++ [final]).map (·.id)) with ⟨layered, layers, layersPerm⟩
  rw [prepare_eq_of_checkIds movedChecked]
  simp only [settleAll, Result.forM_eq_ok.mpr movedRequests, summed, within, finished,
    completeSummed, layers, Result.ok_bind]
  refine ⟨_, rfl, ?_, layersPerm⟩
  rw [← reordered.capacity, ← sameCapacity, ← sameRoundTrip, ← settles.defaultId]

/-! ## Trees -/

theorem exists_compile_of_sharesAlike {tree : ClassTree} (reordered : first.IsReordering second)
    (alike : first.SharesAlike second) (compiled : first.compile roundTrip = .ok tree) :
    ∃ other, second.compile roundTrip = .ok other ∧ tree.tiers.Perm other.tiers := by
  rcases compile_eq_ok_iff.mp compiled with ⟨prepared, ready, complete, rfl⟩
  rcases exists_prepare_of_sharesAlike reordered alike ready with
    ⟨other, otherReady, setting, perm⟩
  have layers := isLayered_of_prepare ready
  have otherLayers := isLayered_of_prepare otherReady
  have distinct : ([rootId] ++ prepared.requests.map (·.id)).Nodup := by
    refine List.nodup_cons.mpr ⟨fun isRoot => ?_, layers.distinct⟩
    rcases List.mem_map.mp isRoot with ⟨request, member, same⟩
    have proper := (layers.ids request member).2.1
    simp only [same, rootId] at proper
    omega
  have made := makeTiers_perm perm distinct layers.first otherLayers.first complete
  rw [setting] at made
  refine ⟨_, compile_eq_ok_iff.mpr ⟨other, otherReady, made.1, rfl⟩, ?_⟩
  simp only [treeOf, outcome, setting]
  exact made.2

/-- Requests whose sums are alike come to the same tiers. -/
theorem comesToSame_of_sharesAlike (reordered : first.IsReordering second)
    (alike : first.SharesAlike second) : first.ComesToSame second roundTrip := by
  constructor
  · constructor
    · rintro ⟨tree, compiled⟩
      rcases exists_compile_of_sharesAlike reordered alike compiled with ⟨other, isMade, _⟩
      exact ⟨other, isMade⟩
    · rintro ⟨tree, compiled⟩
      rcases exists_compile_of_sharesAlike reordered.symm (alike.symm reordered) compiled with
        ⟨other, isMade, _⟩
      exact ⟨other, isMade⟩
  · intro tree other compiled otherCompiled
    rcases exists_compile_of_sharesAlike reordered alike compiled with ⟨same, isMade, perm⟩
    cases isMade.symm.trans otherCompiled
    exact perm

/-- What the sums of an accepted request have come to. -/
theorem sums_of_compile {request : TreeRequest} {tree : ClassTree}
    (compiled : request.compile roundTrip = .ok tree) :
    (∀ id, isAbove (request.sumUnder id) hundred = false) ∧
      (request.defaultSpec.share = none → ∀ id, request.defaultSpec.parent.toInt? = some id →
        ∃ tier ∈ tree.tiers, Value.whole tier.id = request.defaultSpec.id ∧
          tier.share = some (remainder (totalOf (request.claimsUnder id)))) := by
  rcases compile_eq_ok_iff.mp compiled with ⟨prepared, ready, complete, rfl⟩
  rcases exists_settles_of_prepare ready with ⟨others, last, final, checked, _, isLast, settles, _⟩
  rcases checkIds_eq_ok_iff.mp checked with ⟨same, each, _, _⟩
  rcases sums_of_settles same settles with ⟨within, taken⟩
  refine ⟨within, fun isOpen id isParent => ?_⟩
  have sameDefault : last.spec = request.defaultSpec := isLast
  rw [← sameDefault] at isOpen isParent ⊢
  have member : final ∈ prepared.requests := (inLayers_perm settles.layers).mem_iff.mpr (by simp)
  rcases exists_tier_of_made (made_of_makeTiers complete) member with ⟨tier, isTier, made⟩
  refine ⟨tier, isTier, ?_, made.share.trans (taken isOpen id isParent)⟩
  rw [made.id, (settled_spec settles.finished).1, (each last (by simp)).1]

/-- Requests of which one is accepted, and which come to the same tiers, have sums that are
alike. -/
theorem sharesAlike_of_comesToSame (reordered : first.IsReordering second)
    (same : first.ComesToSame second roundTrip) (accepted : first.IsAccepted roundTrip) :
    first.SharesAlike second := by
  rcases accepted with ⟨tree, compiled⟩
  rcases same.accepted.mp ⟨tree, compiled⟩ with ⟨other, otherCompiled⟩
  rcases sums_of_compile compiled with ⟨within, taken⟩
  rcases sums_of_compile otherCompiled with ⟨otherWithin, otherTaken⟩
  refine ⟨fun id => (within id).trans (otherWithin id).symm, fun isOpen id isParent => ?_⟩
  rcases taken isOpen id isParent with ⟨tier, isTier, isDefault, share⟩
  rw [reordered.defaultSpec_eq] at isOpen isParent isDefault
  rcases otherTaken isOpen id isParent with ⟨otherTier, isOtherTier, isOtherDefault, otherShare⟩
  have moved := (same.tiers tree other compiled otherCompiled).mem_iff.mp isTier
  have sameId : tier.id = otherTier.id := by
    have equal := isDefault.trans isOtherDefault.symm
    injection equal with inside
    injection inside
  have sameTier : tier = otherTier :=
    List.inj_on_of_nodup_map (ids_nodup_of_compile otherCompiled) moved isOtherTier sameId
  rw [sameTier, otherShare, Option.some.injEq] at share
  exact (remainder_totalOf_eq_iff (reordered.claims_perm id)).mp share.symm

/-! ## Shares that add up exactly -/

/-- Shares are whole numbers, or no finer than the `2 ^ 32`nd part of a percent. -/
def AsksFineShares (request : TreeRequest) : Prop :=
  ∀ spec ∈ request.specs, spec.kind = .percentage →
    ∀ share ∈ spec.share, ∃ parts : Int, share.value? = some ((parts : Rat) / 2 ^ 32)

/-- There are few claims, for ids are distinct and small. -/
theorem length_claimsUnder_le (checked : checkIds [] first.specs = .ok requests) (id : Int) :
    (first.claimsUnder id).length ≤ 10000 := by
  rcases checkIds_eq_ok_iff.mp checked with ⟨specs, each, distinct, _⟩
  have proper : ∀ key ∈ requests.map (·.id), IsTierId key := by
    intro key member
    rcases List.mem_map.mp member with ⟨request, isRequest, rfl⟩
    exact (each request isRequest).2
  calc (first.claimsUnder id).length
      ≤ first.specs.length := List.length_filterMap_le _ _
    _ = (requests.map (·.id)).length := by rw [← specs, List.length_map, List.length_map]
    _ ≤ 10000 := length_le_of_distinct distinct proper

/-- The fine shares of an accepted request have one sum. -/
theorem sumUnder_eq_of_compile {tree : ClassTree} (reordered : first.IsReordering second)
    (fine : first.AsksFineShares) (compiled : first.compile roundTrip = .ok tree) (id : Int) :
    first.sumUnder id = second.sumUnder id := by
  rcases compile_eq_ok_iff.mp compiled with ⟨prepared, ready, _, _⟩
  rcases exists_settles_of_prepare ready with ⟨others, last, final, checked, _, _, settles, _⟩
  have specs : (others ++ [last]).map (·.spec) = first.specs := (checkIds_eq_ok_iff.mp checked).1
  refine Double.foldl_add_perm (reordered.claims_perm id) (length_claimsUnder_le checked id) ?_
  intro claim member
  rw [← claimsOf_declared specs] at member
  rcases List.mem_filterMap.mp member with ⟨spec, isSpec, claims⟩
  rcases List.mem_map.mp isSpec with ⟨request, isRequest, rfl⟩
  have isAsked : request.spec ∈ first.specs := by
    rw [← specs]
    exact List.mem_map_of_mem (mem_of_mem_declared isRequest)
  exact isFine_of_claimUnder? (fine request.spec isAsked) (settles.requests request isRequest)
    claims

theorem IsReordering.asksFineShares (reordered : first.IsReordering second)
    (fine : first.AsksFineShares) : second.AsksFineShares :=
  fun spec member => fine spec (reordered.specs_perm.mem_iff.mpr member)

theorem sharesAlike_of_asksFineShares {tree : ClassTree} (reordered : first.IsReordering second)
    (fine : first.AsksFineShares) (compiled : first.compile roundTrip = .ok tree) :
    first.SharesAlike second := by
  have same := sumUnder_eq_of_compile reordered fine compiled
  exact ⟨fun id => by rw [same id], fun _ id _ => by rw [same id]⟩

/-- The order in which tiers are written makes no difference to fine shares. -/
theorem comesToSame_of_asksFineShares (reordered : first.IsReordering second)
    (fine : first.AsksFineShares) : first.ComesToSame second roundTrip := by
  by_cases accepted : first.IsAccepted roundTrip
  · rcases accepted with ⟨tree, compiled⟩
    exact comesToSame_of_sharesAlike reordered
      (sharesAlike_of_asksFineShares reordered fine compiled)
  · refine ⟨iff_of_false accepted ?_, fun tree _ compiled => absurd ⟨tree, compiled⟩ accepted⟩
    rintro ⟨tree, compiled⟩
    have alike := sharesAlike_of_asksFineShares reordered.symm (reordered.asksFineShares fine)
      compiled
    rcases exists_compile_of_sharesAlike reordered.symm alike compiled with ⟨other, isMade, _⟩
    exact accepted ⟨other, isMade⟩

/-- Reordered requests come to the same if and only if none of them is accepted, or their sums
are alike. -/
theorem comesToSame_iff (first second : TreeRequest) (roundTrip : Number)
    (reordered : first.IsReordering second) :
    first.ComesToSame second roundTrip ↔
      ¬ first.IsAccepted roundTrip ∧ ¬ second.IsAccepted roundTrip ∨
        first.SharesAlike second := by
  constructor
  · intro same
    by_cases accepted : first.IsAccepted roundTrip
    · exact .inr (sharesAlike_of_comesToSame reordered same accepted)
    · exact .inl ⟨accepted, fun other => accepted (same.accepted.mpr other)⟩
  · rintro (⟨refused, otherRefused⟩ | alike)
    · refine ⟨iff_of_false refused otherRefused, fun tree _ compiled => ?_⟩
      exact absurd ⟨tree, compiled⟩ refused
    · exact comesToSame_of_sharesAlike reordered alike

/-- Tiers with shares of a class that has half of the link. -/
def below (shares : List (Int × String × Double)) : TreeRequest where
  capacity := .tenMegabits
  reserved := []
  tiers := {
    id := .whole 10, label := "Shared", kind := .percentage, priority := .shared
    share := some 50, rate := none, ratePercent := none, parent := 1 } ::
      shares.map fun (id, label, share) => {
        id := .whole id, label := label, kind := .percentage, priority := .shared
        share := some (.real share), rate := none, ratePercent := none, parent := 10 }
  default := none

theorem isReordering_below {shares moved : List (Int × String × Double)}
    (perm : shares.Perm moved) : (below shares).IsReordering (below moved) :=
  ⟨rfl, .refl _, (perm.map _).cons _, rfl⟩

/-- Halves and quarters of a percent, which doubles add up exactly. -/
def quarters : List (Int × String × Double) :=
  [(20, "Web", .finite (57 / 4)), (30, "Video", .finite (33 / 2))]

theorem comesToSame_below_quarters :
    (below quarters).IsReordering (below quarters.reverse) ∧
      (below quarters).ComesToSame (below quarters.reverse) 50 := by
  have reordered := isReordering_below quarters.reverse_perm.symm
  have fine : (below quarters).AsksFineShares := by
    intro spec member _ share given
    simp only [specs, below, quarters, defaultSpec] at member
    simp at member
    rcases member with rfl | rfl | rfl | rfl
    · cases given
      exact ⟨50 * 2 ^ 32, by norm_num [Number.value?]⟩
    · cases given
      exact ⟨57 * 2 ^ 30, by norm_num [Number.value?, Double.toRat?]⟩
    · cases given
      exact ⟨33 * 2 ^ 31, by norm_num [Number.value?, Double.toRat?]⟩
    · cases given
  rcases Result.exists_of_isOk (by decide +kernel : ((below quarters).compile 50).isOk = true) with
    ⟨tree, compiled⟩
  refine ⟨reordered, (comesToSame_iff _ _ 50 reordered).mpr (.inr ?_)⟩
  exact sharesAlike_of_asksFineShares reordered fine compiled

/-- Tenths of a percent, which are rounded. Their sum is a hundred. -/
def tenths : List (Int × String × Double) :=
  [(20, "Web", .ofDecimal false 142 (-1)), (30, "Video", .ofDecimal false 179 (-1)),
    (40, "Games", .ofDecimal false 282 (-1)), (50, "Mail", .ofDecimal false 397 (-1))]

/-- With the last of the shares first, their sum is rounded to more than a hundred. -/
theorem not_comesToSame_below_tenths :
    (tenths.map fun row => row.2.2.toRat?.getD 0).sum = 100 ∧
      (below tenths).IsReordering (below (tenths.rotate 3)) ∧
        ¬ (below tenths).ComesToSame (below (tenths.rotate 3)) 50 := by
  refine ⟨by decide +kernel, isReordering_below (tenths.rotate_perm 3).symm, fun same => ?_⟩
  have accepted : ((below tenths).compile 50).isOk = true := by decide +kernel
  have refused : ((below (tenths.rotate 3)).compile 50).isOk = false := by decide +kernel
  rcases same.accepted.mp (Result.exists_of_isOk accepted) with ⟨tree, compiled⟩
  rw [compiled] at refused
  cases refused

end TreeRequest

end UplinkShaper
