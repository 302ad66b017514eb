import UplinkShaper.Proofs.Allocation.Claims
import UplinkShaper.Proofs.Allocation.WellFormed

/-!
How deep tiers lie below the root. Tiers are ordered layer by layer, so a tier stands
before all deeper ones, wherever these were declared; only tiers of the same depth keep
the order in which they were declared.
-/

namespace UplinkShaper

namespace Allocation

/-- Depths that the layers follow: each layer has one depth, keeps the order of what was
pending, and has its parents in the layer before. -/
structure Leveled (known : List Int) (level : Nat) (pending layered : List Request)
    (depth : Request → Nat) : Prop where
  least : ∀ request ∈ pending, level ≤ depth request
  sorted : layered.Pairwise fun left right => depth left ≤ depth right
  kept : ∀ value, layered.filter (depth · = value) = pending.filter (depth · = value)
  first : ∀ request ∈ pending, depth request = level → isReady known request = true
  above : ∀ request ∈ pending, ∀ value, level ≤ value → depth request = value + 1 →
    ∃ above ∈ pending, depth above = value ∧ request.spec.parent.eq (.whole above.id) = true

/-! ## One layer -/

/-- Depths of which the next layer has the least one. -/
def depthWith (known : List Int) (level : Nat) (depth : Request → Nat) (request : Request) : Nat :=
  if isReady known request then level else depth request

theorem depthWith_ready {known : List Int} {level : Nat} {depth : Request → Nat}
    {request : Request} (isReady : isReady known request = true) :
    depthWith known level depth request = level := by
  rw [depthWith, if_pos isReady]

theorem depthWith_waiting {known : List Int} {level : Nat} {depth : Request → Nat}
    {request : Request} (notReady : isReady known request = false) :
    depthWith known level depth request = depth request := by
  rw [depthWith, notReady]
  rfl

theorem mem_waiting_iff {known : List Int} {pending : List Request} {request : Request} :
    request ∈ waiting known pending ↔ request ∈ pending ∧ isReady known request = false := by
  simp [waiting]

theorem mem_ready_iff {known : List Int} {pending : List Request} {request : Request} :
    request ∈ ready known pending ↔ request ∈ pending ∧ isReady known request = true := by
  simp [ready]

section Step

variable {known : List Int} {level : Nat} {pending later : List Request} {depth : Request → Nat}
  (leveled : Leveled (known ++ (ready known pending).map (·.id)) (level + 1)
    (waiting known pending) later depth)

include leveled

theorem Leveled.lt_depth {request : Request} (member : request ∈ pending)
    (notReady : isReady known request = false) : level < depth request :=
  leveled.least request (mem_waiting_iff.mpr ⟨member, notReady⟩)

theorem Leveled.depthWith_eq_level_iff {request : Request} (member : request ∈ pending) :
    depthWith known level depth request = level ↔ isReady known request = true := by
  constructor
  · intro equal
    by_contra notReady
    rw [Bool.not_eq_true] at notReady
    rw [depthWith_waiting notReady] at equal
    have := leveled.lt_depth member notReady
    omega
  · exact depthWith_ready

theorem Leveled.sorted_step (perm : later.Perm (waiting known pending)) :
    (ready known pending ++ later).Pairwise fun left right =>
      depthWith known level depth left ≤ depthWith known level depth right := by
  have inLater : ∀ request ∈ later, isReady known request = false ∧
      depthWith known level depth request = depth request ∧ level < depth request := by
    intro request member
    rcases mem_waiting_iff.mp (perm.mem_iff.mp member) with ⟨isPending, notReady⟩
    exact ⟨notReady, depthWith_waiting notReady, leveled.lt_depth isPending notReady⟩
  rw [List.pairwise_append]
  refine ⟨?_, ?_, ?_⟩
  · rw [List.pairwise_iff_forall_sublist]
    intro left right pair
    have isLeft := (mem_ready_iff.mp (pair.subset (by simp : left ∈ [left, right]))).2
    have isRight := (mem_ready_iff.mp (pair.subset (by simp : right ∈ [left, right]))).2
    rw [depthWith_ready isLeft, depthWith_ready isRight]
  · refine leveled.sorted.imp_of_mem ?_
    intro left right inLeft inRight ordered
    rwa [(inLater left inLeft).2.1, (inLater right inRight).2.1]
  · intro left inLeft right inRight
    rw [depthWith_ready (mem_ready_iff.mp inLeft).2, (inLater right inRight).2.1]
    exact (inLater right inRight).2.2.le

theorem Leveled.kept_step (perm : later.Perm (waiting known pending)) (value : Nat) :
    (ready known pending ++ later).filter (depthWith known level depth · = value) =
      pending.filter (depthWith known level depth · = value) := by
  have laterKept : later.filter (depthWith known level depth · = value) =
      (waiting known pending).filter (depth · = value) := by
    rw [← leveled.kept]
    refine List.filter_congr fun request member => ?_
    rw [depthWith_waiting (mem_waiting_iff.mp (perm.mem_iff.mp member)).2]
  rw [List.filter_append, laterKept]
  by_cases isLevel : level = value
  · subst isLevel
    have all : (ready known pending).filter (depthWith known level depth · = level) =
        ready known pending := by
      rw [List.filter_eq_self]
      intro request member
      simpa using depthWith_ready (mem_ready_iff.mp member).2
    have none : (waiting known pending).filter (depth · = level) = [] := by
      rw [List.filter_eq_nil_iff]
      intro request member
      have := leveled.least request member
      simp only [decide_eq_true_eq]
      omega
    rw [all, none, List.append_nil, ready]
    refine List.filter_congr fun request member => ?_
    rw [Bool.eq_iff_iff, decide_eq_true_eq, leveled.depthWith_eq_level_iff member]
  · have none : (ready known pending).filter (depthWith known level depth · = value) = [] := by
      rw [List.filter_eq_nil_iff]
      intro request member
      rw [depthWith_ready (mem_ready_iff.mp member).2]
      simpa using isLevel
    rw [none, List.nil_append, waiting, List.filter_filter]
    refine List.filter_congr fun request _ => ?_
    cases isReadyHere : isReady known request with
    | true => simp [depthWith_ready isReadyHere, isLevel]
    | false => simp [depthWith_waiting isReadyHere]

theorem Leveled.above_step {request : Request} (member : request ∈ pending) {value : Nat}
    (atLeast : level ≤ value) (equal : depthWith known level depth request = value + 1) :
    ∃ above ∈ pending, depthWith known level depth above = value ∧
      request.spec.parent.eq (.whole above.id) = true := by
  cases isReadyHere : isReady known request with
  | true =>
      rw [depthWith_ready isReadyHere] at equal
      omega
  | false =>
      rw [depthWith_waiting isReadyHere] at equal
      have inWaiting := mem_waiting_iff.mpr ⟨member, isReadyHere⟩
      rcases atLeast.eq_or_lt with rfl | deeper
      · rcases isReady_iff.mp (leveled.first request inWaiting equal) with ⟨id, inKnown, isParent⟩
        rcases List.mem_append.mp inKnown with old | new
        · rw [isReady_iff.mpr ⟨id, old, isParent⟩] at isReadyHere
          cases isReadyHere
        · rcases List.mem_map.mp new with ⟨above, isAbove, rfl⟩
          rcases mem_ready_iff.mp isAbove with ⟨isPending, aboveReady⟩
          exact ⟨above, isPending, depthWith_ready aboveReady, isParent⟩
      · rcases leveled.above request inWaiting value deeper equal with
          ⟨above, isAbove, isDepth, isParent⟩
        rcases mem_waiting_iff.mp isAbove with ⟨isPending, notReady⟩
        exact ⟨above, isPending, (depthWith_waiting notReady).trans isDepth, isParent⟩

end Step

/-- Requests in layers have depths that the layers follow. -/
theorem exists_leveled {declared known : List Int} {pending layered : List Request}
    (ordered : inLayers declared known pending = .ok layered) (level : Nat) :
    ∃ depth, Leveled known level pending layered depth := by
  fun_induction inLayers declared known pending generalizing layered level with
  | case1 known =>
      cases ordered
      exact ⟨fun _ => level, by simp, .nil, by simp, by simp, by simp⟩
  | case2 known first others _ layer =>
      rename_i induction
      rcases Result.bind_eq_ok.mp ordered with ⟨later, rest, equal⟩
      rcases induction rest (level + 1) with ⟨depth, leveled⟩
      have perm := inLayers_perm rest
      rw [← Result.pure_eq_ok.mp equal]
      refine ⟨depthWith known level depth, fun request member => ?_, leveled.sorted_step perm,
        leveled.kept_step perm, fun request member => (leveled.depthWith_eq_level_iff member).mp,
        fun request member value => leveled.above_step member⟩
      cases isReadyHere : isReady known request with
      | true => rw [depthWith_ready isReadyHere]
      | false =>
          rw [depthWith_waiting isReadyHere]
          exact (leveled.lt_depth member isReadyHere).le
  | case3 =>
      simp only [unreachable, refuse] at ordered
      split at ordered <;> cases ordered

/-- Of two pending requests in order, the first stays before the second unless it lies
deeper. -/
theorem Leveled.pair_sublist_iff {known : List Int} {level : Nat} {pending layered : List Request}
    {depth : Request → Nat} (leveled : Leveled known level pending layered depth)
    (perm : layered.Perm pending) (distinct : pending.Nodup) {first second : Request}
    (inOrder : [first, second].Sublist pending) :
    [first, second].Sublist layered ↔ depth first ≤ depth second := by
  have ordered : ∀ {left right}, [left, right].Sublist layered → depth left ≤ depth right :=
    fun pair => List.pairwise_iff_forall_sublist.mp leveled.sorted pair
  refine ⟨ordered, fun atMost => ?_⟩
  have different : first ≠ second := by
    simpa using inOrder.nodup distinct
  have isFirst : first ∈ layered := perm.mem_iff.mpr (inOrder.subset (by simp))
  have isSecond : second ∈ layered := perm.mem_iff.mpr (inOrder.subset (by simp))
  rcases pair_or_pair different isFirst isSecond with kept | turned
  · exact kept
  · exfalso
    have same : depth second = depth first := le_antisymm (ordered turned) atMost
    have level := turned.filter (depth · = depth first)
    rw [leveled.kept] at level
    rw [List.filter_eq_self.mpr (by simp [same])] at level
    exact not_pair_of_pair distinct inOrder (level.trans List.filter_sublist)

/-! ## Depths of requests -/

/-- A request with so many others between itself and the root. -/
inductive IsAtDepth (requests : List Request) : Request → Nat → Prop
  | near {request : Request} : request.spec.parent.eq (.whole rootId) = true →
      IsAtDepth requests request 0
  | far {request above : Request} {depth : Nat} : above ∈ requests →
      request.spec.parent.eq (.whole above.id) = true → IsAtDepth requests above depth →
        IsAtDepth requests request (depth + 1)

theorem isReady_root_iff {request : Request} :
    isReady [rootId] request = true ↔ request.spec.parent.eq (.whole rootId) = true := by
  simp [isReady]

theorem eq_of_isParent {request : Request} {id other : Int}
    (isParent : request.spec.parent.eq (.whole id) = true)
    (isParentToo : request.spec.parent.eq (.whole other) = true) : id = other := by
  rw [Number.eq_whole_iff] at isParent isParentToo
  exact Option.some.inj (isParent.symm.trans isParentToo)

section Depths

variable {requests layered : List Request} {depth : Request → Nat}
  (leveled : Leveled [rootId] 0 requests layered depth)

include leveled

theorem Leveled.isAtDepth {request : Request} (member : request ∈ requests) :
    IsAtDepth requests request (depth request) := by
  generalize isDepth : depth request = value
  induction value generalizing request with
  | zero => exact .near (isReady_root_iff.mp (leveled.first request member isDepth))
  | succ value induction =>
      rcases leveled.above request member value (Nat.zero_le _) isDepth with
        ⟨above, isAbove, aboveDepth, isParent⟩
      exact .far isAbove isParent (induction isAbove aboveDepth)

variable (distinct : (requests.map (·.id)).Nodup) (proper : rootId ∉ requests.map (·.id))

include distinct proper

/-- A request has only one parent, and so only one depth. -/
theorem Leveled.depth_eq {request : Request} {value : Nat}
    (atDepth : IsAtDepth requests request value) (member : request ∈ requests) :
    depth request = value := by
  induction atDepth with
  | @near request isRoot =>
      cases isDepth : depth request with
      | zero => rfl
      | succ value =>
          rcases leveled.above request member value (Nat.zero_le _) isDepth with
            ⟨above, isAbove, _, isParent⟩
          exact absurd (List.mem_map_of_mem isAbove) (eq_of_isParent isRoot isParent ▸ proper)
  | @far request higher value isHigher isParent _ induction =>
      cases isDepth : depth request with
      | zero =>
          have isRoot := isReady_root_iff.mp (leveled.first request member isDepth)
          exact absurd (List.mem_map_of_mem isHigher) (eq_of_isParent isRoot isParent ▸ proper)
      | succ value =>
          rcases leveled.above request member value (Nat.zero_le _) isDepth with
            ⟨above, isAbove, aboveDepth, isParentToo⟩
          have same := eq_of_isParent isParent isParentToo
          rw [← induction isHigher, List.inj_on_of_nodup_map distinct isHigher isAbove same,
            aboveDepth]

theorem Leveled.isAtDepth_iff {request : Request} (member : request ∈ requests) (value : Nat) :
    IsAtDepth requests request value ↔ depth request = value := by
  constructor
  · exact fun atDepth => leveled.depth_eq distinct proper atDepth member
  · rintro rfl
    exact leveled.isAtDepth member

end Depths

/-! ## Depths of tiers -/

end Allocation

namespace ClassTree

/-- A tier with so many tiers between itself and the root. -/
inductive IsAtDepth (tree : ClassTree) : Tier → Nat → Prop
  | near {tier : Tier} : tier ∈ tree.tiers → tier.isChildOf rootId = true →
      tree.IsAtDepth tier 0
  | far {tier above : Tier} {depth : Nat} : tier ∈ tree.tiers → tree.IsAtDepth above depth →
      tier.isChildOf above.id = true → tree.IsAtDepth tier (depth + 1)

theorem IsAtDepth.mem {tree : ClassTree} {tier : Tier} {depth : Nat}
    (atDepth : tree.IsAtDepth tier depth) : tier ∈ tree.tiers := by
  cases atDepth with
  | near member => exact member
  | far member => exact member

end ClassTree

namespace Allocation

theorem Made.isChildOf_eq {setting : Setting} {request : Request} {tier : Tier}
    (made : Made setting request tier) (id : Int) :
    tier.isChildOf id = request.spec.parent.eq (.whole id) := by
  rw [Tier.isChildOf, made.parent]

/-- Tiers lie as deep as the requests that they were made from. -/
theorem isAtDepth_iff_of_made {setting : Setting} {pending layered : List Request}
    {tree : ClassTree} {request : Request} {tier : Tier} {value : Nat}
    (made : List.Forall₂ (Made setting) layered tree.tiers) (perm : layered.Perm pending)
    (isTier : tier ∈ tree.tiers) (isMade : Made setting request tier) :
    tree.IsAtDepth tier value ↔ IsAtDepth pending request value := by
  constructor
  · intro atDepth
    induction atDepth generalizing request with
    | near _ child => exact .near (isMade.isChildOf_eq rootId ▸ child)
    | far _ higherDepth child induction =>
        rcases exists_made made higherDepth.mem with ⟨above, isAbove, higherMade⟩
        rw [higherMade.id, isMade.isChildOf_eq] at child
        exact .far (perm.mem_iff.mp isAbove) child (induction higherDepth.mem higherMade)
  · intro atDepth
    induction atDepth generalizing tier with
    | near isRoot => exact .near isTier ((isMade.isChildOf_eq rootId).trans isRoot)
    | far isAbove isParent _ induction =>
        rcases exists_tier_of_made made (perm.mem_iff.mpr isAbove) with
          ⟨higher, isHigher, higherMade⟩
        rw [← isMade.isChildOf_eq, ← higherMade.id] at isParent
        exact .far isTier (induction isHigher higherMade) isParent

section Made

variable {setting : Setting} {requests : List Request} {tiers : List Tier}
  (distinct : (requests.map (·.id)).Nodup)

include distinct

/-- Tiers stand in the order of the requests that they were made from. -/
theorem pair_sublist_of_made (made : List.Forall₂ (Made setting) requests tiers)
    {upper lower : Request} {first second : Tier} (isUpper : upper ∈ requests)
    (isLower : lower ∈ requests) (isFirst : first ∈ tiers) (isSecond : second ∈ tiers)
    (upperMade : Made setting upper first) (lowerMade : Made setting lower second) :
    [first, second].Sublist tiers ↔ [upper, lower].Sublist requests := by
  have ids := ids_of_made made
  have distinctTiers : (tiers.map (·.id)).Nodup := ids ▸ distinct
  rw [← pair_sublist_map_iff distinctTiers isFirst isSecond, upperMade.id, lowerMade.id, ids,
    pair_sublist_map_iff distinct isUpper isLower]

/-- A number for each request is one for each tier that is made from a request. -/
theorem exists_ofTier (setting : Setting) (number : Request → Nat) :
    ∃ ofTier : Tier → Nat, ∀ request ∈ requests, ∀ tier, Made setting request tier →
      ofTier tier = number request := by
  refine ⟨fun tier => ((requests.find? (·.id == tier.id)).map number).getD 0, ?_⟩
  intro request member tier isMade
  dsimp only
  rw [isMade.id, find?_key_eq_some distinct member]
  rfl

end Made

end Allocation

namespace TreeRequest

open Allocation

theorem ids_of_settles {request : TreeRequest} {prepared : Prepared} {others : List Request}
    {last final : Request} (checked : checkIds [] request.specs = .ok (others ++ [last]))
    (settles : Settles prepared others last final) :
    request.specs.map (·.id) = (others ++ [final]).map (fun asked => Value.whole asked.id) := by
  rcases checkIds_eq_ok_iff.mp checked with ⟨same, each, _, _⟩
  have sameId := (settled_spec settles.finished).1
  rw [← same, List.map_map, List.map_append, List.map_append, List.map_singleton,
    List.map_singleton, sameId, Function.comp_apply, (each last (by simp)).1]
  congr 1
  refine List.map_congr_left fun asked member => ?_
  exact (each asked (List.mem_append_left _ member)).1

theorem keys_distinct {requests : List Request} (distinct : (requests.map (·.id)).Nodup) :
    (requests.map fun asked => Value.whole asked.id).Nodup := by
  have injective : Function.Injective Value.whole := by
    intro left right equal
    simpa [Value.whole] using equal
  simpa [Function.comp_def] using distinct.map injective

/-- The ids that are asked for differ. -/
theorem specs_distinct_of_compile {request : TreeRequest} {roundTrip : Number} {tree : ClassTree}
    (compiled : request.compile roundTrip = .ok tree) : (request.specs.map (·.id)).Nodup := by
  rcases compile_eq_ok_iff.mp compiled with ⟨prepared, ready, _, _⟩
  rcases exists_settles_of_prepare ready with
    ⟨others, last, final, checked, _, _, settles, _, _⟩
  rw [ids_of_settles checked settles]
  exact keys_distinct (complete_ids checked settles.finished).2

/-- Tiers have one depth each, and of two tiers the one that was declared first stays first
unless it lies deeper than the other. -/
theorem exists_depth {request : TreeRequest} {roundTrip : Number} {tree : ClassTree}
    (compiled : request.compile roundTrip = .ok tree) :
    ∃ depth : Tier → Nat,
      (∀ tier ∈ tree.tiers, ∀ value, tree.IsAtDepth tier value ↔ depth tier = value) ∧
        ∀ first ∈ tree.tiers, ∀ second ∈ tree.tiers,
          [Value.whole first.id, Value.whole second.id].Sublist (request.specs.map (·.id)) →
            ([first, second].Sublist tree.tiers ↔ depth first ≤ depth second) := by
  rcases compile_eq_ok_iff.mp compiled with ⟨prepared, ready, complete, rfl⟩
  rcases exists_settles_of_prepare ready with
    ⟨others, last, final, checked, _, _, settles, _, _⟩
  have layers := isLayered_of_prepare ready
  have made : List.Forall₂ (Made prepared.setting) prepared.requests
    (treeOf prepared (outcome prepared).tiers).tiers := made_of_makeTiers complete
  have perm := inLayers_perm settles.layers
  have distinctPending : ((others ++ [final]).map (·.id)).Nodup :=
    (perm.map _).nodup_iff.mp layers.distinct
  have notRoot : rootId ∉ (others ++ [final]).map (·.id) := by
    intro isRoot
    rcases List.mem_map.mp isRoot with ⟨asked, member, same⟩
    have proper := (layers.ids asked (perm.mem_iff.mpr member)).2.1
    rw [same, rootId] at proper
    omega
  rcases exists_leveled settles.layers 0 with ⟨depth, leveled⟩
  rcases exists_ofTier layers.distinct prepared.setting depth with ⟨depthOf, depthOf_eq⟩
  refine ⟨depthOf, fun tier member value => ?_, fun first isFirst second isSecond declared => ?_⟩
  · rcases exists_made made member with ⟨asked, isAsked, isMade⟩
    rw [depthOf_eq asked isAsked tier isMade, isAtDepth_iff_of_made made perm member isMade]
    exact leveled.isAtDepth_iff distinctPending notRoot (perm.mem_iff.mp isAsked) value
  · rcases exists_made made isFirst with ⟨upper, isUpper, upperMade⟩
    rcases exists_made made isSecond with ⟨lower, isLower, lowerMade⟩
    rw [ids_of_settles checked settles, upperMade.id, lowerMade.id] at declared
    have distinctKeys := keys_distinct distinctPending
    have inOrder : [upper, lower].Sublist (others ++ [final]) :=
      (pair_sublist_map_iff distinctKeys (perm.mem_iff.mp isUpper) (perm.mem_iff.mp isLower)).mp
        declared
    rw [depthOf_eq upper isUpper first upperMade, depthOf_eq lower isLower second lowerMade,
      ← leveled.pair_sublist_iff perm (List.Nodup.of_map _ distinctPending) inOrder,
      pair_sublist_of_made layers.distinct made isUpper isLower isFirst isSecond upperMade
        lowerMade]

end TreeRequest

end UplinkShaper
