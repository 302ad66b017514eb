import UplinkShaper.Proofs.Allocation.Claims
import UplinkShaper.Proofs.Allocation.WellFormed

/-!
Rates that are shares of other rates. The tiers that share a class never get more than
the class has, and rounding takes less than one kilobit per second from each of them. So
no matter how deep shares of shares are nested, they divide what the first class has.
-/

namespace UplinkShaper

/-- The whole percentage that a tier has of its parent. -/
def Tier.percent (tier : Tier) : Int :=
  (tier.share.bind Number.toInt?).getD 0

namespace ClassTree

/-- The classes of a tree with their rates, the root first. -/
def classes (tree : ClassTree) : List (Int × Int) :=
  (rootId, tree.capacity.rate) :: tree.tiers.map fun tier => (tier.id, tier.rate)

/-- The tiers that get a share of the rate of a class. -/
def sharing (tree : ClassTree) (id : Int) : List Tier :=
  (tree.children id).filter (·.kind = .percentage)

def sharedRate (tree : ClassTree) (id : Int) : Int :=
  ((tree.sharing id).map (·.rate)).sum

def sharedPercent (tree : ClassTree) (id : Int) : Int :=
  ((tree.sharing id).map (·.percent)).sum

/-- The tiers that get shares of shares, so many levels below those of the class itself. -/
def sharingAt (tree : ClassTree) (id : Int) : Nat → List Tier
  | 0 => tree.sharing id
  | depth + 1 => (tree.sharingAt id depth).flatMap fun tier => tree.sharing tier.id

/-- A tree whose shares are whole percentages that divide the rates of their classes. -/
structure Divides (tree : ClassTree) (request : TreeRequest) : Prop where
  asked : ∀ tier ∈ tree.tiers, ∃ spec ∈ request.specs, tier.outline = spec.outline ∧
    (tier.share = spec.share ∨ tier.isDefault = true ∧ spec.share = none)
  whole : ∀ tier ∈ tree.tiers, tier.kind = .percentage →
    (∃ id rate, (id, rate) ∈ tree.classes ∧ tier ∈ tree.sharing id) ∧
      (∃ share ∈ tier.share, share.toInt? = some tier.percent) ∧
      0 ≤ tier.percent ∧ tier.percent ≤ 100
  within : ∀ {id rate}, (id, rate) ∈ tree.classes → tree.sharedRate id ≤ rate
  floors : ∀ {id rate}, (id, rate) ∈ tree.classes → tree.sharedPercent id = 100 →
    rate - (tree.sharing id).length < tree.sharedRate id
  remainder : request.defaultSpec.kind = .percentage → request.defaultSpec.share = none →
    ∃ tier, tree.tiers.filter (·.isDefault) = [tier] ∧
      ∃ id rate, (id, rate) ∈ tree.classes ∧ tier ∈ tree.sharing id ∧
        tree.sharedPercent id = 100
  nested : ∀ {id rate}, (id, rate) ∈ tree.classes → ∀ depth,
    ((tree.sharingAt id depth).map (·.rate)).sum ≤ rate
  chain : ∀ {id rate}, (id, rate) ∈ tree.classes → ∀ depth, ∀ tier ∈ tree.sharingAt id depth,
    tier.rate ≤ rate

/-! ## Sums over the tiers that share a class -/

theorem mem_sharing_iff {tree : ClassTree} {id : Int} {tier : Tier} :
    tier ∈ tree.sharing id ↔
      tier ∈ tree.tiers ∧ tier.parent.toInt? = some id ∧ tier.kind = .percentage := by
  simp only [sharing, children, List.mem_filter, Tier.isChildOf_iff, and_assoc,
    decide_eq_true_eq]

theorem mem_classes_of_mem {tree : ClassTree} {tier : Tier} (member : tier ∈ tree.tiers) :
    (tier.id, tier.rate) ∈ tree.classes :=
  List.mem_cons_of_mem _ (List.mem_map.mpr ⟨tier, member, rfl⟩)

/-- What rounding down takes from the shares of a rate. -/
theorem sum_floors {rate : Int} {tiers : List Tier}
    (each : ∀ tier ∈ tiers, tier.rate = rate * tier.percent / 100) :
    100 * (tiers.map (·.rate)).sum ≤ rate * (tiers.map (·.percent)).sum ∧
      rate * (tiers.map (·.percent)).sum - 99 * tiers.length ≤ 100 * (tiers.map (·.rate)).sum := by
  induction tiers with
  | nil => simp
  | cons tier rest induction =>
      rcases List.forall_mem_cons.mp each with ⟨here, later⟩
      have others := induction later
      have parts := Int.mul_ediv_add_emod (rate * tier.percent) 100
      have least := Int.emod_nonneg (rate * tier.percent) (by decide : (100 : Int) ≠ 0)
      have most := Int.emod_lt_of_pos (rate * tier.percent) (by decide : (0 : Int) < 100)
      simp only [List.map_cons, List.sum_cons, List.length_cons, mul_add, here]
      push_cast
      omega

theorem mem_tiers_of_mem_sharingAt {tree : ClassTree} {id : Int} {depth : Nat} {tier : Tier}
    (member : tier ∈ tree.sharingAt id depth) : tier ∈ tree.tiers := by
  cases depth with
  | zero => exact (mem_sharing_iff.mp member).1
  | succ depth =>
      rcases List.mem_flatMap.mp member with ⟨_, _, below⟩
      exact (mem_sharing_iff.mp below).1

section Nested

variable {tree : ClassTree}
  (within : ∀ {id rate}, (id, rate) ∈ tree.classes → tree.sharedRate id ≤ rate)

include within

theorem sum_flatMap_sharing_le {tiers : List Tier} (made : ∀ tier ∈ tiers, tier ∈ tree.tiers) :
    ((tiers.flatMap fun tier => tree.sharing tier.id).map (·.rate)).sum ≤
      (tiers.map (·.rate)).sum := by
  induction tiers with
  | nil => simp
  | cons tier rest induction =>
      rcases List.forall_mem_cons.mp made with ⟨here, later⟩
      have below : tree.sharedRate tier.id ≤ tier.rate := within (mem_classes_of_mem here)
      have others := induction later
      rw [sharedRate] at below
      rw [List.flatMap_cons, List.map_append, List.sum_append, List.map_cons, List.sum_cons]
      omega

/-- Each level of shares of shares stays within the class, by induction from level to
level. -/
theorem sum_sharingAt_le {id rate : Int} (isClass : (id, rate) ∈ tree.classes) (depth : Nat) :
    ((tree.sharingAt id depth).map (·.rate)).sum ≤ rate := by
  induction depth with
  | zero => exact within isClass
  | succ depth induction =>
      exact (sum_flatMap_sharing_le within fun _ => mem_tiers_of_mem_sharingAt).trans induction

theorem rate_le_of_mem_sharingAt (positive : ∀ tier ∈ tree.tiers, 0 < tier.rate) {id rate : Int}
    (isClass : (id, rate) ∈ tree.classes) {depth : Nat} {tier : Tier}
    (member : tier ∈ tree.sharingAt id depth) : tier.rate ≤ rate := by
  have nonneg : ∀ value ∈ (tree.sharingAt id depth).map (·.rate), 0 ≤ value := by
    intro value isRate
    rcases List.mem_map.mp isRate with ⟨other, isOther, rfl⟩
    exact (positive other (mem_tiers_of_mem_sharingAt isOther)).le
  exact (List.single_le_sum nonneg _ (List.mem_map_of_mem member)).trans
    (sum_sharingAt_le within isClass depth)

end Nested

end ClassTree

namespace Allocation

/-! ## The class that a share is taken of -/

/-- A tier whose rate is the share that it has of a class with a known rate. -/
def HasShareOf (rates : List (Int × Int)) (tier : Tier) : Prop :=
  ∃ id rate share, (id, rate) ∈ rates ∧ tier.parent.toInt? = some id ∧
    tier.share = some share ∧ percentOf rate share = .ok tier.rate

theorem HasShareOf.mono {rates more : List (Int × Int)} {tier : Tier}
    (hasShare : HasShareOf rates tier) (included : rates ⊆ more) : HasShareOf more tier := by
  rcases hasShare with ⟨id, rate, share, known, rest⟩
  exact ⟨id, rate, share, included known, rest⟩

theorem hasShareOf_of_tierOf {setting : Setting} {rates : List (Int × Int)} {request : Request}
    {tier : Tier} (result : tierOf setting rates request = .ok tier)
    (percentage : tier.kind = .percentage) : HasShareOf rates tier := by
  have made := made_of_tierOf result
  rcases Result.bind_eq_ok.mp result with ⟨rate, computed, rest⟩
  rcases Result.bind_eq_ok.mp rest with ⟨_, _, rest⟩
  rcases Result.bind_eq_ok.mp rest with ⟨_, _, rest⟩
  rcases Result.bind_eq_ok.mp rest with ⟨_, _, equal⟩
  have rateSame : tier.rate = rate := by rw [← Result.pure_eq_ok.mp equal]
  rw [made.kind] at percentage
  simp only [rateOf, percentage] at computed
  split at computed
  case h_1 share parentRate given found =>
    rcases Option.map_eq_some_iff.mp found with ⟨⟨id, known⟩, row, rfl⟩
    have equal : request.spec.parent.eq (.whole id) = true := by simpa using List.find?_some row
    exact ⟨id, known, share, List.mem_of_find?_eq_some row,
      made.parent ▸ Number.eq_whole_iff.mp equal, made.share ▸ given, rateSame ▸ computed⟩
  case h_2 => cases computed
  case h_3 => cases computed

/-- Tiers are made from the front, so each of them takes its share of a class that is known
at the start or made before it. -/
theorem hasShareOf_of_makeTiers {setting : Setting} {rates : List (Int × Int)}
    {requests : List Request} (complete : (makeTiers setting rates requests).failure = none) :
    ∀ tier ∈ (makeTiers setting rates requests).tiers, tier.kind = .percentage →
      HasShareOf (rates ++ (makeTiers setting rates requests).tiers.map
        fun tier => (tier.id, tier.rate)) tier := by
  induction requests generalizing rates with
  | nil => simp [makeTiers]
  | cons request rest induction =>
      cases result : tierOf setting rates request with
      | error failure =>
          rw [makeTiers_cons_error result] at complete
          cases complete
      | ok first =>
          rw [makeTiers_cons_ok result] at complete ⊢
          refine List.forall_mem_cons.mpr ⟨fun percentage => ?_, fun tier later percentage => ?_⟩
          · exact (hasShareOf_of_tierOf result percentage).mono (List.subset_append_left ..)
          · refine (induction complete tier later percentage).mono ?_
            intro row member
            simp only [List.cons_append, List.map_cons, List.mem_cons, List.mem_append]
              at member ⊢
            tauto

/-! ## Requests and the shares of tiers -/

theorem ParentsFirst.exists_parent {known : List Int} {requests : List Request}
    (first : ParentsFirst known requests) {request : Request} (member : request ∈ requests) :
    ∃ id : Int, request.spec.parent.toInt? = some id := by
  induction requests generalizing known with
  | nil => cases member
  | cons head rest induction =>
      rcases List.mem_cons.mp member with rfl | later
      · rcases isReady_iff.mp first.1 with ⟨id, _, equal⟩
        exact ⟨id, Number.eq_whole_iff.mp equal⟩
      · exact induction first.2 later

/-- The tiers that share a class take what was claimed of it. -/
theorem sum_percent_of_made {setting : Setting} {requests : List Request} {tiers : List Tier}
    (made : List.Forall₂ (Made setting) requests tiers) (id : Int) :
    (((tiers.filter (·.isChildOf id)).filter (·.kind = .percentage)).map (·.percent)).sum =
      claims id requests := by
  induction made with
  | nil => rfl
  | @cons request tier rest others one _ induction =>
      have claim : claims id (request :: rest) = claimOf id request + claims id rest := rfl
      rw [claim, ← induction, claimOf, ← one.kind, ← one.parent, ← one.share]
      by_cases isParent : tier.parent.toInt? = some id
      · have below : tier.isChildOf id = true := Tier.isChildOf_iff.mpr isParent
        by_cases percentage : tier.kind = .percentage
        · simp [below, isParent, percentage, Tier.percent]
        · simp [below, percentage]
      · have apart : ¬ tier.isChildOf id = true := fun below =>
          isParent (Tier.isChildOf_iff.mp below)
        simp [apart, isParent]

end Allocation

namespace ClassTree

open Allocation

/-- A tree whose tiers take whole percentages of the rates of their classes. -/
structure TakesShares (tree : ClassTree) : Prop where
  distinct : (tree.classes.map (·.1)).Nodup
  range : ∀ {id rate}, (id, rate) ∈ tree.classes → 0 < rate ∧ rate ≤ 2 ^ 46
  taken : ∀ tier ∈ tree.tiers, tier.kind = .percentage → HasShareOf tree.classes tier
  stands : ∀ tier ∈ tree.tiers, tier.kind = .percentage →
    ∃ number ∈ tier.share, StandsFor number tier.percent ∧ 0 ≤ tier.percent ∧ tier.percent ≤ 100
  within : ∀ id, tree.sharedPercent id ≤ 100

section TakesShares

variable {tree : ClassTree} {id rate : Int}

/-- A tier that shares a class has its percentage of the class's rate, rounded down. -/
theorem TakesShares.rate_eq (takes : tree.TakesShares) (isClass : (id, rate) ∈ tree.classes) :
    ∀ tier ∈ tree.sharing id, tier.rate = rate * tier.percent / 100 := by
  intro tier member
  rcases mem_sharing_iff.mp member with ⟨isTier, isParent, percentage⟩
  rcases takes.taken tier isTier percentage with ⟨parent, known, share, found, same, given, rest⟩
  rcases takes.stands tier isTier percentage with ⟨number, isShare, stands, nonneg, atMost⟩
  rw [isParent, Option.some.injEq] at same
  subst same
  have row : (id, known) = (id, rate) :=
    List.inj_on_of_nodup_map takes.distinct found isClass rfl
  rw [Option.mem_def, given, Option.some.injEq] at isShare
  rw [(Prod.mk.inj row).2, isShare] at rest
  have range := takes.range isClass
  rw [percentOf_standsFor stands range.1.le range.2 nonneg atMost] at rest
  exact (Except.ok.inj rest).symm

theorem TakesShares.sharedRate_le (takes : tree.TakesShares)
    (isClass : (id, rate) ∈ tree.classes) : tree.sharedRate id ≤ rate := by
  have sums := (sum_floors (takes.rate_eq isClass)).1
  have within := mul_le_mul_of_nonneg_left (takes.within id) (takes.range isClass).1.le
  simp only [sharedRate, sharedPercent] at within ⊢
  omega

theorem TakesShares.lt_sharedRate (takes : tree.TakesShares) (isClass : (id, rate) ∈ tree.classes)
    (all : tree.sharedPercent id = 100) :
    rate - (tree.sharing id).length < tree.sharedRate id := by
  have sums := (sum_floors (takes.rate_eq isClass)).2
  have some : 0 < (tree.sharing id).length := by
    rw [List.length_pos_iff]
    intro none
    simp [sharedPercent, none] at all
  simp only [sharedRate, sharedPercent] at all ⊢
  rw [all] at sums
  omega

end TakesShares

end ClassTree

namespace TreeRequest

open Allocation

/-- Shares of tiers that share a class are whole numbers, where they are given. -/
def AsksWholeShares (request : TreeRequest) : Prop :=
  ∀ spec ∈ request.specs, spec.kind = .percentage →
    ∀ share ∈ spec.share, ∃ value : Int, share = .whole value

section Settles

variable {request : TreeRequest} {prepared : Prepared} {others : List Request}
  {last final : Request}

/-- The parents of requests stand for classes once the layers have taken all of them. -/
theorem exists_parent_of_settles (settles : Settles prepared others last final) :
    ∀ asked ∈ others ++ [last], ∃ id : Int, asked.spec.parent.toInt? = some id := by
  have perm := inLayers_perm settles.layers
  have first := inLayers_parentsFirst settles.layers
  have sameParent : final.spec.parent = last.spec.parent := by
    rw [(settled_spec settles.finished).2]
  intro asked member
  rcases List.mem_append.mp member with other | isLast
  · exact first.exists_parent (perm.mem_iff.mpr (List.mem_append_left _ other))
  · rw [List.mem_singleton.mp isLast, ← sameParent]
    exact first.exists_parent (perm.mem_iff.mpr (by simp))

theorem haveWholeShares (whole : request.AsksWholeShares)
    (checked : checkIds [] request.specs = .ok (others ++ [last]))
    (settles : Settles prepared others last final) : HaveWholeShares (others ++ [last]) := by
  rcases checkIds_eq_ok_iff.mp checked with ⟨same, each, distinct, _⟩
  constructor
  · have proper : ∀ id ∈ (others ++ [last]).map (·.id), IsTierId id := by
      intro id member
      rcases List.mem_map.mp member with ⟨other, isOther, rfl⟩
      exact (each other isOther).2
    simpa using length_le_of_distinct distinct proper
  · exact exists_parent_of_settles settles
  · intro asked member percentage
    refine whole asked.spec ?_ percentage
    rw [← same]
    exact List.mem_map_of_mem member

/-- A tier keeps what a specification asks for, but the default tier may get a share. -/
theorem exists_spec_of_made {tier : Tier} {layered : Request}
    (checked : checkIds [] request.specs = .ok (others ++ [last]))
    (settles : Settles prepared others last final) (member : layered ∈ others ++ [final])
    (made : Made prepared.setting layered tier) :
    ∃ spec ∈ request.specs, tier.outline = spec.outline ∧
      (tier.share = spec.share ∨ tier.isDefault = true ∧ spec.share = none) := by
  have same := (checkIds_eq_ok_iff.mp checked).1
  have isWhole := ((complete_ids checked settles.finished).1 layered member).1
  rcases List.mem_append.mp member with other | isFinal
  · refine ⟨layered.spec, ?_, made.outline isWhole, .inl made.share⟩
    rw [← same]
    exact List.mem_map_of_mem (List.mem_append_left _ other)
  · rw [List.mem_singleton.mp isFinal] at made isWhole
    refine ⟨last.spec, ?_, (made.outline isWhole).trans (settled_outline settles.finished), ?_⟩
    · rw [← same]
      exact List.mem_map_of_mem (by simp)
    · cases given : last.spec.share with
      | some share =>
          left
          rw [made.share, settled_of_isSome (by rw [given]; rfl) settles.finished, given]
      | none =>
          right
          rw [made.isDefault, settles.defaultId]
          simp

end Settles

section Made

variable {request : TreeRequest} {prepared : Prepared} {others : List Request}
  {last final : Request} (whole : HaveWholeShares (others ++ [last]))
  (settles : Settles prepared others last final) (complete : (outcome prepared).failure = none)

include settles complete

theorem sharedPercent_eq_claims (id : Int) :
    (treeOf prepared (outcome prepared).tiers).sharedPercent id = claims id (others ++ [final]) :=
  (sum_percent_of_made (made_of_makeTiers complete) id).trans
    (claims_perm (inLayers_perm settles.layers))

include whole

theorem exists_standsFor_of_made {tier : Tier} (member : tier ∈ (outcome prepared).tiers)
    (percentage : tier.kind = .percentage) :
    ∃ number ∈ tier.share, StandsFor number tier.percent ∧ 0 ≤ tier.percent ∧
      tier.percent ≤ 100 := by
  rcases exists_made (made_of_makeTiers complete) member with ⟨layered, isLayered, isMade⟩
  have isRequest := (inLayers_perm settles.layers).mem_iff.mp isLayered
  rw [isMade.kind] at percentage
  rcases settles.exists_standsFor whole isRequest percentage with
    ⟨number, share, isShare, stands, bounds⟩
  have given : tier.share = some number := isMade.share.trans isShare
  have same : tier.percent = share := by
    rw [Tier.percent, given, Option.bind_some, stands.toInt?, Option.getD_some]
  rw [same]
  exact ⟨number, given, stands, bounds⟩

theorem takesShares_of_settles (small : request.capacity.rate ≤ 2 ^ 46)
    (layers : request.IsLayered prepared) :
    (treeOf prepared (outcome prepared).tiers).TakesShares := by
  have made := made_of_makeTiers complete
  constructor
  · have classes : (treeOf prepared (outcome prepared).tiers).classes.map (·.1) =
        rootId :: (outcome prepared).tiers.map (·.id) := by
      simp [ClassTree.classes, treeOf, Function.comp_def]
    rw [classes]
    exact List.nodup_cons.mpr ⟨layers.root_not_mem made, layers.distinct_tiers made⟩
  · intro id rate isClass
    have capacity := layers.capacity
    rcases List.mem_cons.mp isClass with root | below
    · rw [(Prod.mk.inj root).2]
      exact ⟨prepared.setting.capacity.positive, by rw [treeOf, capacity]; exact small⟩
    · rcases List.mem_map.mp below with ⟨tier, isTier, row⟩
      rcases exists_made made isTier with ⟨layered, _, isMade⟩
      rw [← (Prod.mk.inj row).2]
      exact ⟨isMade.positive, isMade.fits.trans (by rw [capacity]; exact small)⟩
  · exact hasShareOf_of_makeTiers complete
  · exact fun tier => exists_standsFor_of_made whole settles complete
  · intro id
    rw [sharedPercent_eq_claims settles complete]
    exact settles.claims_le whole id

theorem exists_remainder (layers : request.IsLayered prepared)
    (isLast : last.spec = request.defaultSpec)
    (percentage : request.defaultSpec.kind = .percentage)
    (isOpen : request.defaultSpec.share = none) :
    ∃ tier, (outcome prepared).tiers.filter (·.isDefault) = [tier] ∧ ∃ id,
      tier ∈ (treeOf prepared (outcome prepared).tiers).sharing id ∧
        (treeOf prepared (outcome prepared).tiers).sharedPercent id = 100 := by
  have made : List.Forall₂ (Made prepared.setting) prepared.requests (outcome prepared).tiers :=
    made_of_makeTiers complete
  rcases layers.default_tier made with ⟨tier, only, outlined⟩
  rcases whole.parents last (by simp) with ⟨id, isParent⟩
  have isTier : tier ∈ (outcome prepared).tiers := by
    have member : tier ∈ (outcome prepared).tiers.filter (·.isDefault) := by rw [only]; simp
    exact (List.mem_filter.mp member).1
  have sameParent : tier.parent = request.defaultSpec.parent :=
    congrArg TierOutline.parent outlined
  have sameKind : tier.kind = request.defaultSpec.kind := congrArg TierOutline.kind outlined
  refine ⟨tier, only, id, ClassTree.mem_sharing_iff.mpr ⟨isTier, ?_, ?_⟩, ?_⟩
  · rw [sameParent, ← isLast]
    exact isParent
  · rw [sameKind, percentage]
  · rw [sharedPercent_eq_claims settles complete]
    rw [← isLast] at isOpen percentage
    exact settles.claims_eq_hundred whole isOpen percentage isParent

end Made

/-- A tree that is made of whole shares divides what the link has. -/
theorem divides_of_compile {request : TreeRequest} {roundTrip : Number} {tree : ClassTree}
    (small : request.capacity.rate ≤ 2 ^ 46) (whole : request.AsksWholeShares)
    (compiled : request.compile roundTrip = .ok tree) : tree.Divides request := by
  rcases compile_eq_ok_iff.mp compiled with ⟨prepared, ready, complete, rfl⟩
  rcases exists_settles_of_prepare ready with
    ⟨others, last, final, checked, _, isLast, settles, _, _⟩
  have layers := isLayered_of_prepare ready
  have made := made_of_makeTiers complete
  have wholeShares := haveWholeShares whole checked settles
  have takes := takesShares_of_settles wholeShares settles complete small layers
  have within := fun {id rate} => @ClassTree.TakesShares.sharedRate_le _ id rate takes
  have classOf : ∀ {tier id}, tier ∈ (treeOf prepared (outcome prepared).tiers).sharing id →
      ∃ rate, (id, rate) ∈ (treeOf prepared (outcome prepared).tiers).classes := by
    intro tier id member
    rcases ClassTree.mem_sharing_iff.mp member with ⟨isTier, isParent, percentage⟩
    rcases takes.taken tier isTier percentage with ⟨parent, rate, _, isClass, same, _⟩
    rw [isParent, Option.some.injEq] at same
    exact ⟨rate, same ▸ isClass⟩
  constructor
  · intro tier member
    rcases exists_made made member with ⟨layered, isLayered, isMade⟩
    exact exists_spec_of_made checked settles ((inLayers_perm settles.layers).mem_iff.mp isLayered)
      isMade
  · intro tier member percentage
    rcases takes.taken tier member percentage with ⟨id, rate, _, isClass, isParent, _⟩
    rcases takes.stands tier member percentage with ⟨number, given, stands, bounds⟩
    exact ⟨⟨id, rate, isClass, ClassTree.mem_sharing_iff.mpr ⟨member, isParent, percentage⟩⟩,
      ⟨number, given, stands.toInt?⟩, bounds⟩
  · exact within
  · exact takes.lt_sharedRate
  · intro percentage isOpen
    rcases exists_remainder wholeShares settles complete layers isLast percentage isOpen with
      ⟨tier, only, id, member, all⟩
    rcases classOf member with ⟨rate, isClass⟩
    exact ⟨tier, only, id, rate, isClass, member, all⟩
  · exact fun isClass => ClassTree.sum_sharingAt_le within isClass
  · intro id rate isClass depth tier member
    refine ClassTree.rate_le_of_mem_sharingAt within ?_ isClass member
    intro other isTier
    exact (takes.range (ClassTree.mem_classes_of_mem isTier)).1

/-- A request with a share of a share, and a rest for the default tier. -/
def thirds : TreeRequest where
  capacity := .tenMegabits
  reserved := []
  tiers := [{
    id := .whole 10, label := "Web", kind := .percentage, priority := .shared
    share := some 33, rate := none, ratePercent := none, parent := 1 }, {
    id := .whole 20, label := "Video", kind := .percentage, priority := .bulk
    share := some 67, rate := none, ratePercent := none, parent := 10 }]
  default := none

theorem exists_divides_thirds :
    thirds.capacity.rate ≤ 2 ^ 46 ∧ thirds.AsksWholeShares ∧
      ∃ tree, thirds.compile 50 = .ok tree ∧ tree.Divides thirds := by
  have whole : thirds.AsksWholeShares := by
    intro spec member _ share given
    simp only [specs, thirds, defaultSpec] at member
    simp at member
    rcases member with rfl | rfl | rfl
    · cases given
      exact ⟨33, rfl⟩
    · cases given
      exact ⟨67, rfl⟩
    · cases given
  refine ⟨by decide, whole, ?_⟩
  have isMade : (thirds.compile 50).isOk = true := by decide +kernel
  cases compiled : thirds.compile 50 with
  | error failure =>
      rw [compiled] at isMade
      cases isMade
  | ok tree => exact ⟨tree, rfl, divides_of_compile (by decide) whole compiled⟩

end TreeRequest

end UplinkShaper
