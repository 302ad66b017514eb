import Mathlib.Data.List.Perm.Basic
import UplinkShaper.Proofs.Allocation.Preparation
import UplinkShaper.Proofs.Allocation.Tiers
import UplinkShaper.Proofs.Keys

/-!
Well-formed class trees. A tree that is made has exactly the tiers that were asked for,
a parent stands before its children, one tier is the default one, and the rate, the curve
and the queue limit of each tier go together.
-/

namespace UplinkShaper

/-- What a tier keeps of what was asked for. -/
structure TierOutline where
  id : Value
  label : String
  kind : TierKind
  priority : Priority
  parent : Number

def TierSpec.outline (spec : TierSpec) : TierOutline where
  id := spec.id
  label := spec.label
  kind := spec.kind
  priority := spec.priority
  parent := spec.parent

def Tier.outline (tier : Tier) : TierOutline where
  id := .whole tier.id
  label := tier.label
  kind := tier.kind
  priority := tier.priority
  parent := tier.parent

namespace TreeRequest

/-- The default tier that is asked for, or the standard one. -/
def defaultSpec (request : TreeRequest) : TierSpec :=
  request.default.getD (.standard none)

/-- All tiers that a tree has, the default one last. -/
def specs (request : TreeRequest) : List TierSpec :=
  request.reserved ++ request.tiers ++ [request.defaultSpec]

end TreeRequest

namespace ClassTree

def ids (tree : ClassTree) : List Int :=
  tree.tiers.map (·.id)

/-- A tree that other parts rely on: the children of all classes, the root among them,
are a division of the tiers. -/
structure IsWellFormed (tree : ClassTree) (request : TreeRequest) : Prop where
  kept : (tree.tiers.map (·.outline)).Perm (request.specs.map (·.outline))
  distinct : tree.ids.Nodup
  parents : ∀ before tier after, tree.tiers = before ++ tier :: after →
    tier.parent = .whole rootId ∨ ∃ parent ∈ before, tier.parent = .whole parent.id
  children : ((rootId :: tree.ids).flatMap tree.children).Perm tree.tiers
  found : ∀ tier ∈ tree.tiers, tree.find? tier.id = some tier
  default : ∃ tier, tree.tiers.filter (·.isDefault) = [tier] ∧
    tier.outline = request.defaultSpec.outline
  rates : ∀ tier ∈ tree.tiers, 0 < tier.rate
  curves : ∀ tier ∈ tree.tiers, tier.curve.Fits tier.rate tier.priority
  buffers : ∀ tier ∈ tree.tiers, 4096 ≤ tier.buffer ∧ tier.buffer ≤ 131072

end ClassTree

namespace Allocation

/-! ## Parents -/

/-- Every parent of a tier is a whole number. -/
def HaveWholeParents (requests : List Request) : Prop :=
  ∀ request ∈ requests, ∃ parent : Int, request.spec.parent = .whole parent

/-- The parent of a ready request is one of the known classes. -/
theorem exists_of_isReady {known : List Int} {request : Request} {parent : Int}
    (whole : request.spec.parent = .whole parent) (ready : isReady known request = true) :
    parent ∈ known := by
  rcases isReady_iff.mp ready with ⟨id, member, equal⟩
  rw [whole, Number.whole_eq_whole] at equal
  exact equal ▸ member

/-- With parents first, a tier is below a known class or one of the tiers before it. -/
theorem parents_of_made {setting : Setting} {known : List Int} {requests : List Request}
    {tiers : List Tier} (first : ParentsFirst known requests)
    (whole : HaveWholeParents requests) (made : List.Forall₂ (Made setting) requests tiers)
    {before after : List Tier} {tier : Tier} (split : tiers = before ++ tier :: after) :
    ∃ parent, tier.parent = .whole parent ∧ (parent ∈ known ∨ parent ∈ before.map (·.id)) := by
  induction made generalizing known before with
  | nil => simp at split
  | @cons request head rest others one _ induction =>
      rcases List.forall_mem_cons.mp whole with ⟨⟨parent, isWhole⟩, wholeRest⟩
      cases before with
      | nil =>
          rcases List.cons.inj split with ⟨rfl, _⟩
          exact ⟨parent, one.parent.trans isWhole, .inl (exists_of_isReady isWhole first.1)⟩
      | cons previous earlier =>
          rcases List.cons.inj split with ⟨rfl, splitRest⟩
          rcases induction first.2 wholeRest splitRest with ⟨id, isParent, place⟩
          refine ⟨id, isParent, ?_⟩
          rcases place with inKnown | later
          · rcases List.mem_append.mp inKnown with old | new
            · exact .inl old
            · right
              rw [List.mem_singleton.mp new, ← one.id]
              exact List.mem_cons_self ..
          · exact .inr (List.mem_cons_of_mem _ later)

/-! ## What tiers keep -/

theorem Made.outline {setting : Setting} {request : Request} {tier : Tier}
    (made : Made setting request tier) (isWhole : request.spec.id = .whole request.id) :
    tier.outline = request.spec.outline := by
  simp only [Tier.outline, TierSpec.outline, made.id, made.label, made.kind, made.priority,
    made.parent, isWhole]

theorem outlines_of_made {setting : Setting} {requests : List Request} {tiers : List Tier}
    (made : List.Forall₂ (Made setting) requests tiers)
    (ids : ∀ request ∈ requests, request.spec.id = .whole request.id) :
    tiers.map (·.outline) = requests.map (·.spec.outline) := by
  induction made with
  | nil => rfl
  | @cons request tier rest others one _ induction =>
      rcases List.forall_mem_cons.mp ids with ⟨isWhole, idsRest⟩
      rw [List.map_cons, List.map_cons, induction idsRest]
      rw [one.outline isWhole]

theorem ids_of_made {setting : Setting} {requests : List Request} {tiers : List Tier}
    (made : List.Forall₂ (Made setting) requests tiers) :
    tiers.map (·.id) = requests.map (·.id) := by
  induction made with
  | nil => rfl
  | cons one _ induction => rw [List.map_cons, List.map_cons, induction, one.id]

theorem exists_made {setting : Setting} {requests : List Request} {tiers : List Tier}
    (made : List.Forall₂ (Made setting) requests tiers) {tier : Tier} (member : tier ∈ tiers) :
    ∃ request ∈ requests, Made setting request tier := by
  induction made with
  | nil => cases member
  | @cons request head rest others one _ induction =>
      rcases List.mem_cons.mp member with rfl | later
      · exact ⟨request, List.mem_cons_self .., one⟩
      · rcases induction later with ⟨other, found, isMade⟩
        exact ⟨other, List.mem_cons_of_mem _ found, isMade⟩

theorem exists_tier_of_made {setting : Setting} {requests : List Request} {tiers : List Tier}
    (made : List.Forall₂ (Made setting) requests tiers) {request : Request}
    (member : request ∈ requests) : ∃ tier ∈ tiers, Made setting request tier := by
  induction made with
  | nil => cases member
  | @cons head tier rest others one _ induction =>
      rcases List.mem_cons.mp member with rfl | later
      · exact ⟨tier, List.mem_cons_self .., one⟩
      · rcases induction later with ⟨other, found, isMade⟩
        exact ⟨other, List.mem_cons_of_mem _ found, isMade⟩

/-- Of tiers with different ids, one is the default tier. -/
theorem default_of_made {setting : Setting} {requests : List Request} {tiers : List Tier}
    (made : List.Forall₂ (Made setting) requests tiers) (distinct : (tiers.map (·.id)).Nodup)
    {final : Request} (member : final ∈ requests) (isDefault : setting.defaultId = final.id) :
    ∃ tier, tiers.filter (·.isDefault) = [tier] ∧ Made setting final tier := by
  rcases exists_tier_of_made made member with ⟨tier, tierMember, isMade⟩
  have marked : ∀ other ∈ tiers, other.isDefault = decide (other.id = tier.id) := by
    intro other otherMember
    rcases exists_made made otherMember with ⟨request, _, otherMade⟩
    rw [otherMade.isDefault, otherMade.id, isMade.id, isDefault]
  refine ⟨tier, ?_, isMade⟩
  rw [List.filter_congr marked]
  exact filter_key_eq_singleton distinct tierMember

theorem settled_outline {others : List Request} {last final : Request}
    (result : settled others last = .ok final) : final.spec.outline = last.spec.outline := by
  rw [(settled_spec result).2]
  rfl

/-- The requests of a tree with their ids, once the default tier has its share. -/
theorem complete_ids {specs : List TierSpec} {others : List Request} {last final : Request}
    (checked : checkIds [] specs = .ok (others ++ [last]))
    (finished : settled others last = .ok final) :
    (∀ request ∈ others ++ [final], request.spec.id = .whole request.id ∧ IsTierId request.id) ∧
      ((others ++ [final]).map (·.id)).Nodup := by
  rcases checkIds_eq_ok_iff.mp checked with ⟨_, each, distinct, _⟩
  rcases settled_spec finished with ⟨sameId, sameSpec⟩
  constructor
  · intro request member
    rcases List.mem_append.mp member with other | isFinal
    · exact each request (List.mem_append_left _ other)
    · rw [List.mem_singleton.mp isFinal, sameSpec, sameId]
      exact each last (List.mem_append_right _ (List.mem_cons_self ..))
  · simpa [sameId] using distinct

end Allocation

namespace ClassTree

/-- The children of all classes are a division of the tiers, if each tier's parent is
one of the classes. -/
theorem children_perm {tree : ClassTree} (distinct : tree.ids.Nodup) (notRoot : rootId ∉ tree.ids)
    (parents : ∀ tier ∈ tree.tiers, ∃ parent ∈ rootId :: tree.ids, tier.parent = .whole parent) :
    ((rootId :: tree.ids).flatMap tree.children).Perm tree.tiers := by
  have tiersDistinct : tree.tiers.Nodup := List.Nodup.of_map _ distinct
  have classes : (rootId :: tree.ids).Nodup := List.nodup_cons.mpr ⟨notRoot, distinct⟩
  rw [List.perm_ext_iff_of_nodup ?_ tiersDistinct]
  · intro tier
    rw [List.mem_flatMap]
    constructor
    · rintro ⟨id, _, child⟩
      exact (List.mem_filter.mp child).1
    · intro member
      rcases parents tier member with ⟨parent, known, isParent⟩
      refine ⟨parent, known, List.mem_filter.mpr ⟨member, ?_⟩⟩
      simp [Tier.isChildOf, isParent]
  · rw [List.nodup_flatMap]
    refine ⟨fun id _ => tiersDistinct.filter _, ?_⟩
    apply classes.imp_of_mem
    intro left right _ _ different tier inLeft inRight
    rcases parents tier (List.mem_filter.mp inLeft).1 with ⟨parent, _, isParent⟩
    have isLeft := (List.mem_filter.mp inLeft).2
    have isRight := (List.mem_filter.mp inRight).2
    simp only [Tier.isChildOf, isParent, Number.whole_eq_whole] at isLeft isRight
    exact different (isLeft.symm.trans isRight)

end ClassTree

namespace TreeRequest

open Allocation

/-- Once the ids are checked, everything before the rates is done with the requests for the
specifications. -/
theorem prepare_eq_of_checkIds {request : TreeRequest} {others : List Request} {last : Request}
    (checked : checkIds [] request.specs = .ok (others ++ [last])) (roundTrip : Number) :
    request.prepare roundTrip = settleAll roundTrip request.capacity others last := by
  have parts := (checkIds_eq_ok_iff.mp checked).1
  rw [List.map_append, List.map_singleton, specs] at parts
  rcases List.append_inj' parts rfl with ⟨same, isLast⟩
  exact prepare_eq_settleAll checked same (List.singleton_inj.mp isLast)

/-- The requests keep what was asked for, once the default tier has its share. -/
theorem outlines_of_settled {request : TreeRequest} {others : List Request} {last final : Request}
    (checked : checkIds [] request.specs = .ok (others ++ [last]))
    (finished : settled others last = .ok final) :
    (others ++ [final]).map (·.spec.outline) = request.specs.map (·.outline) := by
  rw [← (checkIds_eq_ok_iff.mp checked).1]
  simp [settled_outline finished]

/-- The requests for the tiers of a tree, once they are in layers. -/
structure IsLayered (request : TreeRequest) (prepared : Prepared) : Prop where
  capacity : prepared.setting.capacity = request.capacity
  first : ParentsFirst [rootId] prepared.requests
  ids : ∀ layered ∈ prepared.requests, layered.spec.id = .whole layered.id ∧ IsTierId layered.id
  distinct : (prepared.requests.map (·.id)).Nodup
  kept : (prepared.requests.map (·.spec.outline)).Perm (request.specs.map (·.outline))
  default : ∃ final ∈ prepared.requests, prepared.setting.defaultId = final.id ∧
    final.spec.outline = request.defaultSpec.outline

theorem isLayered_of_prepare {request : TreeRequest} {roundTrip : Number} {prepared : Prepared}
    (ready : request.prepare roundTrip = .ok prepared) : request.IsLayered prepared := by
  rcases exists_settles_of_prepare ready with
    ⟨others, last, final, checked, _, isLast, settles, sameCapacity, _⟩
  rcases complete_ids checked settles.finished with ⟨ids, distinctIds⟩
  have perm := inLayers_perm settles.layers
  have finalOutline : final.spec.outline = request.defaultSpec.outline := by
    rw [settled_outline settles.finished, isLast]
    rfl
  constructor
  · exact sameCapacity
  · exact inLayers_parentsFirst settles.layers
  · intro layered member
    exact ids layered (perm.mem_iff.mp member)
  · exact (perm.map _).nodup_iff.mpr distinctIds
  · rw [← outlines_of_settled checked settles.finished]
    exact perm.map _
  · have member : final ∈ prepared.requests :=
      perm.mem_iff.mpr (List.mem_append_right _ (List.mem_cons_self ..))
    exact ⟨final, member, settles.defaultId, finalOutline⟩

theorem IsLayered.haveWholeParents {request : TreeRequest} {prepared : Prepared}
    (layers : request.IsLayered prepared)
    (whole : ∀ spec ∈ request.specs, ∃ parent : Int, spec.parent = .whole parent) :
    HaveWholeParents prepared.requests := by
  intro layered member
  have outlined : layered.spec.outline ∈ request.specs.map (·.outline) :=
    layers.kept.mem_iff.mp (List.mem_map_of_mem member)
  rcases List.mem_map.mp outlined with ⟨spec, isSpec, equal⟩
  rcases whole spec isSpec with ⟨parent, isParent⟩
  exact ⟨parent, (congrArg TierOutline.parent equal).symm.trans isParent⟩

/-- What a tree that is made says of each of its tiers. -/
theorem exists_made_of_compile {request : TreeRequest} {roundTrip : Number} {tree : ClassTree}
    (compiled : request.compile roundTrip = .ok tree) :
    tree.capacity = request.capacity ∧ ∀ tier ∈ tree.tiers, IsTierId tier.id ∧
      ∃ setting layered, setting.capacity = request.capacity ∧ Made setting layered tier := by
  rcases compile_eq_ok_iff.mp compiled with ⟨prepared, ready, complete, rfl⟩
  have layers := isLayered_of_prepare ready
  refine ⟨layers.capacity, fun tier member => ?_⟩
  rcases exists_made (made_of_makeTiers complete) member with ⟨layered, isLayered, made⟩
  refine ⟨?_, prepared.setting, layered, layers.capacity, made⟩
  rw [made.id]
  exact (layers.ids layered isLayered).2

theorem isTierId_of_compile {request : TreeRequest} {roundTrip : Number} {tree : ClassTree}
    (compiled : request.compile roundTrip = .ok tree) : ∀ tier ∈ tree.tiers, IsTierId tier.id :=
  fun tier member => ((exists_made_of_compile compiled).2 tier member).1

section Made

variable {request : TreeRequest} {prepared : Prepared} {tiers : List Tier}

theorem IsLayered.parents (layers : request.IsLayered prepared)
    (whole : ∀ spec ∈ request.specs, ∃ parent : Int, spec.parent = .whole parent)
    (made : List.Forall₂ (Made prepared.setting) prepared.requests tiers)
    {before after : List Tier} {tier : Tier} (split : tiers = before ++ tier :: after) :
    tier.parent = .whole rootId ∨ ∃ parent ∈ before, tier.parent = .whole parent.id := by
  rcases parents_of_made layers.first (layers.haveWholeParents whole) made split with
    ⟨parent, isParent, place⟩
  rcases place with known | earlier
  · exact .inl (List.mem_singleton.mp known ▸ isParent)
  · rcases List.mem_map.mp earlier with ⟨above, member, equal⟩
    exact .inr ⟨above, member, equal ▸ isParent⟩

theorem IsLayered.exists_parent (layers : request.IsLayered prepared)
    (whole : ∀ spec ∈ request.specs, ∃ parent : Int, spec.parent = .whole parent)
    (made : List.Forall₂ (Made prepared.setting) prepared.requests tiers)
    {tier : Tier} (member : tier ∈ tiers) :
    ∃ parent ∈ rootId :: tiers.map (·.id), tier.parent = .whole parent := by
  rcases List.append_of_mem member with ⟨before, after, split⟩
  rcases layers.parents whole made split with isRoot | ⟨parent, earlier, isParent⟩
  · exact ⟨rootId, List.mem_cons_self .., isRoot⟩
  · refine ⟨parent.id, List.mem_cons_of_mem _ (List.mem_map_of_mem ?_), isParent⟩
    exact split ▸ List.mem_append_left _ earlier

theorem IsLayered.distinct_tiers (layers : request.IsLayered prepared)
    (made : List.Forall₂ (Made prepared.setting) prepared.requests tiers) :
    (tiers.map (·.id)).Nodup := by
  rw [ids_of_made made]
  exact layers.distinct

theorem IsLayered.root_not_mem (layers : request.IsLayered prepared)
    (made : List.Forall₂ (Made prepared.setting) prepared.requests tiers) :
    rootId ∉ tiers.map (·.id) := by
  rw [ids_of_made made]
  intro member
  rcases List.mem_map.mp member with ⟨layered, isLayered, equal⟩
  have proper := (layers.ids layered isLayered).2.1
  simp only [equal, rootId] at proper
  omega

theorem IsLayered.default_tier (layers : request.IsLayered prepared)
    (made : List.Forall₂ (Made prepared.setting) prepared.requests tiers) :
    ∃ tier, tiers.filter (·.isDefault) = [tier] ∧ tier.outline = request.defaultSpec.outline := by
  rcases layers.default with ⟨final, member, isDefault, finalOutline⟩
  rcases default_of_made made (layers.distinct_tiers made) member isDefault with
    ⟨tier, only, isMade⟩
  refine ⟨tier, only, ?_⟩
  rw [isMade.outline (layers.ids final member).1, finalOutline]

end Made

/-- A tree that is made has the tiers that were asked for. -/
theorem outlines_of_compile {request : TreeRequest} {roundTrip : Number} {tree : ClassTree}
    (compiled : request.compile roundTrip = .ok tree) :
    (tree.tiers.map (·.outline)).Perm (request.specs.map (·.outline)) := by
  rcases compile_eq_ok_iff.mp compiled with ⟨prepared, ready, complete, rfl⟩
  have layers := isLayered_of_prepare ready
  have made := made_of_makeTiers complete
  have kept : (outcome prepared).tiers.map (·.outline) =
      prepared.requests.map (·.spec.outline) :=
    outlines_of_made made fun layered member => (layers.ids layered member).1
  exact kept ▸ layers.kept

/-- A tree that is made is well-formed, whatever rates and shares were asked for. -/
theorem isWellFormed_of_compile {request : TreeRequest} {roundTrip : Number} {tree : ClassTree}
    (whole : ∀ spec ∈ request.specs, ∃ parent : Int, spec.parent = .whole parent)
    (compiled : request.compile roundTrip = .ok tree) : tree.IsWellFormed request := by
  rcases compile_eq_ok_iff.mp compiled with ⟨prepared, ready, complete, rfl⟩
  have layers := isLayered_of_prepare ready
  have made := made_of_makeTiers complete
  have distinct := layers.distinct_tiers made
  have known := fun tier => @IsLayered.exists_parent _ _ _ layers whole made tier
  have each : ∀ tier ∈ (outcome prepared).tiers,
      ∃ layered, Made prepared.setting layered tier := by
    intro tier member
    rcases exists_made made member with ⟨layered, _, isMade⟩
    exact ⟨layered, isMade⟩
  exact {
    kept := outlines_of_compile compiled
    distinct := distinct
    parents := fun _ _ _ => layers.parents whole made
    children := ClassTree.children_perm distinct (layers.root_not_mem made) known
    found := fun _ member => find?_key_eq_some distinct member
    default := layers.default_tier made
    rates := fun tier member => (each tier member).elim fun _ isMade => isMade.positive
    curves := fun tier member => (each tier member).elim fun _ isMade => isMade.curve
    buffers := fun tier member => (each tier member).elim fun _ isMade => isMade.buffer }

/-- A request with a tier below a tier that is named after it. -/
def nested : TreeRequest where
  capacity := .tenMegabits
  reserved := [{
    id := .whole 2, label := "Voice", kind := .reserved, priority := .realtimeStrict
    share := none, rate := some 1000, ratePercent := none, parent := 10 }]
  tiers := [{
    id := .whole 10, label := "Web", kind := .percentage, priority := .shared
    share := some 60, rate := none, ratePercent := none, parent := 1 }]
  default := none

theorem exists_wellFormed_nested :
    (∀ spec ∈ nested.specs, ∃ parent : Int, spec.parent = .whole parent) ∧
      ∃ tree, nested.compile 50 = .ok tree ∧ tree.IsWellFormed nested := by
  have whole : ∀ spec ∈ nested.specs, ∃ parent : Int, spec.parent = .whole parent := by
    intro spec member
    simp only [specs, nested, defaultSpec] at member
    simp at member
    rcases member with rfl | rfl | rfl
    · exact ⟨10, rfl⟩
    · exact ⟨1, rfl⟩
    · exact ⟨1, rfl⟩
  refine ⟨whole, ?_⟩
  have isMade : (nested.compile 50).isOk = true := by decide +kernel
  cases compiled : nested.compile 50 with
  | error failure =>
      rw [compiled] at isMade
      cases isMade
  | ok tree => exact ⟨tree, rfl, isWellFormed_of_compile whole compiled⟩

end TreeRequest

end UplinkShaper
