import Mathlib.Logic.Relation
import UplinkShaper.Proofs.Classify.Landing

/-!
Tiers without a way to the root. Ordering in layers stops at the first tier, in the order of
declaration, whose chain of parents does not end at the root, and the refusal names this tier.
That its parent does not exist is only said where it is so. That it is part of a cycle is said
of all others, also of those that stand below a missing parent or below a cycle themselves.
-/

namespace UplinkShaper

namespace TierSpec

/-- A chain of parents that ends at the root. -/
inductive IsRooted (specs : List TierSpec) : TierSpec → Prop
  | near {spec : TierSpec} : spec.parent.eq (.whole rootId) = true → IsRooted specs spec
  | far {spec above : TierSpec} : above ∈ specs → spec.IsBelow above → IsRooted specs above →
      IsRooted specs spec

/-- A chain of parents, of one step at least, from one tier to another. -/
def LeadsTo (specs : List TierSpec) : TierSpec → TierSpec → Prop :=
  Relation.TransGen fun spec above => above ∈ specs ∧ spec.IsBelow above

/-- A tier that is itself to blame: its parent was not asked for, or its parents lead back to
it. -/
def IsCulprit (specs : List TierSpec) (spec : TierSpec) : Prop :=
  (∀ other ∈ specs, ¬ spec.IsBelow other) ∨ LeadsTo specs spec spec

/-- The first tier whose chain of parents does not end at the root. -/
structure IsFirstStray (specs : List TierSpec) (stray : TierSpec) : Prop where
  first : ∃ before after, specs = before ++ stray :: after ∧ ∀ spec ∈ before, IsRooted specs spec
  notRooted : ¬ IsRooted specs stray

theorem parent_eq_of_outline_eq {spec other : TierSpec} (same : spec.outline = other.outline) :
    spec.parent = other.parent :=
  congrArg TierOutline.parent same

theorem isBelow_iff_of_id {spec above : TierSpec} {id : Int} (isId : above.id = .whole id) :
    spec.IsBelow above ↔ spec.parent.eq (.whole id) = true := by
  constructor
  · rintro ⟨number, isNumber, equal⟩
    cases isId.symm.trans isNumber
    exact equal
  · exact fun equal => ⟨_, isId, equal⟩

end TierSpec

/-- A cause that is about the place of a tier among the others. -/
def AllocationCause.IsOfHierarchy : AllocationCause → Prop
  | .parentMissing _ | .parentCycle => True
  | _ => False

/-- A refusal that says of a tier what is true of it. -/
structure AllocationError.NamesCulprit (error : AllocationError) (specs : List TierSpec) :
    Prop where
  missing : ∀ parent, error.cause = .parentMissing parent →
    ∃ spec ∈ specs, error.tier = spec.id ∧ spec.parent = parent ∧
      parent.eq (.whole rootId) = false ∧ ∀ other ∈ specs, ¬ spec.IsBelow other
  cycle : error.cause = .parentCycle →
    ∃ spec ∈ specs, error.tier = spec.id ∧ TierSpec.LeadsTo specs spec spec

namespace Allocation

/-! ## Where the layers stop -/

/-- A chain that ends after a layer was taken away ends before it. -/
theorem Rooted.before_layer {known : List Int} {pending : List Request} {request : Request}
    (rooted : Rooted (known ++ (ready known pending).map (·.id)) (waiting known pending) request) :
    Rooted known pending request := by
  induction rooted with
  | near holds =>
      rcases isReady_iff.mp holds with ⟨id, found, equal⟩
      rcases List.mem_append.mp found with old | new
      · exact .near (isReady_iff.mpr ⟨id, old, equal⟩)
      · rcases List.mem_map.mp new with ⟨above, isAbove, rfl⟩
        rcases List.mem_filter.mp isAbove with ⟨isPending, aboveReady⟩
        exact .far isPending equal (.near aboveReady)
  | far member equal _ induction => exact .far (List.mem_filter.mp member).1 equal induction

/-- The layers stop at the first pending tier whose chain of parents does not end. -/
theorem exists_stray_of_inLayers {declared known : List Int} {pending : List Request}
    {failure : Failure} (failed : inLayers declared known pending = .error failure) :
    ∃ before stray after, pending = before ++ stray :: after ∧
      (∀ request ∈ before, Rooted known pending request) ∧ ¬ Rooted known pending stray ∧
      (unreachable declared stray : Except Failure (List Request)) = .error failure := by
  fun_induction inLayers declared known pending with
  | case1 => cases failed
  | case2 known first others _ layer induction =>
      cases rest : inLayers declared (known ++ layer.map (·.id))
          (waiting known (first :: others)) with
      | ok later =>
          rw [rest] at failed
          cases failed
      | error =>
          rw [rest] at failed
          cases failed
          rcases induction rest with ⟨before, stray, after, isWaiting, rooted, notRooted, isError⟩
          -- In between stand the tiers of this layer, and these are rooted too.
          rcases List.filter_eq_append_iff.mp isWaiting with
            ⟨front, back, split, isBefore, isAfter⟩
          rcases List.filter_eq_cons_iff.mp isAfter with
            ⟨between, last, splitBack, skipped, _, _⟩
          refine ⟨front ++ between, stray, last, ?_, ?_, ?_, isError⟩
          · rw [split, splitBack, List.append_assoc]
          · intro request member
            by_cases isReadyHere : isReady known request = true
            · exact .near isReadyHere
            rcases List.mem_append.mp member with inFront | inBetween
            · refine (rooted request ?_).before_layer
              rw [← isBefore]
              exact List.mem_filter.mpr ⟨inFront, by simpa using isReadyHere⟩
            · exact absurd (skipped request inBetween) (by simpa using isReadyHere)
          · exact fun isRooted => notRooted isRooted.after_layer
  | case3 known first others stuck =>
      refine ⟨[], first, others, rfl, by simp, fun rooted => ?_, failed⟩
      exact stuck (rooted.exists_ready (List.mem_cons_self ..))

/-! ## Refusals for other reasons -/

/-- A result that is no refusal about the place of a tier. -/
def LeavesPlaces (result : Except Failure α) : Prop :=
  ∀ error, result = .error (.allocation error) → ¬ error.cause.IsOfHierarchy

theorem leavesPlaces_ok (value : α) : LeavesPlaces (.ok value : Except Failure α) := by
  intro error failed
  cases failed

theorem leavesPlaces_error {failure : Failure} (other : ∀ error, failure ≠ .allocation error) :
    LeavesPlaces (.error failure : Except Failure α) := by
  intro error failed
  cases failed
  exact absurd rfl (other error)

theorem LeavesPlaces.bind {result : Except Failure α} {next : α → Except Failure β}
    (first : LeavesPlaces result)
    (later : ∀ value, result = .ok value → LeavesPlaces (next value)) :
    LeavesPlaces (result >>= next) := by
  cases result with
  | ok value => exact later value rfl
  | error failure =>
      intro error failed
      cases failed
      exact first error rfl

/-- A refusal about the place of a tier comes after what is no such refusal. -/
theorem LeavesPlaces.exists_next {result : Except Failure α} {next : α → Except Failure β}
    {error : AllocationError} (first : LeavesPlaces result)
    (failed : result >>= next = .error (.allocation error))
    (hierarchy : error.cause.IsOfHierarchy) :
    ∃ value, result = .ok value ∧ next value = .error (.allocation error) := by
  cases result with
  | ok value => exact ⟨value, rfl, failed⟩
  | error failure =>
      cases failed
      exact absurd hierarchy (first error rfl)

theorem leavesPlaces_refuse {cause : AllocationCause} {tier value : Value}
    (other : ¬ cause.IsOfHierarchy) :
    LeavesPlaces (refuse cause tier value : Except Failure α) := by
  intro error failed
  simp only [refuse, Failure.ofAllocation] at failed
  split at failed
  · cases failed
    exact other
  · cases failed

theorem leavesPlaces_arithmetic (result : Except ArithmeticError α) :
    LeavesPlaces (arithmetic result) := by
  intro error failed
  cases result with
  | ok => cases failed
  | error reason => cases reason <;> cases failed

theorem leavesPlaces_forM {check : α → Except Failure Unit} {items : List α}
    (each : ∀ item ∈ items, LeavesPlaces (check item)) : LeavesPlaces (items.forM check) := by
  induction items with
  | nil => exact leavesPlaces_ok ()
  | cons item rest induction =>
      rcases List.forall_mem_cons.mp each with ⟨here, later⟩
      rw [List.forM]
      exact here.bind fun _ _ => induction later

theorem leavesPlaces_checkId (seen : List Int) (spec : TierSpec) :
    LeavesPlaces (checkId seen spec) := by
  unfold checkId
  split
  · split
    · exact leavesPlaces_refuse not_false
    · split
      · exact leavesPlaces_refuse not_false
      · split
        · exact leavesPlaces_error nofun
        · split
          · exact leavesPlaces_refuse not_false
          · split
            · exact leavesPlaces_refuse not_false
            · exact leavesPlaces_ok _
  · exact leavesPlaces_refuse not_false

theorem leavesPlaces_checkIds (seen : List Int) (specs : List TierSpec) :
    LeavesPlaces (checkIds seen specs) := by
  induction specs generalizing seen with
  | nil => exact leavesPlaces_ok []
  | cons spec rest induction =>
      rw [checkIds]
      refine (leavesPlaces_checkId seen spec).bind fun request _ => ?_
      exact (induction _).bind fun others _ => leavesPlaces_ok _

theorem leavesPlaces_checkRequest (request : Request) : LeavesPlaces (checkRequest request) := by
  unfold checkRequest
  dsimp only
  split
  · split
    · exact leavesPlaces_refuse not_false
    · exact leavesPlaces_ok ()
  · split
    · exact leavesPlaces_refuse not_false
    · split
      · exact leavesPlaces_ok ()
      · exact leavesPlaces_refuse not_false

theorem leavesPlaces_shareTotals (requests : List Request) :
    LeavesPlaces (shareTotals requests) := by
  induction requests using List.reverseRecOn with
  | nil => exact leavesPlaces_ok []
  | append_singleton done request induction =>
      rw [shareTotals, List.foldlM_append]
      refine induction.bind fun totals _ => ?_
      rw [List.foldlM_cons]
      refine LeavesPlaces.bind ?_ fun _ _ => leavesPlaces_ok _
      cases request.spec.kind with
      | reserved => exact leavesPlaces_ok totals
      | percentage => exact (leavesPlaces_arithmetic _).bind fun _ _ => leavesPlaces_ok _

theorem leavesPlaces_checkTotals (totals : List (Number × Double)) :
    LeavesPlaces (checkTotals totals) := by
  unfold checkTotals
  split
  · exact leavesPlaces_refuse not_false
  · exact leavesPlaces_ok ()

theorem leavesPlaces_settled (others : List Request) (last : Request) :
    LeavesPlaces (settled others last) := by
  unfold settled
  split
  · exact leavesPlaces_ok last
  · exact (leavesPlaces_shareTotals others).bind fun _ _ => leavesPlaces_ok _

theorem leavesPlaces_rateOf (capacity : Int) (rates : List (Int × Int)) (spec : TierSpec) :
    LeavesPlaces (rateOf capacity rates spec) := by
  unfold rateOf
  split
  · split
    · exact leavesPlaces_arithmetic _
    · exact leavesPlaces_arithmetic _
    · exact leavesPlaces_error nofun
  · split
    · exact leavesPlaces_arithmetic _
    · exact leavesPlaces_error nofun
    · exact leavesPlaces_error nofun

theorem leavesPlaces_tierOf (setting : Setting) (rates : List (Int × Int)) (request : Request) :
    LeavesPlaces (tierOf setting rates request) := by
  rw [tierOf]
  refine (leavesPlaces_rateOf _ _ _).bind fun rate _ => LeavesPlaces.bind ?_ fun _ _ => ?_
  · unfold checkRate
    split
    · exact leavesPlaces_refuse not_false
    · split
      · exact leavesPlaces_refuse not_false
      · exact leavesPlaces_ok ()
  · refine LeavesPlaces.bind ?_ fun curve _ => LeavesPlaces.bind ?_ fun _ _ => leavesPlaces_ok _
    · unfold ServiceCurve.ofRate
      split
      · exact leavesPlaces_ok _
      · exact (leavesPlaces_arithmetic _).bind fun _ _ => leavesPlaces_ok _
    · unfold Buffer.size
      exact (leavesPlaces_arithmetic _).bind fun _ _ =>
        (leavesPlaces_arithmetic _).bind fun _ _ => leavesPlaces_ok _

theorem not_isOfHierarchy_of_makeTiers {setting : Setting} {rates : List (Int × Int)}
    {requests : List Request} {error : AllocationError}
    (failed : (makeTiers setting rates requests).failure = some (.allocation error)) :
    ¬ error.cause.IsOfHierarchy := by
  induction requests generalizing rates with
  | nil => cases failed
  | cons request rest induction =>
      cases result : tierOf setting rates request with
      | error failure =>
          rw [makeTiers_cons_error result] at failed
          cases failed
          exact leavesPlaces_tierOf setting rates request error result
      | ok tier =>
          rw [makeTiers_cons_ok result] at failed
          exact induction failed

/-! ## Refusals for the place of a tier -/

/-- Only the layers refuse a tier for its place, once everything before them succeeded. -/
theorem inLayers_of_settleAll {roundTrip : Number} {capacity : LinkCapacity}
    {others : List Request} {last : Request} {error : AllocationError}
    (failed : settleAll roundTrip capacity others last = .error (.allocation error))
    (hierarchy : error.cause.IsOfHierarchy) :
    ∃ final, settled others last = .ok final ∧
      inLayers ((others ++ [final]).map (·.id)) [rootId] (others ++ [final]) =
        .error (.allocation error) := by
  rcases (leavesPlaces_forM fun request _ => leavesPlaces_checkRequest request).exists_next
    failed hierarchy with ⟨_, _, failed⟩
  rcases (leavesPlaces_shareTotals _).exists_next failed hierarchy with ⟨totals, _, failed⟩
  rcases (leavesPlaces_checkTotals totals).exists_next failed hierarchy with ⟨_, _, failed⟩
  rcases (leavesPlaces_settled others last).exists_next failed hierarchy with
    ⟨final, finished, failed⟩
  rcases (leavesPlaces_shareTotals _).exists_next failed hierarchy with ⟨_, _, failed⟩
  refine ⟨final, finished, ?_⟩
  cases ordered : inLayers ((others ++ [final]).map (·.id)) [rootId] (others ++ [final]) with
  | ok =>
      rw [ordered] at failed
      cases failed
  | error =>
      rw [ordered] at failed
      cases failed
      rfl

end Allocation

namespace TreeRequest

open Allocation

/-- What a refusal of a request for the place of a tier goes back to. -/
theorem inLayers_of_compile {request : TreeRequest} {roundTrip : Number} {error : AllocationError}
    (failed : request.compile roundTrip = .error (.allocation error))
    (hierarchy : error.cause.IsOfHierarchy) :
    ∃ others last final, checkIds [] request.specs = .ok (others ++ [last]) ∧
      settled others last = .ok final ∧
        inLayers ((others ++ [final]).map (·.id)) [rootId] (others ++ [final]) =
          .error (.allocation error) := by
  cases ready : request.prepare roundTrip with
  | ok prepared =>
      rw [compile, ready, Result.ok_bind] at failed
      dsimp only at failed
      split at failed
      case h_1 failure stopped =>
        cases failed
        exact absurd hierarchy (not_isOfHierarchy_of_makeTiers stopped)
      case h_2 => cases failed
  | error failure =>
      rw [compile, ready] at failed
      cases failed
      have prepared := ready
      rcases (leavesPlaces_checkIds [] request.specs).exists_next ready hierarchy with
        ⟨requests, checked, _⟩
      rcases exists_of_checkIds checked with ⟨others, last, rfl, _, _⟩
      rw [prepare_eq_of_checkIds checked] at prepared
      rcases inLayers_of_settleAll prepared hierarchy with ⟨final, stopped⟩
      exact ⟨others, last, final, checked, stopped⟩

section Settled

variable {request : TreeRequest} {others : List Request} {last final : Request}
  (checked : checkIds [] request.specs = .ok (others ++ [last]))
  (finished : settled others last = .ok final)

include checked

/-- A tier is known by its id. -/
theorem eq_of_id_eq {spec other : TierSpec} (isSpec : spec ∈ request.specs)
    (isOther : other ∈ request.specs) (same : spec.id = other.id) : spec = other := by
  rcases checkIds_eq_ok_iff.mp checked with ⟨specs, each, distinct, _⟩
  rw [← specs] at isSpec isOther
  rcases List.mem_map.mp isSpec with ⟨first, isFirst, rfl⟩
  rcases List.mem_map.mp isOther with ⟨second, isSecond, rfl⟩
  rw [(each first isFirst).1, (each second isSecond).1] at same
  injection same with inside
  injection inside with equal
  rw [List.inj_on_of_nodup_map distinct isFirst isSecond equal]

include finished

theorem exists_spec_of_request {asked : Request} (member : asked ∈ others ++ [final]) :
    ∃ spec ∈ request.specs, asked.spec.outline = spec.outline := by
  have outlined := List.mem_map_of_mem (f := (·.spec.outline)) member
  rw [outlines_of_settled checked finished] at outlined
  rcases List.mem_map.mp outlined with ⟨spec, isSpec, same⟩
  exact ⟨spec, isSpec, same.symm⟩

theorem exists_request_of_spec {spec : TierSpec} (member : spec ∈ request.specs) :
    ∃ asked ∈ others ++ [final], asked.spec.outline = spec.outline := by
  have outlined := List.mem_map_of_mem (f := (·.outline)) member
  rw [← outlines_of_settled checked finished] at outlined
  rcases List.mem_map.mp outlined with ⟨asked, isAsked, same⟩
  exact ⟨asked, isAsked, same⟩

/-- A request's parent is one of the requests if a tier was asked for there. -/
theorem isBelow_iff {spec above : TierSpec} {asked higher : Request}
    (isHigher : higher ∈ others ++ [final]) (same : asked.spec.outline = spec.outline)
    (sameAbove : higher.spec.outline = above.outline) :
    spec.IsBelow above ↔ asked.spec.parent.eq (.whole higher.id) = true := by
  have isId : above.id = .whole higher.id :=
    (congrArg TierOutline.id sameAbove).symm.trans ((complete_ids checked finished).1 _ isHigher).1
  rw [TierSpec.isBelow_iff_of_id isId, TierSpec.parent_eq_of_outline_eq same]

theorem isRooted_iff {spec : TierSpec} {asked : Request}
    (same : asked.spec.outline = spec.outline) :
    TierSpec.IsRooted request.specs spec ↔ Rooted [rootId] (others ++ [final]) asked := by
  constructor
  · intro rooted
    induction rooted generalizing asked with
    | near equal =>
        rw [← TierSpec.parent_eq_of_outline_eq same] at equal
        exact .near (isReady_iff.mpr ⟨rootId, List.mem_cons_self .., equal⟩)
    | far member isBelow _ induction =>
        rcases exists_request_of_spec checked finished member with ⟨higher, isHigher, sameAbove⟩
        exact .far isHigher ((isBelow_iff checked finished isHigher same sameAbove).mp isBelow)
          (induction sameAbove)
  · intro rooted
    induction rooted generalizing spec with
    | near isReadyHere =>
        rcases isReady_iff.mp isReadyHere with ⟨id, isRoot, equal⟩
        rw [List.mem_singleton.mp isRoot, TierSpec.parent_eq_of_outline_eq same] at equal
        exact .near equal
    | far isHigher equal _ induction =>
        rcases exists_spec_of_request checked finished isHigher with ⟨above, isAbove, sameAbove⟩
        exact .far isAbove ((isBelow_iff checked finished isHigher same sameAbove).mpr equal)
          (induction sameAbove)

/-- A request's parent is among the declared ids if a tier was asked for with this id. -/
theorem isReady_declared_iff {spec : TierSpec} {asked : Request}
    (same : asked.spec.outline = spec.outline) :
    isReady ((others ++ [final]).map (·.id)) asked = true ↔
      ∃ other ∈ request.specs, spec.IsBelow other := by
  rw [isReady_iff]
  constructor
  · rintro ⟨id, isId, equal⟩
    rcases List.mem_map.mp isId with ⟨higher, isHigher, rfl⟩
    rcases exists_spec_of_request checked finished isHigher with ⟨above, isAbove, sameAbove⟩
    exact ⟨above, isAbove, (isBelow_iff checked finished isHigher same sameAbove).mpr equal⟩
  · rintro ⟨above, isAbove, isBelow⟩
    rcases exists_request_of_spec checked finished isAbove with ⟨higher, isHigher, sameAbove⟩
    exact ⟨higher.id, List.mem_map_of_mem isHigher,
      (isBelow_iff checked finished isHigher same sameAbove).mp isBelow⟩

/-- The tier at which the layers stop is the first one without a way to the root. -/
theorem exists_isFirstStray_of_inLayers {declared : List Int} {failure : Failure}
    (failed : inLayers declared [rootId] (others ++ [final]) = .error failure) :
    ∃ stray asked, TierSpec.IsFirstStray request.specs stray ∧
      asked.spec.outline = stray.outline ∧
      (unreachable declared asked : Except Failure (List Request)) = .error failure := by
  rcases exists_stray_of_inLayers failed with
    ⟨before, asked, after, split, rooted, notRooted, isError⟩
  have outlines := outlines_of_settled checked finished
  rw [split, List.map_append, List.map_cons] at outlines
  rcases List.map_eq_append_iff.mp outlines.symm with ⟨front, back, isSpecs, isFront, isBack⟩
  rcases List.map_eq_cons_iff.mp isBack with ⟨stray, rest, rfl, isStray, _⟩
  refine ⟨stray, asked, ⟨⟨front, rest, isSpecs, fun spec member => ?_⟩, fun isRooted => ?_⟩,
    isStray.symm, isError⟩
  · have outlined := List.mem_map_of_mem (f := (·.outline)) member
    rw [isFront] at outlined
    rcases List.mem_map.mp outlined with ⟨earlier, isEarlier, same⟩
    exact (isRooted_iff checked finished same).mpr (rooted earlier isEarlier)
  · exact notRooted ((isRooted_iff checked finished isStray.symm).mp isRooted)

end Settled

/-- What a refusal for the place of a tier says, and of which tier. -/
theorem exists_isFirstStray_of_compile {request : TreeRequest} {roundTrip : Number}
    {error : AllocationError}
    (failed : request.compile roundTrip = .error (.allocation error))
    (hierarchy : error.cause.IsOfHierarchy) :
    ∃ stray, TierSpec.IsFirstStray request.specs stray ∧ error.tier = stray.id ∧
      (error.cause = .parentMissing stray.parent ∧
          (∀ other ∈ request.specs, ¬ stray.IsBelow other) ∨
        error.cause = .parentCycle ∧ ∃ other ∈ request.specs, stray.IsBelow other) := by
  rcases inLayers_of_compile failed hierarchy with ⟨others, last, final, checked, finished, stopped⟩
  rcases exists_isFirstStray_of_inLayers checked finished stopped with
    ⟨stray, asked, isFirst, same, isError⟩
  have declared := isReady_declared_iff checked finished same
  refine ⟨stray, isFirst, ?_⟩
  rw [← TierSpec.parent_eq_of_outline_eq same,
    ← show asked.spec.id = stray.id from congrArg TierOutline.id same]
  simp only [unreachable, refuse, Failure.ofAllocation] at isError
  split at isError
  case isTrue isDeclared =>
    split at isError
    · cases isError
      exact ⟨rfl, .inr ⟨rfl, declared.mp isDeclared⟩⟩
    · cases isError
  case isFalse notDeclared =>
    split at isError
    · cases isError
      refine ⟨rfl, .inl ⟨rfl, fun other member isBelow => notDeclared ?_⟩⟩
      exact declared.mpr ⟨other, member, isBelow⟩
    · cases isError

/-- A request refused for the place of a tier is told a tier that is to blame if and only if the
first tier without a way to the root is. That a parent does not exist is always rightly said. -/
theorem namesCulprit_iff (request : TreeRequest) (roundTrip : Number) (error : AllocationError)
    (failed : request.compile roundTrip = .error (.allocation error))
    (hierarchy : error.cause.IsOfHierarchy) :
    ∃ stray, TierSpec.IsFirstStray request.specs stray ∧ error.tier = stray.id ∧
      ((∃ parent, error.cause = .parentMissing parent) → error.NamesCulprit request.specs) ∧
      (error.NamesCulprit request.specs ↔ TierSpec.IsCulprit request.specs stray) := by
  rcases inLayers_of_compile failed hierarchy with ⟨others, last, _, checked, _⟩
  rcases exists_isFirstStray_of_compile failed hierarchy with ⟨stray, isFirst, isTier, cause⟩
  have member : stray ∈ request.specs := by
    rcases isFirst.first with ⟨before, after, split, _⟩
    rw [split]
    exact List.mem_append_right _ (List.mem_cons_self ..)
  refine ⟨stray, isFirst, isTier, ?_⟩
  rcases cause with ⟨missing, orphaned⟩ | ⟨cycle, other, isOther, isBelow⟩
  · have named : error.NamesCulprit request.specs := by
      refine ⟨fun parent isParent => ⟨stray, member, isTier, ?_, ?_, orphaned⟩, fun isCycle => ?_⟩
      · cases missing.symm.trans isParent
        rfl
      · cases missing.symm.trans isParent
        exact Bool.eq_false_iff.mpr fun isRoot => isFirst.notRooted (.near isRoot)
      · cases missing.symm.trans isCycle
    exact ⟨fun _ => named, fun _ => .inl orphaned, fun _ => named⟩
  · refine ⟨fun ⟨parent, isMissing⟩ => ?_, fun named => .inr ?_, fun culprit => ⟨?_, fun _ => ?_⟩⟩
    · cases cycle.symm.trans isMissing
    · rcases named.cycle cycle with ⟨spec, isSpec, sameTier, leadsBack⟩
      rwa [eq_of_id_eq checked member isSpec (isTier.symm.trans sameTier)]
    · intro parent isMissing
      cases cycle.symm.trans isMissing
    · rcases culprit with orphaned | leadsBack
      · exact absurd isBelow (orphaned other isOther)
      · exact ⟨stray, member, isTier, leadsBack⟩

/-- Two tiers, each of which is to stand below the other. -/
def entwined : TreeRequest where
  capacity := .tenMegabits
  reserved := []
  tiers := [{
    id := .whole 100, label := "Web", kind := .percentage, priority := .shared
    share := some 50, rate := none, ratePercent := none, parent := 200 }, {
    id := .whole 200, label := "Video", kind := .percentage, priority := .bulk
    share := some 50, rate := none, ratePercent := none, parent := 100 }]
  default := none

/-- A tier below a tier whose parent was not asked for. -/
def dangling : TreeRequest where
  capacity := .tenMegabits
  reserved := []
  tiers := [{
    id := .whole 20, label := "Web", kind := .percentage, priority := .shared
    share := some 50, rate := none, ratePercent := none, parent := 30 }, {
    id := .whole 30, label := "Video", kind := .percentage, priority := .bulk
    share := some 50, rate := none, ratePercent := none, parent := 500 }]
  default := none

/-- The cause for which a request is refused. -/
def cause? (request : TreeRequest) (roundTrip : Number) : Option AllocationCause :=
  match request.compile roundTrip with
  | .error (.allocation error) => some error.cause
  | _ => none

theorem exists_error_of_cause {request : TreeRequest} {roundTrip : Number}
    {cause : AllocationCause} (found : request.cause? roundTrip = some cause) :
    ∃ error, request.compile roundTrip = .error (.allocation error) ∧ error.cause = cause := by
  unfold cause? at found
  split at found
  case h_1 error failed =>
    cases found
    exact ⟨error, failed, rfl⟩
  case h_2 => cases found

theorem exists_namesCulprit_entwined :
    ∃ error, entwined.compile 50 = .error (.allocation error) ∧ error.cause.IsOfHierarchy ∧
      ∃ stray, TierSpec.IsFirstStray entwined.specs stray ∧ error.tier = stray.id ∧
        ((∃ parent, error.cause = .parentMissing parent) → error.NamesCulprit entwined.specs) ∧
        (error.NamesCulprit entwined.specs ↔ TierSpec.IsCulprit entwined.specs stray) := by
  have isCycle : entwined.cause? 50 = some .parentCycle := by decide +kernel
  rcases exists_error_of_cause isCycle with ⟨error, failed, cause⟩
  have hierarchy : error.cause.IsOfHierarchy := by rw [cause]; trivial
  exact ⟨error, failed, hierarchy, namesCulprit_iff entwined 50 error failed hierarchy⟩

/-- No tier leads back to itself where every step to a parent is a step down. -/
theorem not_leadsTo_self {specs : List TierSpec} (depth : TierSpec → Nat)
    (falls : ∀ spec ∈ specs, ∀ above ∈ specs, spec.IsBelow above → depth above < depth spec)
    {spec : TierSpec} (member : spec ∈ specs) : ¬ TierSpec.LeadsTo specs spec spec := by
  intro leadsBack
  have lower : ∀ last, TierSpec.LeadsTo specs spec last →
      last ∈ specs ∧ depth last < depth spec := by
    intro last leads
    induction leads with
    | single step => exact ⟨step.1, falls _ member _ step.1 step.2⟩
    | tail _ step induction =>
        exact ⟨step.1, (falls _ induction.1 _ step.1 step.2).trans induction.2⟩
  exact (lower spec leadsBack).2.false

theorem exists_not_namesCulprit_dangling :
    ∃ error, dangling.compile 50 = .error (.allocation error) ∧ error.cause.IsOfHierarchy ∧
      ¬ error.NamesCulprit dangling.specs := by
  have isCycle : dangling.cause? 50 = some .parentCycle := by decide +kernel
  rcases exists_error_of_cause isCycle with ⟨error, failed, cause⟩
  refine ⟨error, failed, by rw [cause]; trivial, fun named => ?_⟩
  rcases named.cycle cause with ⟨spec, isSpec, _, leadsBack⟩
  refine not_leadsTo_self (fun spec => if spec.parent.eq 30 then 1 else 0) ?_ isSpec leadsBack
  -- Of the nine pairs only the first tier and its parent are one above the other.
  intro lower isLower above isAbove ⟨id, isId, equal⟩
  simp only [specs, dangling, defaultSpec, List.nil_append, List.cons_append, List.mem_cons,
    List.not_mem_nil, or_false] at isLower isAbove
  rcases isLower with rfl | rfl | rfl <;> rcases isAbove with rfl | rfl | rfl <;>
    cases isId <;> revert equal <;> decide

end TreeRequest

end UplinkShaper
