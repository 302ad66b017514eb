import UplinkShaper.Proofs.Allocation.Ids
import UplinkShaper.Proofs.Allocation.Layers

/-!
What is settled before rates are. All checks have passed, the default tier has its
share, and the requests are in layers.
-/

namespace UplinkShaper

namespace Allocation

/-- The requests that are checked before the default tier takes what is left. -/
def declared (others : List Request) (last : Request) : List Request :=
  if last.spec.share.isSome then others ++ [last] else others

/-- The default tier with the share that it has or takes. -/
def settled (others : List Request) (last : Request) : Except Failure Request :=
  if last.spec.share.isSome then .ok last
  else do
    let claimed := totalUnder? last.spec.parent (← shareTotals others)
    return { last with spec := { last.spec with share := some (remainder claimed) } }

/-- What is done with requests whose ids are proper ones. -/
def settleAll (roundTrip : Number) (capacity : LinkCapacity) (others : List Request)
    (last : Request) : Except Failure Prepared := do
  (declared others last).forM checkRequest
  checkTotals (← shareTotals (declared others last))
  let final ← settled others last
  let complete := others ++ [final]
  let warnings := idleWarnings (← shareTotals complete)
  let layered ← inLayers (complete.map (·.id)) [rootId] complete
  return {
    setting := { capacity := capacity, roundTrip := roundTrip, defaultId := final.id }
    requests := layered
    warnings := warnings }

/-- Requests for a list with one more specification at its end. -/
theorem exists_of_checkIds {specs : List TierSpec} {default : TierSpec}
    {requests : List Request} (checked : checkIds [] (specs ++ [default]) = .ok requests) :
    ∃ others last, requests = others ++ [last] ∧ others.map (·.spec) = specs ∧
      last.spec = default := by
  have same := (checkIds_eq_ok_iff.mp checked).1
  rcases List.map_eq_append_iff.mp same with ⟨others, lasts, equal, sameOthers, sameLast⟩
  rcases List.map_eq_singleton_iff.mp sameLast with ⟨last, isLast, lastSpec⟩
  exact ⟨others, last, by rw [equal, isLast], sameOthers, lastSpec⟩

theorem take_of_checkIds {specs : List TierSpec} {others : List Request} {last : Request}
    (same : others.map (·.spec) = specs) :
    (others ++ [last]).take specs.length = others := by
  rw [← same, List.length_map, List.take_left']
  rfl

theorem prepare_eq_settleAll {roundTrip : Number} {capacity : LinkCapacity}
    {specs : List TierSpec} {default : TierSpec} {others : List Request} {last : Request}
    (checked : checkIds [] (specs ++ [default]) = .ok (others ++ [last]))
    (same : others.map (·.spec) = specs) (isLast : last.spec = default) :
    prepare roundTrip capacity specs default = settleAll roundTrip capacity others last := by
  subst isLast
  rw [prepare, checked, Result.ok_bind, take_of_checkIds same, List.getLast?_concat]
  cases given : last.spec.share.isSome with
  | true =>
      simp only [settleAll, declared, settled, given, if_true]
      rfl
  | false =>
      simp only [settleAll, declared, settled, given, Bool.false_eq_true, if_false, bind_assoc,
        pure_bind]

/-- What a successful preparation has found. -/
structure Settles (prepared : Prepared) (others : List Request) (last final : Request) :
    Prop where
  requests : ∀ request ∈ declared others last, checkRequest request = .ok ()
  totals : ∃ totals,
    shareTotals (declared others last) = .ok totals ∧ checkTotals totals = .ok ()
  finished : settled others last = .ok final
  warnings : ∃ totals,
    shareTotals (others ++ [final]) = .ok totals ∧ prepared.warnings = idleWarnings totals
  layers : inLayers ((others ++ [final]).map (·.id)) [rootId] (others ++ [final]) =
    .ok prepared.requests
  defaultId : prepared.setting.defaultId = final.id

theorem settles_of_settleAll {roundTrip : Number} {capacity : LinkCapacity}
    {others : List Request} {last : Request} {prepared : Prepared}
    (result : settleAll roundTrip capacity others last = .ok prepared) :
    (∃ final, Settles prepared others last final) ∧ prepared.setting.capacity = capacity ∧
      prepared.setting.roundTrip = roundTrip := by
  rcases Result.bind_eq_ok.mp result with ⟨_, requests, result⟩
  rcases Result.bind_eq_ok.mp result with ⟨totals, summed, result⟩
  rcases Result.bind_eq_ok.mp result with ⟨_, within, result⟩
  rcases Result.bind_eq_ok.mp result with ⟨final, isFinal, result⟩
  rcases Result.bind_eq_ok.mp result with ⟨complete, summedAgain, result⟩
  rcases Result.bind_eq_ok.mp result with ⟨layered, layers, equal⟩
  rw [← Result.pure_eq_ok.mp equal]
  refine ⟨⟨final, ?_⟩, rfl, rfl⟩
  exact {
    requests := Result.forM_eq_ok.mp requests
    totals := ⟨totals, summed, within⟩
    finished := isFinal
    warnings := ⟨complete, summedAgain, rfl⟩
    layers := layers
    defaultId := rfl }

/-- What is known once everything before the rates succeeded. -/
theorem exists_settles_of_prepare {roundTrip : Number} {capacity : LinkCapacity}
    {specs : List TierSpec} {default : TierSpec} {prepared : Prepared}
    (result : prepare roundTrip capacity specs default = .ok prepared) :
    ∃ others last final, checkIds [] (specs ++ [default]) = .ok (others ++ [last]) ∧
      others.map (·.spec) = specs ∧ last.spec = default ∧
      Settles prepared others last final ∧ prepared.setting.capacity = capacity ∧
      prepared.setting.roundTrip = roundTrip := by
  have checkedFirst := result
  simp only [prepare] at checkedFirst
  rcases Result.bind_eq_ok.mp checkedFirst with ⟨requests, checked, _⟩
  rcases exists_of_checkIds checked with ⟨others, last, rfl, same, isLast⟩
  rw [prepare_eq_settleAll checked same isLast] at result
  rcases settles_of_settleAll result with ⟨⟨final, settles⟩, setting⟩
  exact ⟨others, last, final, checked, same, isLast, settles, setting⟩

/-- The default tier keeps everything but its share. -/
theorem settled_spec {others : List Request} {last final : Request}
    (result : settled others last = .ok final) :
    final.id = last.id ∧ final.spec = { last.spec with share := final.spec.share } := by
  simp only [settled] at result
  split at result
  · cases result
    exact ⟨rfl, rfl⟩
  · rcases Result.bind_eq_ok.mp result with ⟨totals, _, equal⟩
    rw [← Result.pure_eq_ok.mp equal]
    exact ⟨rfl, rfl⟩

end Allocation

namespace TreeRequest

open Allocation

/-- A tree is made if everything before the rates succeeds and all tiers are made. -/
theorem compile_eq_ok_iff {request : TreeRequest} {roundTrip : Number} {tree : ClassTree} :
    request.compile roundTrip = .ok tree ↔
      ∃ prepared, request.prepare roundTrip = .ok prepared ∧
        (outcome prepared).failure = none ∧ tree = treeOf prepared (outcome prepared).tiers := by
  rw [compile, Result.bind_eq_ok]
  constructor
  · rintro ⟨prepared, ready, result⟩
    dsimp only at result
    split at result
    · cases result
    case h_2 complete =>
      cases result
      exact ⟨prepared, ready, complete, rfl⟩
  · rintro ⟨prepared, ready, complete, rfl⟩
    refine ⟨prepared, ready, ?_⟩
    simp only [complete]

end TreeRequest

end UplinkShaper
