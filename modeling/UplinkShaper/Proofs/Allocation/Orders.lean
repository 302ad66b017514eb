import UplinkShaper.Proofs.Allocation.Moderation

/-!
Tiers in another order. Besides the link, a tier looks at the rate of its parent only. So there
is one table of rates that all tiers agree with, and tiers with their parents first are made as
this table has it, in whatever order they come.
-/

namespace UplinkShaper

namespace Allocation

variable {setting : Setting} {known : List Int} {rates table : List (Int × Int)}
  {requests layered others : List Request}

/-- A table that has the rates that tiers come to with it. -/
def IsSettledBy (table : List (Int × Int)) (setting : Setting) (requests : List Request) : Prop :=
  ∀ request ∈ requests, ∃ tier, tierOf setting table request = .ok tier ∧
    knownRate? table (.whole request.id) = some tier.rate

/-- Tables that have the same rates of known classes. -/
def AgreeOn (known : List Int) (rates table : List (Int × Int)) : Prop :=
  ∀ id ∈ known, knownRate? rates (.whole id) = knownRate? table (.whole id)

/-- A tier comes to the same with tables that have the same rate of its parent. -/
theorem tierOf_eq_of_agreeOn {request : Request} (agree : AgreeOn known rates table)
    (isReadyHere : isReady known request = true) :
    tierOf setting rates request = tierOf setting table request := by
  rcases isReady_iff.mp isReadyHere with ⟨id, isKnown, equal⟩
  have parentRate : knownRate? rates request.spec.parent =
      knownRate? table request.spec.parent := by
    rw [knownRate?_eq_of_eq equal, knownRate?_eq_of_eq equal, agree id isKnown]
  simp only [tierOf, rateOf, parentRate]

theorem AgreeOn.cons {id rate : Int} (agree : AgreeOn known rates table)
    (isRate : knownRate? table (.whole id) = some rate) :
    AgreeOn (known ++ [id]) ((id, rate) :: rates) table := by
  intro other member
  rw [knownRate?_cons]
  split
  case isTrue same => rw [same, isRate]
  case isFalse apart =>
    rcases List.mem_append.mp member with old | new
    · exact agree other old
    · exact absurd (List.mem_singleton.mp new) apart

theorem AgreeOn.tail {id rate : Int} (fresh : id ∉ known)
    (agree : AgreeOn (known ++ [id]) ((id, rate) :: rates) table) :
    AgreeOn known rates table := by
  intro other member
  have apart : other ≠ id := fun same => fresh (same ▸ member)
  rw [← agree other (List.mem_append_left _ member), knownRate?_cons, if_neg apart]

/-- When all tiers were made, the table that was built up agrees with each of them. -/
theorem exists_isSettledBy (distinct : (known ++ requests.map (·.id)).Nodup)
    (first : ParentsFirst known requests)
    (complete : (makeTiers setting rates requests).failure = none) :
    ∃ table, AgreeOn known rates table ∧ IsSettledBy table setting requests := by
  induction requests generalizing known rates with
  | nil => exact ⟨rates, fun _ _ => rfl, by simp [IsSettledBy]⟩
  | cons request rest induction =>
      cases result : tierOf setting rates request with
      | error failure =>
          rw [makeTiers_cons_error result] at complete
          cases complete
      | ok tier =>
          have made := made_of_tierOf result
          rw [makeTiers_cons_ok result, made.id] at complete
          have distinctRest : ((known ++ [request.id]) ++ rest.map (·.id)).Nodup := by
            rwa [List.append_assoc, List.singleton_append]
          rcases induction distinctRest first.2 complete with ⟨table, agree, settled⟩
          have fresh : request.id ∉ known := fun isKnown =>
            List.disjoint_of_nodup_append distinct isKnown (by simp)
          have agreeKnown := agree.tail fresh
          refine ⟨table, agreeKnown, List.forall_mem_cons.mpr ⟨⟨tier, ?_, ?_⟩, settled⟩⟩
          · rw [← tierOf_eq_of_agreeOn agreeKnown first.1, result]
          · rw [← agree request.id (by simp), knownRate?_cons, if_pos rfl]

/-- With a table that agrees with all tiers, each of them is made as the table has it. -/
theorem IsSettledBy.makeTiers (settled : IsSettledBy table setting requests)
    (agree : AgreeOn known rates table) (first : ParentsFirst known requests) :
    (makeTiers setting rates requests).failure = none ∧
      List.Forall₂ (fun request tier => tierOf setting table request = .ok tier) requests
        (makeTiers setting rates requests).tiers := by
  induction requests generalizing known rates with
  | nil => exact ⟨rfl, .nil⟩
  | cons request rest induction =>
      rcases List.forall_mem_cons.mp settled with ⟨⟨tier, result, isRate⟩, later⟩
      have made := made_of_tierOf result
      have here := result
      rw [← tierOf_eq_of_agreeOn agree first.1] at here
      rw [makeTiers_cons_ok here, made.id]
      rcases induction later (agree.cons isRate) first.2 with ⟨complete, each⟩
      exact ⟨complete, .cons result each⟩

/-- Tiers are made in one order with their parents first as they are in any other. -/
theorem makeTiers_perm (perm : layered.Perm others)
    (distinct : (known ++ layered.map (·.id)).Nodup) (first : ParentsFirst known layered)
    (otherFirst : ParentsFirst known others)
    (complete : (makeTiers setting rates layered).failure = none) :
    (makeTiers setting rates others).failure = none ∧
      (makeTiers setting rates layered).tiers.Perm (makeTiers setting rates others).tiers := by
  rcases exists_isSettledBy distinct first complete with ⟨table, agree, settled⟩
  have otherSettled : IsSettledBy table setting others := fun request member =>
    settled request (perm.mem_iff.mpr member)
  rcases settled.makeTiers agree first with ⟨_, each⟩
  rcases otherSettled.makeTiers agree otherFirst with ⟨otherComplete, otherEach⟩
  refine ⟨otherComplete, List.rel_perm_imp ?_ each otherEach perm⟩
  intro request tier other result otherResult
  exact Except.ok.inj (result.symm.trans otherResult)

end Allocation

end UplinkShaper
