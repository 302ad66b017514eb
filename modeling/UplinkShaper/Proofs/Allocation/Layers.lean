import UplinkShaper.Proofs.Results
import UplinkShaper.Shaping.Allocation

/-!
Ordering tiers in layers. The tiers that come out are those that went in, each after
its parent, and the ordering succeeds for exactly those tiers whose chains of parents
all end at a known class.
-/

namespace UplinkShaper

namespace Allocation

/-- Each request's parent is a known class or stands before it. -/
def ParentsFirst : List Int → List Request → Prop
  | _, [] => True
  | known, request :: rest =>
      isReady known request = true ∧ ParentsFirst (known ++ [request.id]) rest

/-- A chain of parents through pending requests ends at a known class. -/
inductive Rooted (known : List Int) (pending : List Request) : Request → Prop
  | near {request : Request} : isReady known request = true → Rooted known pending request
  | far {request other : Request} : other ∈ pending →
      request.spec.parent.eq (.whole other.id) = true → Rooted known pending other →
        Rooted known pending request

/-! ## Known classes -/

theorem isReady_iff {known : List Int} {request : Request} :
    isReady known request = true ↔
      ∃ id ∈ known, request.spec.parent.eq (.whole id) = true := by
  simp [isReady, List.any_eq_true]

theorem isReady_mono {known more : List Int} (included : known ⊆ more) {request : Request}
    (holds : isReady known request = true) : isReady more request = true := by
  rcases isReady_iff.mp holds with ⟨id, member, equal⟩
  exact isReady_iff.mpr ⟨id, included member, equal⟩

theorem parentsFirst_append {known : List Int} {first second : List Request} :
    ParentsFirst known (first ++ second) ↔
      ParentsFirst known first ∧ ParentsFirst (known ++ first.map (·.id)) second := by
  induction first generalizing known with
  | nil => simp [ParentsFirst]
  | cons request rest induction =>
      simp only [List.cons_append, ParentsFirst, List.map_cons, induction]
      rw [List.append_assoc, List.singleton_append, and_assoc]

theorem parentsFirst_of_ready {known : List Int} {requests : List Request}
    (ready : ∀ request ∈ requests, isReady known request = true) :
    ParentsFirst known requests := by
  induction requests generalizing known with
  | nil => trivial
  | cons request rest induction =>
      refine ⟨ready request (List.mem_cons_self ..), induction ?_⟩
      intro other member
      exact isReady_mono (List.subset_append_left ..)
        (ready other (List.mem_cons_of_mem _ member))

/-! ## What comes out of the layers -/

theorem ready_append_waiting_perm (known : List Int) (pending : List Request) :
    (ready known pending ++ waiting known pending).Perm pending :=
  List.filter_append_perm (isReady known) pending

theorem inLayers_perm {declared known : List Int} {pending layered : List Request}
    (ordered : inLayers declared known pending = .ok layered) : layered.Perm pending := by
  fun_induction inLayers declared known pending generalizing layered with
  | case1 => cases ordered; exact .nil
  | case2 known first others _ layer =>
      rename_i induction
      rcases Result.bind_eq_ok.mp ordered with ⟨later, rest, equal⟩
      rw [← Result.pure_eq_ok.mp equal]
      exact ((induction rest).append_left _).trans
        (ready_append_waiting_perm known (first :: others))
  | case3 =>
      simp only [unreachable, refuse] at ordered
      split at ordered <;> cases ordered

theorem inLayers_parentsFirst {declared known : List Int} {pending layered : List Request}
    (ordered : inLayers declared known pending = .ok layered) :
    ParentsFirst known layered := by
  fun_induction inLayers declared known pending generalizing layered with
  | case1 => cases ordered; trivial
  | case2 known first others _ layer =>
      rename_i induction
      rcases Result.bind_eq_ok.mp ordered with ⟨later, rest, equal⟩
      rw [← Result.pure_eq_ok.mp equal]
      refine parentsFirst_append.mpr ⟨parentsFirst_of_ready ?_, induction rest⟩
      intro request member
      exact (List.mem_filter.mp member).2
  | case3 =>
      simp only [unreachable, refuse] at ordered
      split at ordered <;> cases ordered

/-! ## When the layers take all tiers -/

/-- As long as some request waits and all chains end, some request is ready. -/
theorem Rooted.exists_ready {known : List Int} {pending : List Request} {request : Request}
    (rooted : Rooted known pending request) (member : request ∈ pending) :
    pending.any (isReady known) = true := by
  induction rooted with
  | near holds => exact List.any_eq_true.mpr ⟨_, member, holds⟩
  | far otherMember _ _ induction => exact induction otherMember

/-- Chains still end once a layer is taken away and its classes are known. -/
theorem Rooted.after_layer {known : List Int} {pending : List Request} {request : Request}
    (rooted : Rooted known pending request) :
    Rooted (known ++ (ready known pending).map (·.id)) (waiting known pending) request := by
  induction rooted with
  | near holds => exact .near (isReady_mono (List.subset_append_left ..) holds)
  | @far request other member equal _ induction =>
      cases taken : isReady known other with
      | true =>
          refine .near (isReady_iff.mpr ⟨other.id, List.mem_append_right _ ?_, equal⟩)
          exact List.mem_map_of_mem (List.mem_filter.mpr ⟨member, taken⟩)
      | false =>
          exact .far (List.mem_filter.mpr ⟨member, by simp [taken]⟩) equal induction

theorem inLayers_isOk {declared known : List Int} {pending : List Request}
    (rooted : ∀ request ∈ pending, Rooted known pending request) :
    ∃ layered, inLayers declared known pending = .ok layered := by
  fun_induction inLayers declared known pending with
  | case1 => exact ⟨[], rfl⟩
  | case2 known first others _ layer induction =>
      have rootedLater : ∀ request ∈ waiting known (first :: others),
          Rooted (known ++ layer.map (·.id)) (waiting known (first :: others)) request := by
        intro request member
        exact (rooted request (List.mem_filter.mp member).1).after_layer
      rcases induction rootedLater with ⟨later, equal⟩
      exact ⟨layer ++ later, Result.bind_eq_ok.mpr ⟨later, equal, rfl⟩⟩
  | case3 known first others stuck =>
      have member : first ∈ first :: others := List.mem_cons_self ..
      exact absurd ((rooted first member).exists_ready member) stuck

theorem Rooted.mono {known more : List Int} {pending others : List Request} {request : Request}
    (rooted : Rooted known pending request) (knownIncluded : known ⊆ more)
    (pendingIncluded : pending ⊆ others) : Rooted more others request := by
  induction rooted with
  | near holds => exact .near (isReady_mono knownIncluded holds)
  | far member equal _ induction => exact .far (pendingIncluded member) equal induction

/-- In a list with parents first, all chains end. -/
theorem ParentsFirst.rooted {known : List Int} {requests : List Request}
    (first : ParentsFirst known requests) {request : Request} (member : request ∈ requests) :
    Rooted known requests request := by
  induction requests generalizing known with
  | nil => cases member
  | cons head rest induction =>
      have headRooted : Rooted known (head :: rest) head := .near first.1
      -- A class that became known with the head is reached through the head.
      have through : ∀ {other}, Rooted (known ++ [head.id]) rest other →
          Rooted known (head :: rest) other := by
        intro other rooted
        induction rooted with
        | near holds =>
            rcases isReady_iff.mp holds with ⟨id, found, equal⟩
            rcases List.mem_append.mp found with old | new
            · exact .near (isReady_iff.mpr ⟨id, old, equal⟩)
            · rw [List.mem_singleton.mp new] at equal
              exact .far (List.mem_cons_self ..) equal headRooted
        | far otherMember equal _ inner =>
            exact .far (List.mem_cons_of_mem _ otherMember) equal inner
      rcases List.mem_cons.mp member with rfl | later
      · exact headRooted
      · exact through (induction first.2 later)

theorem inLayers_isOk_iff {declared known : List Int} {pending : List Request} :
    (∃ layered, inLayers declared known pending = .ok layered) ↔
      ∀ request ∈ pending, Rooted known pending request := by
  constructor
  · rintro ⟨layered, ordered⟩ request member
    have perm := inLayers_perm ordered
    exact ((inLayers_parentsFirst ordered).rooted (perm.mem_iff.mpr member)).mono
      (List.Subset.refl _) perm.subset
  · exact inLayers_isOk

end Allocation

end UplinkShaper
