import UplinkShaper.Proofs.Allocation.Depth
import UplinkShaper.Proofs.Allocation.Strays

/-!
Ordering requests in rounds. Every round takes what is ready, so the rounds end after at most as
many as there are requests. They take all requests if and only if each chain of parents ends at the
root, and then the requests are sorted by their depth below it, stably. Otherwise the first request
without a way to the root is refused, as long as its refusal can be written.
-/

namespace UplinkShaper

namespace Allocation

/-! ## Rounds -/

/-- Where the ordering stands between two rounds. -/
structure Progress where
  ordered : List Request
  known : List Int
  pending : List Request

namespace Progress

def start (requests : List Request) : Progress where
  ordered := []
  known := [rootId]
  pending := requests

/-- Whether there is something to take in another round. -/
def goesOn (progress : Progress) : Bool :=
  progress.pending.any (isReady progress.known)

/-- One round. Whatever is ready is taken and is known from then on, and what is not known yet
goes on waiting. -/
def next (progress : Progress) : Progress :=
  let layer := ready progress.known progress.pending
  let known := progress.known ++ layer.map (·.id)
  { ordered := progress.ordered ++ layer
    known := known
    pending := progress.pending.filter fun request => request.id ∉ known }

/-- What the ordering comes to when there are no more rounds. -/
def result (declared : List Int) (progress : Progress) : Except Failure (List Request) :=
  match progress.pending with
  | [] => .ok progress.ordered
  | first :: _ => unreachable declared first

/-- There are so many rounds, and no more. -/
structure EndsAfter (progress : Progress) (rounds : Nat) : Prop where
  goesOn : ∀ earlier < rounds, (next^[earlier] progress).goesOn = true
  ends : (next^[rounds] progress).goesOn = false

/-- No id waits twice, and none of those that wait is known. -/
structure IsFresh (progress : Progress) : Prop where
  distinct : (progress.pending.map (·.id)).Nodup
  unknown : ∀ request ∈ progress.pending, request.id ∉ progress.known

variable {progress : Progress}

theorem IsFresh.pending_next (fresh : progress.IsFresh) :
    progress.next.pending = waiting progress.known progress.pending := by
  refine List.filter_congr fun request member => ?_
  have isKnown : request.id ∈ progress.known ++
      (ready progress.known progress.pending).map (·.id) ↔ isReady progress.known request := by
    rw [List.mem_append, or_iff_right (fresh.unknown request member), List.mem_map]
    constructor
    · rintro ⟨other, isTaken, same⟩
      rcases mem_ready_iff.mp isTaken with ⟨isPending, isReadyHere⟩
      rwa [← List.inj_on_of_nodup_map fresh.distinct isPending member same]
    · exact fun isReadyHere => ⟨request, mem_ready_iff.mpr ⟨member, isReadyHere⟩, rfl⟩
  rw [Bool.eq_iff_iff, decide_eq_true_iff, isKnown, Bool.not_eq_true', Bool.not_eq_true]

theorem isFresh_next (fresh : progress.IsFresh) : progress.next.IsFresh where
  distinct := fresh.distinct.sublist (List.filter_sublist.map _)
  unknown _ member := of_decide_eq_true (List.mem_filter.mp member).2

theorem length_pending_next (fresh : progress.IsFresh) (goesOn : progress.goesOn = true) :
    progress.next.pending.length < progress.pending.length :=
  fresh.pending_next ▸ waiting_length_lt goesOn

/-- A refused ordering stays refused, whatever was ordered before. -/
theorem map_unreachable (declared : List Int) (request : Request)
    (change : List Request → List Request) :
    (unreachable declared request : Except Failure (List Request)).map change =
      unreachable declared request := by
  unfold unreachable refuse
  dsimp only
  split
  · rfl
  · rfl

theorem result_of_goesOn_eq_false (declared : List Int) (ends : progress.goesOn = false) :
    progress.result declared =
      (inLayers declared progress.known progress.pending).map (progress.ordered ++ ·) := by
  rcases progress with ⟨ordered, known, pending⟩
  cases pending with
  | nil => simp [result, inLayers, Except.map]
  | cons first others =>
      have stuck : ¬ (first :: others).any (isReady known) = true := Bool.eq_false_iff.mp ends
      dsimp only
      rw [inLayers, dif_neg stuck, map_unreachable]
      rfl

theorem inLayers_of_ready {declared known : List Int} {pending : List Request}
    (found : pending.any (isReady known) = true) :
    inLayers declared known pending = do
      let later ←
        inLayers declared (known ++ (ready known pending).map (·.id)) (waiting known pending)
      return ready known pending ++ later := by
  cases pending with
  | nil => cases found
  | cons first others => rw [inLayers, dif_pos found]

/-- A round takes the next layer. -/
theorem IsFresh.inLayers_next (fresh : progress.IsFresh) (declared : List Int)
    (goesOn : progress.goesOn = true) :
    (inLayers declared progress.next.known progress.next.pending).map (progress.next.ordered ++ ·) =
      (inLayers declared progress.known progress.pending).map (progress.ordered ++ ·) := by
  rw [fresh.pending_next, inLayers_of_ready goesOn]
  dsimp only [next]
  cases inLayers declared
      (progress.known ++ (ready progress.known progress.pending).map (·.id))
      (waiting progress.known progress.pending) with
  | error => rfl
  | ok later => exact congrArg Except.ok (List.append_assoc ..)

/-- The rounds end, each taking at least one request, and come to the layers. -/
theorem IsFresh.exists_endsAfter (fresh : progress.IsFresh) (declared : List Int) :
    ∃ rounds ≤ progress.pending.length, progress.EndsAfter rounds ∧
      (next^[rounds] progress).result declared =
        (inLayers declared progress.known progress.pending).map (progress.ordered ++ ·) := by
  induction isLength : progress.pending.length using Nat.strong_induction_on
    generalizing progress with
  | h length induction =>
      subst isLength
      cases goesOn : progress.goesOn with
      | false =>
          refine ⟨0, Nat.zero_le _, ⟨nofun, goesOn⟩, ?_⟩
          exact result_of_goesOn_eq_false declared goesOn
      | true =>
          have less := length_pending_next fresh goesOn
          rcases induction _ less (isFresh_next fresh) rfl with ⟨rounds, atMost, ends, comesTo⟩
          refine ⟨rounds + 1, by omega, ⟨fun earlier before => ?_, ends.ends⟩, ?_⟩
          · cases earlier with
            | zero => exact goesOn
            | succ earlier => exact ends.goesOn earlier (by omega)
          · exact comesTo.trans (fresh.inLayers_next declared goesOn)

end Progress

/-! ## Depths -/

theorem rooted_iff_isAtDepth {requests : List Request} {request : Request} :
    Rooted [rootId] requests request ↔ ∃ depth, IsAtDepth requests request depth := by
  constructor
  · intro rooted
    induction rooted with
    | near isReadyHere => exact ⟨0, .near (isReady_root_iff.mp isReadyHere)⟩
    | far member isParent _ induction =>
        rcases induction with ⟨depth, atDepth⟩
        exact ⟨depth + 1, .far member isParent atDepth⟩
  · rintro ⟨depth, atDepth⟩
    induction atDepth with
    | near isRoot => exact .near (isReady_root_iff.mpr isRoot)
    | far member isParent _ induction => exact .far member isParent induction

/-- Layers are what a stable sort by depth gives. -/
theorem Leveled.eq_mergeSort {known : List Int} {level : Nat} {requests layered : List Request}
    {depth : Request → Nat} (leveled : Leveled known level requests layered depth) :
    layered = requests.mergeSort fun upper lower => depth upper ≤ depth lower := by
  have byKey : ∀ upper lower, decide (depth upper ≤ depth lower) =
      decide (depth upper ≤ depth lower) := fun _ _ => rfl
  refine @eq_of_sorted_of_filter _ depth _ _ leveled.sorted ?_ fun value => ?_
  · simpa using List.pairwise_mergeSort (le_trans_of_key byKey) (le_total_of_key byKey) requests
  · rw [leveled.kept, filter_mergeSort byKey]

/-! ## Refusals -/

/-- The first request whose chain of parents does not end at the root. -/
structure IsFirstStray (requests : List Request) (stray : Request) : Prop where
  first : ∃ before after, requests = before ++ stray :: after ∧
    ∀ request ∈ before, ∃ depth, IsAtDepth requests request depth
  notRooted : ¬ ∃ depth, IsAtDepth requests stray depth

/-- The refusal of a request for its place shows its id, and its parent too where this is not
declared. -/
def IsNameable (declared : List Int) (request : Request) : Prop :=
  request.spec.id.isWritable = true ∧
    (isReady declared request = true ∨ request.spec.parent.isWritable = true)

theorem unreachable_cases (declared : List Int) (request : Request) :
    (IsNameable declared request ∧
        ∃ error, (unreachable declared request : Except Failure α) = .error (.allocation error)) ∨
      ¬ IsNameable declared request ∧
        (unreachable declared request : Except Failure α) = .error (.invalid .unwritable) := by
  unfold IsNameable unreachable refuse Failure.ofAllocation
  dsimp only
  split
  case isTrue isDeclared =>
    cases isWritable : request.spec.id.isWritable with
    | true => exact .inl ⟨⟨rfl, .inl isDeclared⟩, _, rfl⟩
    | false => exact .inr ⟨fun nameable => Bool.false_ne_true nameable.1, rfl⟩
  case isFalse notDeclared =>
    cases isWritable : request.spec.id.isWritable with
    | true =>
        simp only [AllocationCause.isWritable, Bool.true_and]
        split
        case isTrue parent => exact .inl ⟨⟨trivial, .inr parent⟩, _, rfl⟩
        case isFalse parent =>
          exact .inr ⟨fun nameable => nameable.2.elim notDeclared parent, rfl⟩
    | false => exact .inr ⟨fun nameable => Bool.false_ne_true nameable.1, rfl⟩

/-- An item before which something holds of all others, but not of itself, is the only one. -/
theorem eq_of_firsts {holds : α → Prop} {before after front back : List α} {item other : α}
    (same : before ++ item :: after = front ++ other :: back)
    (each : ∀ earlier ∈ before, holds earlier) (fails : ¬ holds item)
    (eachToo : ∀ earlier ∈ front, holds earlier) (failsToo : ¬ holds other) : item = other := by
  rcases List.append_eq_append_iff.mp same with ⟨more, rfl, rest⟩ | ⟨more, rfl, rest⟩
  · cases more with
    | nil => exact (List.cons.inj rest).1
    | cons first others =>
        rw [(List.cons.inj rest).1] at fails
        exact absurd (eachToo first (by simp)) fails
  · cases more with
    | nil => exact (List.cons.inj rest).1.symm
    | cons first others =>
        rw [(List.cons.inj rest).1] at failsToo
        exact absurd (each first (by simp)) failsToo

theorem IsFirstStray.mem {requests : List Request} {stray : Request}
    (isFirst : IsFirstStray requests stray) : stray ∈ requests := by
  rcases isFirst.first with ⟨before, after, split, _⟩
  rw [split]
  exact List.mem_append_right _ (List.mem_cons_self ..)

theorem IsFirstStray.eq {requests : List Request} {stray other : Request}
    (isFirst : IsFirstStray requests stray) (isFirstToo : IsFirstStray requests other) :
    stray = other := by
  rcases isFirst.first with ⟨before, after, split, each⟩
  rcases isFirstToo.first with ⟨front, back, splitToo, eachToo⟩
  exact eq_of_firsts (split.symm.trans splitToo) each isFirst.notRooted eachToo isFirstToo.notRooted

theorem exists_isFirstStray {requests : List Request} {declared : List Int} {failure : Failure}
    (failed : inLayers declared [rootId] requests = .error failure) :
    ∃ stray, IsFirstStray requests stray ∧
      (unreachable declared stray : Except Failure (List Request)) = .error failure := by
  rcases exists_stray_of_inLayers failed with
    ⟨before, stray, after, split, rooted, notRooted, isError⟩
  refine ⟨stray, ⟨⟨before, after, split, fun request member => ?_⟩, ?_⟩, isError⟩
  · exact rooted_iff_isAtDepth.mp (rooted request member)
  · exact fun atDepth => notRooted (rooted_iff_isAtDepth.mpr atDepth)

/-! ## The ordering as a whole -/

/-- The ids of requests. -/
abbrev idsOf (requests : List Request) : List Int :=
  requests.map (·.id)

/-- The ordering of requests below the root ends, with the requests by their depth if each of them
has one, and else with the refusal of a class tree. -/
structure IsLayered (requests : List Request) : Prop where
  ends : ∃ rounds ≤ requests.length, (Progress.start requests).EndsAfter rounds ∧
    (Progress.next^[rounds] (Progress.start requests)).result (idsOf requests) =
      inLayers (idsOf requests) [rootId] requests
  succeeds : (∃ layered, inLayers (idsOf requests) [rootId] requests = .ok layered) ↔
    ∀ request ∈ requests, ∃ depth, IsAtDepth requests request depth
  sorted : ∀ layered, inLayers (idsOf requests) [rootId] requests = .ok layered →
    ∃ depth : Request → Nat,
      (∀ request ∈ requests, ∀ value, IsAtDepth requests request value ↔ depth request = value) ∧
        layered = requests.mergeSort fun upper lower => depth upper ≤ depth lower
  refuses : ∀ failure, inLayers (idsOf requests) [rootId] requests = .error failure →
    ∃ error, failure = .allocation error

/-- Requests with different ids are ordered as they should be if and only if the refusal of the
first one without a way to the root can be written, should there be one. -/
theorem isLayered_iff {requests : List Request} (distinct : (idsOf requests).Nodup)
    (proper : rootId ∉ idsOf requests) :
    IsLayered requests ↔
      ∀ stray, IsFirstStray requests stray → IsNameable (idsOf requests) stray := by
  constructor
  · intro isLayered stray isFirst
    cases ordered : inLayers (idsOf requests) [rootId] requests with
    | ok layered =>
        have reaches := isLayered.succeeds.mp ⟨layered, ordered⟩ stray isFirst.mem
        exact absurd reaches isFirst.notRooted
    | error failure =>
        rcases exists_isFirstStray ordered with ⟨other, isFirstToo, isError⟩
        rcases isLayered.refuses failure ordered with ⟨error, rfl⟩
        rw [isFirst.eq isFirstToo]
        rcases @unreachable_cases (List Request) (idsOf requests) other with
          ⟨nameable, _⟩ | ⟨_, unwritten⟩
        · exact nameable
        · cases isError.symm.trans unwritten
  · intro nameable
    have fresh : (Progress.start requests).IsFresh := by
      refine ⟨distinct, fun request member isRoot => proper ?_⟩
      rw [← List.mem_singleton.mp isRoot]
      exact List.mem_map_of_mem member
    refine ⟨?_, ?_, fun layered ordered => ?_, fun failure failed => ?_⟩
    · rcases fresh.exists_endsAfter (idsOf requests) with ⟨rounds, atMost, ends, comesTo⟩
      refine ⟨rounds, atMost, ends, comesTo.trans ?_⟩
      change (inLayers (idsOf requests) [rootId] requests).map id = _
      cases inLayers (idsOf requests) [rootId] requests <;> rfl
    · exact inLayers_isOk_iff.trans (forall₂_congr fun _ _ => rooted_iff_isAtDepth)
    · rcases exists_leveled ordered 0 with ⟨depth, leveled⟩
      exact ⟨depth, fun request member => leveled.isAtDepth_iff distinct proper member,
        leveled.eq_mergeSort⟩
    · rcases exists_isFirstStray failed with ⟨stray, isFirst, isError⟩
      rcases @unreachable_cases (List Request) (idsOf requests) stray with
        ⟨_, error, isRefusal⟩ | ⟨notNameable, _⟩
      · exact ⟨error, Except.error.inj (isError.symm.trans isRefusal)⟩
      · exact absurd (nameable stray isFirst) notNameable

/-- A request for a shared tier below another one. -/
def sharedBelow (id parent : Int) : Request where
  id := id
  spec := {
    id := .whole id, label := "Web", kind := .percentage, priority := .shared
    share := some 50, rate := none, ratePercent := none, parent := .whole parent }

/-- A tier that was declared before its parent comes after all tiers below the root. -/
theorem isLayered_of_turned :
    let requests := [sharedBelow 30 20, sharedBelow 20 1, sharedBelow 40 1]
    (idsOf requests).Nodup ∧ rootId ∉ idsOf requests ∧ IsLayered requests ∧
      ((inLayers (idsOf requests) [rootId] requests).map idsOf).toOption = some [20, 40, 30] := by
  intro requests
  have distinct : (idsOf requests).Nodup := by decide
  have proper : rootId ∉ idsOf requests := by decide
  have written : ∀ request ∈ requests, request.spec.id.isWritable = true ∧
      request.spec.parent.isWritable = true := by
    decide +kernel
  refine ⟨distinct, proper, (isLayered_iff distinct proper).mpr fun stray isFirst => ?_, ?_⟩
  · rcases written stray isFirst.mem with ⟨id, parent⟩
    exact ⟨id, .inr parent⟩
  · decide +kernel

/-- A parent whose number has more digits than are written. -/
def vastParent : Int := ((16 ^ 3600 : Nat) : Int)

/-- No tier has the parent, but the refusal that says so cannot be written. -/
theorem not_isLayered_of_vastParent :
    let requests := [sharedBelow 10 vastParent]
    (idsOf requests).Nodup ∧ rootId ∉ idsOf requests ∧
      (∀ layered, inLayers (idsOf requests) [rootId] requests ≠ .ok layered) ∧
        (∀ error, inLayers (idsOf requests) [rootId] requests ≠ .error (.allocation error)) ∧
          ¬ IsLayered requests := by
  intro requests
  have failed : inLayers (idsOf requests) [rootId] requests = .error (.invalid .unwritable) := by
    have stuck : ¬ requests.any (isReady [rootId]) = true := by decide +kernel
    have undeclared : ¬ isReady (idsOf requests) (sharedBelow 10 vastParent) = true := by
      decide +kernel
    have unwritten : ¬ (Number.whole vastParent).isWritable = true := by decide +kernel
    rw [inLayers, dif_neg stuck]
    rcases unreachable_cases (idsOf requests) (sharedBelow 10 vastParent) with
      ⟨nameable, _⟩ | ⟨_, isError⟩
    · exact (nameable.2.elim undeclared unwritten).elim
    · exact isError
  refine ⟨by decide, by decide, fun layered ordered => ?_, fun error refused => ?_,
    fun isLayered => ?_⟩
  · cases failed.symm.trans ordered
  · cases failed.symm.trans refused
  · rcases isLayered.refuses _ failed with ⟨error, isRefusal⟩
    cases isRefusal

end Allocation

end UplinkShaper
