import Mathlib.Data.List.Basic
import Mathlib.Data.List.Nodup

/-!
Items with keys. Where no key comes twice an item is found by its key, and the order of the keys
is the order of the items. Sorting by a key keeps the order of items with the same one, and this
makes the sorted list the only one of its kind.
-/

namespace UplinkShaper

/-! ## Distinct keys -/

section Distinct

variable {α β : Type} {key : α → β} {items : List α}

theorem filter_key_eq_singleton [DecidableEq β] (distinct : (items.map key).Nodup) {item : α}
    (member : item ∈ items) : items.filter (fun other => key other = key item) = [item] := by
  induction items with
  | nil => cases member
  | cons head rest induction =>
      rcases List.nodup_cons.mp distinct with ⟨new, distinctRest⟩
      rcases List.mem_cons.mp member with rfl | later
      · have none : rest.filter (fun other => key other = key item) = [] := by
          rw [List.filter_eq_nil_iff]
          intro other otherMember
          simp only [decide_eq_true_eq]
          intro equal
          exact new (equal ▸ List.mem_map_of_mem otherMember)
        simp [none]
      · have different : key head ≠ key item := by
          intro equal
          exact new (equal ▸ List.mem_map_of_mem later)
        rw [List.filter_cons_of_neg (by simpa using different)]
        exact induction distinctRest later

theorem find?_key_eq_some [BEq β] [LawfulBEq β] (distinct : (items.map key).Nodup) {item : α}
    (member : item ∈ items) : items.find? (key · == key item) = some item := by
  induction items with
  | nil => cases member
  | cons first rest induction =>
      rw [List.map_cons, List.nodup_cons] at distinct
      rcases List.mem_cons.mp member with rfl | later
      · rw [List.find?_cons, beq_self_eq_true]
      · have different : key first ≠ key item := fun same =>
          distinct.1 (same ▸ List.mem_map_of_mem later)
        rw [List.find?_cons, beq_eq_false_iff_ne.mpr different]
        exact induction distinct.2 later

/-- Without repeated keys it does not matter from which end an item is looked for. -/
theorem find?_reverse_key [BEq β] [LawfulBEq β] (distinct : (items.map key).Nodup) (wanted : β) :
    items.reverse.find? (key · == wanted) = items.find? (key · == wanted) := by
  have turned : (items.reverse.map key).Nodup := by
    rwa [List.map_reverse, List.nodup_reverse]
  cases found : items.find? (key · == wanted) with
  | none =>
      rw [List.find?_eq_none] at found ⊢
      exact fun item member => found item (List.mem_reverse.mp member)
  | some item =>
      have isWanted : key item = wanted := by simpa using List.find?_some found
      rw [← isWanted]
      exact find?_key_eq_some turned (List.mem_reverse.mpr (List.mem_of_find?_eq_some found))

end Distinct

/-! ## The order of two items -/

section Pairs

variable {α β : Type} {first second : α} {items : List α}

theorem pair_or_pair (different : first ≠ second) (isFirst : first ∈ items)
    (isSecond : second ∈ items) :
    [first, second].Sublist items ∨ [second, first].Sublist items := by
  induction items with
  | nil => cases isFirst
  | cons head rest induction =>
      rcases List.mem_cons.mp isFirst with rfl | firstLater
      · left
        have later := List.mem_of_ne_of_mem different.symm isSecond
        exact (List.singleton_sublist.mpr later).cons_cons first
      · rcases List.mem_cons.mp isSecond with rfl | secondLater
        · exact .inr ((List.singleton_sublist.mpr firstLater).cons_cons second)
        · exact (induction firstLater secondLater).imp (·.cons head) (·.cons head)

/-- In a list without repetitions two items have one order. -/
theorem not_pair_of_pair (distinct : items.Nodup) (inOrder : [first, second].Sublist items) :
    ¬ [second, first].Sublist items := by
  induction items with
  | nil => cases inOrder
  | cons head rest induction =>
      rcases List.nodup_cons.mp distinct with ⟨new, distinctRest⟩
      intro turned
      cases inOrder with
      | cons _ later =>
          cases turned with
          | cons _ turnedLater => exact induction distinctRest later turnedLater
          | cons_cons _ firstLater => exact new (later.subset (by simp))
      | cons_cons _ secondLater =>
          have repeated : first ∈ rest := by
            cases turned with
            | cons _ turnedLater => exact turnedLater.subset (by simp)
            | cons_cons _ firstLater => exact firstLater.subset (by simp)
          exact new repeated

/-- Items with different keys stand in the order of their keys. -/
theorem pair_sublist_map_iff {key : α → β} (distinct : (items.map key).Nodup)
    (isFirst : first ∈ items) (isSecond : second ∈ items) :
    [key first, key second].Sublist (items.map key) ↔ [first, second].Sublist items := by
  refine ⟨fun inOrder => ?_, fun inOrder => inOrder.map key⟩
  rcases List.sublist_map_iff.mp inOrder with ⟨pair, kept, same⟩
  rcases List.map_eq_cons_iff.mp same.symm with ⟨left, others, rfl, leftKey, rest⟩
  rcases List.map_eq_singleton_iff.mp rest with ⟨right, rfl, rightKey⟩
  have isLeft := List.inj_on_of_nodup_map distinct (kept.subset (by simp)) isFirst leftKey
  have isRight := List.inj_on_of_nodup_map distinct (kept.subset (by simp)) isSecond rightKey
  rwa [isLeft, isRight] at kept

end Pairs

/-! ## Stable sorting -/

section Sorting

variable {α : Type} {key : α → Nat}

theorem mem_iff_of_filter {first second : List α}
    (same : ∀ value, first.filter (key · = value) = second.filter (key · = value)) (item : α) :
    item ∈ first ↔ item ∈ second := by
  have found := congrArg (item ∈ ·) (same (key item))
  simpa using found

theorem key_le_of_mem {head item : α} {rest : List α}
    (sorted : (head :: rest).Pairwise fun left right => key left ≤ key right)
    (member : item ∈ head :: rest) : key head ≤ key item := by
  rcases List.mem_cons.mp member with rfl | later
  · exact Nat.le_refl _
  · exact (List.pairwise_cons.mp sorted).1 item later

/-- Two sorted lists are the same if they have the same items with each key. -/
theorem eq_of_sorted_of_filter {first second : List α}
    (sortedFirst : first.Pairwise fun left right => key left ≤ key right)
    (sortedSecond : second.Pairwise fun left right => key left ≤ key right)
    (same : ∀ value, first.filter (key · = value) = second.filter (key · = value)) :
    first = second := by
  induction first generalizing second with
  | nil =>
      cases second with
      | nil => rfl
      | cons head rest => simpa using same (key head)
  | cons head rest induction =>
      cases second with
      | nil => simpa using same (key head)
      | cons other others =>
          have isOther := (mem_iff_of_filter same other).mpr (List.mem_cons_self ..)
          have isHead := (mem_iff_of_filter same head).mp (List.mem_cons_self ..)
          have equal : key head = key other :=
            Nat.le_antisymm (key_le_of_mem sortedFirst isOther) (key_le_of_mem sortedSecond isHead)
          have heads := same (key head)
          rw [List.filter_cons_of_pos (by simp), List.filter_cons_of_pos (by simp [equal])] at heads
          rcases List.cons.inj heads with ⟨rfl, _⟩
          have rests := induction (List.pairwise_cons.mp sortedFirst).2
            (List.pairwise_cons.mp sortedSecond).2 fun value => by
              have both := same value
              by_cases isKey : key head = value
              · simpa [isKey] using both
              · simpa [isKey] using both
          rw [rests]

theorem pairwise_filter_key (items : List α) (value : Nat) :
    (items.filter (key · = value)).Pairwise fun left right => key left ≤ key right := by
  rw [List.pairwise_iff_forall_sublist]
  intro left right pair
  have isLeft := (List.mem_filter.mp (pair.subset (by simp : left ∈ [left, right]))).2
  have isRight := (List.mem_filter.mp (pair.subset (by simp : right ∈ [left, right]))).2
  simp only [decide_eq_true_eq] at isLeft isRight
  omega

theorem pairwise_flatMap_range (items : List α) (bound : Nat) :
    ((List.range bound).flatMap fun value => items.filter (key · = value)).Pairwise
      fun left right => key left ≤ key right := by
  rw [List.pairwise_flatMap]
  refine ⟨fun value _ => pairwise_filter_key items value, List.pairwise_lt_range.imp ?_⟩
  intro first second less left inLeft right inRight
  simp only [List.mem_filter, decide_eq_true_eq] at inLeft inRight
  omega

theorem filter_flatMap_range (items : List α) (bound value : Nat) :
    ((List.range bound).flatMap fun other => items.filter (key · = other)).filter (key · = value) =
      if value < bound then items.filter (key · = value) else [] := by
  induction bound with
  | zero => rfl
  | succ bound induction =>
      have last : (items.filter (key · = bound)).filter (key · = value) =
          if bound = value then items.filter (key · = value) else [] := by
        by_cases equal : bound = value
        · simp [equal, List.filter_filter]
        · rw [if_neg equal, List.filter_filter, List.filter_eq_nil_iff]
          intro item _
          simp only [Bool.and_eq_true, decide_eq_true_eq]
          omega
      rw [List.range_succ, List.flatMap_append, List.filter_append, induction]
      simp only [List.flatMap_cons, List.flatMap_nil, List.append_nil, last]
      grind

variable {le : α → α → Bool} (byKey : ∀ left right, le left right = decide (key left ≤ key right))

include byKey

theorem le_trans_of_key (first second third : α) (isFirst : le first second = true)
    (isSecond : le second third = true) : le first third = true := by
  simp only [byKey, decide_eq_true_eq] at isFirst isSecond ⊢
  omega

theorem le_total_of_key (first second : α) : (le first second || le second first) = true := by
  simp only [byKey, Bool.or_eq_true, decide_eq_true_eq]
  omega

/-- Sorting keeps the order of the items with one key. -/
theorem filter_mergeSort (items : List α) (value : Nat) :
    (items.mergeSort le).filter (key · = value) = items.filter (key · = value) := by
  have level : (items.filter (key · = value)).Pairwise fun left right => le left right = true := by
    simpa [byKey] using pairwise_filter_key items value
  have kept := List.sublist_mergeSort (le_trans_of_key byKey) (le_total_of_key byKey) level
    List.filter_sublist
  have inside := kept.filter (key · = value)
  simp only [List.filter_filter, Bool.and_self] at inside
  refine (inside.eq_of_length ?_).symm
  exact ((List.mergeSort_perm items le).filter _).length_eq.symm

/-- A sorted list holds the items key by key, those with one key in their old order. -/
theorem mergeSort_eq_flatMap (items : List α) {bound : Nat}
    (below : ∀ item ∈ items, key item < bound) :
    items.mergeSort le =
      (List.range bound).flatMap fun value => items.filter (key · = value) := by
  refine @eq_of_sorted_of_filter _ key _ _ ?_ (pairwise_flatMap_range items bound) fun value => ?_
  · simpa [byKey] using
      List.pairwise_mergeSort (le_trans_of_key byKey) (le_total_of_key byKey) items
  · rw [filter_mergeSort byKey, filter_flatMap_range]
    split
    · rfl
    case isFalse above =>
      rw [List.filter_eq_nil_iff]
      intro item member
      have := below item member
      simp only [decide_eq_true_eq]
      omega

end Sorting

end UplinkShaper
