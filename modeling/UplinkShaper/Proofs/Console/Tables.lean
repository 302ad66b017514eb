import UplinkShaper.Display
import UplinkShaper.Proofs.Allocation.WellFormed
import UplinkShaper.Proofs.Number.Range

/-!
Tables that can be shown. Bytes are shown by way of doubles, so a count can be shown if it has a
finite one near it. The queue limits of classes always do, and the counters of a snapshot may not.
-/

namespace UplinkShaper

/-- A count that is unknown, or that has a finite double near it. -/
def Reading.HasDouble : Reading Nat → Prop
  | .unknown => True
  | .known count => (count : Int) < Double.bound

namespace Display

/-! ## Bytes -/

theorem exists_byteSize {count : Int} {double : Double}
    (isDouble : Double.ofInt count = .ok double) :
    ∃ text, byteSize (.whole count) = .ok text := by
  have converted : arithmetic (Number.whole count).toDouble = .ok double :=
    Result.arithmetic_eq_ok.mpr isDouble
  unfold byteSize
  rw [converted, Result.ok_bind]
  split
  case isFalse => exact ⟨_, rfl⟩
  case isTrue less =>
    cases double with
    | finite value => exact ⟨_, rfl⟩
    | negativeZero => exact ⟨_, rfl⟩
    | notANumber => cases less
    | infinite negative =>
        unfold Double.ofInt at isDouble
        cases rounded : Double.round count with
        | infinite _ =>
            rw [rounded] at isDouble
            cases isDouble
        | _ =>
            rw [rounded] at isDouble
            cases isDouble

theorem byteReading_cases (reading : Reading Nat) :
    (reading.HasDouble ∧ ∃ text, byteReading reading = .ok text) ∨
      ¬ reading.HasDouble ∧ byteReading reading = .error .overflow := by
  cases reading with
  | unknown => exact .inl ⟨trivial, _, rfl⟩
  | known count =>
      by_cases below : (count : Int) < Double.bound
      · refine .inl ⟨below, ?_⟩
        have isDouble : ∃ double, Double.ofInt count = .ok double := by
          rcases Nat.eq_zero_or_pos count with rfl | positive
          · exact ⟨_, Double.ofInt_eq_ok (by decide)⟩
          · exact (Double.exists_ofInt_eq_ok_iff (by exact_mod_cast positive)).mpr below
        rcases isDouble with ⟨double, isDouble⟩
        exact exists_byteSize isDouble
      · refine .inr ⟨below, ?_⟩
        have overflows := Double.ofInt_eq_overflow (not_lt.mp below)
        change (do
          let size ← arithmetic (Double.ofInt count)
          _ : Except Failure String) = _
        rw [overflows]
        rfl

/-! ## Snapshots -/

theorem countersRow_cases (counters : ClassCounters) :
    (counters.bytes.HasDouble ∧ ∃ row, countersRow counters = .ok row) ∨
      ¬ counters.bytes.HasDouble ∧ countersRow counters = .error .overflow := by
  unfold countersRow
  rcases byteReading_cases counters.bytes with ⟨hasDouble, text, shown⟩ | ⟨lacks, overflows⟩
  · rw [shown]
    exact .inl ⟨hasDouble, _, rfl⟩
  · rw [overflows]
    exact .inr ⟨lacks, rfl⟩

/-- Rows are made of all counters, or the first that cannot be shown is in the way. -/
theorem mapM_countersRow_cases (classes : List ClassCounters) :
    ((∀ counters ∈ classes, counters.bytes.HasDouble) ∧
      ∃ rows, classes.mapM countersRow = .ok rows) ∨
    (¬ ∀ counters ∈ classes, counters.bytes.HasDouble) ∧
      classes.mapM countersRow = .error .overflow := by
  induction classes with
  | nil => exact .inl ⟨List.forall_mem_nil _, [], rfl⟩
  | cons counters rest induction =>
      rw [List.mapM_cons, List.forall_mem_cons]
      rcases countersRow_cases counters with ⟨hasDouble, row, shown⟩ | ⟨lacks, overflows⟩
      · rcases induction with ⟨others, rows, shownToo⟩ | ⟨lacks, overflows⟩
        · rw [shown, shownToo]
          exact .inl ⟨⟨hasDouble, others⟩, _, rfl⟩
        · rw [shown, overflows]
          exact .inr ⟨fun all => lacks all.2, rfl⟩
      · rw [overflows]
        exact .inr ⟨fun all => lacks all.1, rfl⟩

/-- A snapshot can be shown exactly where all its counts of bytes have finite doubles. -/
theorem ofSnapshot_cases (snapshot : Snapshot) :
    ((∀ counters ∈ snapshot.classes, counters.bytes.HasDouble) ∧
      ∃ table, ofSnapshot snapshot = .ok table) ∨
    (¬ ∀ counters ∈ snapshot.classes, counters.bytes.HasDouble) ∧
      ofSnapshot snapshot = .error .overflow := by
  unfold ofSnapshot
  rcases mapM_countersRow_cases snapshot.classes with ⟨all, rows, shown⟩ | ⟨lacks, overflows⟩
  · rw [shown]
    exact .inl ⟨all, _, rfl⟩
  · rw [overflows]
    exact .inr ⟨lacks, rfl⟩

/-! ## Trees -/

/-- The tree of a compilation can be shown. -/
theorem exists_ofTree {request : TreeRequest} {roundTrip : Number} {tree : ClassTree}
    (compiled : request.compile roundTrip = .ok tree) : ∃ table, ofTree tree = .ok table := by
  have each : ∀ tier ∈ tree.tiers, ∃ row, tierRow tier = .ok row := by
    intro tier member
    rcases (TreeRequest.exists_made_of_compile compiled).2 tier member with ⟨_, _, _, _, made⟩
    have bounds := made.buffer
    unfold Buffer.minimum Buffer.maximum at bounds
    have small : |tier.buffer| < 2 ^ 53 := by
      rw [abs_lt]
      omega
    rcases exists_byteSize (Double.ofInt_eq_ok small) with ⟨text, shown⟩
    unfold tierRow
    rw [shown]
    exact ⟨_, rfl⟩
  rcases Result.exists_mapM_of_forall each with ⟨rows, shown⟩
  unfold ofTree
  rw [shown]
  exact ⟨_, rfl⟩

end Display

end UplinkShaper
