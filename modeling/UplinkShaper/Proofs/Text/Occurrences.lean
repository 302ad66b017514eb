import Mathlib.Data.List.Infix
import UplinkShaper.Text.Lines

/-!
Parts of texts. A search finds a part if it is somewhere in the text, and a count from the left
finds as many parts as can stand there one after another.
-/

namespace UplinkShaper

namespace Text

variable {part text : List Char}

theorem occursIn_iff : occursIn part text = true ↔ part <:+: text := by
  induction text with
  | nil => rw [occursIn, List.isEmpty_iff, List.infix_nil]
  | cons character rest induction =>
      rw [occursIn, Bool.or_eq_true, List.isPrefixOf_iff_prefix, induction, List.infix_cons_iff]

/-- A part is on one side of a character that is not in it. -/
theorem infix_append_cons_iff {left right : List Char} {character : Char}
    (outside : character ∉ part) :
    part <:+: left ++ character :: right ↔ part <:+: left ∨ part <:+: right := by
  have prefixes (others : List Char) :
      part <+: others ++ character :: right ↔ part <+: others := by
    refine ⟨fun starts => ?_, fun starts => starts.trans (List.prefix_append _ _)⟩
    rcases List.prefix_or_prefix_of_prefix starts (List.prefix_append others _) with within | longer
    · exact within
    · rcases longer with ⟨more, rfl⟩
      rw [List.prefix_append_right_inj] at starts
      cases more with
      | nil => rw [List.append_nil]
      | cons next later =>
          obtain rfl := (List.cons_prefix_cons.mp starts).1
          exact absurd (List.mem_append_right others (List.mem_cons_self ..)) outside
  induction left with
  | nil =>
      rw [List.nil_append, List.infix_cons_iff, List.infix_nil, ← List.prefix_nil]
      exact or_congr_left (prefixes [])
  | cons first others induction =>
      rw [List.cons_append, List.infix_cons_iff, List.infix_cons_iff, or_assoc]
      exact or_congr (prefixes (first :: others)) induction

/-! ## Counts of a part -/

/-- A part stands in a text so many times, each time after the one before. -/
def HasTimes (part : List Char) : Nat → List Char → Prop
  | 0, _ => True
  | count + 1, text =>
      ∃ before rest, text = before ++ (part ++ rest) ∧ HasTimes part count rest

theorem HasTimes.append_left {count : Nat} (times : HasTimes part count text)
    (before : List Char) : HasTimes part count (before ++ text) := by
  cases count with
  | zero => trivial
  | succ count =>
      rcases times with ⟨skipped, rest, rfl, times⟩
      exact ⟨before ++ skipped, rest, (List.append_assoc ..).symm, times⟩

/-- A text that has a part so often can be written. -/
theorem hasTimes_flatten_replicate (part : List Char) (count : Nat) :
    HasTimes part count (List.replicate count part).flatten := by
  induction count with
  | zero => trivial
  | succ count induction =>
      rw [List.replicate_succ, List.flatten_cons]
      exact ⟨[], _, rfl, induction⟩

/-- Whoever takes a part that stands at the beginning leaves the most for those to come. -/
theorem hasTimes_append_succ {count : Nat} {rest : List Char} :
    HasTimes part (count + 1) (part ++ rest) ↔ HasTimes part count rest := by
  constructor
  · rintro ⟨before, later, same, times⟩
    have isSuffix : later <:+ rest := by
      rw [← List.append_assoc] at same
      refine List.suffix_of_suffix_length_le (same ▸ List.suffix_append _ _)
        (List.suffix_append part rest) ?_
      have lengths := congrArg List.length same
      simp only [List.length_append] at lengths
      omega
    rcases isSuffix with ⟨between, rfl⟩
    exact times.append_left between
  · exact fun times => ⟨[], rest, rfl, times⟩

theorem hasTimes_succ_cons {count : Nat} {character : Char}
    (differs : ¬ part <+: character :: text) :
    HasTimes part (count + 1) (character :: text) ↔ HasTimes part (count + 1) text := by
  constructor
  · rintro ⟨before, rest, same, times⟩
    cases before with
    | nil => exact absurd ⟨rest, same.symm⟩ differs
    | cons first others =>
        exact ⟨others, rest, (List.cons.inj same).2, times⟩
  · exact fun times => times.append_left [character]

theorem occurrences_go_eq (skip : Nat) (text : List Char) :
    occurrences.go part skip text = occurrences part (text.drop skip) := by
  induction text generalizing skip with
  | nil => rw [List.drop_nil]; rfl
  | cons character rest induction =>
      cases skip with
      | zero => rfl
      | succ skip => exact induction skip

theorem occurrences_append (nonempty : part ≠ []) (rest : List Char) :
    occurrences part (part ++ rest) = occurrences part rest + 1 := by
  obtain ⟨first, others, rfl⟩ := List.exists_cons_of_ne_nil nonempty
  have isPrefix : (first :: others).isPrefixOf (first :: (others ++ rest)) = true :=
    List.isPrefixOf_iff_prefix.mpr (List.prefix_append (first :: others) rest)
  have skipped : (others ++ rest).drop ((first :: others).length - 1) = rest := List.drop_left
  rw [List.cons_append, occurrences, occurrences.go, if_neg (not_not.mpr rfl), if_pos isPrefix,
    occurrences_go_eq, skipped]

theorem occurrences_cons {character : Char} (differs : ¬ part <+: character :: text) :
    occurrences part (character :: text) = occurrences part text := by
  have notPrefix : ¬ part.isPrefixOf (character :: text) = true := by
    rwa [List.isPrefixOf_iff_prefix]
  rw [occurrences, occurrences.go, if_neg (not_not.mpr rfl), if_neg notPrefix]
  rfl

/-- As many parts are counted as can stand one after another. -/
theorem le_occurrences_iff (nonempty : part ≠ []) {count : Nat} :
    count ≤ occurrences part text ↔ HasTimes part count text := by
  -- Counting goes on after a whole part, so the induction is on how much is left.
  induction length : text.length using Nat.strong_induction_on generalizing text count with
  | _ size induction =>
      cases count with
      | zero => exact iff_of_true (Nat.zero_le _) trivial
      | succ count =>
          by_cases starts : part <+: text
          · rcases starts with ⟨rest, rfl⟩
            have shorter : rest.length < size := by
              have positive := List.length_pos_of_ne_nil nonempty
              rw [List.length_append] at length
              omega
            rw [occurrences_append nonempty, Nat.add_le_add_iff_right,
              induction rest.length shorter rfl, hasTimes_append_succ]
          · cases text with
            | nil =>
                refine iff_of_false (Nat.not_succ_le_zero count) ?_
                rintro ⟨before, rest, same, _⟩
                rcases List.append_eq_nil_iff.mp same.symm with ⟨_, both⟩
                exact nonempty (List.append_eq_nil_iff.mp both).1
            | cons character rest =>
                have shorter : rest.length < size := length ▸ Nat.lt_succ_self _
                rw [occurrences_cons starts, induction rest.length shorter rfl,
                  hasTimes_succ_cons starts]

end Text

end UplinkShaper
