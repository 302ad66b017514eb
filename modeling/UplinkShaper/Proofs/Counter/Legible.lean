import UplinkShaper.Proofs.Counter.Readings

/-!
Listings that are legible: texts of plain characters, in which no number has more digits than
are read. The words of a listing are parts of its text, so every count in a legible one can be
read, and a snapshot is made of it.
-/

namespace UplinkShaper

namespace Text

/-! ## Parts of texts -/

theorem infix_of_mem_pieces {isSeparator : Char → Bool} {text piece : List Char}
    (member : piece ∈ pieces isSeparator text) : piece <:+: text := by
  have isPart := List.infix_of_mem_flatten (List.mem_of_mem_filter member)
  rwa [List.flatten_splitBy] at isPart

theorem infix_strip (text : List Char) : strip text <:+: text := by
  rw [strip_eq]
  exact (List.rdropWhile_prefix isBlank _).isInfix.trans (List.dropWhile_suffix isBlank).isInfix

/-- Lines are parts of a text, and the first one is at its start. -/
theorem lines_parts (text : List Char) :
    (∀ line ∈ lines text, line <:+: text) ∧ ∀ first ∈ (lines text).head?, first <+: text := by
  induction text using lines.induct with
  | case1 => exact ⟨List.forall_mem_nil _, nofun⟩
  | case2 rest induction =>
      rw [lines]
      constructor
      · refine List.forall_mem_cons.mpr ⟨List.nil_infix, fun line member => ?_⟩
        exact ((induction.1 line member).trans (List.suffix_cons '\n' rest).isInfix).trans
          (List.suffix_cons '\r' _).isInfix
      · intro first isFirst
        cases isFirst
        exact List.nil_prefix
  | case3 character rest notBoth isEnd induction =>
      rw [lines, if_pos isEnd]
      · constructor
        · refine List.forall_mem_cons.mpr ⟨List.nil_infix, fun line member => ?_⟩
          exact (induction.1 line member).trans (List.suffix_cons character rest).isInfix
        · intro first isFirst
          cases isFirst
          exact List.nil_prefix
      · exact notBoth
  | case4 character rest notBoth notEnd induction =>
      rw [lines, if_neg notEnd]
      · cases found : lines rest with
        | nil =>
            have alone : [character] <+: character :: rest :=
              List.cons_prefix_cons.mpr ⟨rfl, List.nil_prefix⟩
            constructor
            · exact List.forall_mem_singleton.mpr alone.isInfix
            · intro first isFirst
              cases isFirst
              exact alone
        | cons line others =>
            rw [found] at induction
            have longer : character :: line <+: character :: rest :=
              List.cons_prefix_cons.mpr ⟨rfl, induction.2 line rfl⟩
            constructor
            · refine List.forall_mem_cons.mpr ⟨longer.isInfix, fun other member => ?_⟩
              exact (induction.1 other (List.mem_cons_of_mem _ member)).trans
                (List.suffix_cons character rest).isInfix
            · intro first isFirst
              cases isFirst
              exact longer
      · exact notBoth

/-! ## Legible texts -/

/-- Plain characters, and no number of more digits than are read. -/
structure IsLegible (text : List Char) : Prop where
  plain : ∀ character ∈ text, character.toNat < 128
  short : ∀ digits, digits <:+: text → digits.all isDecimal → digits.length ≤ digitLimit

theorem IsLegible.of_infix {text part : List Char} (legible : IsLegible text)
    (isPart : part <:+: text) : IsLegible part where
  plain character member := legible.plain character (isPart.subset member)
  short digits within := legible.short digits (within.trans isPart)

/-- A plain text that is short as a whole is legible. -/
theorem isLegible_of_length_le {text : List Char}
    (plain : ∀ character ∈ text, character.toNat < 128) (short : text.length ≤ digitLimit) :
    IsLegible text where
  plain := plain
  short _ within _ := within.length_le.trans short

/-- Among plain characters only decimal digits stand for digits. -/
theorem isDecimal_of_isDigitSign {character : Char} (plain : character.toNat < 128)
    (isSign : isDigitSign character = true) : isDecimal character = true := by
  have above : ∀ range ∈ digitSignRanges, 128 ≤ range.1 := by decide
  rcases Bool.or_eq_true_iff.mp isSign with decimal | other
  · exact decimal
  · rcases List.any_eq_true.mp other with ⟨range, member, within⟩
    have atLeast := of_decide_eq_true (Bool.and_eq_true_iff.mp within).1
    have large := above range member
    omega

end Text

open Text

/-- A word of a legible text can be read. -/
theorem Text.IsLegible.isReadable {word : List Char} (legible : IsLegible word) :
    Counter.IsReadable word := by
  intro areSigns
  have decimal : word.all isDecimal = true := List.all_eq_true.mpr fun character member =>
    isDecimal_of_isDigitSign (legible.plain character member)
      (List.all_eq_true.mp areSigns character member)
  exact ⟨decimal, legible.short word List.infix_rfl decimal⟩

/-- The words of a record are parts of the text that is listed. -/
theorem CounterRecord.infix_of_mem_ofText {record : CounterRecord} {wanted : Option String}
    {text : String} (member : record ∈ ofText wanted text) : ∀ word ∈ record.tokens, word <:+: text.toList := by
  intro word isWord
  rcases exists_line_of_mem_ofText member word isWord with ⟨line, isLine, within⟩
  exact (infix_of_mem_pieces within).trans
    ((infix_strip line).trans ((lines_parts text.toList).1 line isLine))

/-! ## Snapshots -/

/-- A snapshot is made of a legible listing, with the counts of its records. -/
theorem Snapshot.exists_ofListing {listing : String} (legible : IsLegible listing.toList)
    (labels : Labels) (device : String) (capturedAt : Moment) :
    ∃ snapshot, ofListing labels device capturedAt listing = .ok snapshot ∧
      List.Forall₂ (fun record counters => record.bytes = .ok counters.bytes)
        (CounterRecord.ofText (some shapingKind) listing) snapshot.classes := by
  have readable : ∀ record ∈ CounterRecord.ofText (some shapingKind) listing,
      record.HasReadableCounts := by
    intro record member
    have each : ∀ word ∈ record.tokens, Counter.IsReadable word := fun word isWord =>
      (legible.of_infix (CounterRecord.infix_of_mem_ofText member word isWord)).isReadable
    exact ⟨fun word shown => each word shown.mem, fun word shown => each word shown.mem,
      fun word shown => each word shown.mem⟩
  rcases hasSnapshots_of_readable readable labels device capturedAt with ⟨snapshot, made, told⟩
  exact ⟨snapshot, made, told.imp fun _ _ tells => tells.bytes⟩

end UplinkShaper
