import UplinkShaper.Text.Blank
import UplinkShaper.Text.Lines
import UplinkShaper.Text.Parts
import Mathlib.Data.List.SplitBy
import Mathlib.Data.List.DropRight

/-!
Texts that are put together. A separator between two texts keeps their pieces apart, a line
feed keeps their lines apart, and blanks around a text are not part of any piece. No part of a
text holds what separates its parts, and a whole number is written in digits.
-/

namespace UplinkShaper

namespace Text

/-! ## Pieces -/

section Pieces

variable {isSeparator : Char → Bool} {left right : List Char}

/-- Pieces do not run over a place where separators begin or end. -/
theorem pieces_append_of_boundary
    (boundary : ∀ last ∈ left.getLast?, ∀ next ∈ right.head?, isSeparator last ≠ isSeparator next) :
    pieces isSeparator (left ++ right) = pieces isSeparator left ++ pieces isSeparator right := by
  rw [pieces, List.splitBy_append, List.filter_append]
  · rfl
  · intro last isLast next isNext
    exact beq_eq_false_iff_ne.mpr (boundary last isLast next isNext)

theorem pieces_separators {separators : List Char}
    (each : ∀ character ∈ separators, isSeparator character) :
    pieces isSeparator separators = [] := by
  rw [pieces, List.filter_eq_nil_iff]
  intro piece member
  obtain ⟨character, inPiece⟩ := List.exists_mem_of_ne_nil _ (List.ne_nil_of_mem_splitBy member)
  have inText : character ∈ separators := by
    rw [← List.flatten_splitBy (fun left right => isSeparator left == isSeparator right) separators]
    exact List.mem_flatten_of_mem member inPiece
  rw [Bool.not_eq_true, Bool.not_eq_false', List.any_eq_true]
  exact ⟨character, inPiece, each character inText⟩

theorem pieces_word {word : List Char} (nonempty : word ≠ [])
    (whole : ∀ character ∈ word, isSeparator character = false) :
    pieces isSeparator word = [word] := by
  have one : word.splitBy (fun left right => isSeparator left == isSeparator right) = [word] := by
    refine List.splitBy_of_isChain nonempty (List.Pairwise.isChain ?_)
    refine List.pairwise_of_forall_mem_list fun first isFirst second isSecond => ?_
    rw [whole first isFirst, whole second isSecond]
    rfl
  have kept : (!word.any isSeparator) = true := by
    rw [Bool.not_eq_true', List.any_eq_false]
    exact fun character member => by simp [whole character member]
  rw [pieces, one, List.filter_singleton, kept]
  rfl

theorem pieces_append_separators {separators : List Char}
    (each : ∀ character ∈ separators, isSeparator character) (text : List Char) :
    pieces isSeparator (text ++ separators) = pieces isSeparator text := by
  -- The separators at the end of the text join the others.
  have apart (others : List Char) (eachOther : ∀ character ∈ others, isSeparator character) :
      pieces isSeparator (text.rdropWhile isSeparator ++ others) =
        pieces isSeparator (text.rdropWhile isSeparator) := by
    rw [pieces_append_of_boundary, pieces_separators eachOther, List.append_nil]
    intro last isLast next isNext same
    have isSeparated : isSeparator next := eachOther next (List.mem_of_mem_head? isNext)
    have present : text.rdropWhile isSeparator ≠ [] := by
      rintro empty
      rw [empty] at isLast
      cases isLast
    have kept := List.rdropWhile_last_not isSeparator text present
    rw [List.getLast_of_mem_getLast? isLast] at kept
    exact kept (same.trans isSeparated)
  have ending : ∀ character ∈ text.rtakeWhile isSeparator, isSeparator character :=
    fun _ => List.mem_rtakeWhile_imp
  have split : text.rdropWhile isSeparator ++ text.rtakeWhile isSeparator = text :=
    List.rdropWhile_append_rtakeWhile
  calc pieces isSeparator (text ++ separators)
      = pieces isSeparator
          (text.rdropWhile isSeparator ++ (text.rtakeWhile isSeparator ++ separators)) := by
        rw [← List.append_assoc, split]
    _ = pieces isSeparator (text.rdropWhile isSeparator) :=
        apart _ fun character member =>
          (List.mem_append.mp member).elim (ending character) (each character)
    _ = pieces isSeparator text := by rw [← apart _ ending, split]

/-- A separator keeps the pieces before it and those after it apart. -/
theorem pieces_append_cons {separator : Char} (separates : isSeparator separator)
    (left right : List Char) :
    pieces isSeparator (left ++ separator :: right) =
      pieces isSeparator left ++ pieces isSeparator right := by
  have beginning : ∀ character ∈ separator :: right.takeWhile isSeparator,
      isSeparator character := by
    refine List.forall_mem_cons.mpr ⟨separates, fun character member => ?_⟩
    exact List.mem_takeWhile_imp member
  have apart (before : List Char)
      (ends : ∀ last ∈ before.getLast?, isSeparator last) :
      pieces isSeparator (before ++ right.dropWhile isSeparator) =
        pieces isSeparator before ++ pieces isSeparator (right.dropWhile isSeparator) := by
    refine pieces_append_of_boundary fun last isLast next isNext same => ?_
    have starts := List.head?_dropWhile_not isSeparator right
    rw [isNext] at starts
    rw [ends last isLast, starts] at same
    cases same
  have rest : pieces isSeparator right = pieces isSeparator (right.dropWhile isSeparator) := by
    conv_lhs => rw [← List.takeWhile_append_dropWhile (p := isSeparator) (l := right)]
    rw [apart, pieces_separators fun character => List.mem_takeWhile_imp]
    · rfl
    · exact fun last isLast => List.mem_takeWhile_imp (List.mem_of_getLast? isLast)
  calc pieces isSeparator (left ++ separator :: right)
      = pieces isSeparator ((left ++ separator :: right.takeWhile isSeparator) ++
          right.dropWhile isSeparator) := by
        rw [List.append_assoc, List.cons_append, List.takeWhile_append_dropWhile]
    _ = pieces isSeparator (left ++ separator :: right.takeWhile isSeparator) ++
          pieces isSeparator (right.dropWhile isSeparator) := by
        refine apart _ fun last isLast => ?_
        rw [List.getLast?_append_of_ne_nil _ (List.cons_ne_nil _ _)] at isLast
        exact beginning last (List.mem_of_getLast? isLast)
    _ = pieces isSeparator left ++ pieces isSeparator right := by
        rw [pieces_append_separators beginning, rest]

theorem pieces_cons {separator : Char} (separates : isSeparator separator) (text : List Char) :
    pieces isSeparator (separator :: text) = pieces isSeparator text := by
  have none : pieces isSeparator [] = [] := rfl
  simpa [none] using pieces_append_cons separates [] text

theorem pieces_append_of_ends (ends : ∀ last ∈ left.getLast?, isSeparator last) :
    pieces isSeparator (left ++ right) = pieces isSeparator left ++ pieces isSeparator right := by
  rcases List.eq_nil_or_concat left with rfl | ⟨before, last, rfl⟩
  · rfl
  · have separates : isSeparator last := ends last (by simp)
    have alone : ∀ character ∈ [last], isSeparator character := by simpa using separates
    rw [List.concat_eq_append, List.append_assoc, List.singleton_append,
      pieces_append_cons separates, pieces_append_separators alone]

theorem pieces_append_of_starts (starts : ∀ next ∈ right.head?, isSeparator next) :
    pieces isSeparator (left ++ right) = pieces isSeparator left ++ pieces isSeparator right := by
  cases right with
  | nil => simp [show pieces isSeparator [] = [] from rfl]
  | cons next after =>
      have separates : isSeparator next := starts next rfl
      rw [pieces_append_cons separates, pieces_cons separates]

theorem pieces_separators_append {separators : List Char}
    (each : ∀ character ∈ separators, isSeparator character) (text : List Char) :
    pieces isSeparator (separators ++ text) = pieces isSeparator text := by
  induction separators with
  | nil => rfl
  | cons separator rest induction =>
      rcases List.forall_mem_cons.mp each with ⟨separates, eachRest⟩
      rw [List.cons_append, pieces_cons separates, induction eachRest]

end Pieces

/-! ## Blanks at the ends -/

theorem strip_eq (text : List Char) :
    strip text = (text.dropWhile isBlank).rdropWhile isBlank :=
  rfl

/-- The blanks at the ends of a text are in none of its pieces. -/
theorem pieces_strip {isSeparator : Char → Bool}
    (separates : ∀ character, isBlank character → isSeparator character) (text : List Char) :
    pieces isSeparator (strip text) = pieces isSeparator text := by
  have ending : pieces isSeparator (strip text) = pieces isSeparator (text.dropWhile isBlank) := by
    rw [strip_eq]
    conv_rhs =>
      rw [← List.rdropWhile_append_rtakeWhile (p := isBlank) (l := text.dropWhile isBlank)]
    rw [pieces_append_separators]
    exact fun character member => separates character (List.mem_rtakeWhile_imp member)
  rw [ending]
  conv_rhs => rw [← List.takeWhile_append_dropWhile (p := isBlank) (l := text)]
  rw [pieces_separators_append]
  exact fun character member => separates character (List.mem_takeWhile_imp member)

/-- A text that is stripped starts with its first character that is not blank. -/
theorem head?_strip {text : List Char} {first : Char} (isFirst : (strip text).head? = some first) :
    (text.dropWhile isBlank).head? = some first := by
  rw [strip_eq] at isFirst
  obtain ⟨dropped, whole⟩ := List.rdropWhile_prefix isBlank (l := text.dropWhile isBlank)
  rw [← whole, List.head?_append, isFirst]
  rfl

/-- Of the blanks around a text that neither starts nor ends with one, only those after what
follows it are dropped. -/
theorem strip_append {shown : List Char} (nonempty : shown ≠ [])
    (firstKept : ∀ first ∈ shown.head?, isBlank first = false)
    (lastKept : ∀ last ∈ shown.getLast?, isBlank last = false) (rest : List Char) :
    strip (shown ++ rest) = shown ++ rest.rdropWhile isBlank := by
  have start : (shown ++ rest).dropWhile isBlank = shown ++ rest := by
    rw [List.dropWhile_eq_self_iff]
    intro _
    rw [List.getElem_zero, List.head_append_of_ne_nil nonempty,
      firstKept _ (List.head_mem_head? nonempty)]
    exact Bool.false_ne_true
  have kept : shown.rdropWhile isBlank = shown := by
    rw [List.rdropWhile_eq_self_iff]
    intro _
    rw [lastKept _ (List.getLast_mem_getLast? nonempty)]
    exact Bool.false_ne_true
  rw [strip_eq, start, List.rdropWhile, List.reverse_append, List.dropWhile_append]
  split
  case isTrue dropped =>
    have blank : rest.rdropWhile isBlank = [] := by
      rw [List.rdropWhile, List.isEmpty_iff.mp dropped, List.reverse_nil]
    rw [blank, List.append_nil]
    exact kept
  case isFalse => rw [List.reverse_append, List.reverse_reverse, List.rdropWhile]

/-! ## Lines -/

theorem lines_cons {character : Char} (inside : isLineEnd character = false) (text : List Char) :
    lines (character :: text) = extendFirst character (lines text) := by
  rw [lines, if_neg (by simp [inside])]
  rintro rest rfl
  cases inside

/-- A line feed ends a line. -/
theorem lines_append_lineFeed {line : List Char}
    (inside : ∀ character ∈ line, isLineEnd character = false) (rest : List Char) :
    lines (line ++ '\n' :: rest) = line :: lines rest := by
  induction line with
  | nil => rfl
  | cons character others induction =>
      rcases List.forall_mem_cons.mp inside with ⟨first, insideOthers⟩
      rw [List.cons_append, lines_cons first, induction insideOthers]
      rfl

/-- Lines that are written one after the other, each with a line feed after it. -/
theorem lines_flatMap {written : List (List Char)}
    (inside : ∀ line ∈ written, ∀ character ∈ line, isLineEnd character = false) :
    lines (written.flatMap (· ++ ['\n'])) = written := by
  induction written with
  | nil => rfl
  | cons line others induction =>
      rcases List.forall_mem_cons.mp inside with ⟨first, insideOthers⟩
      rw [List.flatMap_cons, List.append_assoc, List.singleton_append, lines_append_lineFeed first,
        induction insideOthers]

/-! ## Parts -/

theorem parts_ne_nil (separator : Char) (text : List Char) : parts separator text ≠ [] := by
  cases text with
  | nil => exact List.cons_ne_nil _ _
  | cons character rest =>
      unfold parts
      split
      · exact List.cons_ne_nil _ _
      · cases parts separator rest with
        | nil => exact List.cons_ne_nil _ _
        | cons first others => exact List.cons_ne_nil _ _

/-- A text with one part is that part. -/
theorem eq_of_parts_eq_singleton {separator : Char} {text only : List Char}
    (parted : parts separator text = [only]) : only = text := by
  induction text generalizing only with
  | nil =>
      cases parted
      rfl
  | cons character rest induction =>
      unfold parts at parted
      split at parted
      case isTrue =>
        exact absurd (List.cons.inj parted).2 (parts_ne_nil separator rest)
      case isFalse =>
        cases later : parts separator rest with
        | nil => exact absurd later (parts_ne_nil separator rest)
        | cons first others =>
            rw [later] at parted
            cases parted
            rw [induction later]

theorem parts_of_not_mem {separator : Char} {text : List Char} (absent : separator ∉ text) :
    parts separator text = [text] := by
  induction text with
  | nil => rfl
  | cons character rest induction =>
      rcases not_or.mp (List.mem_cons.not.mp absent) with ⟨differs, absentRest⟩
      rw [parts, if_neg (Ne.symm differs), induction absentRest]
      rfl

theorem parts_append {separator : Char} {first second : List Char} (absent : separator ∉ first) :
    parts separator (first ++ separator :: second) =
      first :: parts separator second := by
  induction first with
  | nil => simp [parts]
  | cons character rest induction =>
      rcases not_or.mp (List.mem_cons.not.mp absent) with ⟨differs, absentRest⟩
      rw [List.cons_append, parts, if_neg (Ne.symm differs), induction absentRest]
      rfl

/-- A part holds no separator. -/
theorem not_mem_of_mem_parts {separator : Char} {text part : List Char}
    (member : part ∈ parts separator text) : separator ∉ part := by
  induction text generalizing part with
  | nil =>
      cases List.mem_singleton.mp member
      exact List.not_mem_nil
  | cons character rest induction =>
      unfold parts at member
      split at member
      case isTrue =>
        rcases List.mem_cons.mp member with rfl | later
        · exact List.not_mem_nil
        · exact induction later
      case isFalse differs =>
        cases parted : parts separator rest with
        | nil => exact absurd parted (parts_ne_nil separator rest)
        | cons first others =>
            rw [parted] at member induction
            rcases List.mem_cons.mp member with rfl | later
            · rw [List.mem_cons, not_or]
              exact ⟨Ne.symm differs, induction (List.mem_cons_self ..)⟩
            · exact induction (List.mem_cons_of_mem _ later)

/-! ## Digits -/

/-- Characters of a kind are taken up to the first of another kind. -/
theorem takeWhile_append_of_stops {isTaken : Char → Bool} {taken rest : List Char}
    (each : ∀ character ∈ taken, isTaken character = true)
    (stops : ∀ next ∈ rest.head?, isTaken next = false) :
    (taken ++ rest).takeWhile isTaken = taken ∧ (taken ++ rest).dropWhile isTaken = rest := by
  rw [List.takeWhile_append_of_pos each, List.dropWhile_append_of_pos each]
  cases rest with
  | nil => simp
  | cons next rest =>
      have notTaken : ¬ isTaken next = true := by simp [stops next rfl]
      rw [List.takeWhile_cons_of_neg notTaken, List.dropWhile_cons_of_neg notTaken]
      simp

theorem toList_toString_natCast (count : Nat) :
    (toString (count : Int)).toList = Nat.toDigits 10 count :=
  Nat.toList_repr

theorem isDigit_of_mem_toDigits {count : Nat} :
    ∀ character ∈ Nat.toDigits 10 count, character.isDigit = true :=
  fun _ => Nat.isDigit_of_mem_toDigits (by decide) (by decide)

theorem not_mem_toDigits {character : Char} (notDigit : character.isDigit = false)
    (count : Nat) : character ∉ Nat.toDigits 10 count := by
  intro member
  rw [isDigit_of_mem_toDigits character member] at notDigit
  cases notDigit

end Text

end UplinkShaper
