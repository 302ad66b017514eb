import UplinkShaper.Proofs.Counter.Layout

/-!
How the lines of a listing are read. The line of a class opens its record; every other line
is a detail, and its words are the counters and the fillers that were written.
-/

namespace UplinkShaper

/-! ## Characters -/

namespace Text

/-- What can be seen of the basic characters is not blank. -/
theorem isBlank_eq_false {character : Char} (above : 0x21 ≤ character.toNat)
    (below : character.toNat < 0x7f) : isBlank character = false := by
  simp only [isBlank, inRanges, blankRanges, List.any_eq_false, List.forall_mem_cons,
    Bool.and_eq_true, decide_eq_true_eq]
  simp only [List.not_mem_nil, IsEmpty.forall_iff, implies_true, and_true]
  omega

theorem isBlank_of_isLineEnd {character : Char} (ends : isLineEnd character = true) :
    isBlank character = true := by
  simp only [isLineEnd, Bool.or_eq_true, Bool.and_eq_true, decide_eq_true_eq, beq_iff_eq] at ends
  simp only [isBlank, inRanges, blankRanges, List.any_cons, List.any_nil, Bool.or_eq_true,
    Bool.and_eq_true, decide_eq_true_eq]
  omega

theorem isLineEnd_eq_false {character : Char} (shown : isBlank character = false) :
    isLineEnd character = false :=
  Bool.eq_false_iff.mpr fun ends => by simp [isBlank_of_isLineEnd ends] at shown

end Text

theorem toNat_of_isHexadecimalDigit {character : Char} (digit : isHexadecimalDigit character) :
    0x30 ≤ character.toNat ∧ character.toNat ≤ 0x66 := by
  simp only [isHexadecimalDigit, Char.isDigit, Bool.or_eq_true, Bool.and_eq_true,
    decide_eq_true_eq, ge_iff_le, Char.le_def, UInt32.le_iff_toNat_le] at digit
  have ranges : ((48 ≤ character.toNat ∧ character.toNat ≤ 57) ∨
      (97 ≤ character.toNat ∧ character.toNat ≤ 102)) ∨
      (65 ≤ character.toNat ∧ character.toNat ≤ 70) := digit
  omega

theorem isBlank_of_isHexadecimalDigit {character : Char} (digit : isHexadecimalDigit character) :
    Text.isBlank character = false :=
  have bounds := toNat_of_isHexadecimalDigit digit
  Text.isBlank_eq_false (by omega) (by omega)

/-! ## Words -/

/-- What stands between the words of a line. -/
def isTokenEnd (character : Char) : Bool :=
  Text.isBlank character || character == ',' || character == '(' || character == ')'

section Tokens

variable {left right word : List Char}

theorem tokens_strip (text : List Char) : tokens (Text.strip text) = tokens text :=
  Text.pieces_strip (fun _ blank => by simp [blank]) text

theorem tokens_word (nonempty : word ≠ [])
    (whole : ∀ character ∈ word, isTokenEnd character = false) : tokens word = [word] :=
  Text.pieces_word nonempty whole

theorem tokens_append_of_ends (ends : ∀ last ∈ left.getLast?, isTokenEnd last) :
    tokens (left ++ right) = tokens left ++ tokens right :=
  Text.pieces_append_of_ends ends

theorem tokens_append_of_starts (starts : ∀ next ∈ right.head?, isTokenEnd next) :
    tokens (left ++ right) = tokens left ++ tokens right :=
  Text.pieces_append_of_starts starts

theorem tokens_cons {character : Char} (separates : isTokenEnd character) (text : List Char) :
    tokens (character :: text) = tokens text :=
  Text.pieces_cons separates text

/-- Digits with a unit of letters or without one are one word. -/
theorem tokens_numeral (count : Nat) {unit : List Char}
    (letters : ∀ character ∈ unit, isTokenEnd character = false) :
    tokens (Nat.toDigits 10 count ++ unit) = [Nat.toDigits 10 count ++ unit] := by
  refine tokens_word (by simp [Nat.toDigits_ne_nil]) fun character member => ?_
  rcases List.mem_append.mp member with isDigit | isLetter
  · have bounds := Text.toNat_of_isDigit (Text.isDigit_of_mem_toDigits _ isDigit)
    have shown : Text.isBlank character = false := Text.isBlank_eq_false (by omega) (by omega)
    have differs (other : Char) (outside : other.toNat < 0x30) : (character == other) = false := by
      refine beq_eq_false_iff_ne.mpr ?_
      rintro rfl
      omega
    rw [isTokenEnd, shown, differs _ (by decide), differs _ (by decide), differs _ (by decide)]
    rfl
  · exact letters character isLetter

end Tokens

/-! ## Details -/

section Classes

variable {shown rest : List Char}

theorem classOf?_of_head? (other : shown.head? ≠ some 'c') : classOf? shown = none := by
  cases shown with
  | nil => rfl
  | cons first others =>
      have differs : ('c' == first) = false := by
        refine beq_eq_false_iff_ne.mpr ?_
        rintro rfl
        exact other rfl
      have noPrefix : "class".toList.isPrefixOf (first :: others) = false := by
        change ('c' == first && _) = false
        rw [differs, Bool.false_and]
      rw [classOf?, noPrefix]
      rfl

theorem skipBlanks?_cons (kept : ∀ first ∈ shown.head?, Text.isBlank first = false) :
    skipBlanks? (' ' :: shown) = some shown := by
  have unchanged : shown.dropWhile Text.isBlank = shown := by
    cases shown with
    | nil => rfl
    | cons first others => exact List.dropWhile_cons_of_neg (by simp [kept first rfl])
  exact congrArg some unchanged

theorem handleAt?_append {major minor : List Char} (present : major ≠ [])
    (majorDigits : ∀ character ∈ major, isHexadecimalDigit character)
    (minorDigits : ∀ character ∈ minor, isHexadecimalDigit character)
    (apart : ∀ first ∈ rest.head?, Text.isBlank first) :
    handleAt? (major ++ ':' :: (minor ++ rest)) = some (major ++ ':' :: minor) := by
  have colon : isHexadecimalDigit ':' = false := by decide
  have taken : (major ++ ':' :: (minor ++ rest)).takeWhile isHexadecimalDigit = major := by
    rw [List.takeWhile_append_of_pos majorDigits, List.takeWhile_cons_of_neg (by simp [colon]),
      List.append_nil]
  have dropped : (major ++ ':' :: (minor ++ rest)).dropWhile isHexadecimalDigit =
      ':' :: (minor ++ rest) := by
    rw [List.dropWhile_append_of_pos majorDigits, List.dropWhile_cons_of_neg (by simp [colon])]
  have ends : (minor ++ rest).takeWhile isHexadecimalDigit = minor := by
    rw [List.takeWhile_append_of_pos minorDigits]
    cases rest with
    | nil => exact List.append_nil _
    | cons first others =>
        have blank := apart first rfl
        rw [List.takeWhile_cons_of_neg, List.append_nil]
        exact fun digit => by simp [isBlank_of_isHexadecimalDigit digit] at blank
  have whole : major.isEmpty = false := List.isEmpty_eq_false_iff.mpr present
  rw [handleAt?, dropped]
  simp only [taken, whole, ends, Bool.false_eq_true, if_false]

/-- What the line of a class starts with. -/
def classWord : List Char :=
  "class ".toList

/-- A line that names a class by its kind and its handle. -/
theorem classOf?_named {kind : List Char} (hasKind : kind ≠ [])
    (kindIsWord : ∀ character ∈ kind, Text.isBlank character = false)
    (kept : ∀ first ∈ shown.head?, Text.isBlank first = false) :
    classOf? (classWord ++ (kind ++ ' ' :: shown)) = (handleAt? shown).map (kind, ·) := by
  have startsKind : ∀ first ∈ (kind ++ ' ' :: shown).head?, Text.isBlank first = false := by
    rw [List.head?_append_of_ne_nil _ hasKind]
    exact fun first isHead => kindIsWord first (List.mem_of_mem_head? isHead)
  have visible : ∀ character ∈ kind, (!Text.isBlank character) = true :=
    fun character member => by simp [kindIsWord character member]
  have taken : (kind ++ ' ' :: shown).takeWhile (!Text.isBlank ·) = kind := by
    rw [List.takeWhile_append_of_pos visible, List.takeWhile_cons_of_neg (by decide),
      List.append_nil]
  have dropped : (kind ++ ' ' :: shown).dropWhile (!Text.isBlank ·) = ' ' :: shown := by
    rw [List.dropWhile_append_of_pos visible, List.dropWhile_cons_of_neg (by decide)]
  have whole : kind.isEmpty = false := List.isEmpty_eq_false_iff.mpr hasKind
  have opens : skipBlanks? ((classWord ++ (kind ++ ' ' :: shown)).drop 5) =
      some (kind ++ ' ' :: shown) := skipBlanks?_cons startsKind
  have named : "class".toList.isPrefixOf (classWord ++ (kind ++ ' ' :: shown)) = true := rfl
  rw [classOf?, named, if_pos rfl]
  simp only [Option.bind_eq_bind, Option.bind_some, opens, taken, dropped, whole,
    skipBlanks?_cons kept, Bool.false_eq_true, if_false]
  cases handleAt? shown <;> rfl

/-- A line that names a class opens its record. -/
theorem listingLine?_of_named {line kind handle : List Char}
    (named : classOf? (Text.strip line) = some (kind, handle)) :
    listingLine? line =
      some (.opening (String.ofList kind) (String.ofList handle) (tokens line)) := by
  rw [← tokens_strip line]
  cases shown : Text.strip line with
  | nil =>
      rw [shown] at named
      cases named
  | cons first others =>
      rw [shown] at named
      simp only [listingLine?, shown, named]

/-- Any other line is read as its words, unless it is blank. -/
theorem listingLine?_of_unnamed {line : List Char}
    (unnamed : classOf? (Text.strip line) = none) :
    (listingLine? line = none ∧ tokens line = []) ∨
      listingLine? line = some (.detail (tokens line)) := by
  rw [← tokens_strip line]
  cases shown : Text.strip line with
  | nil =>
      have skipped : listingLine? line = none := by rw [listingLine?, shown]
      exact .inl ⟨skipped, rfl⟩
  | cons first others =>
      rw [shown] at unnamed
      have read : listingLine? line = some (.detail (tokens (first :: others))) := by
        simp only [listingLine?, shown, unnamed]
      exact .inr read

end Classes

namespace Listing

/-- A text that, if it stands at the start of a line, does not name a class. -/
def StartsOther (shown : List Char) : Prop :=
  ∀ first ∈ shown.head?, Text.isBlank first = false ∧ first ≠ 'c'

instance (shown : List Char) : Decidable (StartsOther shown) :=
  inferInstanceAs (Decidable (∀ first ∈ shown.head?, Text.isBlank first = false ∧ first ≠ 'c'))

theorem StartsOther.append {left right : List Char} (first : StartsOther left)
    (second : StartsOther right) : StartsOther (left ++ right) := by
  intro character isHead
  rw [List.head?_append] at isHead
  cases left with
  | nil => exact second character isHead
  | cons head _ => exact first character isHead

theorem StartsOther.namesNoClass {shown : List Char} (other : StartsOther shown) :
    classOf? (Text.strip (' ' :: shown)) = none := by
  refine classOf?_of_head? fun isFirst => ?_
  have start := Text.head?_strip isFirst
  rw [List.dropWhile_cons_of_pos (by decide)] at start
  cases shown with
  | nil => cases start
  | cons first others =>
      rcases other first rfl with ⟨kept, differs⟩
      rw [List.dropWhile_cons_of_neg (by simp [kept])] at start
      exact differs (Option.some.inj start)

theorem startsOther_toDigits (count : Nat) (rest : List Char) :
    StartsOther (Nat.toDigits 10 count ++ rest) := by
  intro first isHead
  rw [List.head?_append_of_ne_nil _ Nat.toDigits_ne_nil] at isHead
  have digit := Text.isDigit_of_mem_toDigits first (List.mem_of_mem_head? isHead)
  have bounds := Text.toNat_of_isDigit digit
  refine ⟨Text.isBlank_eq_false (by omega) (by omega), ?_⟩
  rintro rfl
  cases digit

/-! ## Counters -/

theorem toList_toString (count : Nat) : (toString count).toList = Nat.toDigits 10 count :=
  Nat.toList_repr

/-- A number with its unit is a word of its own between a label and what follows. -/
theorem tokens_numeral_between {label unit after : List Char}
    (labelEnds : ∀ last ∈ label.getLast?, isTokenEnd last) (count : Nat)
    (letters : ∀ character ∈ unit, isTokenEnd character = false)
    (afterStarts : ∀ next ∈ after.head?, isTokenEnd next) :
    tokens (label ++ (Nat.toDigits 10 count ++ unit ++ after)) =
      tokens label ++ (Nat.toDigits 10 count ++ unit) :: tokens after := by
  rw [tokens_append_of_ends labelEnds, tokens_append_of_starts afterStarts,
    tokens_numeral count letters]
  rfl

def itemWords (label : String) (counter : Option Nat) (unit after : String) : List (List Char) :=
  counter.elim [] fun count =>
    tokens label.toList ++ (Nat.toDigits 10 count ++ unit.toList) :: tokens after.toList

/-- An item whose ends are blanks, commas or brackets stands for itself among other words. -/
theorem tokens_item_append {label unit after : String} (counter : Option Nat)
    (labelEnds : ∀ last ∈ label.toList.getLast?, isTokenEnd last)
    (letters : ∀ character ∈ unit.toList, isTokenEnd character = false)
    (afterStarts : ∃ next ∈ after.toList.head?, isTokenEnd next)
    (afterEnds : ∀ last ∈ after.toList.getLast?, isTokenEnd last) (rest : List Char) :
    tokens ((item label counter unit after).toList ++ rest) =
      itemWords label counter unit after ++ tokens rest := by
  cases counter with
  | none => rfl
  | some count =>
      have text : (item label (some count) unit after).toList ++ rest =
          label.toList ++ (Nat.toDigits 10 count ++ unit.toList ++ (after.toList ++ rest)) := by
        simp only [item, Option.elim_some, String.toList_append, List.append_assoc,
          ← toList_toString]
        rfl
      have restStarts : ∀ next ∈ (after.toList ++ rest).head?, isTokenEnd next := by
        obtain ⟨first, isFirst, separates⟩ := afterStarts
        intro next isNext
        rw [List.head?_append, isFirst] at isNext
        exact Option.some.inj isNext ▸ separates
      rw [text, tokens_numeral_between labelEnds count letters restStarts,
        tokens_append_of_ends afterEnds, itemWords, Option.elim_some]
      simp only [List.append_assoc, List.cons_append]

theorem startsOther_item {label : String} (other : StartsOther label.toList)
    (counter : Option Nat) (unit after : String) :
    StartsOther (item label counter unit after).toList := by
  cases counter with
  | none => exact fun _ isHead => by cases isHead
  | some count =>
      have text : (item label (some count) unit after).toList =
          label.toList ++ (Nat.toDigits 10 count ++ (unit.toList ++ after.toList)) := by
        simp only [item, Option.elim_some, String.toList_append, List.append_assoc,
          ← toList_toString]
        rfl
      rw [text]
      exact other.append (startsOther_toDigits count _)

theorem IsOneLine.append {left right : String} (first : IsOneLine left)
    (second : IsOneLine right) : IsOneLine (left ++ right) := by
  intro character member
  rw [String.toList_append, List.mem_append] at member
  exact member.elim (first character) (second character)

theorem isOneLine_toString (count : Nat) : IsOneLine (toString count) := by
  intro character member
  rw [toList_toString] at member
  have bounds := Text.toNat_of_isDigit (Text.isDigit_of_mem_toDigits _ member)
  exact Text.isLineEnd_eq_false (Text.isBlank_eq_false (by omega) (by omega))

theorem isOneLine_item {label unit after : String} (labelInside : IsOneLine label)
    (counter : Option Nat) (unitInside : IsOneLine unit) (afterInside : IsOneLine after) :
    IsOneLine (item label counter unit after) := by
  cases counter with
  | none => exact fun _ member => by cases member
  | some count =>
      exact ((labelInside.append (isOneLine_toString count)).append unitInside).append afterInside

namespace CountsLine

variable (line : CountsLine)

theorem toList_text : line.text.toList =
    ' ' :: (line.bytesText.toList ++ (line.packetsText.toList ++
      '(' :: (line.droppedText.toList ++
        ("overlimits ".toList ++ (line.overlimits.text.toList ++ [')']))))) := by
  simp only [text, String.toList_append, List.append_assoc]
  rfl

def bytesWords : List (List Char) :=
  itemWords "Sent " (line.bytes.map (·.val)) "" " bytes "

def packetsWords : List (List Char) :=
  itemWords "" (line.packets.map (·.val)) "" " pkt "

def droppedWords : List (List Char) :=
  itemWords "dropped " (line.dropped.map (·.val)) "" ", "

theorem tokens_text : tokens line.text.toList =
    line.bytesWords ++ (line.packetsWords ++ (line.droppedWords ++
      "overlimits".toList :: tokens line.overlimits.text.toList)) := by
  have label : tokens "overlimits ".toList = ["overlimits".toList] := by decide
  have closing : tokens [')'] = [] := by decide
  rw [toList_text, tokens_cons (by decide), bytesText,
    tokens_item_append _ (by decide) (by decide) ⟨' ', rfl, rfl⟩ (by decide), packetsText,
    tokens_item_append _ (by decide) (by decide) ⟨' ', rfl, rfl⟩ (by decide),
    tokens_cons (by decide), droppedText,
    tokens_item_append _ (by decide) (by decide) ⟨',', rfl, rfl⟩ (by decide),
    tokens_append_of_ends (by decide), tokens_append_of_starts (by decide), label, closing,
    List.append_nil]
  rfl

def detail : Detail where
  text := line.text
  isOneLine := by
    refine IsOneLine.append (.append (.append (.append (.append (.append (.append ?_ ?_) ?_) ?_) ?_)
      ?_) line.overlimits.isOneLine) ?_
    · decide
    · exact isOneLine_item (by decide) _ (by decide) (by decide)
    · exact isOneLine_item (by decide) _ (by decide) (by decide)
    · decide
    · exact isOneLine_item (by decide) _ (by decide) (by decide)
    · decide
    · decide
  namesNoClass := by
    rw [NamesNoClass, toList_text]
    refine StartsOther.namesNoClass (.append ?_ (.append ?_ ?_))
    · exact startsOther_item (by decide) _ _ _
    · exact startsOther_item (by decide) _ _ _
    · rintro _ ⟨⟩
      decide

end CountsLine

namespace RateLine

variable (line : RateLine)

theorem toList_text : line.text.toList =
    ' ' :: (line.rateText.toList ++ (Nat.toDigits 10 line.pace ++ "pps".toList ++
      (" backlog ".toList ++ line.backlog.text.toList))) := by
  simp only [text, String.toList_append, List.append_assoc, ← toList_toString]
  rfl

def rateWords : List (List Char) :=
  itemWords "rate " (line.rate.map (·.val)) "Kbit" " "

theorem tokens_text : tokens line.text.toList =
    line.rateWords ++ (Nat.toDigits 10 line.pace ++ "pps".toList) ::
      "backlog".toList :: tokens line.backlog.text.toList := by
  have label : tokens " backlog ".toList = ["backlog".toList] := by decide
  rw [toList_text, tokens_cons (by decide), rateText,
    tokens_item_append _ (by decide) (by decide) ⟨' ', rfl, rfl⟩ (by decide),
    tokens_append_of_starts (by rintro _ ⟨⟩; decide), tokens_numeral line.pace (by decide),
    tokens_append_of_ends (by decide), label]
  rfl

def detail : Detail where
  text := line.text
  isOneLine := by
    refine IsOneLine.append (.append (.append (.append ?_ ?_) (isOneLine_toString _)) ?_)
      line.backlog.isOneLine
    · decide
    · exact isOneLine_item (by decide) _ (by decide) (by decide)
    · decide
  namesNoClass := by
    rw [NamesNoClass, toList_text, List.append_assoc]
    refine StartsOther.namesNoClass (.append ?_ (startsOther_toDigits _ _))
    exact startsOther_item (by decide) _ _ _

end RateLine

/-! ## The lines of classes -/

namespace Heading

variable (heading : Heading)

/-- The line up to the handle. -/
def named : List Char :=
  classWord ++ (heading.kind.toList ++ ' ' ::
    (heading.major.toList ++ ':' :: heading.minor.toList))

theorem toList_text : heading.text.toList = heading.named ++ heading.further.toList := by
  change ("class " ++ heading.kind ++ " " ++ (heading.major ++ ":" ++ heading.minor) ++
    heading.further).toList = _
  simp only [named, String.toList_append, List.append_assoc, List.cons_append]
  rfl

theorem isHexadecimal_major : ∀ character ∈ heading.major.toList, isHexadecimalDigit character :=
  fun character member => heading.isHexadecimal character (by simp [member])

theorem isHexadecimal_minor : ∀ character ∈ heading.minor.toList, isHexadecimalDigit character :=
  fun character member => heading.isHexadecimal character (by simp [member])

theorem isOneLine_text : IsOneLine heading.text := by
  have kindInside : IsOneLine heading.kind :=
    fun character member => Text.isLineEnd_eq_false (heading.kindIsWord character member)
  have hexadecimalInside {digits : String}
      (each : ∀ character ∈ digits.toList, isHexadecimalDigit character) : IsOneLine digits :=
    fun character member =>
      Text.isLineEnd_eq_false (isBlank_of_isHexadecimalDigit (each character member))
  refine IsOneLine.append (.append (.append (.append ?_ kindInside) ?_)
    (.append (.append (hexadecimalInside heading.isHexadecimal_major) ?_)
      (hexadecimalInside heading.isHexadecimal_minor))) heading.isOneLine
  all_goals decide

/-- Blanks at the end of the line are dropped. -/
theorem strip_text : Text.strip heading.text.toList =
    heading.named ++ heading.further.toList.rdropWhile Text.isBlank := by
  have handleShown : ∀ character ∈ heading.major.toList ++ ':' :: heading.minor.toList,
      Text.isBlank character = false := by
    intro character member
    rcases List.mem_append.mp member with inMajor | inRest
    · exact isBlank_of_isHexadecimalDigit (heading.isHexadecimal_major _ inMajor)
    · rcases List.mem_cons.mp inRest with rfl | inMinor
      · rfl
      · exact isBlank_of_isHexadecimalDigit (heading.isHexadecimal_minor _ inMinor)
  have present : heading.named ≠ [] := by simp [named]
  have ending : heading.named.getLast? =
      (heading.major.toList ++ ':' :: heading.minor.toList).getLast? := by
    rw [named, List.getLast?_append_of_ne_nil _ (by simp),
      List.getLast?_append_of_ne_nil _ (by simp), List.getLast?_cons_of_ne_nil (by simp)]
  rw [toList_text]
  refine Text.strip_append present (by rintro _ ⟨⟩; decide) (fun last isLast => ?_) _
  rw [ending] at isLast
  exact handleShown last (List.mem_of_getLast? isLast)

theorem classOf?_strip_text : classOf? (Text.strip heading.text.toList) =
    some (heading.kind.toList, heading.handle.toList) := by
  have apart : ∀ first ∈ (heading.further.toList.rdropWhile Text.isBlank).head?,
      Text.isBlank first := by
    intro first isHead
    obtain ⟨dropped, whole⟩ := List.rdropWhile_prefix Text.isBlank (l := heading.further.toList)
    refine heading.isApart first ?_
    rw [← whole, List.head?_append, isHead]
    rfl
  have kept : ∀ first ∈ (heading.major.toList ++ ':' :: (heading.minor.toList ++
      heading.further.toList.rdropWhile Text.isBlank)).head?, Text.isBlank first = false := by
    have present : heading.major.toList ≠ [] := by simpa using heading.hasMajor
    rw [List.head?_append_of_ne_nil _ present]
    exact fun first isHead => isBlank_of_isHexadecimalDigit
      (heading.isHexadecimal_major first (List.mem_of_mem_head? isHead))
  have shown : heading.handle.toList =
      heading.major.toList ++ ':' :: heading.minor.toList := by
    simp only [handle, String.toList_append, List.append_assoc]
    rfl
  rw [strip_text, named, List.append_assoc, List.append_assoc, List.cons_append,
    List.append_assoc, List.cons_append,
    classOf?_named (by simpa using heading.hasKind) heading.kindIsWord kept,
    handleAt?_append (by simpa using heading.hasMajor) heading.isHexadecimal_major
      heading.isHexadecimal_minor apart, shown]
  rfl

/-- The line opens the record of the class. -/
theorem listingLine?_text : ∃ header, listingLine? heading.text.toList =
    some (.opening heading.kind heading.handle header) := by
  have read := listingLine?_of_named heading.classOf?_strip_text
  rw [String.ofList_toList, String.ofList_toList] at read
  exact ⟨_, read⟩

end Heading

end Listing

end UplinkShaper
