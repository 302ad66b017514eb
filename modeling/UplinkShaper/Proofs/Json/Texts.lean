import UplinkShaper.Json

/-!
Text in JSON texts. Every character is read back from how it is escaped, and a text up to its
closing quote.
-/

namespace UplinkShaper

namespace Json

variable {unit : Nat} {rest later : List Char}

/-! ## Units -/

theorem hexadecimalValue?_digitChar {digit : Nat} (small : digit < 16) :
    hexadecimalValue? (Nat.digitChar digit) = some digit := by
  have all : ∀ digit : Fin 16, hexadecimalValue? (Nat.digitChar digit) = some digit.val := by
    decide
  exact all ⟨digit, small⟩

/-- Four digits, some of which may be zeros in front. -/
theorem hexadecimal_four (small : unit < 0x10000) :
    Text.hexadecimal 4 unit = [Nat.digitChar (unit / 0x1000), Nat.digitChar (unit / 0x100 % 16),
      Nat.digitChar (unit / 0x10 % 16), Nat.digitChar (unit % 16)] := by
  have zero : '0' = Nat.digitChar 0 := rfl
  unfold Text.hexadecimal
  by_cases one : unit < 0x10
  · have parts : unit / 0x1000 = 0 ∧ unit / 0x100 % 16 = 0 ∧ unit / 0x10 % 16 = 0 ∧
        unit % 16 = unit := by omega
    rw [Nat.toDigits_of_lt_base one, parts.1, parts.2.1, parts.2.2.1, parts.2.2.2]
    rfl
  rw [Nat.toDigits_of_base_le (by decide) (by omega)]
  by_cases two : unit < 0x100
  · have parts : unit / 0x1000 = 0 ∧ unit / 0x100 % 16 = 0 ∧ unit / 0x10 % 16 = unit / 16 := by
      omega
    rw [Nat.toDigits_of_lt_base (by omega), parts.1, parts.2.1, parts.2.2]
    rfl
  rw [Nat.toDigits_of_base_le (by decide) (by omega), Nat.div_div_eq_div_mul]
  by_cases three : unit < 0x1000
  · have parts : unit / 0x1000 = 0 ∧ unit / 0x100 % 16 = unit / 256 := by omega
    rw [Nat.toDigits_of_lt_base (by omega), parts.1, parts.2]
    rfl
  · rw [Nat.toDigits_of_base_le (by decide) (by omega), Nat.div_div_eq_div_mul,
      Nat.toDigits_of_lt_base (by omega)]
    rfl

theorem readUnit_hexadecimal (small : unit < 0x10000) (rest : List Char) :
    readUnit (Text.hexadecimal 4 unit ++ rest) = some (unit, rest) := by
  have whole : 16 * (16 * (16 * (16 * 0 + unit / 0x1000) + unit / 0x100 % 16) +
      unit / 0x10 % 16) + unit % 16 = unit := by omega
  rw [hexadecimal_four small]
  simp only [List.cons_append, List.nil_append, readUnit, List.foldlM_cons, List.foldlM_nil,
    hexadecimalValue?_digitChar (by omega : unit / 0x1000 < 16),
    hexadecimalValue?_digitChar (by omega : unit / 0x100 % 16 < 16),
    hexadecimalValue?_digitChar (by omega : unit / 0x10 % 16 < 16),
    hexadecimalValue?_digitChar (by omega : unit % 16 < 16), Option.map_some,
    Option.bind_eq_bind, Option.bind_some, Option.pure_def, whole]

/-- A character of one unit. -/
theorem readEscapedUnit_of_lt {character : Char} (small : character.toNat < 0x10000)
    (rest : List Char) :
    readEscapedUnit (Text.hexadecimal 4 character.toNat ++ rest) = some (character, rest) := by
  have isScalar : ¬ (0xd800 ≤ character.toNat ∧ character.toNat < 0xe000) := by
    rcases character.valid with low | ⟨high, _⟩
    · change ¬ (0xd800 ≤ character.val.toNat ∧ character.val.toNat < 0xe000)
      omega
    · change ¬ (0xd800 ≤ character.val.toNat ∧ character.val.toNat < 0xe000)
      omega
  have notFirst : ¬ (0xd800 ≤ character.toNat ∧ character.toNat < 0xdc00) := by omega
  have notSecond : ¬ (0xdc00 ≤ character.toNat ∧ character.toNat < 0xe000) := by omega
  rw [readEscapedUnit, readUnit_hexadecimal small]
  simp only [Option.bind_eq_bind, Option.bind_some, if_neg notFirst, if_neg notSecond,
    Char.ofNat_toNat, Option.pure_def]

/-- Two units that form one character. -/
theorem readEscapedUnit_pair {first second : Nat} (isFirst : 0xd800 ≤ first ∧ first < 0xdc00)
    (isSecond : 0xdc00 ≤ second ∧ second < 0xe000) (rest : List Char) :
    readEscapedUnit (Text.hexadecimal 4 first ++ (unitEscape second ++ rest)) =
      some (Char.ofNat (0x10000 + (first - 0xd800) * 0x400 + (second - 0xdc00)), rest) := by
  have reads := readUnit_hexadecimal (by omega : second < 0x10000) rest
  rw [readEscapedUnit, readUnit_hexadecimal (by omega)]
  simp only [Option.bind_eq_bind, Option.bind_some, if_pos isFirst, unitEscape, List.cons_append,
    reads, if_pos isSecond, Option.pure_def]

theorem pair_of_code {code : Nat} (large : 0x10000 ≤ code) (bounded : code < 0x110000) :
    (0xd800 ≤ 0xd800 + (code - 0x10000) / 0x400 ∧ 0xd800 + (code - 0x10000) / 0x400 < 0xdc00) ∧
      (0xdc00 ≤ 0xdc00 + (code - 0x10000) % 0x400 ∧ 0xdc00 + (code - 0x10000) % 0x400 < 0xe000) ∧
        0x10000 + (0xd800 + (code - 0x10000) / 0x400 - 0xd800) * 0x400 +
          (0xdc00 + (code - 0x10000) % 0x400 - 0xdc00) = code := by
  omega

theorem toNat_lt (character : Char) : character.toNat < 0x110000 := by
  rcases character.valid with low | ⟨_, bounded⟩
  · exact Nat.lt_trans low (by decide)
  · exact bounded

/-- A character of two units. -/
theorem readEscapedUnit_of_ge {character : Char} (large : 0x10000 ≤ character.toNat)
    (rest : List Char) :
    readEscapedUnit (Text.hexadecimal 4 (0xd800 + (character.toNat - 0x10000) / 0x400) ++
        (unitEscape (0xdc00 + (character.toNat - 0x10000) % 0x400) ++ rest)) =
      some (character, rest) := by
  rcases pair_of_code large (toNat_lt character) with ⟨isFirst, isSecond, whole⟩
  rw [readEscapedUnit_pair isFirst isSecond, whole, Char.ofNat_toNat]

/-! ## Characters and texts -/

theorem readText_escape {mark character : Char} {fuel : Nat} {before : List Char}
    {text : List Char} (reads : readEscape (mark :: text) = some (character, later)) :
    readText (fuel + 1) before ('\\' :: mark :: text) = readText fuel (character :: before) later := by
  rw [readText, if_neg (by decide), if_pos rfl, reads]
  rfl

theorem readText_unitEscape {character : Char} {fuel : Nat} {before text : List Char}
    (reads : readEscapedUnit (Text.hexadecimal 4 unit ++ text) = some (character, later)) :
    readText (fuel + 1) before (unitEscape unit ++ text) =
      readText fuel (character :: before) later :=
  readText_escape reads

/-- A character is read back from how it is escaped. -/
theorem readText_escaped (character : Char) (fuel : Nat) (before later : List Char) :
    readText (fuel + 1) before (escaped character ++ later) =
      readText fuel (character :: before) later := by
  unfold escaped
  split
  case h_8 notQuote notSlash _ _ _ _ _ =>
    dsimp only
    split
    case isTrue plain =>
      have visible : ¬ character.toNat < 0x20 := by omega
      rw [List.singleton_append, readText, if_neg notQuote, if_neg notSlash, if_neg visible]
    case isFalse =>
      split
      case isTrue small => exact readText_unitEscape (readEscapedUnit_of_lt small later)
      case isFalse large =>
        rw [List.append_assoc]
        exact readText_unitEscape (readEscapedUnit_of_ge (Nat.le_of_not_lt large) later)
  all_goals exact readText_escape rfl

theorem readText_closed {text : List Char} {fuel : Nat} (enough : text.length < fuel)
    (before rest : List Char) :
    readText fuel before (text.flatMap escaped ++ '\x22' :: rest) =
      some (String.ofList (before.reverse ++ text), rest) := by
  induction text generalizing fuel before with
  | nil =>
      obtain ⟨fuel, rfl⟩ : ∃ less, fuel = less + 1 := ⟨fuel - 1, by omega⟩
      rw [List.append_nil]
      exact if_pos rfl
  | cons character others induction =>
      obtain ⟨fuel, rfl⟩ : ∃ less, fuel = less + 1 := ⟨fuel - 1, by omega⟩
      rw [List.flatMap_cons, List.append_assoc, readText_escaped,
        induction (Nat.lt_of_succ_lt_succ enough), List.reverse_cons, List.append_assoc]
      rfl

theorem escaped_ne_nil (character : Char) : escaped character ≠ [] := by
  unfold escaped
  split
  case h_8 =>
    dsimp only
    split
    · exact List.cons_ne_nil _ _
    · split
      · exact List.cons_ne_nil _ _
      · exact List.cons_ne_nil _ _
  all_goals exact List.cons_ne_nil _ _

theorem length_le_length_flatMap_escaped (text : List Char) :
    text.length ≤ (text.flatMap escaped).length := by
  induction text with
  | nil => exact Nat.le_refl _
  | cons character others induction =>
      have positive := List.length_pos_iff.mpr (escaped_ne_nil character)
      rw [List.flatMap_cons, List.length_append, List.length_cons]
      omega

/-- The characters of a quoted text after the opening quote. -/
def closing (text : String) : List Char :=
  text.toList.flatMap escaped ++ ['\x22']

theorem toList_quoted (text : String) : (quoted text).toList = '\x22' :: closing text :=
  String.toList_ofList

/-- A text is read back from between its quotes. -/
theorem readText_closing (text : String) (rest : List Char) :
    readText (closing text ++ rest).length.succ [] (closing text ++ rest) = some (text, rest) := by
  have enough : text.toList.length < (closing text ++ rest).length.succ := by
    have := length_le_length_flatMap_escaped text.toList
    simp only [closing, List.length_append]
    omega
  have isClosed : closing text ++ rest = text.toList.flatMap escaped ++ '\x22' :: rest := by
    rw [closing, List.append_assoc, List.singleton_append]
  rw [isClosed] at enough ⊢
  rw [readText_closed enough, List.reverse_nil, List.nil_append, String.ofList_toList]

/-! ## Characters -/

theorem return_not_mem_unitEscape (small : unit < 0x10000) : '\r' ∉ unitEscape unit := by
  have notReturn (digit : Nat) : '\r' ≠ Nat.digitChar digit :=
    (Nat.digitChar_ne '\r' (by decide)).symm
  rw [unitEscape, hexadecimal_four small]
  simp [notReturn]

/-- No text is written over several lines. -/
theorem return_not_mem_closing (text : String) : '\r' ∉ closing text := by
  have escapes (character : Char) : '\r' ∉ escaped character := by
    have bounded := toNat_lt character
    unfold escaped
    split
    case h_8 =>
      dsimp only
      split
      case isTrue plain =>
        rw [List.mem_singleton]
        rintro rfl
        exact absurd plain.1 (by decide)
      case isFalse =>
        split
        case isTrue small => exact return_not_mem_unitEscape small
        case isFalse =>
          exact List.not_mem_append (return_not_mem_unitEscape (by omega))
            (return_not_mem_unitEscape (by omega))
    all_goals decide
  refine List.not_mem_append (fun member => ?_) (by decide)
  rcases List.mem_flatMap.mp member with ⟨character, _, inEscape⟩
  exact escapes character inEscape

end Json

end UplinkShaper
