import UplinkShaper.Counter.Record
import UplinkShaper.Proofs.Number.Rounding
import UplinkShaper.Proofs.Text.Words

/-!
Numbers that a listing shows. A count is read back from its decimal digits, and so is a rate
in whole kilobits that a double holds exactly.
-/

namespace UplinkShaper

namespace Text

theorem toNat_of_isDigit {character : Char} (digit : character.isDigit = true) :
    0x30 ≤ character.toNat ∧ character.toNat ≤ 0x39 := by
  simp only [Char.isDigit, Bool.and_eq_true, decide_eq_true_eq, ge_iff_le,
    UInt32.le_iff_toNat_le] at digit
  exact digit

theorem decimalValue?_of_isDigit {character : Char} (digit : character.isDigit = true) :
    decimalValue? character = some (character.toNat - '0'.toNat) := by
  have bounds := toNat_of_isDigit digit
  have ascii : character.toNat < 0x80 := by omega
  dsimp only [decimalValue?]
  rw [if_pos ascii, if_pos bounds]
  rfl

theorem isDecimal_of_isDigit {character : Char} (digit : character.isDigit = true) :
    isDecimal character = true := by
  rw [isDecimal, decimalValue?_of_isDigit digit]
  rfl

theorem exists_naturalOf? {shown : List Char}
    (decimal : ∀ character ∈ shown, isDecimal character = true) :
    ∃ value, naturalOf? shown = some value := by
  have folds (start : Nat) : ∃ value, shown.foldlM (fun (total : Nat) character =>
      (decimalValue? character).map fun digit => 10 * total + digit) start = some value := by
    induction shown generalizing start with
    | nil => exact ⟨start, rfl⟩
    | cons character rest induction =>
        rcases List.forall_mem_cons.mp decimal with ⟨isDigit, restDecimal⟩
        rcases Option.isSome_iff_exists.mp isDigit with ⟨digit, isValue⟩
        rw [List.foldlM_cons, isValue]
        exact induction restDecimal _
  exact folds 0

variable {shown : List Char}

theorem naturalOf?_of_isDigit (digits : ∀ character ∈ shown, character.isDigit = true) :
    naturalOf? shown = some (Nat.ofDigitChars 10 shown 0) := by
  rw [naturalOf?, Nat.ofDigitChars]
  generalize (0 : Nat) = total
  induction shown generalizing total with
  | nil => rfl
  | cons character rest induction =>
      rcases List.forall_mem_cons.mp digits with ⟨digit, restDigits⟩
      rw [List.foldlM_cons, decimalValue?_of_isDigit digit, List.foldl_cons]
      exact induction restDigits _

theorem naturalOf?_toDigits (count : Nat) : naturalOf? (Nat.toDigits 10 count) = some count := by
  rw [naturalOf?_of_isDigit isDigit_of_mem_toDigits, Nat.ofDigitChars_ten_toDigits]

end Text

namespace Counter

/-- A count is read back, unless it has too many digits. -/
theorem readCount_toDigits {count : Nat}
    (short : (Nat.toDigits 10 count).length ≤ Text.digitLimit) :
    readCount (some (Nat.toDigits 10 count)) = .ok (.known count) := by
  have signs : (Nat.toDigits 10 count).all Text.isDigitSign = true := by
    refine List.all_eq_true.mpr fun character member => ?_
    rw [Text.isDigitSign, Text.isDecimal_of_isDigit (Text.isDigit_of_mem_toDigits _ member)]
    rfl
  have read : Text.readNatural (Nat.toDigits 10 count) = .ok count := by
    rw [Text.readNatural, Text.naturalOf?_toDigits]
    exact if_neg (not_lt.mpr short)
  cases written : Nat.toDigits 10 count with
  | nil => exact absurd written Nat.toDigits_ne_nil
  | cons first rest =>
      rw [written] at signs read
      simp only [readCount, signs, read, if_pos]

theorem digitsValue_of_naturalOf? {shown : List Char} {value : Nat}
    (read : Text.naturalOf? shown = some value) : digitsValue shown = value := by
  have folds (total : Nat) (isTotal : shown.foldlM (fun (total : Nat) character =>
      (Text.decimalValue? character).map fun digit => 10 * total + digit) total = some value) :
      shown.foldl (fun total digit => 10 * total + (Text.decimalValue? digit).getD 0) total =
        value := by
    clear read
    induction shown generalizing total with
    | nil => exact Option.some.inj isTotal
    | cons character rest induction =>
        rcases Option.bind_eq_some_iff.mp isTotal with ⟨next, isNext, isRest⟩
        rcases Option.map_eq_some_iff.mp isNext with ⟨digit, isDigit, rfl⟩
        rw [List.foldl_cons, isDigit]
        exact induction _ isRest
  exact folds 0 read

theorem digitsValue_toDigits (count : Nat) : digitsValue (Nat.toDigits 10 count) = count :=
  digitsValue_of_naturalOf? (Text.naturalOf?_toDigits count)

/-! ## Rates -/

variable {count : Nat}

theorem round_natCast (small : count < 2 ^ 53) :
    Double.round ((count : Int) : Rat) = .finite count :=
  Double.round_intCast (by rw [abs_of_nonneg] <;> omega)

theorem ofDecimal_whole (small : count < 2 ^ 53) :
    Double.ofDecimal false count 0 = .finite count := by
  have short : (Nat.toDigits 10 count).length ≤ 16 :=
    (Nat.length_toDigits_le_iff (by decide) (by decide)).mpr (by omega)
  rcases Nat.eq_zero_or_pos count with rfl | positive
  · rfl
  · dsimp only [Double.ofDecimal]
    rw [if_neg (by omega), if_neg (by omega), if_neg (by omega)]
    simpa using round_natCast small

/-- A whole number of kilobits is kept as it is when it is rounded to three places. -/
theorem roundPlaces_whole (small : count < 2 ^ 53) :
    (Double.finite count).roundPlaces 3 = .finite count := by
  have scaled : ((count : Rat) * 10 ^ 3) = ((count * 1000 : Int) : Rat) := by
    push_cast
    norm_num
  dsimp only [Double.roundPlaces]
  rw [scaled, nearestEven_intCast]
  split
  case isTrue zero =>
    obtain rfl : count = 0 := by omega
    rfl
  case isFalse =>
    have back : (((count * 1000 : Int) : Rat)) / 10 ^ 3 = ((count : Int) : Rat) := by
      push_cast
      norm_num
    rw [back]
    exact round_natCast small

/-- How a rate in whole kilobits is written. -/
def kilobitsText (count : Nat) : List Char :=
  Nat.toDigits 10 count ++ "Kbit".toList

theorem readRateParts?_kilobitsText (small : count < 2 ^ 53) :
    readRateParts? (kilobitsText count) = some (.finite count, "Kbit") := by
  have digits : ∀ character ∈ Nat.toDigits 10 count, Text.isDecimal character = true :=
    fun character member => Text.isDecimal_of_isDigit (Text.isDigit_of_mem_toDigits _ member)
  have noLineFeed : withoutLineFeed (kilobitsText count) = kilobitsText count := by
    rw [withoutLineFeed, kilobitsText, List.getLast?_append]
    rfl
  have whole : (kilobitsText count).takeWhile Text.isDecimal = Nat.toDigits 10 count := by
    rw [kilobitsText, List.takeWhile_append_of_pos digits]
    exact List.append_nil _
  have unit : (kilobitsText count).dropWhile Text.isDecimal = "Kbit".toList := by
    rw [kilobitsText, List.dropWhile_append_of_pos digits]
    rfl
  have present : (Nat.toDigits 10 count).isEmpty = false :=
    List.isEmpty_eq_false_iff.mpr Nat.toDigits_ne_nil
  dsimp only [readRateParts?]
  rw [noLineFeed, whole, unit, present, if_neg Bool.false_ne_true]
  have places : readPlaces? "Kbit".toList = some ([], "Kbit".toList) := rfl
  rw [places]
  simp only [Option.bind_eq_bind, Option.bind_some, List.append_nil, List.length_nil]
  rw [if_pos (by decide), digitsValue_toDigits]
  simp [ofDecimal_whole small]

/-- A rate in whole kilobits is read back. -/
theorem readRate_kilobitsText (small : count < 2 ^ 53) :
    readRate (some (kilobitsText count)) = .known (.finite count) := by
  have factor : unitFactor? (Text.lowercase "Kbit") = some (.finite 1) := by decide
  have unchanged : (Double.finite count).mul (.finite 1) = .finite count := by
    have product := @Double.finite_mul_finite count 1 (by omega) (by omega)
      (by rw [abs_of_nonneg] <;> omega)
    simpa using product
  have named : ("Kbit" : String).isEmpty = false := by decide
  rw [readRate, Option.bind_some, readRateParts?_kilobitsText small]
  simp only [named, factor, Bool.false_eq_true, if_false]
  rw [unchanged, roundPlaces_whole small]

end Counter

end UplinkShaper
