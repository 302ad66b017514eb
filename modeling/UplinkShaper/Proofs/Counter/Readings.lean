import Mathlib.Data.Nat.Digits.Defs
import UplinkShaper.Proofs.Counter.Listing

/-!
What is read of the words beside labels. A count is known exactly where its word is written in
decimal digits, and a rate exactly where its word is a decimal number with a unit that is known or
without one. All else is unknown, except for words of digit signs that are no numbers which can be
read: one such word beside the label of a count, and there is no snapshot at all.
-/

namespace UplinkShaper

open Text

namespace Counter

/-! ## Counts -/

/-- A word is the number in decimal digits, of whatever script. -/
def Writes (word : List Char) (count : Nat) : Prop :=
  word ≠ [] ∧ ∃ digits,
    List.Forall₂ (fun character digit => decimalValue? character = some digit) word digits ∧
      Nat.ofDigits 10 digits.reverse = count

/-- If a word consists of digit signs, then of decimal digits, and of no more than are read. -/
def IsReadable (word : List Char) : Prop :=
  word.all isDigitSign = true → word.all isDecimal = true ∧ word.length ≤ digitLimit

theorem foldlM_eq_some_iff {word : List Char} {total count : Nat} :
    word.foldlM (fun (total : Nat) character =>
        (decimalValue? character).map fun digit => 10 * total + digit) total = some count ↔
      ∃ digits,
        List.Forall₂ (fun character digit => decimalValue? character = some digit) word digits ∧
          total * 10 ^ digits.length + Nat.ofDigits 10 digits.reverse = count := by
  induction word generalizing total with
  | nil => simp [eq_comm]
  | cons character rest induction =>
      have shifted (digit : Nat) (digits : List Nat) :
          total * 10 ^ (digit :: digits).length + Nat.ofDigits 10 (digit :: digits).reverse =
            (10 * total + digit) * 10 ^ digits.length + Nat.ofDigits 10 digits.reverse := by
        rw [List.reverse_cons, Nat.ofDigits_append, Nat.ofDigits_singleton, List.length_reverse,
          List.length_cons]
        ring
      rw [List.foldlM_cons]
      constructor
      · intro read
        rcases Option.bind_eq_some_iff.mp read with ⟨next, isNext, readRest⟩
        rcases Option.map_eq_some_iff.mp isNext with ⟨digit, isDigit, rfl⟩
        rcases induction.mp readRest with ⟨digits, areDigits, sum⟩
        exact ⟨digit :: digits, .cons isDigit areDigits, (shifted digit digits).trans sum⟩
      · rintro ⟨_, areDigits, sum⟩
        cases areDigits with
        | @cons _ digit _ digits isDigit others =>
            rw [isDigit]
            exact induction.mpr ⟨digits, others, (shifted digit digits).symm.trans sum⟩

theorem writes_iff {word : List Char} {count : Nat} :
    Writes word count ↔ word ≠ [] ∧ naturalOf? word = some count := by
  rw [Writes, naturalOf?, foldlM_eq_some_iff]
  simp only [Nat.zero_mul, Nat.zero_add]

theorem Writes.isDecimal {word : List Char} {count : Nat} (writes : Writes word count) :
    word.all isDecimal = true := by
  rcases writes with ⟨_, digits, areDigits, _⟩
  rw [List.all_eq_true]
  intro character member
  rcases List.mem_iff_getElem.mp member with ⟨index, inWord, rfl⟩
  have isDigit := (List.forall₂_iff_get.mp areDigits).2 index inWord
    (areDigits.length_eq ▸ inWord)
  exact Option.isSome_iff_exists.mpr ⟨_, isDigit⟩

theorem Writes.unique {word : List Char} {count other : Nat} (writes : Writes word count)
    (writesToo : Writes word other) : count = other :=
  Option.some.inj ((writes_iff.mp writes).2.symm.trans (writes_iff.mp writesToo).2)

/-- Decimal digits write a number, and none but they do. -/
theorem exists_writes_iff {word : List Char} (nonempty : word ≠ []) :
    (∃ count, Writes word count) ↔ word.all isDecimal = true := by
  constructor
  · rintro ⟨count, writes⟩
    exact writes.isDecimal
  · intro decimal
    rcases exists_naturalOf? (List.all_eq_true.mp decimal) with ⟨count, read⟩
    exact ⟨count, writes_iff.mpr ⟨nonempty, read⟩⟩

theorem readNatural_eq_ok_iff {word : List Char} (nonempty : word ≠ []) {count : Nat} :
    readNatural word = .ok count ↔ Writes word count ∧ word.length ≤ digitLimit := by
  rw [writes_iff, readNatural]
  cases naturalOf? word with
  | none => simp
  | some value =>
      by_cases isLong : digitLimit < word.length
      · simp [isLong]
      · simp [isLong, nonempty, not_lt.mp isLong]

/-- A count is known exactly where its word writes it, if a word of digit signs can be read; and
if it cannot, that is an error. -/
theorem readCount_cases (word : Option (List Char)) :
    ((∀ shown ∈ word, IsReadable shown) ∧ ∃ reading, readCount word = .ok reading ∧
      ∀ count, reading = .known count ↔ ∃ shown ∈ word, Writes shown count) ∨
    (¬ ∀ shown ∈ word, IsReadable shown) ∧
      ∃ error, readCount word = .error (.ofNumeral error) := by
  have noneWritten {shown : List Char} (unwritten : ∀ count, ¬ Writes shown count) (count : Nat) :
      (Reading.unknown : Reading Nat) = .known count ↔ ∃ word ∈ some shown, Writes word count := by
    refine iff_of_false nofun ?_
    rintro ⟨_, ⟨⟩, writes⟩
    exact unwritten count writes
  unfold readCount
  split
  case h_1 => exact .inl ⟨nofun, .unknown, rfl, fun count => iff_of_false nofun (by simp)⟩
  case h_2 =>
    have unwritten (count : Nat) : ¬ Writes [] count := fun writes => writes.1 rfl
    exact .inl ⟨by rintro _ ⟨⟩ _; exact ⟨rfl, Nat.zero_le _⟩, .unknown, rfl,
      noneWritten unwritten⟩
  case h_3 shown present =>
    split
    case isFalse notSigns =>
      have unwritten (count : Nat) (writes : Writes shown count) : False := by
        refine notSigns (List.all_eq_true.mpr fun character member => ?_)
        rw [isDigitSign, List.all_eq_true.mp writes.isDecimal character member]
        rfl
      exact .inl ⟨by rintro _ ⟨⟩ areSigns; exact absurd areSigns notSigns, .unknown, rfl,
        noneWritten unwritten⟩
    case isTrue areSigns =>
      cases read : readNatural shown with
      | error error =>
          refine .inr ⟨fun readable => ?_, error, rfl⟩
          rcases readable shown rfl areSigns with ⟨decimal, short⟩
          rcases (exists_writes_iff present).mpr decimal with ⟨count, writes⟩
          rw [(readNatural_eq_ok_iff present).mpr ⟨writes, short⟩] at read
          cases read
      | ok value =>
          rcases (readNatural_eq_ok_iff present).mp read with ⟨writes, short⟩
          refine .inl ⟨?_, .known value, rfl, fun count => ?_⟩
          · rintro _ ⟨⟩ _
            exact ⟨writes.isDecimal, short⟩
          · constructor
            · rintro ⟨⟩
              exact ⟨shown, rfl, writes⟩
            · rintro ⟨_, ⟨⟩, writesToo⟩
              exact congrArg Reading.known (writes.unique writesToo)

/-- A count is asked for. It is known exactly where a word that is shown for it writes it. -/
def IsRead (found : Except Failure (Reading Nat)) (shown : List Char → Prop) : Prop :=
  ∃ reading, found = .ok reading ∧
    ∀ count, reading = .known count ↔ ∃ word, shown word ∧ Writes word count

section Shown

variable {word : Option (List Char)} {shown : List Char → Prop}
  (same : ∀ found, found ∈ word ↔ shown found)

include same

theorem readable_of_readCount {reading : Reading Nat} (read : readCount word = .ok reading) :
    ∀ found, shown found → IsReadable found := by
  intro found isShown
  rcases readCount_cases word with ⟨readable, _⟩ | ⟨_, error, failed⟩
  · exact readable found ((same found).mpr isShown)
  · cases failed.symm.trans read

theorem isRead_iff : IsRead (readCount word) shown ↔ ∀ found, shown found → IsReadable found := by
  constructor
  · rintro ⟨reading, read, _⟩
    exact readable_of_readCount same read
  · intro readable
    rcases readCount_cases word with ⟨_, reading, read, known⟩ | ⟨unreadable, _⟩
    · simp only [same] at known
      exact ⟨reading, read, known⟩
    · exact absurd (fun found isWord => readable found ((same found).mp isWord)) unreadable

end Shown

/-! ## Rates -/

/-- Places after a point, of which there is none without places. -/
def pointed : List Char → List Char
  | [] => []
  | places => '.' :: places

/-- A word is a decimal number with a unit that is known, or without one for bits, and this is the
rate in kilobits, as far as doubles tell and to three places. -/
def WritesRate (word : List Char) (rate : Double) : Prop :=
  ∃ whole places unit count factor,
    word = whole ++ (pointed places ++ unit) ∧ whole ≠ [] ∧ Writes (whole ++ places) count ∧
      (∀ character ∈ unit, isLetter character = true) ∧
        unitFactor? (if unit = [] then "bit" else lowercase (String.ofList unit)) = some factor ∧
          rate = ((Double.ofDecimal false count (-places.length)).mul factor).roundPlaces 3

theorem isDecimal_of_isLetter {character : Char} (letter : isLetter character = true) :
    isDecimal character = false := by
  have bounds : (0x41 ≤ character.toNat ∧ character.toNat ≤ 0x5a) ∨
      (0x61 ≤ character.toNat ∧ character.toNat ≤ 0x7a) := by
    delta isLetter Char.isAlpha Char.isUpper Char.isLower at letter
    simp only [Bool.or_eq_true, Bool.and_eq_true, decide_eq_true_eq, ge_iff_le,
      UInt32.le_iff_toNat_le] at letter
    exact letter
  have ascii : character.toNat < 0x80 := by omega
  have notDigit : ¬ (0x30 ≤ character.toNat ∧ character.toNat ≤ 0x39) := by omega
  dsimp only [isDecimal, decimalValue?]
  rw [if_pos ascii, if_neg notDigit]
  rfl

theorem isDecimal_head_of_letters {unit : List Char} (letters : unit.all isLetter = true) :
    ∀ next ∈ unit.head?, isDecimal next = false := by
  intro next isNext
  exact isDecimal_of_isLetter (List.all_eq_true.mp letters next (List.mem_of_mem_head? isNext))

/-- Places, if there is a point, and letters after them. -/
theorem readPlaces?_eq_some_iff {text places unit : List Char} (letters : unit.all isLetter = true) :
    readPlaces? text = some (places, unit) ↔
      text = pointed places ++ unit ∧ places.all isDecimal = true := by
  constructor
  · intro read
    unfold readPlaces? at read
    split at read
    case h_1 rest =>
      split at read
      case h_1 => cases read
      case h_2 present =>
        cases read
        have whole := List.takeWhile_append_dropWhile (p := isDecimal) (l := rest)
        cases found : rest.takeWhile isDecimal with
        | nil => exact absurd found present
        | cons first others =>
            rw [found] at whole
            refine ⟨congrArg ('.' :: ·) whole.symm, List.all_eq_true.mpr fun place member => ?_⟩
            exact List.mem_takeWhile_imp (found ▸ member)
    case h_2 =>
      cases read
      exact ⟨rfl, rfl⟩
  · rintro ⟨rfl, decimal⟩
    cases places with
    | nil =>
        -- Without places there is no point, and a letter is none.
        cases unit with
        | nil => rfl
        | cons first others =>
            have isLetter : isLetter first = true := (Bool.and_eq_true_iff.mp letters).1
            unfold readPlaces?
            split
            case h_1 rest starts =>
              obtain rfl : first = '.' := (List.cons.inj starts).1
              cases isLetter
            case h_2 => rfl
    | cons first others =>
        rcases takeWhile_append_of_stops (List.all_eq_true.mp decimal)
          (isDecimal_head_of_letters letters) with ⟨taken, dropped⟩
        have starts : pointed (first :: others) ++ unit = '.' :: (first :: others ++ unit) := rfl
        rw [starts, readPlaces?, taken, dropped]

theorem readRateParts?_eq_some_iff {word : List Char} (oneLine : '\n' ∉ word) {value : Double}
    {shown : String} :
    readRateParts? word = some (value, shown) ↔
      ∃ whole places unit, word = whole ++ (pointed places ++ unit) ∧ whole ≠ [] ∧
        whole.all isDecimal = true ∧ places.all isDecimal = true ∧ unit.all isLetter = true ∧
          value = Double.ofDecimal false (digitsValue (whole ++ places)) (-places.length) ∧
            shown = String.ofList unit := by
  -- Only a line feed at the end of a word would be left out.
  have same : withoutLineFeed word = word :=
    if_neg fun ends => oneLine (List.mem_of_getLast? ends)
  simp only [readRateParts?, same]
  constructor
  · intro read
    split at read
    case isTrue => cases read
    case isFalse present =>
      rcases Option.bind_eq_some_iff.mp read with ⟨⟨places, unit⟩, isPlaces, read⟩
      dsimp only at read
      split at read
      case isFalse => cases read
      case isTrue letters =>
        cases read
        rcases (readPlaces?_eq_some_iff letters).mp isPlaces with ⟨rest, decimal⟩
        refine ⟨word.takeWhile isDecimal, places, unit, ?_, by simpa using present, ?_, decimal,
          letters, rfl, rfl⟩
        · rw [← rest, List.takeWhile_append_dropWhile]
        · exact List.all_eq_true.mpr fun _ member => List.mem_takeWhile_imp member
  · rintro ⟨whole, places, unit, rfl, present, wholeDecimal, decimal, letters, rfl, rfl⟩
    have stops : ∀ next ∈ (pointed places ++ unit).head?, isDecimal next = false := by
      cases places with
      | nil => exact isDecimal_head_of_letters letters
      | cons first others =>
          rintro _ ⟨⟩
          decide
    rcases takeWhile_append_of_stops (List.all_eq_true.mp wholeDecimal) stops with ⟨taken, dropped⟩
    rw [taken, dropped, if_neg (by simpa using present),
      (readPlaces?_eq_some_iff letters).mpr ⟨rfl, decimal⟩]
    exact if_pos letters

/-- A rate is known exactly where its word writes it. -/
theorem readRate_eq_known_iff {word : List Char} (oneLine : '\n' ∉ word) {rate : Double} :
    readRate (some word) = .known rate ↔ WritesRate word rate := by
  unfold readRate WritesRate
  rw [Option.bind_some]
  constructor
  · intro read
    split at read
    case h_1 => cases read
    case h_2 value shown parts =>
      rcases (readRateParts?_eq_some_iff oneLine).mp parts with
        ⟨whole, places, unit, isWord, present, wholeDecimal, decimal, letters, rfl, rfl⟩
      split at read
      case h_1 => cases read
      case h_2 factor known =>
        cases read
        have nonempty : whole ++ places ≠ [] := List.append_ne_nil_of_left_ne_nil present _
        have digits : (whole ++ places).all isDecimal = true := by
          rw [List.all_append, wholeDecimal, decimal]
          rfl
        rcases (exists_writes_iff nonempty).mpr digits with ⟨count, writes⟩
        refine ⟨whole, places, unit, count, factor, isWord, present, writes,
          List.all_eq_true.mp letters, ?_, ?_⟩
        · simpa using known
        · rw [digitsValue_of_naturalOf? (writes_iff.mp writes).2]
  · rintro ⟨whole, places, unit, count, factor, isWord, present, writes, letters, known, rfl⟩
    have digits := writes.isDecimal
    rw [List.all_append, Bool.and_eq_true] at digits
    have parts := (readRateParts?_eq_some_iff oneLine).mpr ⟨whole, places, unit, isWord, present,
      digits.1, digits.2, List.all_eq_true.mpr letters, rfl, rfl⟩
    rw [parts, digitsValue_of_naturalOf? (writes_iff.mp writes).2]
    have named : unitFactor? (if (String.ofList unit).isEmpty = true then "bit"
        else lowercase (String.ofList unit)) = some factor := by
      simpa using known
    simp only [named]

end Counter

open Counter

/-! ## Words beside labels -/

namespace CounterRecord

/-- The word right after the first occurrence of a label. -/
def ShowsAfter (record : CounterRecord) (label word : List Char) : Prop :=
  ∃ left right, record.tokens = left ++ label :: word :: right ∧ label ∉ left

/-- The word right before the first occurrence of a label. -/
def ShowsBefore (record : CounterRecord) (word label : List Char) : Prop :=
  ∃ left right, record.tokens = left ++ word :: label :: right ∧ label ∉ left ++ [word]

variable {record : CounterRecord} {label word : List Char}

theorem ShowsAfter.mem (shown : record.ShowsAfter label word) : word ∈ record.tokens := by
  rcases shown with ⟨left, right, words, _⟩
  simp [words]

theorem ShowsBefore.mem (shown : record.ShowsBefore word label) : word ∈ record.tokens := by
  rcases shown with ⟨left, right, words, _⟩
  simp [words]

theorem mem_after_iff : word ∈ record.after label ↔ record.ShowsAfter label word := by
  constructor
  · intro isAfter
    have whole := List.takeWhile_append_dropWhile (p := (· != label)) (l := record.tokens)
    unfold after at isAfter
    split at isAfter
    case h_1 found next right isRest =>
      cases isAfter
      have isLabel : found = label := by
        have stops := List.head?_dropWhile_not (· != label) record.tokens
        rw [isRest] at stops
        simpa using stops
      refine ⟨record.tokens.takeWhile (· != label), right, ?_, fun member => ?_⟩
      · rw [← isLabel, ← isRest, isLabel]
        exact whole.symm
      · exact absurd (List.mem_takeWhile_imp member) (by simp)
    case h_2 => cases isAfter
  · rintro ⟨left, right, words, absent⟩
    exact after_eq_some words absent

theorem mem_before_iff : word ∈ record.before label ↔ record.ShowsBefore word label := by
  constructor
  · intro isBefore
    unfold before at isBefore
    split at isBefore
    case isTrue present =>
      rcases List.getLast?_eq_some_iff.mp isBefore with ⟨left, taken⟩
      have absent : label ∉ record.tokens.takeWhile (· != label) := fun member =>
        absurd (List.mem_takeWhile_imp member) (by simp)
      have whole := List.takeWhile_append_dropWhile (p := (· != label)) (l := record.tokens)
      cases isRest : record.tokens.dropWhile (· != label) with
      | nil =>
          rw [isRest, List.append_nil] at whole
          rw [whole] at absent
          exact absurd present absent
      | cons found right =>
          have isLabel : found = label := by
            have stops := List.head?_dropWhile_not (· != label) record.tokens
            rw [isRest] at stops
            simpa using stops
          refine ⟨left, right, ?_, taken ▸ absent⟩
          rw [← whole, taken, isRest, isLabel, List.append_assoc]
          rfl
    case isFalse => cases isBefore
  · rintro ⟨left, right, words, absent⟩
    simp only [List.mem_append, List.mem_singleton, not_or] at absent
    exact before_eq_some words absent.1 (Ne.symm absent.2)

/-- What holds of the words of all details holds of the words of all records. -/
theorem forall_tokens_of_forall_detail {holds : List Char → Prop} {wanted : Option String}
    {listed : List ListingLine}
    (details : ∀ tokens, .detail tokens ∈ listed → ∀ word ∈ tokens, holds word) :
    (∀ word ∈ ownTokens listed, holds word) ∧
      ∀ record ∈ ofLines wanted listed, ∀ word ∈ record.tokens, holds word := by
  induction listed with
  | nil => exact ⟨List.forall_mem_nil _, List.forall_mem_nil _⟩
  | cons line rest induction =>
      rcases induction fun tokens member => details tokens (List.mem_cons_of_mem _ member) with
        ⟨own, records⟩
      cases line with
      | detail tokens =>
          refine ⟨List.forall_mem_append.mpr ⟨?_, own⟩, records⟩
          exact details tokens (List.mem_cons_self ..)
      | opening kind handle header =>
          refine ⟨List.forall_mem_nil _, ?_⟩
          rw [ofLines]
          split
          · exact List.forall_mem_cons.mpr ⟨own, records⟩
          · exact records

/-- The words of a record are words of the lines that are listed. -/
theorem exists_line_of_mem_ofText {wanted : Option String} {text : String}
    (member : record ∈ ofText wanted text) :
    ∀ word ∈ record.tokens,
      ∃ line ∈ lines text.toList, word ∈ UplinkShaper.tokens (strip line) := by
  refine (forall_tokens_of_forall_detail fun shown isDetail word isWord => ?_).2 record member
  rcases List.mem_filterMap.mp isDetail with ⟨line, isLine, isListed⟩
  refine ⟨line, isLine, ?_⟩
  unfold listingLine? at isListed
  split at isListed
  · cases isListed
  · split at isListed
    · cases isListed
    · cases isListed
      exact isWord

theorem lineFeed_not_mem {wanted : Option String} {text : String}
    (member : record ∈ ofText wanted text) : ∀ word ∈ record.tokens, '\n' ∉ word := by
  intro word isWord inside
  rcases exists_line_of_mem_ofText member word isWord with ⟨line, _, within⟩
  have kept : (!word.any _) = true := (List.mem_filter.mp within).2
  rw [Bool.not_eq_true', List.any_eq_false] at kept
  exact kept '\n' inside (by decide)

/-! ## What is read of a record -/

/-- The words of digit signs that stand beside the labels of counts can be read. -/
structure HasReadableCounts (record : CounterRecord) : Prop where
  bytes (word : List Char) : record.ShowsAfter "Sent".toList word → IsReadable word
  packets (word : List Char) : record.ShowsBefore word "pkt".toList → IsReadable word
  dropped (word : List Char) : record.ShowsAfter "dropped".toList word → IsReadable word

/-- Every counter can be asked for. It is known exactly where the word beside its label writes it,
and unknown otherwise. -/
structure IsFaithful (record : CounterRecord) : Prop where
  bytes : IsRead record.bytes (record.ShowsAfter "Sent".toList)
  packets : IsRead record.packets (record.ShowsBefore · "pkt".toList)
  dropped : IsRead record.dropped (record.ShowsAfter "dropped".toList)
  rate (rate : Double) : record.rate = .known rate ↔
    ∃ word, record.ShowsAfter "rate".toList word ∧ WritesRate word rate

theorem rate_eq_known_iff (oneLine : ∀ word ∈ record.tokens, '\n' ∉ word) {rate : Double} :
    record.rate = .known rate ↔
      ∃ word, record.ShowsAfter "rate".toList word ∧ WritesRate word rate := by
  simp only [← mem_after_iff, CounterRecord.rate]
  cases found : record.after "rate".toList with
  | none =>
      refine iff_of_false ?_ ?_
      · intro known
        cases known
      · rintro ⟨_, ⟨⟩, _⟩
  | some word =>
      rw [readRate_eq_known_iff (oneLine word (mem_after_iff.mp found).mem)]
      simp

theorem isFaithful_iff (oneLine : ∀ word ∈ record.tokens, '\n' ∉ word) :
    record.IsFaithful ↔ record.HasReadableCounts := by
  constructor
  · intro faithful
    exact {
      bytes := (isRead_iff fun _ => mem_after_iff).mp faithful.bytes
      packets := (isRead_iff fun _ => mem_before_iff).mp faithful.packets
      dropped := (isRead_iff fun _ => mem_after_iff).mp faithful.dropped }
  · intro readable
    exact {
      bytes := (isRead_iff fun _ => mem_after_iff).mpr readable.bytes
      packets := (isRead_iff fun _ => mem_before_iff).mpr readable.packets
      dropped := (isRead_iff fun _ => mem_after_iff).mpr readable.dropped
      rate := fun _ => rate_eq_known_iff oneLine }

/-! ## What is read of a listing -/

/-- The counters of a class are those that a record shows. -/
structure Tells (record : CounterRecord) (counters : ClassCounters) : Prop where
  handle : counters.handle = record.handle
  bytes : record.bytes = .ok counters.bytes
  packets : record.packets = .ok counters.packets
  dropped : record.dropped = .ok counters.dropped
  rate : counters.rate = record.rate

theorem tells_of_ofRecord {labels : Labels} {counters : ClassCounters}
    (isMade : ClassCounters.ofRecord labels record = .ok counters) : record.Tells counters := by
  unfold ClassCounters.ofRecord at isMade
  rcases Result.bind_eq_ok.mp isMade with ⟨packets, arePackets, isMade⟩
  rcases Result.bind_eq_ok.mp isMade with ⟨bytes, areBytes, isMade⟩
  rcases Result.bind_eq_ok.mp isMade with ⟨dropped, areDropped, isMade⟩
  cases isMade
  exact ⟨rfl, areBytes, arePackets, areDropped, rfl⟩

theorem IsFaithful.exists_ofRecord (faithful : record.IsFaithful) (labels : Labels) :
    ∃ counters, ClassCounters.ofRecord labels record = .ok counters := by
  rcases faithful.packets with ⟨packets, arePackets, _⟩
  rcases faithful.bytes with ⟨bytes, areBytes, _⟩
  rcases faithful.dropped with ⟨dropped, areDropped, _⟩
  rw [ClassCounters.ofRecord, arePackets, areBytes, areDropped]
  exact ⟨_, rfl⟩

theorem Tells.hasReadableCounts {counters : ClassCounters} (tells : record.Tells counters) :
    record.HasReadableCounts where
  bytes := readable_of_readCount (fun _ => mem_after_iff) tells.bytes
  packets := readable_of_readCount (fun _ => mem_before_iff) tells.packets
  dropped := readable_of_readCount (fun _ => mem_after_iff) tells.dropped

end CounterRecord

/-- There are snapshots of a listing, with the counters of the record of every shaping class. -/
def HasSnapshots (listing : String) : Prop :=
  ∀ (labels : Labels) (device : String) (capturedAt : Moment), ∃ snapshot,
    Snapshot.ofListing labels device capturedAt listing = .ok snapshot ∧
      List.Forall₂ CounterRecord.Tells
        (CounterRecord.ofText (some Snapshot.shapingKind) listing) snapshot.classes

theorem hasSnapshots_of_readable {listing : String}
    (readable : ∀ record ∈ CounterRecord.ofText (some Snapshot.shapingKind) listing,
      record.HasReadableCounts) : HasSnapshots listing := by
  intro labels device capturedAt
  have each : ∀ record ∈ CounterRecord.ofText (some Snapshot.shapingKind) listing,
      ∃ counters, ClassCounters.ofRecord labels record = .ok counters := by
    intro record member
    have oneLine := CounterRecord.lineFeed_not_mem member
    exact ((CounterRecord.isFaithful_iff oneLine).mpr (readable record member)).exists_ofRecord
      labels
  rcases Result.exists_mapM_of_forall each with ⟨classes, read⟩
  refine ⟨{ capturedAt := capturedAt, device := device, classes := classes },
    Result.bind_eq_ok.mpr ⟨classes, read, rfl⟩, ?_⟩
  exact (Result.mapM_eq_ok_iff.mp read).imp fun _ _ isMade =>
    CounterRecord.tells_of_ofRecord isMade

/-- Snapshots are made of a listing, and the counters of a record of any kind are read as they
stand there, if and only if no count has a word of digit signs that cannot be read: one with a sign
that is no decimal digit, or one with more digits than are read. -/
theorem readings_iff_readable (listing : String) :
    (HasSnapshots listing ↔
      ∀ record ∈ CounterRecord.ofText (some Snapshot.shapingKind) listing,
        record.HasReadableCounts) ∧
    ∀ wanted, ∀ record ∈ CounterRecord.ofText wanted listing,
      record.IsFaithful ↔ record.HasReadableCounts := by
  refine ⟨⟨fun snapshots record member => ?_, hasSnapshots_of_readable⟩, fun wanted record member =>
    CounterRecord.isFaithful_iff (CounterRecord.lineFeed_not_mem member)⟩
  rcases snapshots [] "" default with ⟨snapshot, _, told⟩
  rcases List.mem_iff_getElem.mp member with ⟨index, inRecords, rfl⟩
  have tells := (List.forall₂_iff_get.mp told).2 index inRecords (told.length_eq ▸ inRecords)
  exact tells.hasReadableCounts

/-- A superscript two is a sign of a digit, but no number can be read of it. -/
theorem not_hasSnapshots_of_superscript :
    ¬ HasSnapshots "class hfsc 1:10 parent 1:1\n Sent ² bytes 1 pkt\n" ∧
      ∀ (labels : Labels) (device : String) (capturedAt : Moment),
        Snapshot.ofListing labels device capturedAt
            "class hfsc 1:10 parent 1:1\n Sent ² bytes 1 pkt\n" =
          .error (.ofNumeral (.invalid "²")) := by
  have records : CounterRecord.ofText (some Snapshot.shapingKind)
      "class hfsc 1:10 parent 1:1\n Sent ² bytes 1 pkt\n" = [⟨"hfsc", "1:10",
        tokens "class hfsc 1:10 parent 1:1".toList, tokens "Sent ² bytes 1 pkt".toList⟩] := by
    decide
  have failed (labels : Labels) (device : String) (capturedAt : Moment) :
      Snapshot.ofListing labels device capturedAt
          "class hfsc 1:10 parent 1:1\n Sent ² bytes 1 pkt\n" =
        .error (.ofNumeral (.invalid "²")) := by
    rw [Snapshot.ofListing, records]
    rfl
  refine ⟨fun snapshots => ?_, failed⟩
  rcases snapshots [] "" default with ⟨snapshot, made, _⟩
  cases made.symm.trans (failed [] "" default)

end UplinkShaper
