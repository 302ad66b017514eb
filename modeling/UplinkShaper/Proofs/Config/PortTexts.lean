import UplinkShaper.Proofs.Config.Entries
import UplinkShaper.Proofs.Config.Ports

/-!
What is written for ports, and what it says. A whole number says one port. A text says one decimal
number, or two with a colon or a hyphen between them, each with blanks around it where wanted. What
is read is exactly what is written in one of these ways, within the bounds of ports, unless a
number has more digits than can be read.
-/

namespace UplinkShaper

namespace Text

/-- Digits are no blanks, in any script. -/
theorem isBlank_of_isDecimal {character : Char} (decimal : isDecimal character = true) :
    isBlank character = false := by
  have apart : ∀ start ∈ decimalZeros, ∀ range ∈ blankRanges,
      start + 10 ≤ range.1 ∨ range.2 < start := by
    decide
  have inRun : ∃ start ∈ decimalZeros, start ≤ character.toNat ∧ character.toNat < start + 10 := by
    simp only [isDecimal, decimalValue?] at decimal
    split at decimal
    · split at decimal
      case isTrue digit => exact ⟨0x30, by decide, by omega, by omega⟩
      case isFalse => cases decimal
    · rw [Option.isSome_map] at decimal
      rcases Option.isSome_iff_exists.mp decimal with ⟨start, found⟩
      have inside := List.find?_some found
      simp only [Bool.and_eq_true, decide_eq_true_eq] at inside
      exact ⟨start, List.mem_of_find?_eq_some found, inside⟩
  rcases inRun with ⟨start, isStart, least, most⟩
  rw [isBlank, inRanges, List.any_eq_false]
  intro range isRange
  rcases apart start isStart range isRange with before | after
  · simp only [Bool.and_eq_true, decide_eq_true_eq]
    omega
  · simp only [Bool.and_eq_true, decide_eq_true_eq]
    omega

/-- Digits can be read as a number if there are not too many of them. -/
theorem readNatural_eq_ok_iff {shown : List Char} {value : Nat} :
    readNatural shown = .ok value ↔
      naturalOf? shown = some value ∧ shown.length ≤ digitLimit := by
  rw [readNatural]
  cases naturalOf? shown with
  | none => simp
  | some other =>
      by_cases long : digitLimit < shown.length
      · simp [long, not_le.mpr long]
      · simp [long, not_lt.mp long]

end Text

namespace PortRange

open Text

/-! ## What is written -/

/-- What may be written for ports. -/
inductive Written
  | number (port : Int)
  | text (shown : String)

def Written.toValue : Written → Value
  | .number port => .whole port
  | .text shown => .text shown

/-- Digits with blanks around them. -/
def Shows (text shown : List Char) : Prop :=
  ∃ before after, text = before ++ shown ++ after ∧
    (∀ character ∈ before ++ after, isBlank character = true) ∧ shown ≠ [] ∧
      ∀ character ∈ shown, isDecimal character = true

/-- A decimal number with blanks around it. -/
def IsBound (text : List Char) (value : Nat) : Prop :=
  ∃ shown, Shows text shown ∧ naturalOf? shown = some value

/-- What stands between the two bounds of a range. -/
def IsMark (character : Char) : Prop :=
  character = ':' ∨ character = '-'

/-- The range that something written says. -/
inductive Written.Denotes : Written → PortRange → Prop
  | number (port : Int) : Denotes (.number port) ⟨port, none⟩
  | one {shown : String} {port : Nat} :
      IsBound shown.toList port → Denotes (.text shown) ⟨port, none⟩
  | two {shown : String} {first second : List Char} {mark : Char} {start last : Nat} :
      shown.toList = first ++ mark :: second → IsMark mark → IsBound first start →
        IsBound second last → Denotes (.text shown) ⟨start, some (last : Int)⟩

/-- No number is so long that it cannot be read. -/
def Written.HasShortRuns : Written → Prop
  | .number _ => True
  | .text shown => ∀ run, run <:+: shown.toList →
      (∀ character ∈ run, isDecimal character = true) → run.length ≤ digitLimit

/-- A range of ports that there are, in order. -/
structure IsInBounds (range : PortRange) : Prop where
  start : 1 ≤ range.start ∧ range.start ≤ 65535
  last : ∀ port ∈ range.last, range.start ≤ port ∧ port ≤ 65535

/-- Whether a range holds a port, both ends included. -/
def Holds (range : PortRange) (port : Int) : Prop :=
  range.start ≤ port ∧ port ≤ range.last.getD range.start

/-! ## Reading one bound -/

theorem dropBlanks_of_blank {before rest : List Char}
    (blank : ∀ character ∈ before, isBlank character = true)
    (ends : ∀ next ∈ rest.head?, isBlank next = false) : dropBlanks (before ++ rest) = rest := by
  rw [dropBlanks, List.dropWhile_append_of_pos blank]
  cases rest with
  | nil => rfl
  | cons next rest => exact List.dropWhile_cons_of_neg (by simp [ends next rfl])

/-- A bound is read up to where something else than digits and blanks follows. -/
theorem readBound?_append {text shown rest : List Char} (shows : Shows text shown)
    (ends : ∀ next ∈ rest.head?, isBlank next = false ∧ isDecimal next = false) :
    readBound? (text ++ rest) = some (shown, rest) := by
  rcases shows with ⟨before, after, rfl, blank, nonempty, decimal⟩
  rcases List.forall_mem_append.mp blank with ⟨blankBefore, blankAfter⟩
  rcases List.exists_cons_of_ne_nil nonempty with ⟨first, others, rfl⟩
  -- No digit is a blank, so the scan for either stops where the other begins.
  have blanksEnd : ∀ next ∈ (first :: others ++ (after ++ rest)).head?, isBlank next = false := by
    rintro next ⟨⟩
    exact isBlank_of_isDecimal (decimal first (List.mem_cons_self ..))
  have digitsEnd : ∀ next ∈ (after ++ rest).head?, isDecimal next = false := by
    cases after with
    | nil => exact fun next isNext => (ends next isNext).2
    | cons next others =>
        rintro next ⟨⟩
        cases isDigit : isDecimal next with
        | false => rfl
        | true =>
            have isBlank := blankAfter next (List.mem_cons_self ..)
            rw [isBlank_of_isDecimal isDigit] at isBlank
            cases isBlank
  rcases takeWhile_append_of_stops decimal digitsEnd with ⟨taken, dropped⟩
  rw [readBound?, List.append_assoc, List.append_assoc, dropBlanks_of_blank blankBefore blanksEnd,
    taken, dropped, dropBlanks_of_blank blankAfter fun next isNext => (ends next isNext).1]

theorem exists_shows_of_readBound? {text shown rest : List Char}
    (read : readBound? text = some (shown, rest)) :
    ∃ first, Shows first shown ∧ text = first ++ rest := by
  rcases readBound?_eq_some read with ⟨before, after, equal, blank, decimal⟩
  refine ⟨before ++ shown ++ after, ⟨before, after, rfl, blank, ?_, decimal⟩, equal⟩
  unfold readBound? at read
  dsimp only at read
  split at read
  · cases read
  case h_2 nonempty =>
    cases read
    exact nonempty

/-! ## Reading a range -/

theorem IsMark.ends {mark : Char} (isMark : IsMark mark) :
    isBlank mark = false ∧ isDecimal mark = false := by
  rcases isMark with rfl | rfl
  · decide
  · decide

theorem bounds?_eq_one_iff {text start : List Char} :
    bounds? text = some (start, none) ↔ Shows text start := by
  constructor
  · intro found
    rcases Option.bind_eq_some_iff.mp found with ⟨⟨shown, rest⟩, read, continues⟩
    cases rest with
    | nil =>
        cases continues
        rcases exists_shows_of_readBound? read with ⟨first, shows, rfl⟩
        rwa [List.append_nil]
    | cons mark rest =>
        dsimp only at continues
        split at continues
        case isFalse => cases continues
        case isTrue =>
          rcases Option.bind_eq_some_iff.mp continues with ⟨⟨second, rest'⟩, _, ends⟩
          dsimp only at ends
          split at ends
          · cases ends
          · cases ends
  · intro shows
    have read := @readBound?_append text start [] shows (by simp)
    rw [List.append_nil] at read
    rw [bounds?, read]
    rfl

theorem bounds?_eq_two_iff {text start last : List Char} :
    bounds? text = some (start, some last) ↔
      ∃ first second mark, text = first ++ mark :: second ∧ IsMark mark ∧ Shows first start ∧
        Shows second last := by
  constructor
  · intro found
    rcases Option.bind_eq_some_iff.mp found with ⟨⟨shown, rest⟩, read, continues⟩
    cases rest with
    | nil => cases continues
    | cons mark rest =>
        dsimp only at continues
        split at continues
        case isFalse => cases continues
        case isTrue isMark =>
          rcases Option.bind_eq_some_iff.mp continues with ⟨⟨shown', rest'⟩, read', ends⟩
          dsimp only at ends
          split at ends
          case isFalse => cases ends
          case isTrue isEnd =>
            cases ends
            cases List.isEmpty_iff.mp isEnd
            rcases exists_shows_of_readBound? read with ⟨first, shows, rfl⟩
            rcases exists_shows_of_readBound? read' with ⟨second, shows', rfl⟩
            rw [List.append_nil]
            exact ⟨first, second, mark, rfl, isMark, shows, shows'⟩
  · rintro ⟨first, second, mark, rfl, isMark, shows, shows'⟩
    have read : readBound? (first ++ mark :: second) = some (start, mark :: second) :=
      readBound?_append shows (by rintro next ⟨⟩; exact isMark.ends)
    have read' := @readBound?_append second last [] shows' (by simp)
    have marks : mark = ':' ∨ mark = '-' := isMark
    rw [List.append_nil] at read'
    simp only [bounds?, read, Option.bind_eq_bind, Option.bind_some, if_pos marks, read']
    rfl

theorem readNumber_eq_ok_iff {shown : List Char} {port : Int} :
    readNumber shown = .ok port ↔
      ∃ value : Nat, port = value ∧ naturalOf? shown = some value ∧ shown.length ≤ digitLimit := by
  rw [readNumber]
  constructor
  · intro read
    split at read
    case h_1 value isValue =>
      cases read
      exact ⟨value, rfl, readNatural_eq_ok_iff.mp isValue⟩
    case h_2 => cases read
  · rintro ⟨value, rfl, isValue⟩
    rw [readNatural_eq_ok_iff.mpr isValue]

/-- Digits that stand in a text with short numbers. -/
theorem length_le_of_shows {text first shown : List Char} (shows : Shows first shown)
    (inside : first <:+: text)
    (short : ∀ run, run <:+: text → (∀ character ∈ run, isDecimal character = true) →
      run.length ≤ digitLimit) : shown.length ≤ digitLimit := by
  rcases shows with ⟨before, after, rfl, _, _, decimal⟩
  exact short shown (.trans ⟨before, after, rfl⟩ inside) decimal

theorem ofValue_text {shown : String} :
    ofValue (.text shown) =
      match bounds? shown.toList with
      | none => .error (.ofConfiguration (.portForm (.text shown)))
      | some (start, last) => do
          let start ← readNumber start
          let last ← last.mapM readNumber
          return { start := start, last := last } := rfl

/-- What is read is what is said. -/
theorem Written.denotes_of_ofValue {written : Written} {range : PortRange}
    (read : ofValue written.toValue = .ok range) : written.Denotes range := by
  cases written with
  | number port =>
      cases read
      exact .number port
  | text shown =>
      rw [toValue, ofValue_text] at read
      split at read
      case h_1 => cases read
      case h_2 start last found =>
        rcases Result.bind_eq_ok.mp read with ⟨first, isFirst, read⟩
        rcases Result.bind_eq_ok.mp read with ⟨second, isSecond, read⟩
        cases Result.pure_eq_ok.mp read
        rcases readNumber_eq_ok_iff.mp isFirst with ⟨value, rfl, isValue, _⟩
        cases last with
        | none =>
            cases isSecond
            exact .one ⟨start, bounds?_eq_one_iff.mp found, isValue⟩
        | some last =>
            rcases Result.bind_eq_ok.mp isSecond with ⟨port, isPort, equal⟩
            cases Result.pure_eq_ok.mp equal
            rcases readNumber_eq_ok_iff.mp isPort with ⟨other, rfl, isOther, _⟩
            rcases bounds?_eq_two_iff.mp found with
              ⟨left, right, mark, equal, isMark, shows, shows'⟩
            exact .two equal isMark ⟨start, shows, isValue⟩ ⟨last, shows', isOther⟩

/-- What is said is read, unless a number is too long. -/
theorem Written.Denotes.ofValue_eq {written : Written} {range : PortRange}
    (denotes : written.Denotes range) (short : written.HasShortRuns) :
    ofValue written.toValue = .ok range := by
  cases denotes with
  | number port => rfl
  | @one shown port bound =>
      rcases bound with ⟨digits, shows, isValue⟩
      have isShort := length_le_of_shows shows (List.infix_refl _) short
      rw [toValue, ofValue_text, bounds?_eq_one_iff.mpr shows]
      simp only [readNumber_eq_ok_iff.mpr ⟨port, rfl, isValue, isShort⟩]
      rfl
  | @two shown first second mark start last equal isMark bound bound' =>
      rcases bound with ⟨digits, shows, isValue⟩
      rcases bound' with ⟨digits', shows', isValue'⟩
      have isShort := length_le_of_shows shows (equal ▸ List.infix_append' [] first _) short
      have isShort' := length_le_of_shows shows'
        (equal ▸ ⟨first ++ [mark], [], by simp⟩) short
      rw [toValue, ofValue_text,
        bounds?_eq_two_iff.mpr ⟨first, second, mark, equal, isMark, shows, shows'⟩]
      simp only [Option.mapM_some, readNumber_eq_ok_iff.mpr ⟨start, rfl, isValue, isShort⟩,
        readNumber_eq_ok_iff.mpr ⟨last, rfl, isValue', isShort'⟩]
      rfl

theorem isPort_iff {port : Int} : isPort port = true ↔ 1 ≤ port ∧ port ≤ 65535 := by
  rw [isPort, Bool.and_eq_true, decide_eq_true_eq, decide_eq_true_eq]
  rfl

/-- Reading keeps what is within bounds. -/
theorem read_eq_ok_iff {value : Value} {range : PortRange} :
    read value = .ok range ↔ ofValue value = .ok range ∧ range.IsInBounds := by
  constructor
  · intro accepted
    rcases MatchSpec.portRange_read_eq_ok accepted with ⟨startIsPort, lastIsPort⟩
    rcases Result.bind_eq_ok.mp accepted with ⟨numbers, isValue, rest⟩
    split at rest
    case isTrue => cases rest
    case isFalse =>
      split at rest
      case isTrue => cases rest
      case isFalse =>
        cases Result.pure_eq_ok.mp rest
        rw [isPort_iff] at startIsPort
        refine ⟨isValue, startIsPort, fun port isLast => ?_⟩
        exact ⟨(lastIsPort port isLast).2, (isPort_iff.mp (lastIsPort port isLast).1).2⟩
  · rintro ⟨isValue, startInBounds, lastInBounds⟩
    have startIsPort := isPort_iff.mpr startInBounds
    have lastIsPort : range.last.any (!isPort ·) = false := by
      rw [Option.any_eq_false]
      intro port isLast
      have bounds := lastInBounds port isLast
      have isPort := isPort_iff.mpr ⟨le_trans startInBounds.1 bounds.1, bounds.2⟩
      simp [isPort]
    have inOrder : range.last.any (· < range.start) = false := by
      rw [Option.any_eq_false]
      intro port isLast
      simpa using (lastInBounds port isLast).1
    rw [read, isValue, Result.ok_bind, startIsPort, lastIsPort, inOrder]
    rfl

/-- Something that denotes ports within bounds is read, unless a number is too long. -/
theorem Written.read_eq_ok_iff {written : Written} (short : written.HasShortRuns)
    {range : PortRange} :
    read written.toValue = .ok range ↔ written.Denotes range ∧ range.IsInBounds := by
  rw [PortRange.read_eq_ok_iff]
  constructor
  · rintro ⟨isValue, inBounds⟩
    exact ⟨denotes_of_ofValue isValue, inBounds⟩
  · rintro ⟨denotes, inBounds⟩
    exact ⟨denotes.ofValue_eq short, inBounds⟩

/-! ## Showing a range -/

theorem isBound_toString {port : Int} (nonneg : 0 ≤ port) :
    IsBound (toString port).toList port.toNat := by
  rcases Int.eq_ofNat_of_zero_le nonneg with ⟨count, rfl⟩
  rw [toList_toString_natCast]
  refine ⟨Nat.toDigits 10 count, ⟨[], [], by simp, by simp, Nat.toDigits_ne_nil, ?_⟩,
    naturalOf?_toDigits count⟩
  exact fun character member => isDecimal_of_isDigit (isDigit_of_mem_toDigits _ member)

theorem length_toString_le {port : Int} (nonneg : 0 ≤ port) (atMost : port ≤ 65535) :
    (toString port).toList.length ≤ 5 := by
  rcases Int.eq_ofNat_of_zero_le nonneg with ⟨count, rfl⟩
  rw [toList_toString_natCast, Nat.length_toDigits_le_iff (by decide) (by decide)]
  omega

theorem hasShortRuns_of_length_le {shown : String} (short : shown.toList.length ≤ digitLimit) :
    (Written.text shown).HasShortRuns :=
  fun _ inside _ => le_trans inside.length_le short

/-- The text of a range that is within bounds is read, and its ports are those of the range. -/
theorem exists_read_portRange {range : PortRange} (inBounds : range.IsInBounds) (name : String)
    (side : MatchSide) :
    ∃ text again, (MatchSpec.ofPorts name range.start range.last side).portRange = some text ∧
      read (.text text) = .ok again ∧ ∀ port, again.Holds port ↔ range.Holds port := by
  rcases range with ⟨start, last⟩
  rcases inBounds with ⟨startInBounds, lastInBounds⟩
  dsimp only at startInBounds lastInBounds ⊢
  have startNonneg : 0 ≤ start := by omega
  have startShort := length_toString_le startNonneg startInBounds.2
  have single : read (.text (toString start)) = .ok ⟨start, none⟩ := by
    refine (Written.read_eq_ok_iff (hasShortRuns_of_length_le ?_)).mpr ⟨?_, startInBounds, ?_⟩
    · exact le_trans startShort (by decide)
    · have denotes := Written.Denotes.one (isBound_toString startNonneg)
      rwa [Int.toNat_of_nonneg startNonneg] at denotes
    · exact fun _ impossible => nomatch impossible
  cases last with
  | none => exact ⟨_, _, rfl, single, fun _ => Iff.rfl⟩
  | some last =>
      rcases lastInBounds last rfl with ⟨inOrder, lastAtMost⟩
      have lastNonneg : 0 ≤ last := by omega
      by_cases same : last = start
      · -- A range of one port is shown as that port, without its end.
        subst same
        refine ⟨toString last, _, ?_, single, fun _ => Iff.rfl⟩
        simp [MatchSpec.portRange, MatchSpec.ofPorts]
      · have lastShort := length_toString_le lastNonneg lastAtMost
        have shown : s!"{start}:{last}".toList =
            (toString start).toList ++ ':' :: (toString last).toList := by
          rw [String.toList_append, String.toList_append, List.append_assoc]
          rfl
        refine ⟨s!"{start}:{last}", ⟨start, some last⟩, ?_, ?_, fun _ => Iff.rfl⟩
        · simp [MatchSpec.portRange, MatchSpec.ofPorts, same]
        · refine (Written.read_eq_ok_iff (hasShortRuns_of_length_le ?_)).mpr
            ⟨?_, startInBounds, lastInBounds⟩
          · rw [shown, List.length_append, List.length_cons, digitLimit]
            omega
          · have denotes := Written.Denotes.two shown (.inl rfl) (isBound_toString startNonneg)
              (isBound_toString lastNonneg)
            rwa [Int.toNat_of_nonneg startNonneg, Int.toNat_of_nonneg lastNonneg] at denotes

end PortRange

end UplinkShaper
