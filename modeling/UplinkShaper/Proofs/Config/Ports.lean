import Mathlib.Data.List.TakeWhile
import UplinkShaper.Config.Entry
import UplinkShaper.Proofs.Config.Complaints
import UplinkShaper.Proofs.Counter.Numerals

/-!
Ports as they are written. A text that is not the form of a port or a port range is refused,
and so is a number with a fraction; otherwise the digits of the bounds are read, of which
there may only be so many.
-/

namespace UplinkShaper

namespace Text

/-- Digits that can be read as a number. -/
structure IsNumeral (shown : List Char) : Prop where
  decimal : ∀ character ∈ shown, isDecimal character = true
  short : shown.length ≤ digitLimit

theorem IsNumeral.exists_readNatural {shown : List Char} (numeral : IsNumeral shown) :
    ∃ value, readNatural shown = .ok value := by
  rcases exists_naturalOf? numeral.decimal with ⟨value, isValue⟩
  rw [readNatural, isValue]
  exact ⟨value, if_neg (Nat.not_lt.mpr numeral.short)⟩

end Text

namespace Double

open Decimal

variable {among : List Char}

theorem exists_mark_signed {shown : List Char} (isNegative : Bool)
    (marked : ∃ mark ∈ among, mark ∈ shown) : ∃ mark ∈ among, mark ∈ signed isNegative shown := by
  rcases marked with ⟨mark, isMark, member⟩
  refine ⟨mark, isMark, ?_⟩
  cases isNegative with
  | false => exact member
  | true => exact List.mem_cons_of_mem _ member

theorem mem_scientific {mark : Char} {exponent : Int} (member : mark ∈ exponentText exponent)
    (shown : List Char) : mark ∈ scientific shown exponent := by
  unfold scientific
  split
  · exact member
  · exact List.mem_cons_of_mem _ member
  · exact List.mem_append_right _ member

/-- The text of a double has a point or an exponent, or it is that of no number. -/
theorem exists_mark_among (hasPoint : '.' ∈ among) (hasLetter : 'n' ∈ among)
    (exponents : ∀ exponent, ∃ mark ∈ among, mark ∈ exponentText exponent) (number : Double) :
    ∃ mark ∈ among, mark ∈ number.shortest.toList := by
  unfold shortest
  rw [String.toList_ofList]
  split
  · cases number with
    | infinite negative => exact exists_mark_signed negative ⟨'n', hasLetter, by decide⟩
    | _ => exact ⟨'n', hasLetter, List.mem_cons_self ..⟩
  · apply exists_mark_signed
    split
    · exact ⟨'.', hasPoint, by decide⟩
    · dsimp only
      split
      · rcases exponents (_ : Int) with ⟨mark, isMark, member⟩
        exact ⟨mark, isMark, mem_scientific member _⟩
      · split
        · exact ⟨'.', hasPoint, by simp⟩
        · exact ⟨'.', hasPoint, by simp⟩

/-- What tells the text of a double from that of a whole number. -/
def marks : List Char := ['.', 'e', 'n']

theorem exists_mark (number : Double) : ∃ mark ∈ marks, mark ∈ number.shortest.toList :=
  exists_mark_among (by decide) (by decide) (fun _ => ⟨'e', by decide, List.mem_cons_self ..⟩)
    number

end Double

namespace PortRange

open Text

/-- What may stand in a port or a port range. -/
def mayStand (character : Char) : Bool :=
  isDecimal character || isBlank character || character == ':' || character == '-'

theorem dropBlanks_append (text : List Char) :
    text.takeWhile isBlank ++ dropBlanks text = text :=
  List.takeWhile_append_dropWhile

/-- A bound that was read: its digits, between blanks. -/
theorem readBound?_eq_some {text shown rest : List Char}
    (read : readBound? text = some (shown, rest)) :
    ∃ before after, text = before ++ shown ++ after ++ rest ∧
      (∀ character ∈ before ++ after, isBlank character = true) ∧
        ∀ character ∈ shown, isDecimal character = true := by
  unfold readBound? at read
  dsimp only at read
  split at read
  · cases read
  case h_2 =>
    cases read
    let tail := dropBlanks text
    refine ⟨text.takeWhile isBlank, (tail.dropWhile isDecimal).takeWhile isBlank, ?_, ?_, ?_⟩
    · rw [List.append_assoc, dropBlanks_append, List.append_assoc, List.takeWhile_append_dropWhile,
        dropBlanks_append]
    · intro character member
      rcases List.mem_append.mp member with inFront | behind
      · exact List.mem_takeWhile_imp inFront
      · exact List.mem_takeWhile_imp behind
    · exact fun character member => List.mem_takeWhile_imp member

theorem mayStand_of_readBound? {text shown rest : List Char}
    (read : readBound? text = some (shown, rest))
    (restMayStand : ∀ character ∈ rest, mayStand character = true) :
    ∀ character ∈ text, mayStand character = true := by
  rcases readBound?_eq_some read with ⟨before, after, rfl, blank, decimal⟩
  intro character member
  simp only [List.mem_append] at member blank
  rcases member with ((isBefore | isShown) | isAfter) | isRest
  · simp [mayStand, blank character (.inl isBefore)]
  · simp [mayStand, decimal character isShown]
  · simp [mayStand, blank character (.inr isAfter)]
  · exact restMayStand character isRest

theorem countP_of_readBound? {text shown rest : List Char}
    (read : readBound? text = some (shown, rest)) :
    shown.length + rest.countP isDecimal ≤ text.countP isDecimal := by
  rcases readBound?_eq_some read with ⟨before, after, rfl, _, decimal⟩
  simp only [List.countP_append, List.countP_eq_length.mpr decimal]
  omega

/-- Bounds that are found are made of digits, and nothing else than what may stand with them
is in the text. -/
theorem bounds?_eq_some {text start : List Char} {last : Option (List Char)}
    (found : bounds? text = some (start, last)) :
    (∀ character ∈ text, mayStand character = true) ∧
      (text.countP isDecimal ≤ digitLimit → IsNumeral start ∧ ∀ shown ∈ last, IsNumeral shown) := by
  rcases Option.bind_eq_some_iff.mp found with ⟨⟨first, rest⟩, readFirst, found⟩
  have decimal := (readBound?_eq_some readFirst)
  rcases decimal with ⟨_, _, _, _, decimal⟩
  have fewer := countP_of_readBound? readFirst
  cases rest with
  | nil =>
      cases found
      refine ⟨mayStand_of_readBound? readFirst (List.forall_mem_nil _), fun few => ?_⟩
      exact ⟨⟨decimal, by omega⟩, fun _ impossible => nomatch impossible⟩
  | cons mark rest =>
      dsimp only at found
      split at found
      case isFalse => cases found
      case isTrue isMark =>
        rcases Option.bind_eq_some_iff.mp found with ⟨⟨second, rest'⟩, readSecond, found⟩
        dsimp only at found
        split at found
        case isFalse => cases found
        case isTrue isEnd =>
          cases found
          cases List.isEmpty_iff.mp isEnd
          rcases readBound?_eq_some readSecond with ⟨_, _, _, _, decimalToo⟩
          have fewerToo := countP_of_readBound? readSecond
          have markMayStand : mayStand mark = true := by
            rcases isMark with rfl | rfl
            · rfl
            · rfl
          refine ⟨mayStand_of_readBound? readFirst (List.forall_mem_cons.mpr ⟨markMayStand,
            mayStand_of_readBound? readSecond (List.forall_mem_nil _)⟩), fun few => ?_⟩
          rw [List.countP_cons] at fewer
          refine ⟨⟨decimal, by omega⟩, ?_⟩
          rintro _ ⟨⟩
          exact ⟨decimalToo, by omega⟩

/-- A number with a fraction is no port. -/
theorem bounds?_shortest (number : Double) : bounds? number.shortest.toList = none := by
  cases found : bounds? number.shortest.toList with
  | none => rfl
  | some bounds =>
      rcases Double.exists_mark number with ⟨mark, isMark, member⟩
      have stands := (bounds?_eq_some found).1 mark member
      have doesNot : Double.marks.all (fun mark => !mayStand mark) = true := by decide
      have isNot := List.all_eq_true.mp doesNot mark isMark
      rw [stands] at isNot
      cases isNot

theorem surfaces_readNumber {shown : List Char} (numeral : IsNumeral shown) :
    Surfaces (readNumber shown) := by
  rcases numeral.exists_readNatural with ⟨value, isValue⟩
  rw [readNumber, isValue]
  exact .ok _

theorem surfaces_ofValue {value : Value}
    (admitted : (Schema.scalar [.integer, .text] []).Admits value) (plain : value.isPlain = true)
    (short : ∀ shown, value = .text shown → shown.toList.countP isDecimal ≤ digitLimit) :
    Surfaces (ofValue value) := by
  have refused : (ConfigurationError.portForm value).isWritable = true :=
    Value.isWritable_of_isPlain value plain
  rcases admitted.form with ⟨form, isForm, formAdmits⟩
  cases value with
  | number number =>
      cases number with
      | whole port => exact .ok _
      | real double =>
          have isText : (Value.number (.real double)).plain = double.shortest := rfl
          simp only [ofValue, isText, bounds?_shortest]
          exact .ofConfiguration refused
  | text shown =>
      have isText : (Value.text shown).plain = shown := rfl
      simp only [ofValue, isText]
      split
      · exact .ofConfiguration refused
      case h_2 start last found =>
        rcases (bounds?_eq_some found).2 (short shown rfl) with ⟨startNumeral, lastNumeral⟩
        refine (surfaces_readNumber startNumeral).bind fun _ _ => .bind ?_ fun _ _ => .ok _
        cases last with
        | none => exact .ok _
        | some last =>
            exact (surfaces_readNumber (lastNumeral last rfl)).bind fun _ _ => .ok _
  | _ =>
      simp only [List.mem_cons, List.not_mem_nil, or_false] at isForm
      rcases isForm with rfl | rfl
      · cases formAdmits
      · cases formAdmits

theorem surfaces_read {value : Value}
    (admitted : (Schema.scalar [.integer, .text] []).Admits value) (plain : value.isPlain = true)
    (short : ∀ shown, value = .text shown → shown.toList.countP isDecimal ≤ digitLimit) :
    Surfaces (read value) := by
  have writable := Value.isWritable_of_isPlain value plain
  refine (surfaces_ofValue admitted plain short).bind fun range _ => ?_
  split
  · exact .ofConfiguration writable
  · split
    · exact .ofConfiguration writable
    · exact .ok _

end PortRange

end UplinkShaper
