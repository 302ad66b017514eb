import UplinkShaper.Number
import UplinkShaper.Text.Blank

/-!
Reading doubles: an optional sign, digits with an optional point, and an optional
exponent, or a name of what is not finite. Blanks around the text do not matter, and a
single underscore may stand between two digits.
-/

namespace UplinkShaper

namespace Text

def withoutSign : List Char → List Char
  | '-' :: rest => rest
  | '+' :: rest => rest
  | text => text

def isNegative (text : List Char) : Bool :=
  text.head? == some '-'

/-- Drop the underscores between digits, after a character. None may stand elsewhere. -/
def joinDigits? (before : Char) : List Char → Option (List Char)
  | [] => if before = '_' then none else some []
  | character :: rest =>
      if character = '_' then
        if isDecimal before then joinDigits? character rest else none
      else if before = '_' ∧ !isDecimal character then none
      else (joinDigits? character rest).map (character :: ·)

end Text

namespace Double

def exponentOf? : List Char → Option Int
  | [] => some 0
  | mark :: rest =>
      let digits := Text.withoutSign rest
      if (mark = 'e' ∨ mark = 'E') ∧ !digits.isEmpty then
        (Text.naturalOf? digits).map fun size =>
          if Text.isNegative rest then -Int.ofNat size else Int.ofNat size
      else none

/-- Digits after a point, and what follows them. -/
def placesOf : List Char → List Char × List Char
  | '.' :: rest => (rest.takeWhile Text.isDecimal, rest.dropWhile Text.isDecimal)
  | text => ([], text)

/-- A decimal with an optional point and exponent. -/
def ofDigits? (negative : Bool) (text : List Char) : Option Double := do
  let whole := text.takeWhile Text.isDecimal
  let (places, rest) := placesOf (text.dropWhile Text.isDecimal)
  let exponent ← exponentOf? rest
  if whole.isEmpty ∧ places.isEmpty then none
  else
    let significant ← Text.naturalOf? (whole ++ places)
    return ofDecimal negative significant (exponent - places.length)

def read? (text : List Char) : Option Double := do
  let shown ← Text.joinDigits? ' ' (Text.strip text)
  let negative := Text.isNegative shown
  let magnitude := Text.withoutSign shown
  match String.ofList (magnitude.map Char.toLower) with
  | "inf" | "infinity" => return .infinite negative
  | "nan" => return .notANumber
  | _ => ofDigits? negative magnitude

end Double

end UplinkShaper
