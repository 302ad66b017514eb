import UplinkShaper.Number.Double

/-!
Decimal texts of doubles: with a fixed number of places, with a fixed number of
significant digits, and with the fewest digits that read back as the same number.
The digits are found in exact arithmetic, and a tie goes to the even digit.
-/

namespace UplinkShaper

namespace Decimal

/-- The digits of a natural number, most significant first. -/
def digits (value : Nat) : List Char :=
  Nat.toDigits 10 value

/-- Digits padded on the left with zeros to a width. -/
def padded (width : Nat) (value : Nat) : List Char :=
  let shown := digits value
  List.replicate (width - shown.length) '0' ++ shown

/-- The exponent `e` with `10 ^ e ≤ value < 10 ^ (e + 1)`, for a positive value. -/
def exponent (value : Rat) : Int :=
  if 1 ≤ value then (digits value.floor.toNat).length - 1
  else -((digits (value⁻¹.ceil - 1).toNat).length : Int)

def dropTrailingZeros (shown : List Char) : List Char :=
  (shown.reverse.dropWhile (· == '0')).reverse

/-- A sign in front of what is below zero. -/
def signed (negative : Bool) (shown : List Char) : List Char :=
  if negative then '-' :: shown else shown

/-- A magnitude with exactly `places` digits after the point. -/
def placesText (places : Nat) (magnitude : Rat) : List Char :=
  let scaled := (nearestEven (magnitude * (10 : Rat) ^ places)).toNat
  let scale := Nat.pow 10 places
  if places = 0 then digits scaled
  else digits (scaled / scale) ++ '.' :: padded places (scaled % scale)

/-- An exponent with its sign and at least two digits. -/
def exponentText (value : Int) : List Char :=
  'e' :: (if value < 0 then '-' else '+') :: padded 2 value.natAbs

/-- Significant digits in positional notation, the first one standing for
`10 ^ exponent`. -/
def positional (shown : List Char) (exponent : Int) : List Char × List Char :=
  if exponent < 0 then (['0'], List.replicate (-exponent - 1).toNat '0' ++ shown)
  else
    let count := exponent.toNat + 1
    (shown.take count ++ List.replicate (count - shown.length) '0', shown.drop count)

def scientific (shown : List Char) (exponent : Int) : List Char :=
  match shown with
  | [] => exponentText exponent
  | [first] => first :: exponentText exponent
  | first :: rest => first :: '.' :: rest ++ exponentText exponent

end Decimal

namespace Double

open Decimal

def specialText : Double → List Char
  | .infinite negative => signed negative ['i', 'n', 'f']
  | _ => ['n', 'a', 'n']

/-- A number with exactly `places` digits after the point. -/
def fixed (places : Nat) (number : Double) : String :=
  String.ofList <|
    match number.toRat? with
    | some value => signed number.isNegative (placesText places value.abs)
    | none => number.specialText

/-- Six significant digits without the zeros at their end. From a millionth of
the leading digit on, and below a ten-thousandth, an exponent is written. -/
def general (number : Double) : String :=
  String.ofList <|
    match number.toRat? with
    | none => number.specialText
    | some value =>
        if value = 0 then signed number.isNegative ['0']
        else
          let magnitude := value.abs
          let first := Decimal.exponent magnitude
          let significant := (nearestEven (magnitude * (10 : Rat) ^ (5 - first))).toNat
          let (significant, exponent) :=
            if significant = 1000000 then (100000, first + 1) else (significant, first)
          let shown := dropTrailingZeros (digits significant)
          signed number.isNegative <|
            if exponent < -4 ∨ 6 ≤ exponent then scientific shown exponent
            else
              match positional shown exponent with
              | (whole, []) => whole
              | (whole, part) => whole ++ '.' :: part

def readsBack (value decimal : Rat) : Bool :=
  round decimal == .finite value

/-- The better of the two neighbours of a value on a decimal grid: one that reads
back, of two such the nearer, of two as near the even one. -/
def gridNeighbour? (value grid : Rat) : Option Nat :=
  let below := (value / grid).floor
  let above := below + 1
  match readsBack value (below * grid), readsBack value (above * grid) with
  | true, true => some (nearestEven (value / grid)).toNat
  | true, false => some below.toNat
  | false, true => some above.toNat
  | false, false => none

/-- The fewest significant digits that read back as a positive value, and the
exponent of their first digit. Seventeen always do. -/
def shortestDigits (value : Rat) : List Char × Int :=
  let first := Decimal.exponent value
  let found := (List.range 17).findSome? fun (count : Nat) =>
    let scale := first - count
    (gridNeighbour? value ((10 : Rat) ^ scale)).map fun significant =>
      let shown := digits significant
      (dropTrailingZeros shown, scale + (shown.length - 1 : Int))
  found.getD (['0'], 0)

/-- The text that reads back as the same number with the fewest digits:
positional from a ten-thousandth up to `10 ^ 16`, and always marked as not being
a whole number by a point or an exponent. -/
def shortest (number : Double) : String :=
  String.ofList <|
    match number.toRat? with
    | none => number.specialText
    | some value =>
        signed number.isNegative <|
          if value = 0 then ['0', '.', '0']
          else
            let (shown, exponent) := shortestDigits value.abs
            if exponent < -4 ∨ 16 ≤ exponent then scientific shown exponent
            else
              match positional shown exponent with
              | (whole, []) => whole ++ ['.', '0']
              | (whole, part) => whole ++ '.' :: part

end Double

end UplinkShaper
