/-!
Double precision numbers as exact values. A finite number is the rational it
stands for, and every operation is the exact rational operation followed by one
rounding: to the nearest representable value, a tie going to the even
significand. Laws about sums and products of small integers are therefore laws
of rational arithmetic, with no bit patterns involved.
-/

namespace UplinkShaper

/-! ## Rounding to an integer -/

/-- Round to the nearest integer; a tie goes to the even neighbour. -/
def nearestEven (value : Rat) : Int :=
  let below := value.floor
  let rest := value - below
  if rest < 1 / 2 then below
  else if 1 / 2 < rest then below + 1
  else below + below % 2

/-- Drop the fraction, toward zero. -/
def truncate (value : Rat) : Int :=
  if value < 0 then value.ceil else value.floor

/-! ## The numbers -/

/-- A double precision number. Zero has a sign, so the negative zero is a value
of its own; `finite 0` is the positive one. -/
inductive Double
  | finite (value : Rat)
  | negativeZero
  | infinite (negative : Bool)
  | notANumber
deriving DecidableEq, Repr, Inhabited

namespace Double

/-- The exponent `e` with `2 ^ e ≤ |value| < 2 ^ (e + 1)`, for a nonzero value. -/
def binaryExponent (value : Rat) : Int :=
  let estimate : Int := (value.num.natAbs.log2 : Int) - (value.den.log2 : Int)
  if (2 : Rat) ^ estimate ≤ value.abs then estimate else estimate - 1

/-- The distance between neighbouring doubles around a nonzero value: 53
significant bits, but never finer than the smallest positive double. -/
def spacing (value : Rat) : Rat :=
  (2 : Rat) ^ max (binaryExponent value - 52) (-1074)

def zero (negative : Bool) : Double :=
  if negative then .negativeZero else .finite 0

/-- The double nearest to a rational, a tie going to the even significand; beyond
the largest double it is infinite. -/
def round (value : Rat) : Double :=
  if value = 0 then .finite 0
  else
    let step := spacing value
    let rounded := nearestEven (value / step) * step
    if (2 : Rat) ^ (1024 : Nat) ≤ rounded.abs then .infinite (value < 0)
    else if rounded = 0 then zero (value < 0)
    else .finite rounded

/-- The double nearest to `significant * 10 ^ scale`. Far outside the range of
doubles the power is not computed. -/
def ofDecimal (negative : Bool) (significant : Nat) (scale : Int) : Double :=
  let places := scale + (Nat.toDigits 10 significant).length
  if significant = 0 then zero negative
  else if 400 < places then .infinite negative
  else if places < -400 then zero negative
  else round ((if negative then -1 else 1) * significant * (10 : Rat) ^ scale)

/-- The rational a finite number stands for. -/
def toRat? : Double → Option Rat
  | .finite value => some value
  | .negativeZero => some 0
  | _ => none

/-- The sign, which a zero has too. -/
def isNegative : Double → Bool
  | .finite value => value < 0
  | .negativeZero => true
  | .infinite negative => negative
  | .notANumber => false

def isIntegral : Double → Bool
  | .finite value => value.den == 1
  | .negativeZero => true
  | _ => false

/-! ## Arithmetic -/

def neg : Double → Double
  | .finite value => if value = 0 then .negativeZero else .finite (-value)
  | .negativeZero => .finite 0
  | .infinite negative => .infinite (!negative)
  | .notANumber => .notANumber

def add : Double → Double → Double
  | .notANumber, _ => .notANumber
  | _, .notANumber => .notANumber
  | .infinite left, .infinite right => if left = right then .infinite left else .notANumber
  | .infinite left, _ => .infinite left
  | _, .infinite right => .infinite right
  | .negativeZero, right => right
  | left, .negativeZero => left
  | .finite left, .finite right => round (left + right)

def sub (left right : Double) : Double :=
  left.add right.neg

def mul (left right : Double) : Double :=
  let negative := left.isNegative != right.isNegative
  match left.toRat?, right.toRat? with
  | some first, some second =>
      if first = 0 ∨ second = 0 then zero negative else round (first * second)
  | some first, none =>
      if right = .notANumber ∨ first = 0 then .notANumber else .infinite negative
  | none, some second =>
      if left = .notANumber ∨ second = 0 then .notANumber else .infinite negative
  | none, none =>
      if left = .notANumber ∨ right = .notANumber then .notANumber else .infinite negative

/-- Division; by zero it gives an infinity, and zero by zero no number. -/
def div (left right : Double) : Double :=
  let negative := left.isNegative != right.isNegative
  match left.toRat?, right.toRat? with
  | some first, some second =>
      if second = 0 then
        if first = 0 then .notANumber else .infinite negative
      else if first = 0 then zero negative
      else round (first / second)
  | some _, none => if right = .notANumber then .notANumber else zero negative
  | none, some _ => if left = .notANumber then .notANumber else .infinite negative
  | none, none => .notANumber

/-- The remainder of a division whose quotient is cut toward zero. It is exact. -/
def remainder (left right : Double) : Double :=
  match left.toRat?, right.toRat? with
  | some first, some second =>
      if second = 0 then .notANumber
      else
        let rest := first - truncate (first / second) * second
        if rest = 0 then zero left.isNegative else .finite rest
  | some _, none => if right = .notANumber then .notANumber else left
  | none, _ => .notANumber

/-- The largest integral number that is not above a number. -/
def floor : Double → Double
  | .finite value => .finite value.floor
  | other => other

/-- Division to the floor. The multiple of the divisor is formed first, then
divided, and the quotient is moved to the integer it was rounded away from. -/
def floorDiv (left right : Double) : Double :=
  let rest := left.remainder right
  let quotient := (left.sub rest).div right
  let adjusted :=
    if rest.toRat? ≠ some 0 ∧ rest.isNegative ≠ right.isNegative then quotient.sub (.finite 1)
    else quotient
  let below := adjusted.floor
  match (adjusted.sub below).toRat? with
  | some rise => if 1 / 2 < rise then below.add (.finite 1) else below
  | none => below

/-! ## Order -/

/-- How two numbers compare. Nothing compares with what is not a number, and the
two zeros are equal. -/
def compare? : Double → Double → Option Ordering
  | .notANumber, _ => none
  | _, .notANumber => none
  | .infinite left, .infinite right =>
      some (if left = right then .eq else if left then .lt else .gt)
  | .infinite left, _ => some (if left then .lt else .gt)
  | _, .infinite right => some (if right then .gt else .lt)
  | left, right =>
      match left.toRat?, right.toRat? with
      | some first, some second =>
          some (if first < second then .lt else if first = second then .eq else .gt)
      | _, _ => none

end Double

end UplinkShaper
