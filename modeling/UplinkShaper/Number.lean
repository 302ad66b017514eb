import UplinkShaper.Number.Decimal
import UplinkShaper.Text.Digit

/-!
Numbers as configuration and counters hold them: whole numbers of any size, and
doubles. Comparison between the two kinds is exact. Arithmetic between them is
done on doubles, so it fails where a whole number has no finite double near it.
-/

namespace UplinkShaper

inductive Number
  | whole (value : Int)
  | real (value : Double)
deriving DecidableEq, Repr, Inhabited

inductive ArithmeticError
  /-- No finite number of the wanted kind is near. -/
  | overflow
  | noWholePart
deriving DecidableEq, Repr

namespace Double

/-- The double nearest to a whole number, unless that is infinite. -/
def ofInt (value : Int) : Except ArithmeticError Double :=
  match round value with
  | .infinite _ => .error .overflow
  | double => .ok double

/-- The whole part, the fraction dropped toward zero. -/
def wholePart : Double → Except ArithmeticError Int
  | .finite value => .ok (truncate value)
  | .negativeZero => .ok 0
  | .infinite _ => .error .overflow
  | .notANumber => .error .noWholePart

/-- The double nearest to a number rounded to `places` decimal places. -/
def roundPlaces (places : Nat) : Double → Double
  | .finite value =>
      let scale := (10 : Rat) ^ places
      let scaled := nearestEven (value * scale)
      if scaled = 0 then zero (value < 0) else round (scaled / scale)
  | other => other

end Double

namespace Number

instance : OfNat Number n where
  ofNat := .whole n

instance : Coe Int Number where
  coe := .whole

/-! ## Conversion -/

def toDouble : Number → Except ArithmeticError Double
  | .whole value => Double.ofInt value
  | .real value => .ok value

def wholePart : Number → Except ArithmeticError Int
  | .whole value => .ok value
  | .real value => value.wholePart

def toInt? : Number → Option Int
  | .whole value => some value
  | .real (.finite value) => if value.den = 1 then some value.num else none
  | .real .negativeZero => some 0
  | .real _ => none

def isIntegral : Number → Bool
  | .whole _ => true
  | .real value => value.isIntegral

/-- A whole number where a double is integral, the number itself elsewhere. -/
def simplify (number : Number) : Number :=
  match number.toInt? with
  | some value => .whole value
  | none => number

/-! ## Arithmetic -/

def add : Number → Number → Except ArithmeticError Number
  | .whole left, .whole right => .ok (.whole (left + right))
  | left, right => do return .real ((← left.toDouble).add (← right.toDouble))

def sub : Number → Number → Except ArithmeticError Number
  | .whole left, .whole right => .ok (.whole (left - right))
  | left, right => do return .real ((← left.toDouble).sub (← right.toDouble))

def mul : Number → Number → Except ArithmeticError Number
  | .whole left, .whole right => .ok (.whole (left * right))
  | left, right => do return .real ((← left.toDouble).mul (← right.toDouble))

def floorDiv : Number → Number → Except ArithmeticError Number
  | .whole left, .whole right => .ok (.whole (left.fdiv right))
  | left, right => do return .real ((← left.toDouble).floorDiv (← right.toDouble))

def neg : Number → Number
  | .whole value => .whole (-value)
  | .real value => .real value.neg

/-! ## Order -/

/-- How a whole number compares with a double, exactly. -/
def compareWithDouble? (whole : Int) : Double → Option Ordering
  | .notANumber => none
  | .infinite negative => some (if negative then .gt else .lt)
  | .negativeZero => some (compare whole 0)
  | .finite value =>
      some (if (whole : Rat) < value then .lt else if (whole : Rat) = value then .eq else .gt)

/-- How two numbers compare; nothing compares with what is not a number. -/
def compare? : Number → Number → Option Ordering
  | .whole left, .whole right => some (compare left right)
  | .whole left, .real right => compareWithDouble? left right
  | .real left, .whole right => (compareWithDouble? right left).map Ordering.swap
  | .real left, .real right => left.compare? right

def lt (left right : Number) : Bool := left.compare? right == some .lt

def le (left right : Number) : Bool :=
  match left.compare? right with
  | some order => order != .gt
  | none => false

def eq (left right : Number) : Bool := left.compare? right == some .eq

/-! ## Text -/

/-- A whole number as its digits, a double as its shortest text. -/
def text : Number → String
  | .whole value => toString value
  | .real value => value.shortest

/-- Whether a number is short enough to be written. -/
def isWritable : Number → Bool
  | .whole value => value.natAbs < Nat.pow 10 Text.digitLimit
  | .real _ => true

end Number

end UplinkShaper
