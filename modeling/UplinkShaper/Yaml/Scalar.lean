import UplinkShaper.Yaml.Cursor
import UplinkShaper.Text.Lowercase
import UplinkShaper.Text.Parts
import UplinkShaper.Number.Reading

/-!
Scalars: which tag a plain scalar has by its form, and which value a scalar with a
tag denotes. Numbers may be written in base two, eight, ten, sixteen or sixty, and
with underscores among their digits.
-/

namespace UplinkShaper

namespace Yaml

inductive ScalarTag
  | null
  | boolean
  | integer
  | float
  | timestamp
  | binary
  | text
deriving DecidableEq, Repr

namespace Scalar

open Text (isNegative withoutSign)

/-! ## Forms -/

def isDigitOrUnderscore (character : Char) : Bool :=
  character.isDigit || character == '_'

def isDigitRun : List Char → Bool
  | first :: rest => first.isDigit && rest.all isDigitOrUnderscore
  | [] => false

/-- A part of a number in base sixty, after the first one. -/
def isSixtieth : List Char → Bool
  | [digit] => digit.isDigit
  | [tens, digit] => '0' ≤ tens && tens ≤ '5' && digit.isDigit
  | _ => false

def isBase60 (text : List Char) : Bool :=
  match Text.parts ':' text with
  | first :: second :: others => isDigitRun first && (second :: others).all isSixtieth
  | _ => false

/-- A sign and at least one digit after the mark of an exponent, or nothing. -/
def isExponent : List Char → Bool
  | [] => true
  | mark :: sign :: digits =>
      (mark == 'e' || mark == 'E') && (sign == '-' || sign == '+') && !digits.isEmpty &&
        digits.all Char.isDigit
  | _ => false

def isFloat (text : List Char) : Bool :=
  let magnitude := withoutSign text
  match Text.cut? '.' magnitude with
  | none => false
  | some ([], rest) =>
      let unsigned := magnitude.length == text.length
      String.ofList rest ∈ ["inf", "Inf", "INF"] ||
        (unsigned && String.ofList rest ∈ ["nan", "NaN", "NAN"]) ||
        (unsigned && isDigitRun (rest.takeWhile isDigitOrUnderscore) &&
          isExponent (rest.dropWhile isDigitOrUnderscore))
  | some (front, rest) =>
      (isDigitRun front && isExponent (rest.dropWhile isDigitOrUnderscore)) ||
        (isBase60 front && rest.all isDigitOrUnderscore)

def isBinaryDigit (character : Char) : Bool :=
  character == '0' || character == '1' || character == '_'

def isOctalDigit (character : Char) : Bool :=
  ('0' ≤ character && character ≤ '7') || character == '_'

def isHexadecimalDigit (character : Char) : Bool :=
  isDigitOrUnderscore character || ('a' ≤ character && character ≤ 'f') ||
    ('A' ≤ character && character ≤ 'F')

def isInteger (text : List Char) : Bool :=
  match withoutSign text with
  | ['0'] => true
  | '0' :: rest =>
      match rest with
      | 'b' :: digits => !digits.isEmpty && digits.all isBinaryDigit
      | 'x' :: digits => !digits.isEmpty && digits.all isHexadecimalDigit
      | _ => rest.all isOctalDigit
  | first :: rest =>
      first.isDigit && (rest.all isDigitOrUnderscore || isBase60 (first :: rest))
  | [] => false

/-! ## Timestamps -/

structure Timestamp where
  year : List Char
  month : List Char
  day : List Char
  /-- Hour, minute, second, and the digits of a fraction. -/
  time : Option (List Char × List Char × List Char × List Char)
  /-- The sign, hours and minutes of an offset; all empty for universal time. -/
  zone : Option (List Char × List Char × List Char)

/-- Between `least` and `most` digits, as many as there are. -/
def digitsUpTo (least most : Nat) (text : List Char) : Option (List Char × List Char) :=
  let digits := (text.take most).takeWhile Char.isDigit
  if digits.length < least then none else some (digits, text.drop digits.length)

def afterMark (mark : Char) : List Char → Option (List Char)
  | first :: rest => if first = mark then some rest else none
  | [] => none

/-- What separates a date from a time of day. -/
def afterDateMark : List Char → Option (List Char)
  | 'T' :: rest => some rest
  | 't' :: rest => some rest
  | first :: rest =>
      if isSpaceOrTab first then some (rest.dropWhile isSpaceOrTab) else none
  | [] => none

def zoneOf? (text : List Char) : Option (Option (List Char × List Char × List Char)) :=
  match text.dropWhile isSpaceOrTab with
  | [] => if text.isEmpty then some none else none
  | ['Z'] => some (some ([], [], []))
  | sign :: rest =>
      if sign = '-' ∨ sign = '+' then do
        let (hours, rest) ← digitsUpTo 1 2 rest
        match rest with
        | [] => some (some ([sign], hours, []))
        | _ => do
            let (minutes, rest) ← afterMark ':' rest >>= digitsUpTo 2 2
            if rest.isEmpty then some (some ([sign], hours, minutes)) else none
      else none

def timestampOf? (text : List Char) : Option Timestamp := do
  let (year, rest) ← digitsUpTo 4 4 text
  let (month, rest) ← afterMark '-' rest >>= digitsUpTo 1 2
  let (day, rest) ← afterMark '-' rest >>= digitsUpTo 1 2
  match rest with
  | [] => return { year := year, month := month, day := day, time := none, zone := none }
  | _ =>
      let (hour, rest) ← afterDateMark rest >>= digitsUpTo 1 2
      let (minute, rest) ← afterMark ':' rest >>= digitsUpTo 2 2
      let (second, rest) ← afterMark ':' rest >>= digitsUpTo 2 2
      let (fraction, rest) :=
        match rest with
        | '.' :: later => (later.takeWhile Char.isDigit, later.dropWhile Char.isDigit)
        | _ => ([], rest)
      let zone ← zoneOf? rest
      return { year := year, month := month, day := day,
               time := some (hour, minute, second, fraction), zone := zone }

/-- A date by itself has two digits for month and day. -/
def isTimestamp (text : List Char) : Bool :=
  match timestampOf? text with
  | some found =>
      found.time.isSome || (found.month.length == 2 && found.day.length == 2)
  | none => false

/-! ## Tags by form -/

/-- A line feed at the end does not count, unless the text is nothing else. -/
def withoutLineFeed (text : List Char) : List Char :=
  if 1 < text.length ∧ text.getLast? = some '\n' then text.dropLast else text

def booleans : List String :=
  ["yes", "Yes", "YES", "no", "No", "NO", "true", "True", "TRUE", "false", "False", "FALSE",
    "on", "On", "ON", "off", "Off", "OFF"]

def nulls : List String := ["~", "null", "Null", "NULL", ""]

/-- The tag of all tags of the format begins like this. -/
def tagStart : String := "tag:yaml.org,2002:"

/-- The name of the tag that a plain scalar has by its form. -/
def implicitTag (text : String) : String :=
  let characters := withoutLineFeed text.toList
  let shown := String.ofList characters
  if shown ∈ booleans then "bool"
  else if isFloat characters then "float"
  else if isInteger characters then "int"
  else if shown = "<<" then "merge"
  else if shown ∈ nulls then "null"
  else if isTimestamp characters then "timestamp"
  else if shown = "=" then "value"
  else "str"

def nameOf? (tag : String) : Option String :=
  if tagStart.toList.isPrefixOf tag.toList then
    some (String.ofList (tag.toList.drop tagStart.length))
  else none

def ofTag? (tag : String) : Option ScalarTag :=
  match nameOf? tag with
  | some "null" => some .null
  | some "bool" => some .boolean
  | some "int" => some .integer
  | some "float" => some .float
  | some "timestamp" => some .timestamp
  | some "binary" => some .binary
  | some "str" => some .text
  | _ => none

/-! ## Numbers -/

def withoutUnderscores (text : List Char) : List Char :=
  text.filter (· != '_')

def digitIn? (base : Nat) (character : Char) : Option Nat :=
  let value? :=
    match Text.decimalValue? character with
    | some value => some value
    | none =>
        if 'a' ≤ character ∧ character ≤ 'z' then some (character.toNat - 87)
        else if 'A' ≤ character ∧ character ≤ 'Z' then some (character.toNat - 55)
        else none
  value?.filter (· < base)

/-- Read a number in some base. Blanks around it and a sign do not matter. -/
def readInteger (base : Nat) (text : List Char) : Except Failure Int :=
  let shown := Text.strip text
  let digits := withoutSign shown
  match digits.mapM (digitIn? base) with
  | some (first :: others) =>
      if base = 10 ∧ Text.digitLimit < digits.length then
        .error (.ofNumeral (.tooLong digits.length))
      else
        let size := (first :: others).foldl (fun total digit => base * total + digit) 0
        .ok (if isNegative shown then -Int.ofNat size else Int.ofNat size)
  | _ => .error (.invalid (.digits base (String.ofList text)))

def readBase60 (parts : List (List Char)) : Except Failure Int := do
  let numbers ← parts.mapM (readInteger 10)
  return numbers.foldl (fun total number => 60 * total + number) 0

def integerValue (text : List Char) : Except Failure Int := do
  let shown := withoutUnderscores text
  let magnitude := withoutSign shown
  let size ←
    match magnitude with
    | [] => .error (.untagged .number)
    | ['0'] => pure 0
    | '0' :: 'b' :: digits => readInteger 2 digits
    | '0' :: 'x' :: digits => readInteger 16 digits
    | '0' :: _ => readInteger 8 magnitude
    | _ =>
        if ':' ∈ magnitude then readBase60 (Text.parts ':' magnitude)
        else readInteger 10 magnitude
  return if isNegative shown then -size else size

def readDouble (text : List Char) : Except Failure Double :=
  match Double.read? text with
  | some double => .ok double
  | none => .error (.invalid (.decimal (String.ofList text)))

/-- The sum of the parts of a double in base sixty, the last part first. -/
def sumBase60 (total : Double) (base : Int) : List Double → Except Failure Double
  | [] => .ok total
  | part :: rest => do
      let factor ← arithmetic (Double.ofInt base)
      sumBase60 (total.add (part.mul factor)) (60 * base) rest

def doubleValue (text : List Char) : Except Failure Double := do
  let shown := (Text.lowercase (String.ofList (withoutUnderscores text))).toList
  let magnitude := withoutSign shown
  let size ←
    match String.ofList magnitude with
    | "" => .error (.untagged .number)
    | ".inf" => pure (.infinite false)
    | ".nan" => pure .notANumber
    | _ =>
        if ':' ∈ magnitude then do
          let parts ← (Text.parts ':' magnitude).mapM readDouble
          sumBase60 (.finite 0) 1 parts.reverse
        else readDouble magnitude
  return if isNegative shown then size.neg else size

/-! ## Moments -/

def digitsValue (digits : List Char) : Nat :=
  digits.foldl (fun total digit => 10 * total + (digit.toNat - 48)) 0

def calendar (result : Except CalendarError α) : Except Failure α :=
  result.mapError fun error => .invalid (.calendar error)

def offsetOf (zone : List Char × List Char × List Char) : Except Failure Int :=
  let (sign, hours, minutes) := zone
  let size : Int := Int.ofNat (digitsValue hours * 3600 + digitsValue minutes * 60)
  let seconds := if sign = ['-'] then -size else size
  if 86400 ≤ size then .error (.invalid (.calendar (.offsetRange seconds))) else .ok seconds

def momentValue (text : List Char) : Except Failure Value :=
  match timestampOf? (withoutLineFeed text) with
  | none => .error (.untagged .timestamp)
  | some found => do
      let makeDate := calendar
        (Date.make (digitsValue found.year) (digitsValue found.month) (digitsValue found.day))
      match found.time with
      | none => return .date (← makeDate)
      | some (hour, minute, second, fraction) =>
          let offset ← found.zone.mapM offsetOf
          let date ← makeDate
          let microsecond := digitsValue ((fraction ++ List.replicate 6 '0').take 6)
          return .moment (← calendar (Moment.make date (digitsValue hour) (digitsValue minute)
            (digitsValue second) microsecond offset))

/-! ## Binary data -/

def sextet? (character : Char) : Option Nat :=
  if 'A' ≤ character ∧ character ≤ 'Z' then some (character.toNat - 65)
  else if 'a' ≤ character ∧ character ≤ 'z' then some (character.toNat - 71)
  else if '0' ≤ character ∧ character ≤ '9' then some (character.toNat + 4)
  else if character = '+' then some 62
  else if character = '/' then some 63
  else none

/-- The bytes of groups of four characters. Other characters are passed over, and
the padding of the last group ends the data. -/
def decodeBase64 (group : List Nat) (padding : Nat) : List Char → Option (List UInt8)
  | [] => if group.isEmpty then some [] else none
  | character :: rest =>
      let bytesOf (sextets : List Nat) : List UInt8 :=
        match sextets with
        | [first, second] => [UInt8.ofNat (first * 4 + second / 16)]
        | [first, second, third] =>
            [UInt8.ofNat (first * 4 + second / 16), UInt8.ofNat (second % 16 * 16 + third / 4)]
        | [first, second, third, fourth] =>
            [UInt8.ofNat (first * 4 + second / 16), UInt8.ofNat (second % 16 * 16 + third / 4),
              UInt8.ofNat (third % 4 * 64 + fourth)]
        | _ => []
      if character = '=' then
        if 2 ≤ group.length ∧ 4 ≤ group.length + padding + 1 then some (bytesOf group)
        else decodeBase64 group (if 2 ≤ group.length then padding + 1 else padding) rest
      else
        match sextet? character with
        | none => decodeBase64 group padding rest
        | some sextet =>
            if group.length = 3 then
              (decodeBase64 [] 0 rest).map fun bytes => bytesOf (group ++ [sextet]) ++ bytes
            else decodeBase64 (group ++ [sextet]) 0 rest

def binaryValue (text : List Char) : Except Fault Value :=
  if text.all fun character => character.toNat < 0x80 then
    match decodeBase64 [] 0 text with
    | some bytes => .ok (.bytes bytes)
    | none => .error .malformed
  else .error .malformed

/-! ## Values -/

def booleanValue (text : List Char) : Except Failure Value :=
  match Text.lowercase (String.ofList text) with
  | "yes" | "true" | "on" => .ok (.boolean true)
  | "no" | "false" | "off" => .ok (.boolean false)
  | _ => .error (.untagged .boolean)

def lift (result : Except Failure Value) : Except Fault Value :=
  result.mapError .scalar

def value (tag : ScalarTag) (text : String) : Except Fault Value :=
  match tag with
  | .null => .ok .null
  | .text => .ok (.text text)
  | .boolean => lift (booleanValue text.toList)
  | .integer => lift ((integerValue text.toList).map fun number => .whole number)
  | .float => lift ((doubleValue text.toList).map fun double => .number (.real double))
  | .timestamp => lift (momentValue text.toList)
  | .binary => binaryValue text.toList

end Scalar

end Yaml

end UplinkShaper
