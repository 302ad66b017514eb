import UplinkShaper.Failure
import UplinkShaper.Text.Lines
import UplinkShaper.Text.Lowercase

/-!
Counter records of a class listing. A line that names a class starts a record, and
the record owns every line up to the next class. A counter is found by the label
next to it, never by its column; one whose label is absent, or followed by something
else, is unknown rather than zero.
-/

namespace UplinkShaper

/-- A counter, unless it is missing or cannot be read. -/
inductive Reading (α : Type)
  | unknown
  | known (value : α)
deriving DecidableEq, Repr

namespace Reading

def toValue (valueOf : α → Value) : Reading α → Value
  | .unknown => .text "unknown"
  | .known value => valueOf value

end Reading

/-! ## Counters -/

namespace Counter

/-- The count that a word denotes. A word of digit signs is taken for a number; if it
holds a sign that is no decimal digit it cannot be read. -/
def readCount (word : Option (List Char)) : Except Failure (Reading Nat) :=
  match word with
  | none | some [] => .ok .unknown
  | some word =>
      if word.all Text.isDigitSign then
        match Text.readNatural word with
        | .ok value => .ok (.known value)
        | .error error => .error (.ofNumeral error)
      else .ok .unknown

/-- What turns a rate in some unit into kilobits per second. -/
def unitFactor? (unit : String) : Option Double :=
  match unit with
  | "bit" => some (.round (1 / 1000))
  | "kbit" => some (.finite 1)
  | "mbit" => some (.finite 1000)
  | "gbit" => some (.finite 1000000)
  | "tbit" => some (.finite 1000000000)
  | "bps" => some (.round (8 / 1000))
  | "kbps" => some (.finite 8)
  | "mbps" => some (.finite 8000)
  | "gbps" => some (.finite 8000000)
  | _ => none

def digitsValue (shown : List Char) : Nat :=
  shown.foldl (fun total digit => 10 * total + (Text.decimalValue? digit).getD 0) 0

def isLetter (character : Char) : Bool :=
  character.isAlpha

def withoutLineFeed (word : List Char) : List Char :=
  if word.getLast? = some '\n' then word.dropLast else word

/-- The digits after a point. A point needs one. -/
def readPlaces? (text : List Char) : Option (List Char × List Char) :=
  match text with
  | '.' :: rest =>
      match rest.takeWhile Text.isDecimal with
      | [] => none
      | places => some (places, rest.dropWhile Text.isDecimal)
  | _ => some ([], text)

/-- A decimal number with an optional unit, as its value and the unit. -/
def readRateParts? (word : List Char) : Option (Double × String) := do
  let word := withoutLineFeed word
  let whole := word.takeWhile Text.isDecimal
  if whole.isEmpty then none
  else
    let (places, unit) ← readPlaces? (word.dropWhile Text.isDecimal)
    if unit.all isLetter then
      let value := Double.ofDecimal false (digitsValue (whole ++ places)) (-places.length)
      some (value, String.ofList unit)
    else none

/-- The rate that a word denotes, in kilobits per second to three places. -/
def readRate (word : Option (List Char)) : Reading Double :=
  match word.bind readRateParts? with
  | none => .unknown
  | some (value, unit) =>
      match unitFactor? (if unit.isEmpty then "bit" else Text.lowercase unit) with
      | none => .unknown
      | some factor => .known ((value.mul factor).roundPlaces 3)

end Counter

/-! ## Records -/

/-- The words of a line, between blanks, commas and brackets. -/
def tokens (line : List Char) : List (List Char) :=
  Text.pieces (fun character =>
    Text.isBlank character || character == ',' || character == '(' || character == ')') line

structure CounterRecord where
  kind : String
  handle : String
  header : List (List Char)
  tokens : List (List Char)
deriving DecidableEq, Repr

namespace CounterRecord

/-- The word after the first occurrence of a label. -/
def after (label : List Char) (record : CounterRecord) : Option (List Char) :=
  match record.tokens.dropWhile (· != label) with
  | _ :: next :: _ => some next
  | _ => none

/-- The word before the first occurrence of a label. -/
def before (label : List Char) (record : CounterRecord) : Option (List Char) :=
  if label ∈ record.tokens then (record.tokens.takeWhile (· != label)).getLast? else none

def bytes (record : CounterRecord) : Except Failure (Reading Nat) :=
  Counter.readCount (record.after "Sent".toList)

def packets (record : CounterRecord) : Except Failure (Reading Nat) :=
  Counter.readCount (record.before "pkt".toList)

def dropped (record : CounterRecord) : Except Failure (Reading Nat) :=
  Counter.readCount (record.after "dropped".toList)

def rate (record : CounterRecord) : Reading Double :=
  Counter.readRate (record.after "rate".toList)

end CounterRecord

/-! ## Listings -/

def isHexadecimalDigit (character : Char) : Bool :=
  character.isDigit || ('a' ≤ character && character ≤ 'f') ||
    ('A' ≤ character && character ≤ 'F')

/-- The handle at the start of a text: two hexadecimal numbers around a colon, of
which the second may be absent. -/
def handleAt? (text : List Char) : Option (List Char) :=
  let major := text.takeWhile isHexadecimalDigit
  match text.dropWhile isHexadecimalDigit with
  | ':' :: rest =>
      if major.isEmpty then none else some (major ++ ':' :: rest.takeWhile isHexadecimalDigit)
  | _ => none

def skipBlanks? (text : List Char) : Option (List Char) :=
  match text with
  | first :: rest => if Text.isBlank first then some (rest.dropWhile Text.isBlank) else none
  | [] => none

/-- The kind and the handle of the class that a line names, if it names one. -/
def classOf? (line : List Char) : Option (List Char × List Char) := do
  let rest ← if "class".toList.isPrefixOf line then some (line.drop 5) else none
  let rest ← skipBlanks? rest
  let kind := rest.takeWhile (!Text.isBlank ·)
  if kind.isEmpty then none
  else
    let rest ← skipBlanks? (rest.dropWhile (!Text.isBlank ·))
    return (kind, ← handleAt? rest)

inductive ListingLine
  | opening (kind handle : String) (header : List (List Char))
  /-- It tells about the class before it. -/
  | detail (tokens : List (List Char))
deriving DecidableEq, Repr

def listingLine? (line : List Char) : Option ListingLine :=
  match Text.strip line with
  | [] => none
  | shown =>
      match classOf? shown with
      | some (kind, handle) =>
          some (.opening (String.ofList kind) (String.ofList handle) (tokens shown))
      | none => some (.detail (tokens shown))

def listingLines (text : String) : List ListingLine :=
  (Text.lines text.toList).filterMap listingLine?

namespace CounterRecord

/-- The words of the details before the next class. -/
def ownTokens : List ListingLine → List (List Char)
  | .detail tokens :: rest => tokens ++ ownTokens rest
  | _ => []

/-- The records of a listing, of one kind if one is given. -/
def ofLines (wanted : Option String) : List ListingLine → List CounterRecord
  | [] => []
  | .detail _ :: rest => ofLines wanted rest
  | .opening kind handle header :: rest =>
      if wanted.all (· == kind) then
        { kind := kind, handle := handle, header := header, tokens := ownTokens rest } ::
          ofLines wanted rest
      else ofLines wanted rest

def ofText (wanted : Option String) (text : String) : List CounterRecord :=
  ofLines wanted (listingLines text)

end CounterRecord

end UplinkShaper
