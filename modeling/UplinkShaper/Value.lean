import UplinkShaper.Number
import UplinkShaper.Calendar
import UplinkShaper.Text.Quoted

/-!
Configuration data. A value is what a configuration document holds before anyone
has decided what it means: scalars of several kinds, lists, and mappings whose
entries keep the order in which they were written. `Value.literal` is the text
that messages show for a value.
-/

namespace UplinkShaper

inductive Value
  | null
  | boolean (value : Bool)
  | number (value : Number)
  | text (value : String)
  | list (items : List Value)
  | mapping (entries : List (Value × Value))
  | date (day : Date)
  | moment (time : Moment)
  | bytes (content : List UInt8)
  | set (members : List Value)
  | pair (first second : Value)
deriving Repr, Inhabited

namespace Value

instance : Coe String Value where
  coe := .text

def whole (value : Int) : Value := .number (.whole value)

/-- An optional value, null where there is none. -/
def ofOption (toValue : α → Value) : Option α → Value
  | some value => toValue value
  | none => .null

/-- A mapping with texts for keys. -/
def record (fields : List (String × Value)) : Value :=
  .mapping (fields.map fun field => (.text field.1, field.2))

/-! ## Keys

Two scalars are the same key if they are equal as values, and the truth values
count as one and zero. -/

def keyNumber? : Value → Option Number
  | .boolean value => some (.whole (if value then 1 else 0))
  | .number value => some value
  | _ => none

def sameKey (left right : Value) : Bool :=
  match left.keyNumber?, right.keyNumber? with
  | some first, some second => first.eq second
  | none, none =>
      match left, right with
      | .null, .null => true
      | .text first, .text second => first == second
      | .date first, .date second => first == second
      | .moment first, .moment second => first == second
      | .bytes first, .bytes second => first == second
      | _, _ => false
  | _, _ => false

/-- Whether a value can be a key of a mapping. -/
def isScalar : Value → Bool
  | .list _ | .mapping _ | .set _ | .pair _ _ => false
  | _ => true

def find? (key : Value) : List (Value × Value) → Option Value
  | [] => none
  | (other, value) :: rest => if other.sameKey key then some value else find? key rest

/-- Put a value under a key: in the place of the entry that has the key, else at
the end. -/
def put (key value : Value) : List (Value × Value) → List (Value × Value)
  | [] => [(key, value)]
  | (other, old) :: rest =>
      if other.sameKey key then (other, value) :: rest else (other, old) :: put key value rest

/-- The value under a text in a mapping. -/
def field? (name : String) : Value → Option Value
  | .mapping entries => find? (.text name) entries
  | _ => none

/-! ## Truth -/

/-- Whether a value counts as present: neither null, false, zero nor empty. -/
def isTruthy : Value → Bool
  | .null => false
  | .boolean value => value
  | .number value => !value.eq 0
  | .text value => !value.isEmpty
  | .list items => !items.isEmpty
  | .mapping entries => !entries.isEmpty
  | .bytes content => !content.isEmpty
  | .set members => !members.isEmpty
  | _ => true

/-! ## Text -/

/-- A span of seconds, as messages show it: whole days, then the rest of a day. -/
def offsetSpan (seconds : Int) : String :=
  let days := seconds / 86400
  let rest := seconds % 86400
  let shown :=
    if days = 0 ∧ rest = 0 then "0"
    else if rest = 0 then s!"days={days}"
    else if days = 0 then s!"seconds={rest}"
    else s!"days={days}, seconds={rest}"
  s!"datetime.timedelta({shown})"

/-- The span from universal time, as messages show it. -/
def offsetLiteral (seconds : Int) : String :=
  if seconds = 0 then "datetime.timezone.utc" else s!"datetime.timezone({offsetSpan seconds})"

def dateLiteral (date : Date) : String :=
  s!"datetime.date({date.year}, {date.month}, {date.day})"

def momentLiteral (moment : Moment) : String :=
  let seconds :=
    if moment.second = 0 ∧ moment.microsecond = 0 then ""
    else if moment.microsecond = 0 then s!", {moment.second}"
    else s!", {moment.second}, {moment.microsecond}"
  let offset := (moment.offset.map fun shift => ", tzinfo=" ++ offsetLiteral shift).getD ""
  let date := moment.date
  s!"datetime.datetime({date.year}, {date.month}, {date.day}, {moment.hour}, {moment.minute}" ++
    seconds ++ offset ++ ")"

def byteEscaped (quote : Char) (byte : UInt8) : List Char :=
  let character := Char.ofNat byte.toNat
  if character = quote ∨ character = '\\' then ['\\', character]
  else if character = '\n' then ['\\', 'n']
  else if character = '\r' then ['\\', 'r']
  else if character = '\t' then ['\\', 't']
  else if 0x20 ≤ byte ∧ byte < 0x7f then [character]
  else '\\' :: 'x' :: Text.hexadecimal 2 byte.toNat

def bytesLiteral (content : List UInt8) : String :=
  let quote := Text.quoteFor (content.map fun byte => Char.ofNat byte.toNat)
  String.ofList ('b' :: quote :: content.flatMap (byteEscaped quote) ++ [quote])

def booleanLiteral (value : Bool) : String :=
  if value then "True" else "False"

/-- Texts with a comma and a space between them. -/
def commaSeparated (shown : List String) : String :=
  String.intercalate ", " shown

mutual

/-- The text that messages show for a value. -/
def literal : Value → String
  | .null => "None"
  | .boolean value => booleanLiteral value
  | .number value => value.text
  | .text value => Text.quoted value
  | .list items => "[" ++ commaSeparated (literals items) ++ "]"
  | .mapping entries => "\x7b" ++ commaSeparated (entryLiterals entries) ++ "\x7d"
  | .date day => dateLiteral day
  | .moment time => momentLiteral time
  | .bytes content => bytesLiteral content
  | .set [] => "set()"
  | .set members => "\x7b" ++ commaSeparated (literals members) ++ "\x7d"
  | .pair first second => "(" ++ first.literal ++ ", " ++ second.literal ++ ")"

def literals : List Value → List String
  | [] => []
  | item :: rest => item.literal :: literals rest

def entryLiterals : List (Value × Value) → List String
  | [] => []
  | (key, value) :: rest => (key.literal ++ ": " ++ value.literal) :: entryLiterals rest

end

/-- The text of a value where it stands by itself: like the literal, but texts
have no quotes, and dates and moments their standard text. -/
def plain : Value → String
  | .text value => value
  | .date day => day.text
  | .moment time => time.textWith " "
  | value => value.literal

mutual

/-- Whether every number in a value is short enough to be written. -/
def isWritable : Value → Bool
  | .number value => value.isWritable
  | .list items | .set items => areWritable items
  | .mapping entries => entriesAreWritable entries
  | .pair first second => first.isWritable && second.isWritable
  | _ => true

def areWritable : List Value → Bool
  | [] => true
  | item :: rest => item.isWritable && areWritable rest

def entriesAreWritable : List (Value × Value) → Bool
  | [] => true
  | (key, value) :: rest => key.isWritable && value.isWritable && entriesAreWritable rest

end

end Value

end UplinkShaper
