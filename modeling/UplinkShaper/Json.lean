import UplinkShaper.Value

/-!
JSON texts of values. A number with a point or an exponent is a double, any other
is a whole number; the names for what is not finite are read and written too. Text
is written in ASCII, with escapes for all other characters.
-/

namespace UplinkShaper

namespace Json

/-! ## Writing -/

/-- A 16-bit unit as an escape. -/
def unitEscape (unit : Nat) : List Char :=
  '\\' :: 'u' :: Text.hexadecimal 4 unit

def escaped (character : Char) : List Char :=
  let code := character.toNat
  match character with
  | '\x22' => ['\\', '\x22']
  | '\\' => ['\\', '\\']
  | '\n' => ['\\', 'n']
  | '\r' => ['\\', 'r']
  | '\t' => ['\\', 't']
  | '\x08' => ['\\', 'b']
  | '\x0c' => ['\\', 'f']
  | _ =>
      if 0x20 ≤ code ∧ code < 0x7f then [character]
      else if code < 0x10000 then unitEscape code
      else
        let rest := code - 0x10000
        unitEscape (0xd800 + rest / 0x400) ++ unitEscape (0xdc00 + rest % 0x400)

def quoted (text : String) : String :=
  String.ofList ('\x22' :: text.toList.flatMap escaped ++ ['\x22'])

def numberText : Number → String
  | .real (.infinite negative) => if negative then "-Infinity" else "Infinity"
  | .real .notANumber => "NaN"
  | number => number.text

/-- The text of what has no parts. What JSON has no form for is written as text. -/
def scalarText : Value → String
  | .null => "null"
  | .boolean value => if value then "true" else "false"
  | .number value => numberText value
  | .text value => quoted value
  | value => quoted value.plain

def keyText : Value → String
  | .text value => quoted value
  | .null => quoted "null"
  | .boolean value => quoted (if value then "true" else "false")
  | .number value => quoted (numberText value)
  | value => quoted value.plain

/-- What separates the parts of lists and mappings. -/
structure Layout where
  /-- What opens a list or mapping at some depth, after the bracket. -/
  opening : Nat → String
  separator : Nat → String
  closing : Nat → String
  keySeparator : String

/-- Everything on one line without blanks. -/
def Layout.compact : Layout where
  opening _ := ""
  separator _ := ","
  closing _ := ""
  keySeparator := ":"

/-- A new line that is indented by two blanks for each level. -/
def newLine (depth : Nat) : String :=
  "\n" ++ String.ofList (List.replicate (2 * depth) ' ')

/-- Each part on a line of its own. -/
def Layout.indented : Layout where
  opening depth := newLine (depth + 1)
  separator depth := "," ++ newLine (depth + 1)
  closing depth := newLine depth
  keySeparator := ": "

def bracketed (layout : Layout) (depth : Nat) (first last : String) :
    List String → String
  | [] => first ++ last
  | parts =>
      first ++ layout.opening depth ++ String.intercalate (layout.separator depth) parts ++
        layout.closing depth ++ last

mutual

def render (layout : Layout) (depth : Nat) : Value → String
  | .list items => bracketed layout depth "[" "]" (renderItems layout (depth + 1) items)
  | .mapping entries =>
      bracketed layout depth "\x7b" "\x7d" (renderEntries layout (depth + 1) entries)
  | value => scalarText value

def renderItems (layout : Layout) (depth : Nat) : List Value → List String
  | [] => []
  | item :: rest => render layout depth item :: renderItems layout depth rest

def renderEntries (layout : Layout) (depth : Nat) : List (Value × Value) → List String
  | [] => []
  | (key, value) :: rest =>
      (keyText key ++ layout.keySeparator ++ render layout depth value) ::
        renderEntries layout depth rest

end

def compact (value : Value) : String :=
  render .compact 0 value

def indented (value : Value) : String :=
  render .indented 0 value

/-! ## Reading -/

def isSpace (character : Char) : Bool :=
  character == ' ' || character == '\t' || character == '\n' || character == '\r'

def skipSpace (text : List Char) : List Char :=
  text.dropWhile isSpace

def hexadecimalValue? (character : Char) : Option Nat :=
  if '0' ≤ character ∧ character ≤ '9' then some (character.toNat - 48)
  else if 'a' ≤ character ∧ character ≤ 'f' then some (character.toNat - 87)
  else if 'A' ≤ character ∧ character ≤ 'F' then some (character.toNat - 55)
  else none

def readUnit : List Char → Option (Nat × List Char)
  | first :: second :: third :: fourth :: rest => do
      let unit ← [first, second, third, fourth].foldlM (fun total character =>
        (hexadecimalValue? character).map fun digit => 16 * total + digit) 0
      return (unit, rest)
  | _ => none

/-- Read the character after the mark of a unit escape. Two units may form one
character; one that lacks its partner becomes the replacement character. -/
def readEscapedUnit (text : List Char) : Option (Char × List Char) := do
  let (unit, rest) ← readUnit text
  if 0xd800 ≤ unit ∧ unit < 0xdc00 then
    match rest with
    | '\\' :: 'u' :: later =>
        match readUnit later with
        | some (second, afterwards) =>
            if 0xdc00 ≤ second ∧ second < 0xe000 then
              let code := 0x10000 + (unit - 0xd800) * 0x400 + (second - 0xdc00)
              return (Char.ofNat code, afterwards)
            else return (Char.ofNat 0xfffd, rest)
        | none => none
    | _ => return (Char.ofNat 0xfffd, rest)
  else if 0xdc00 ≤ unit ∧ unit < 0xe000 then return (Char.ofNat 0xfffd, rest)
  else return (Char.ofNat unit, rest)

def readEscape : List Char → Option (Char × List Char)
  | 'u' :: rest => readEscapedUnit rest
  | mark :: rest =>
      match mark with
      | '\x22' => some ('\x22', rest)
      | '\\' => some ('\\', rest)
      | '/' => some ('/', rest)
      | 'b' => some ('\x08', rest)
      | 'f' => some ('\x0c', rest)
      | 'n' => some ('\n', rest)
      | 'r' => some ('\r', rest)
      | 't' => some ('\t', rest)
      | _ => none
  | [] => none

/-- Read text up to its closing quote. -/
def readText (fuel : Nat) (before : List Char) (text : List Char) :
    Option (String × List Char) :=
  match fuel, text with
  | 0, _ => none
  | _, [] => none
  | fuel + 1, character :: rest =>
      if character = '\x22' then some (String.ofList before.reverse, rest)
      else if character = '\\' then do
        let (escaped, later) ← readEscape rest
        readText fuel (escaped :: before) later
      else if character.toNat < 0x20 then none
      else readText fuel (character :: before) rest

def digitsValue (shown : List Char) : Nat :=
  shown.foldl (fun total digit => 10 * total + (digit.toNat - 48)) 0

/-- The whole part of a number, without leading zeros. -/
def readWhole : List Char → Option (List Char × List Char)
  | '0' :: rest => some (['0'], rest)
  | text =>
      match text.takeWhile Char.isDigit with
      | [] => none
      | shown => some (shown, text.dropWhile Char.isDigit)

/-- The digits after a point, if there are any. -/
def readPlaces : List Char → List Char × List Char
  | '.' :: rest =>
      match rest.takeWhile Char.isDigit with
      | [] => ([], '.' :: rest)
      | shown => (shown, rest.dropWhile Char.isDigit)
  | text => ([], text)

def readExponent (text : List Char) : Option (Int × List Char) :=
  match text with
  | mark :: rest =>
      if mark = 'e' ∨ mark = 'E' then
        let (factor, digits) : Int × List Char :=
          match rest with
          | '+' :: later => (1, later)
          | '-' :: later => (-1, later)
          | _ => (1, rest)
        match digits.takeWhile Char.isDigit with
        | [] => none
        | shown => some (factor * digitsValue shown, digits.dropWhile Char.isDigit)
      else none
  | [] => none

def readMagnitude (negative : Bool) (text : List Char) : Option (Number × List Char) := do
  let (whole, rest) ← readWhole text
  let (places, rest) := readPlaces rest
  match places, readExponent rest with
  | [], none =>
      let size : Int := digitsValue whole
      return (.whole (if negative then -size else size), rest)
  | _, found =>
      let (exponent, rest) := found.getD (0, rest)
      let double :=
        Double.ofDecimal negative (digitsValue (whole ++ places)) (exponent - places.length)
      return (.real double, rest)

def readWord (word : String) (value : Value) (text : List Char) : Option (Value × List Char) :=
  if word.toList.isPrefixOf text then some (value, text.drop word.length) else none

def readScalar (text : List Char) : Option (Value × List Char) :=
  match text with
  | '-' :: 'I' :: _ => readWord "-Infinity" (.number (.real (.infinite true))) text
  | '-' :: rest => (readMagnitude true rest).map fun (number, rest) => (.number number, rest)
  | 'I' :: _ => readWord "Infinity" (.number (.real (.infinite false))) text
  | 'N' :: _ => readWord "NaN" (.number (.real .notANumber)) text
  | 'n' :: _ => readWord "null" .null text
  | 't' :: _ => readWord "true" (.boolean true) text
  | 'f' :: _ => readWord "false" (.boolean false) text
  | _ => (readMagnitude false text).map fun (number, rest) => (.number number, rest)

mutual

def readValue (fuel : Nat) (text : List Char) : Option (Value × List Char) :=
  match fuel with
  | 0 => none
  | fuel + 1 =>
      match text with
      | '\x22' :: rest => (readText rest.length.succ [] rest).map fun (shown, rest) =>
          (.text shown, rest)
      | '[' :: rest =>
          match skipSpace rest with
          | ']' :: later => some (.list [], later)
          | later => readItems fuel [] later
      | '\x7b' :: rest =>
          match skipSpace rest with
          | '\x7d' :: later => some (.mapping [], later)
          | later => readEntries fuel [] later
      | _ => readScalar text

def readItems (fuel : Nat) (before : List Value) (text : List Char) :
    Option (Value × List Char) :=
  match fuel with
  | 0 => none
  | fuel + 1 => do
      let (item, rest) ← readValue fuel text
      match skipSpace rest with
      | ',' :: later => readItems fuel (item :: before) (skipSpace later)
      | ']' :: later => some (.list (item :: before).reverse, later)
      | _ => none

def readEntries (fuel : Nat) (before : List (Value × Value)) (text : List Char) :
    Option (Value × List Char) :=
  match fuel, text with
  | fuel + 1, '\x22' :: rest => do
      let (key, rest) ← readText rest.length.succ [] rest
      match skipSpace rest with
      | ':' :: later =>
          let (value, rest) ← readValue fuel (skipSpace later)
          let entries := Value.put (.text key) value before
          match skipSpace rest with
          | ',' :: later => readEntries fuel entries (skipSpace later)
          | '\x7d' :: later => some (.mapping entries, later)
          | _ => none
      | _ => none
  | _, _ => none

end

/-- Read a whole text as one value. Of two entries with one key the later counts. -/
def read? (text : String) : Option Value :=
  let characters := text.toList
  match readValue (characters.length + 1) (skipSpace characters) with
  | some (value, rest) => if (skipSpace rest).isEmpty then some value else none
  | none => none

end Json

end UplinkShaper
