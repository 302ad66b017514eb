import UplinkShaper.Yaml.ScalarText

/-!
Tokens of a YAML text, and the reading of those that are words: anchors, aliases,
tags and directives.
-/

namespace UplinkShaper

namespace Yaml

inductive Directive
  | version (major : Nat)
  | tagHandle (handle replacement : String)
  | other
deriving DecidableEq, Repr

inductive Token
  | directive (directive : Directive)
  | documentStart
  | documentEnd
  | streamEnd
  | blockSequenceStart
  | blockMappingStart
  | blockEnd
  | flowSequenceStart
  | flowSequenceEnd
  | flowMappingStart
  | flowMappingEnd
  | blockEntry
  | flowEntry
  | key
  | value
  | alias (name : String)
  | anchor (name : String)
  | tag (handle : Option String) (suffix : String)
  | scalar (text : String) (isPlain : Bool)
deriving DecidableEq, Repr

/-! ## Anchors -/

def isWordCharacter (character : Char) : Bool :=
  character.isAlphanum || character == '-' || character == '_'

/-- The characters that may follow the name of an anchor or alias. -/
def endsName (character : Char) : Bool :=
  isGap character || character ∈ ['?', ':', ',', ']', '\x7d', '%', '@', '\x60']

/-- Read a name, after the mark of an anchor or alias. -/
def anchorName (cursor : Cursor) : Except Fault (String × Cursor) :=
  let (name, next) := cursor.take isWordCharacter
  if name.isEmpty || !endsName next.peek then .error .malformed
  else .ok (String.ofList name, next)

/-! ## Tags -/

def isUriCharacter (character : Char) : Bool :=
  character.isAlphanum ||
    character ∈ ['-', ';', '/', '?', ':', '@', '&', '=', '+', '$', ',', '_', '.', '!', '~', '*',
      '\x27', '(', ')', '[', ']']

/-- The bytes of consecutive escapes. -/
def escapedBytes : List Char → Option (List UInt8 × List Char)
  | '%' :: first :: second :: rest => do
      let high ← Json.hexadecimalValue? first
      let low ← Json.hexadecimalValue? second
      let (bytes, rest) ← escapedBytes rest
      return (UInt8.ofNat (16 * high + low) :: bytes, rest)
  | '%' :: _ => none
  | rest => some ([], rest)

/-- Read escapes, whose bytes are the encoding of some text. -/
def uriEscapes (cursor : Cursor) : Except Fault (List Char × Cursor) :=
  match escapedBytes cursor.rest with
  | none => .error .malformed
  | some (bytes, _) =>
      match String.fromUTF8? (ByteArray.mk bytes.toArray) with
      | some text => .ok (text.toList, cursor.forward (3 * bytes.length))
      | none => .error .malformed

/-- Read the characters of a tag and the escapes among them. -/
def uriText (cursor : Cursor) : Except Fault (List Char × Cursor) := do
  let (shown, next) := cursor.take isUriCharacter
  if next.peek == '%' then
    let (text, later) ← uriEscapes next
    if _ : later.rest.length < cursor.rest.length then
      let (others, later) ← uriText later
      return (shown ++ text ++ others, later)
    else return (shown ++ text, later)
  else return (shown, next)
termination_by cursor.rest.length

/-- Read a tag or the rest of one, which may not be empty. -/
def tagUri (cursor : Cursor) : Except Fault (String × Cursor) := do
  let (shown, next) ← uriText cursor
  if next.index = cursor.index then .error .malformed else return (String.ofList shown, next)

/-- Read a handle: an exclamation mark, or a word between two of them. -/
def tagHandle (cursor : Cursor) : Except Fault (String × Cursor) :=
  if cursor.peek != '!' then .error .malformed
  else
    let (word, next) := cursor.step.take isWordCharacter
    if next.peek == '!' then .ok ("!" ++ String.ofList word ++ "!", next.step)
    else if next.peek == ' ' && word.isEmpty then .ok ("!", next)
    else .error .malformed

/-- Read a tag between angle brackets. -/
def verbatimTag (cursor : Cursor) : Except Fault (Token × Cursor) := do
  let (suffix, next) ← tagUri (cursor.forward 2)
  if next.peek == '>' then return (.tag none suffix, next.step) else .error .malformed

def shorthandTag (cursor : Cursor) : Except Fault (Token × Cursor) := do
  let word := cursor.step.rest.takeWhile fun character =>
    !(character == ' ' || isBreakOrEnd character)
  let (handle, next) ← if '!' ∈ word then tagHandle cursor else pure ("!", cursor.step)
  let (suffix, next) ← tagUri next
  return (.tag (some handle) suffix, next)

/-- Read a tag, at its exclamation mark. -/
def tagToken (cursor : Cursor) : Except Fault (Token × Cursor) := do
  let second := cursor.peekAt 1
  let (token, next) ←
    if second == '<' then verbatimTag cursor
    else if isGap second then pure (.tag none "!", cursor.step)
    else shorthandTag cursor
  if next.peek == ' ' || isBreakOrEnd next.peek then return (token, next) else .error .malformed

/-! ## Directives -/

def endsDirectiveWord (cursor : Cursor) : Except Fault Unit :=
  if cursor.peek == ' ' || isBreakOrEnd cursor.peek then .ok () else .error .malformed

def digitRun (cursor : Cursor) : Except Fault (Nat × Cursor) :=
  let (shown, next) := cursor.take Char.isDigit
  if shown.isEmpty then .error .malformed else .ok (Json.digitsValue shown, next)

def versionDirective (cursor : Cursor) : Except Fault (Directive × Cursor) := do
  let (major, next) ← digitRun cursor.skipSpaces
  if next.peek != '.' then .error .malformed
  else
    let (_, next) ← digitRun next.step
    endsDirectiveWord next
    return (.version major, next)

def tagDirective (cursor : Cursor) : Except Fault (Directive × Cursor) := do
  let (handle, next) ← tagHandle cursor.skipSpaces
  if next.peek != ' ' then .error .malformed
  else
    let (replacement, next) ← tagUri next.skipSpaces
    endsDirectiveWord next
    return (.tagHandle handle replacement, next)

/-- Read a directive, after its percent sign, to the end of the line. -/
def directiveToken (cursor : Cursor) : Except Fault (Token × Cursor) := do
  let (name, next) := cursor.take isWordCharacter
  if name.isEmpty then .error .malformed
  else
    endsDirectiveWord next
    let (directive, next) ←
      match String.ofList name with
      | "YAML" => versionDirective next
      | "TAG" => tagDirective next
      | _ => pure (.other, next.skip (!isBreakOrEnd ·))
    let next := next.skipSpaces.skipComment
    if isBreakOrEnd next.peek then return (.directive directive, next.takeBreak.2)
    else .error .malformed

end Yaml

end UplinkShaper
