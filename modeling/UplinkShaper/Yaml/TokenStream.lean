import UplinkShaper.Yaml.Token

/-!
From a text to its tokens. Indentation opens and closes block collections. A token
that may turn out to be a key is remembered until the colon that makes it one comes,
or until it is too late for one: a key has to end on its line and within 1024
characters.
-/

namespace UplinkShaper

namespace Yaml

/-- A token that may turn out to be a key. -/
structure PossibleKey where
  /-- How many tokens stand before it. -/
  position : Nat
  /-- Whether nothing but a key may stand there. -/
  isRequired : Bool
  index : Nat
  line : Nat
  column : Nat
deriving Repr

structure ScanState where
  cursor : Cursor
  /-- How many flow collections are open. -/
  flowLevel : Nat
  /-- The column of the innermost block collection. -/
  indent : Int
  /-- The columns of those around it. -/
  outer : List Int
  /-- Whether a key may start here. -/
  keyAllowed : Bool
  keys : List (Nat × PossibleKey)
  /-- The tokens so far, the last one first. -/
  tokens : List Token
deriving Repr

namespace ScanState

def start (text : List Char) : ScanState where
  cursor := .start text
  flowLevel := 0
  indent := -1
  outer := []
  keyAllowed := true
  keys := []
  tokens := []

def emit (token : Token) (state : ScanState) : ScanState :=
  { state with tokens := token :: state.tokens }

/-- Put a token behind the first `position` ones. -/
def insertAt (position : Nat) (token : Token) (state : ScanState) : ScanState :=
  let later := state.tokens.length - position
  { state with tokens := state.tokens.take later ++ token :: state.tokens.drop later }

def inFlow (state : ScanState) : Bool :=
  state.flowLevel != 0

def moveTo (cursor : Cursor) (state : ScanState) : ScanState :=
  { state with cursor := cursor }

def step (state : ScanState) : ScanState :=
  state.moveTo state.cursor.step

def column (state : ScanState) : Int :=
  state.cursor.column

def allowKey (allowed : Bool) (state : ScanState) : ScanState :=
  { state with keyAllowed := allowed }

/-! ## Indentation -/

def closeBlocks (column : Int) (indent : Int) (tokens : List Token) :
    List Int → Int × List Int × List Token
  | [] => (indent, [], tokens)
  | outer :: rest =>
      if column < indent then closeBlocks column outer (.blockEnd :: tokens) rest
      else (indent, outer :: rest, tokens)

/-- In flow collections indentation does not count. -/
def unwind (column : Int) (state : ScanState) : ScanState :=
  if state.inFlow then state
  else
    let (indent, outer, tokens) := closeBlocks column state.indent state.tokens state.outer
    { state with indent := indent, outer := outer, tokens := tokens }

def opensBlock (column : Int) (state : ScanState) : Bool :=
  state.indent < column

def addIndent (column : Int) (state : ScanState) : ScanState :=
  if state.opensBlock column then
    { state with indent := column, outer := state.indent :: state.outer }
  else state

/-! ## Possible keys -/

def key? (state : ScanState) : Option PossibleKey :=
  (state.keys.find? fun (level, _) => level == state.flowLevel).map (·.2)

def withoutKey (state : ScanState) : ScanState :=
  { state with keys := state.keys.filter fun (level, _) => level != state.flowLevel }

/-- Forget the possible key on this level, which may not be a required one. -/
def dropKey (state : ScanState) : Except Fault ScanState :=
  match state.key? with
  | some key => if key.isRequired then .error .malformed else .ok state.withoutKey
  | none => .ok state

/-- Remember that the next token may be a key. -/
def saveKey (state : ScanState) : Except Fault ScanState :=
  if state.keyAllowed then do
    let dropped ← state.dropKey
    let key : PossibleKey := {
      position := state.tokens.length
      isRequired := !state.inFlow && state.indent == state.column
      index := state.cursor.index
      line := state.cursor.line
      column := state.cursor.column }
    return { dropped with keys := (state.flowLevel, key) :: dropped.keys }
  else .ok state

/-- Whether it is too late for the colon after a possible key. -/
def isStale (cursor : Cursor) (key : PossibleKey) : Bool :=
  key.line != cursor.line || decide (key.index + 1024 < cursor.index)

/-- Forget the possible keys for which it is too late. -/
def dropStale (state : ScanState) : Except Fault ScanState :=
  let stale := fun (entry : Nat × PossibleKey) => isStale state.cursor entry.2
  if state.keys.any fun entry => stale entry && entry.2.isRequired then .error .malformed
  else .ok { state with keys := state.keys.filter (!stale ·) }

/-! ## Between tokens -/

/-- Move past spaces, comments and line breaks. After a break outside of flow
collections a key may start. -/
def skipToToken (inFlow keyAllowed : Bool) (cursor : Cursor) : Bool × Cursor :=
  let next := cursor.skipSpaces.skipComment
  match next.takeBreak with
  | (none, _) => (keyAllowed, next)
  | (some _, later) =>
      if _ : later.rest.length < cursor.rest.length then
        skipToToken inFlow (keyAllowed || !inFlow) later
      else (keyAllowed, later)
termination_by cursor.rest.length

def toNextToken (state : ScanState) : ScanState :=
  let cursor := state.cursor
  let cursor :=
    if cursor.index = 0 ∧ cursor.peek = byteOrderMark then cursor.step else cursor
  let (keyAllowed, next) := skipToToken state.inFlow state.keyAllowed cursor
  { state with cursor := next, keyAllowed := keyAllowed }

/-! ## Tokens -/

def streamEnd (state : ScanState) : Except Fault ScanState := do
  let state ← (state.unwind (-1)).dropKey
  return { state with keys := [], keyAllowed := false }.emit .streamEnd

def directive (state : ScanState) : Except Fault ScanState := do
  let state ← (state.unwind (-1)).dropKey
  let (token, next) ← directiveToken state.cursor.step
  return ((state.allowKey false).moveTo next).emit token

def documentIndicator (token : Token) (state : ScanState) : Except Fault ScanState := do
  let state ← (state.unwind (-1)).dropKey
  return ((state.allowKey false).moveTo (state.cursor.forward 3)).emit token

def flowStart (token : Token) (state : ScanState) : Except Fault ScanState := do
  let state ← state.saveKey
  let state := (state.allowKey true).step.emit token
  return { state with flowLevel := state.flowLevel + 1 }

def flowEnd (token : Token) (state : ScanState) : Except Fault ScanState := do
  let state ← state.dropKey
  match state.flowLevel with
  | 0 => .error .malformed
  | level + 1 => return { (state.allowKey false).step.emit token with flowLevel := level }

def flowEntry (state : ScanState) : Except Fault ScanState := do
  let state ← (state.allowKey true).dropKey
  return state.step.emit .flowEntry

/-- Open a block collection at this column, unless one is open there. -/
def openBlock (token : Token) (state : ScanState) : ScanState :=
  if state.opensBlock state.column then (state.addIndent state.column).emit token else state

def blockEntry (state : ScanState) : Except Fault ScanState := do
  if !state.inFlow && !state.keyAllowed then .error .malformed
  else
    let state := if state.inFlow then state else state.openBlock .blockSequenceStart
    let state ← (state.allowKey true).dropKey
    return state.step.emit .blockEntry

def complexKey (state : ScanState) : Except Fault ScanState := do
  if !state.inFlow && !state.keyAllowed then .error .malformed
  else
    let state := if state.inFlow then state else state.openBlock .blockMappingStart
    let state ← (state.allowKey !state.inFlow).dropKey
    return state.step.emit .key

/-- Make the remembered token a key, which may open a block mapping. -/
def simpleKey (key : PossibleKey) (state : ScanState) : ScanState :=
  let state := state.withoutKey.insertAt key.position .key
  let state :=
    if !state.inFlow && state.opensBlock key.column then
      (state.addIndent key.column).insertAt key.position .blockMappingStart
    else state
  state.allowKey false

def mappingValue (state : ScanState) : Except Fault ScanState := do
  match state.key? with
  | some key => return (state.simpleKey key).step.emit .value
  | none =>
      if !state.inFlow && !state.keyAllowed then .error .malformed
      else
        let state := if state.inFlow then state else state.openBlock .blockMappingStart
        let state ← (state.allowKey !state.inFlow).dropKey
        return state.step.emit .value

def named (make : String → Token) (state : ScanState) : Except Fault ScanState := do
  let state ← state.saveKey
  let (name, next) ← anchorName state.cursor.step
  return ((state.allowKey false).moveTo next).emit (make name)

def tag (state : ScanState) : Except Fault ScanState := do
  let state ← state.saveKey
  let (token, next) ← tagToken state.cursor
  return ((state.allowKey false).moveTo next).emit token

def scalarToken (text : List Char) (isPlain : Bool) : Token :=
  .scalar (String.ofList text) isPlain

def blockScalar (folded : Bool) (state : ScanState) : Except Fault ScanState := do
  let state ← (state.allowKey true).dropKey
  let (text, next) ← blockText folded state.indent state.cursor.step
  return (state.moveTo next).emit (scalarToken text false)

def quotedScalar (quote : Char) (state : ScanState) : Except Fault ScanState := do
  let state ← state.saveKey
  let (text, next) ← quotedText quote state.cursor.step
  return ((state.allowKey false).moveTo next).emit (scalarToken text false)

def plainScalar (state : ScanState) : Except Fault ScanState := do
  let state ← state.saveKey
  let plain := plainText state.inFlow (state.indent + 1) false state.cursor
  return ((state.allowKey plain.crossedLine).moveTo plain.cursor).emit
    (scalarToken plain.text true)

/-- Whether a plain scalar may start with a character, before another one. -/
def startsPlain (inFlow : Bool) (first second : Char) : Bool :=
  let indicators := ['-', '?', ':', ',', '[', ']', '\x7b', '\x7d', '#', '&', '*', '!', '|', '>',
    '\x27', '\x22', '%', '@', '\x60']
  (!isGap first && first ∉ indicators) ||
    (!isGap second && (first == '-' || (!inFlow && (first == '?' || first == ':'))))

/-- Read the token at a place that is not the end. -/
def token (state : ScanState) : Except Fault ScanState :=
  let first := state.cursor.peek
  let second := state.cursor.peekAt 1
  let atMargin := state.cursor.column == 0
  if first == '%' && atMargin then state.directive
  else if atMargin && state.cursor.hasIndicator '-' then state.documentIndicator .documentStart
  else if atMargin && state.cursor.hasIndicator '.' then state.documentIndicator .documentEnd
  else if first == '[' then state.flowStart .flowSequenceStart
  else if first == '\x7b' then state.flowStart .flowMappingStart
  else if first == ']' then state.flowEnd .flowSequenceEnd
  else if first == '\x7d' then state.flowEnd .flowMappingEnd
  else if first == ',' then state.flowEntry
  else if first == '-' && isGap second then state.blockEntry
  else if first == '?' && (state.inFlow || isGap second) then state.complexKey
  else if first == ':' && (state.inFlow || isGap second) then state.mappingValue
  else if first == '*' then state.named .alias
  else if first == '&' then state.named .anchor
  else if first == '!' then state.tag
  else if first == '|' && !state.inFlow then state.blockScalar false
  else if first == '>' && !state.inFlow then state.blockScalar true
  else if first == '\x27' || first == '\x22' then state.quotedScalar first
  else if startsPlain state.inFlow first second then state.plainScalar
  else .error .malformed

def prepare (state : ScanState) : Except Fault ScanState := do
  let state ← state.toNextToken.dropStale
  return state.unwind state.column

end ScanState

/-- The tokens of a text, as far as it can be read, and what is wrong after them. -/
structure TokenStream where
  tokens : List Token
  fault : Option Fault

namespace TokenStream

def broken (state : ScanState) (fault : Fault) : TokenStream where
  tokens := state.tokens.reverse
  fault := some fault

/-- Read tokens up to the end of the text. -/
def readFrom (state : ScanState) : TokenStream :=
  match state.prepare with
  | .error fault => broken state fault
  | .ok ready =>
      if ready.cursor.atEnd then
        match ready.streamEnd with
        | .error fault => broken ready fault
        | .ok last => { tokens := last.tokens.reverse, fault := none }
      else
        match ready.token with
        | .error fault => broken ready fault
        | .ok next =>
            if _ : next.cursor.rest.length < state.cursor.rest.length then readFrom next
            else broken next .malformed
termination_by state.cursor.rest.length

def ofText (text : String) : TokenStream :=
  let characters := text.toList
  if characters.all isAdmissible then readFrom (.start characters)
  else { tokens := [], fault := some .malformed }

end TokenStream

end Yaml

end UplinkShaper
