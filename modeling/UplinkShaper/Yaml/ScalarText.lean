import UplinkShaper.Json
import UplinkShaper.Yaml.Cursor

/-!
The text of scalars. A plain scalar is written without quotes and may run over
several lines, which are folded into one. A quoted scalar is folded too, and in
double quotes it may have escapes. A block scalar takes its lines from an indented
block.
-/

namespace UplinkShaper

namespace Yaml

/-! ## Folding -/

/-- Line breaks as folding leaves them: a single line feed is a space, and of
several the first is dropped. -/
def foldedBreaks (first : Char) (others : List Char) : List Char :=
  if first ≠ '\n' then first :: others
  else if others.isEmpty then [' ']
  else others

/-! ## Plain scalars -/

/-- How many characters of a plain scalar follow on one line. In a flow collection
the indicators of such collections end it too. -/
def plainLength (inFlow : Bool) : List Char → Nat
  | [] => 0
  | character :: rest =>
      let next := rest.head?.getD endMark
      let ends :=
        isGap character ||
          (character == ':' && (isGap next || (inFlow && next ∈ [',', '[', ']', '\x7b', '\x7d']))) ||
          (inFlow && character ∈ [',', '?', '[', ']', '\x7b', '\x7d'])
      if ends then 0 else plainLength inFlow rest + 1

/-- Further empty lines. Nothing, if documents are set apart here. -/
def plainBreaks (cursor : Cursor) : Option (List Char × Cursor) :=
  let next := cursor.skipSpaces
  match next.takeBreak with
  | (none, _) => some ([], next)
  | (some mark, later) =>
      if later.hasSeparator then none
      else if _ : later.rest.length < cursor.rest.length then
        (plainBreaks later).map fun (marks, later) => (mark :: marks, later)
      else some ([mark], later)
termination_by cursor.rest.length

structure PlainGap where
  /-- What the blanks and breaks count as; nothing, if the scalar ends here. -/
  text : List Char
  crossedLine : Bool
  cursor : Cursor

/-- The blanks and breaks after a part of a plain scalar. -/
def plainGap (cursor : Cursor) : PlainGap :=
  let (spaces, next) := cursor.take (· == ' ')
  match next.takeBreak with
  | (none, _) => { text := spaces, crossedLine := false, cursor := next }
  | (some mark, later) =>
      if later.hasSeparator then { text := [], crossedLine := true, cursor := later }
      else
        match plainBreaks later with
        | none => { text := [], crossedLine := true, cursor := endOfBreaks later }
        | some (marks, later) =>
            { text := foldedBreaks mark marks, crossedLine := true, cursor := later }
where
  /-- The place where documents are set apart, after empty lines. -/
  endOfBreaks (cursor : Cursor) : Cursor :=
    cursor.skip fun character => character == ' ' || isBreak character

/-- A scalar text, and whether a key may start after it. -/
structure PlainText where
  text : List Char
  crossedLine : Bool
  cursor : Cursor

/-- Read a plain scalar whose further lines are indented by `indent` columns at
least. -/
def plainText (inFlow : Bool) (indent : Int) (crossedLine : Bool) (cursor : Cursor) : PlainText :=
  let length := if cursor.peek == '#' then 0 else plainLength inFlow cursor.rest
  if length = 0 then { text := [], crossedLine := crossedLine, cursor := cursor }
  else
    let shown := cursor.rest.take length
    let gap := plainGap (cursor.forward length)
    let ends := gap.text.isEmpty || gap.cursor.peek == '#' ||
      (!inFlow && decide ((gap.cursor.column : Int) < indent))
    if ends then { text := shown, crossedLine := gap.crossedLine, cursor := gap.cursor }
    else if _ : gap.cursor.rest.length < cursor.rest.length then
      let later := plainText inFlow indent gap.crossedLine gap.cursor
      if later.text.isEmpty then { later with text := shown }
      else { later with text := shown ++ gap.text ++ later.text }
    else { text := shown, crossedLine := gap.crossedLine, cursor := gap.cursor }
termination_by cursor.rest.length
decreasing_by assumption

/-! ## Quoted scalars -/

/-- What single characters after a backslash stand for. -/
def simpleEscape? : Char → Option Char
  | '0' => some '\x00'
  | 'a' => some '\x07'
  | 'b' => some '\x08'
  | 't' => some '\t'
  | '\t' => some '\t'
  | 'n' => some '\n'
  | 'v' => some '\x0b'
  | 'f' => some '\x0c'
  | 'r' => some '\r'
  | 'e' => some '\x1b'
  | ' ' => some ' '
  | '\x22' => some '\x22'
  | '\\' => some '\\'
  | '/' => some '/'
  | 'N' => some '\x85'
  | '_' => some '\xa0'
  | 'L' => some '\u2028'
  | 'P' => some '\u2029'
  | _ => none

/-- How many digits an escape for a code point has. -/
def codeLength? : Char → Option Nat
  | 'x' => some 2
  | 'u' => some 4
  | 'U' => some 8
  | _ => none

/-- The character with a code point. Half of a pair becomes the replacement
character. -/
def characterOf (code : Nat) : Except Fault Char :=
  if 0x80000000 ≤ code then .error (.scalar .overflow)
  else if 0x110000 ≤ code then .error (.scalar (.invalid .codePoint))
  else if 0xd800 ≤ code ∧ code < 0xe000 then .ok '\ufffd'
  else .ok (Char.ofNat code)

/-- Empty lines in a quoted scalar. Documents may not be set apart in one. -/
def quotedBreaks (cursor : Cursor) : Except Fault (List Char × Cursor) :=
  if cursor.hasSeparator then .error .malformed
  else
    let next := cursor.skip isSpaceOrTab
    match next.takeBreak with
    | (none, _) => .ok ([], next)
    | (some mark, later) =>
        if _ : later.rest.length < cursor.rest.length then do
          let (marks, later) ← quotedBreaks later
          return (mark :: marks, later)
        else .ok ([mark], later)
termination_by cursor.rest.length

/-- Read what an escape stands for, after the backslash. -/
def escapedText (cursor : Cursor) : Except Fault (List Char × Cursor) :=
  let mark := cursor.peek
  match simpleEscape? mark, codeLength? mark with
  | some character, _ =>
      if cursor.atEnd then .error .malformed else .ok ([character], cursor.step)
  | none, some length => do
      let next := cursor.step
      let shown := next.rest.take length
      match shown.mapM Json.hexadecimalValue? with
      | some digits =>
          if digits.length = length then
            let code := digits.foldl (fun total digit => 16 * total + digit) 0
            return ([← characterOf code], next.forward length)
          else .error .malformed
      | none => .error .malformed
  | none, none =>
      match cursor.takeBreak with
      | (some _, later) => quotedBreaks later
      | (none, _) => .error .malformed

def quotedGap (cursor : Cursor) : Except Fault (List Char × Cursor) := do
  let (spaces, next) := cursor.take isSpaceOrTab
  if next.atEnd then .error .malformed
  else
    match next.takeBreak with
    | (none, _) => return (spaces, next)
    | (some mark, later) =>
        let (marks, later) ← quotedBreaks later
        return (foldedBreaks mark marks, later)

def quotedPiece (quote : Char) (cursor : Cursor) : Except Fault (List Char × Cursor) :=
  let character := cursor.peek
  if cursor.atEnd then .error .malformed
  else if quote == '\x27' && character == quote then .ok ([quote], cursor.forward 2)
  else if quote == '\x22' && character == '\\' then escapedText cursor.step
  else if isSpaceOrTab character || isBreak character then quotedGap cursor
  else .ok ([character], cursor.step)

/-- Whether the closing quote stands at a place. A single quote that is written twice
stands for itself. -/
def closesQuote (quote : Char) (cursor : Cursor) : Bool :=
  cursor.peek == quote && !(quote == '\x27' && cursor.peekAt 1 == quote)

def quotedText (quote : Char) (cursor : Cursor) : Except Fault (List Char × Cursor) :=
  if closesQuote quote cursor then .ok ([], cursor.step)
  else
    match quotedPiece quote cursor with
    | .error fault => .error fault
    | .ok (piece, later) =>
        if _ : later.rest.length < cursor.rest.length then
          match quotedText quote later with
          | .error fault => .error fault
          | .ok (text, later) => .ok (piece ++ text, later)
        else .error .malformed
termination_by cursor.rest.length

/-! ## Block scalars -/

/-- What becomes of the line breaks at the end of a block scalar. -/
inductive Chomping
  | clip
  | strip
  | keep
deriving DecidableEq, Repr

structure BlockHeader where
  chomping : Chomping
  increment : Option Nat
  cursor : Cursor

def chompingOf? : Char → Option Chomping
  | '+' => some .keep
  | '-' => some .strip
  | _ => none

def incrementOf? (character : Char) : Option Nat :=
  if character.isDigit then some (character.toNat - 48) else none

/-- Read the indicators, which come in either order, and move past the rest of the
line. -/
def blockHeader (cursor : Cursor) : Except Fault BlockHeader := do
  let header : BlockHeader :=
    match chompingOf? cursor.peek, incrementOf? cursor.peek with
    | some chomping, _ =>
        match incrementOf? cursor.step.peek with
        | some increment =>
            { chomping := chomping, increment := some increment, cursor := cursor.forward 2 }
        | none => { chomping := chomping, increment := none, cursor := cursor.step }
    | none, some increment =>
        match chompingOf? cursor.step.peek with
        | some chomping =>
            { chomping := chomping, increment := some increment, cursor := cursor.forward 2 }
        | none => { chomping := .clip, increment := some increment, cursor := cursor.step }
    | none, none => { chomping := .clip, increment := none, cursor := cursor }
  let next := header.cursor
  if header.increment = some 0 then .error .malformed
  else if !(next.peek == ' ' || isBreakOrEnd next.peek) then .error .malformed
  else
    let next := next.skipSpaces.skipComment
    if isBreakOrEnd next.peek then return { header with cursor := next.takeBreak.2 }
    else .error .malformed

/-- Move past spaces up to a column. -/
def skipIndent (indent : Nat) (cursor : Cursor) : Cursor :=
  let spaces := (cursor.rest.takeWhile (· == ' ')).length
  cursor.forward (min spaces (indent - cursor.column))

/-- The empty lines at a place, up to the indentation of the line after them. -/
def blockBreaks (indent : Nat) (cursor : Cursor) : List Char × Cursor :=
  let next := skipIndent indent cursor
  match next.takeBreak with
  | (none, _) => ([], next)
  | (some mark, later) =>
      if _ : later.rest.length < cursor.rest.length then
        let (marks, later) := blockBreaks indent later
        (mark :: marks, later)
      else ([mark], later)
termination_by cursor.rest.length

/-- The empty lines at the start of a block, and the deepest indentation of one of
them or of the line after them. -/
def leadingBreaks (cursor : Cursor) : List Char × Nat × Cursor :=
  let next := cursor.skipSpaces
  let depth := if next.index = cursor.index then 0 else next.column
  match next.takeBreak with
  | (none, _) => ([], depth, next)
  | (some mark, later) =>
      if _ : later.rest.length < cursor.rest.length then
        let (marks, deeper, later) := leadingBreaks later
        (mark :: marks, max depth deeper, later)
      else ([mark], depth, later)
termination_by cursor.rest.length

/-- Read the lines of a block that are indented to a column, with the empty lines
before the first of them. -/
def blockLines (folded : Bool) (chomping : Chomping) (indent : Nat) (breaks : List Char)
    (cursor : Cursor) : List Char × Cursor :=
  if cursor.column ≠ indent ∨ cursor.atEnd then
    (if chomping = .keep then breaks else [], cursor)
  else
    let startsDark := !isSpaceOrTab cursor.peek
    let (shown, next) := cursor.take (!isBreakOrEnd ·)
    let (mark, next) := next.takeBreak
    let (others, next) := blockBreaks indent next
    if next.column = indent ∧ !next.atEnd then
      let joint :=
        if folded && mark == some '\n' && startsDark && !isSpaceOrTab next.peek then
          if others.isEmpty then [' '] else []
        else mark.toList
      if _ : next.rest.length < cursor.rest.length then
        let (text, next) := blockLines folded chomping indent others next
        (breaks ++ shown ++ joint ++ text, next)
      else (breaks ++ shown, next)
    else
      let last := if chomping = .strip then [] else mark.toList
      let kept := if chomping = .keep then others else []
      (breaks ++ shown ++ last ++ kept, next)
termination_by cursor.rest.length

/-- Read a block scalar, after its mark, below a collection of some indentation. -/
def blockText (folded : Bool) (outer : Int) (cursor : Cursor) :
    Except Fault (List Char × Cursor) := do
  let header ← blockHeader cursor
  let least := (max 1 (outer + 1)).toNat
  match header.increment with
  | none =>
      let (breaks, deepest, next) := leadingBreaks header.cursor
      return blockLines folded header.chomping (max least deepest) breaks next
  | some increment =>
      let indent := least + increment - 1
      let (breaks, next) := blockBreaks indent header.cursor
      return blockLines folded header.chomping indent breaks next

end Yaml

end UplinkShaper
