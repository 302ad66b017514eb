import UplinkShaper.Failure

/-!
A place in a YAML text: what follows it, and its index, line and column. Beyond the
end of the text there is an end mark instead of a character.
-/

namespace UplinkShaper

namespace Yaml

/-- Why a text has no value. -/
inductive Fault
  | malformed
  | scalar (failure : Failure)
deriving Repr

/-- What stands for a character beyond the end. -/
def endMark : Char := '\x00'

def isBreak (character : Char) : Bool :=
  character == '\r' || character == '\n' || character == '\x85' ||
    character == '\u2028' || character == '\u2029'

def isBreakOrEnd (character : Char) : Bool :=
  isBreak character || character == endMark

def isSpaceOrTab (character : Char) : Bool :=
  character == ' ' || character == '\t'

/-- Whether a character ends a word: a blank, a line break or the end. -/
def isGap (character : Char) : Bool :=
  isSpaceOrTab character || isBreakOrEnd character

/-- The mark that a text may start with, which takes up no column. -/
def byteOrderMark : Char := '\ufeff'

structure Cursor where
  rest : List Char
  index : Nat
  line : Nat
  column : Nat
deriving Repr

namespace Cursor

def start (text : List Char) : Cursor where
  rest := text
  index := 0
  line := 0
  column := 0

def peek (cursor : Cursor) : Char :=
  cursor.rest.head?.getD endMark

def peekAt (offset : Nat) (cursor : Cursor) : Char :=
  cursor.rest[offset]?.getD endMark

def atEnd (cursor : Cursor) : Bool :=
  cursor.rest.isEmpty

/-- Move past one character. A carriage return before a line feed is not yet the end
of its line. -/
def step (cursor : Cursor) : Cursor :=
  match cursor.rest with
  | [] => cursor
  | character :: rest =>
      let endsLine := isBreak character && !(character == '\r' && rest.head? == some '\n')
      { rest := rest
        index := cursor.index + 1
        line := if endsLine then cursor.line + 1 else cursor.line
        column :=
          if endsLine then 0
          else if character == byteOrderMark then cursor.column
          else cursor.column + 1 }

def forward : Nat → Cursor → Cursor
  | 0, cursor => cursor
  | count + 1, cursor => forward count cursor.step

/-- Move past the characters of a class. -/
def skip (isSkipped : Char → Bool) (cursor : Cursor) : Cursor :=
  cursor.forward (cursor.rest.takeWhile isSkipped).length

/-- The characters of a class that follow, and the place after them. -/
def take (isTaken : Char → Bool) (cursor : Cursor) : List Char × Cursor :=
  let taken := cursor.rest.takeWhile isTaken
  (taken, cursor.forward taken.length)

def skipSpaces (cursor : Cursor) : Cursor :=
  cursor.skip (· == ' ')

/-- Move past a comment, if one starts here. -/
def skipComment (cursor : Cursor) : Cursor :=
  if cursor.peek == '#' then cursor.skip (!isBreakOrEnd ·) else cursor

/-- The line break at a place, if there is one: a line feed, unless it is one of the
two separators, which stand for themselves. -/
def takeBreak (cursor : Cursor) : Option Char × Cursor :=
  let character := cursor.peek
  if character == '\r' && cursor.peekAt 1 == '\n' then (some '\n', cursor.forward 2)
  else if character == '\r' || character == '\n' || character == '\x85' then
    (some '\n', cursor.step)
  else if isBreak character then (some character, cursor.step)
  else (none, cursor)

/-- Whether three equal marks that set documents apart start here. -/
def hasIndicator (mark : Char) (cursor : Cursor) : Bool :=
  cursor.peek == mark && cursor.peekAt 1 == mark && cursor.peekAt 2 == mark &&
    isGap (cursor.peekAt 3)

def hasSeparator (cursor : Cursor) : Bool :=
  cursor.hasIndicator '-' || cursor.hasIndicator '.'

end Cursor

/-! ## Admissible text -/

def isAdmissible (character : Char) : Bool :=
  let code := character.toNat
  code == 0x9 || code == 0xa || code == 0xd || (0x20 ≤ code && code ≤ 0x7e) || code == 0x85 ||
    (0xa0 ≤ code && code ≤ 0xd7ff) || (0xe000 ≤ code && code ≤ 0xfffd) || 0x10000 ≤ code

end Yaml

end UplinkShaper
