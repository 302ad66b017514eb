/-!
Lines of a text. Besides the usual line ends, the separators for files, groups,
records, lines and paragraphs end a line. A carriage return and the line feed
after it are one end, and an end at the very end of the text starts no new line.
-/

namespace UplinkShaper

namespace Text

def isLineEnd (character : Char) : Bool :=
  let code := character.toNat
  (0xa ≤ code && code ≤ 0xd) || (0x1c ≤ code && code ≤ 0x1e) || code == 0x85 ||
    code == 0x2028 || code == 0x2029

/-- Put a character in front of the first line. -/
def extendFirst (character : Char) : List (List Char) → List (List Char)
  | [] => [[character]]
  | first :: others => (character :: first) :: others

def lines : List Char → List (List Char)
  | [] => []
  | '\r' :: '\n' :: rest => [] :: lines rest
  | character :: rest =>
      if isLineEnd character then [] :: lines rest else extendFirst character (lines rest)

/-- Text as it is read from a file: every line end of the three usual kinds is a
line feed. -/
def unifyLineEnds : List Char → List Char
  | [] => []
  | '\r' :: '\n' :: rest => '\n' :: unifyLineEnds rest
  | character :: rest => (if character = '\r' then '\n' else character) :: unifyLineEnds rest

def occursIn (part : List Char) : List Char → Bool
  | [] => part.isEmpty
  | character :: rest => part.isPrefixOf (character :: rest) || occursIn part rest

/-- How often a nonempty text occurs inside another, counting from the left and
without overlaps. -/
def occurrences (part text : List Char) : Nat :=
  go 0 text
where
  /-- Count on, after skipping what is left of the last occurrence. -/
  go (skip : Nat) : List Char → Nat
    | [] => 0
    | character :: rest =>
        if skip ≠ 0 then go (skip - 1) rest
        else if part.isPrefixOf (character :: rest) then go (part.length - 1) rest + 1
        else go 0 rest

end Text

end UplinkShaper
