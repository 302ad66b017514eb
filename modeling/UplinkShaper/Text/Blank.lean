/-!
Blank characters: those that separate words and are dropped at the ends of a
text. They are the characters of the bidirectional classes for white space and
separators together with the Unicode space separators.
-/

namespace UplinkShaper

namespace Text

/-- Whether a code point lies in one of the closed ranges of a table. -/
def inRanges (ranges : List (Nat × Nat)) (code : Nat) : Bool :=
  ranges.any fun range => range.1 ≤ code && code ≤ range.2

def blankRanges : List (Nat × Nat) :=
  [(0x9, 0xd), (0x1c, 0x20), (0x85, 0x85), (0xa0, 0xa0), (0x1680, 0x1680), (0x2000, 0x200a),
    (0x2028, 0x2029), (0x202f, 0x202f), (0x205f, 0x205f), (0x3000, 0x3000)]

def isBlank (character : Char) : Bool :=
  inRanges blankRanges character.toNat

theorem isBlank_of_isWhitespace {character : Char} (blank : character.isWhitespace) :
    isBlank character := by
  simp only [Char.isWhitespace, Bool.or_eq_true, decide_eq_true_eq] at blank
  rcases blank with ((rfl | rfl) | rfl) | rfl <;> decide

/-- Drop the blanks at both ends. -/
def strip (text : List Char) : List Char :=
  ((text.dropWhile isBlank).reverse.dropWhile isBlank).reverse

/-- The longest runs of characters that are not separators. -/
def pieces (isSeparator : Char → Bool) (text : List Char) : List (List Char) :=
  (text.splitBy fun left right => isSeparator left == isSeparator right).filter
    fun piece => !piece.any isSeparator

def words (text : List Char) : List (List Char) :=
  pieces isBlank text

def stripped (text : String) : String :=
  String.ofList (strip text.toList)

end Text

end UplinkShaper
