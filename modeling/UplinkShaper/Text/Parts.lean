/-!
Parts of a text between separators. A text with `n` separators has `n + 1` parts,
some of which may be empty.
-/

namespace UplinkShaper

namespace Text

/-- Put a character in front of the first part. -/
def extendPart (character : Char) : List (List Char) → List (List Char)
  | [] => [[character]]
  | first :: others => (character :: first) :: others

def parts (separator : Char) : List Char → List (List Char)
  | [] => [[]]
  | character :: rest =>
      if character = separator then [] :: parts separator rest
      else extendPart character (parts separator rest)

def cut? (separator : Char) (text : List Char) : Option (List Char × List Char) :=
  match text.dropWhile (· != separator) with
  | [] => none
  | _ :: rest => some (text.takeWhile (· != separator), rest)

end Text

end UplinkShaper
