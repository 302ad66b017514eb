import UplinkShaper.Text.Printable

/-!
Quoted text, as messages show values: in single quotes, or in double quotes where
that saves escaping single ones, with escapes for the quote, the backslash and
whatever is not printable.
-/

namespace UplinkShaper

namespace Text

/-- A code point in hexadecimal with at least `width` digits. -/
def hexadecimal (width code : Nat) : List Char :=
  let shown := Nat.toDigits 16 code
  List.replicate (width - shown.length) '0' ++ shown

/-- How one character stands between quotes. -/
def escaped (quote : Char) (character : Char) : List Char :=
  let code := character.toNat
  if character = quote ∨ character = '\\' then ['\\', character]
  else if character = '\n' then ['\\', 'n']
  else if character = '\r' then ['\\', 'r']
  else if character = '\t' then ['\\', 't']
  else if isPrintable character then [character]
  else if code < 0x100 then '\\' :: 'x' :: hexadecimal 2 code
  else if code < 0x10000 then '\\' :: 'u' :: hexadecimal 4 code
  else '\\' :: 'U' :: hexadecimal 8 code

/-- Double quotes are used for a text with single quotes and no double ones. -/
def quoteFor (text : List Char) : Char :=
  if '\x27' ∈ text ∧ '\x22' ∉ text then '\x22' else '\x27'

def quoted (text : String) : String :=
  let quote := quoteFor text.toList
  String.ofList (quote :: text.toList.flatMap (escaped quote) ++ [quote])

end Text

end UplinkShaper
