import UplinkShaper.Failure
import UplinkShaper.Text.Parts

/-!
Paths in normal form: an anchor for absolute ones, and the components, none of
which is empty or a single dot. A step up is kept as it is written.
-/

namespace UplinkShaper

structure Path where
  /-- Empty, one slash or two. -/
  anchor : String
  components : List String
deriving DecidableEq, Repr, Inhabited

namespace Path

/-- Exactly two slashes at the start are kept; more of them count as one. -/
def anchorOf (text : List Char) : String :=
  match (text.takeWhile (· == '/')).length with
  | 0 => ""
  | 2 => "//"
  | _ => "/"

def ofText (text : String) : Path where
  anchor := anchorOf text.toList
  components :=
    ((Text.parts '/' text.toList).map String.ofList).filter fun part =>
      part != "" && part != "."

def text (path : Path) : String :=
  if path.anchor.isEmpty ∧ path.components.isEmpty then "."
  else path.anchor ++ String.intercalate "/" path.components

def parent (path : Path) : Path :=
  { path with components := path.components.dropLast }

def child (path : Path) (name : String) : Path :=
  { path with components := path.components ++ [name] }

/-- A name without what follows its last dot. A dot at either end does not count. -/
def stem (name : String) : String :=
  let tail := name.toList.reverse.takeWhile (· != '.')
  let front := (name.toList.reverse.drop (tail.length + 1)).reverse
  if tail.isEmpty ∨ front.isEmpty then name else String.ofList front

/-- The path with another ending for its last component. -/
def withEnding (path : Path) (ending : String) : Except Failure Path :=
  match path.components.getLast? with
  | none => .error (.invalid (.emptyName path.text))
  | some name => .ok (path.parent.child (stem name ++ ending))

/-- Refuse a path that the system would cut at a null character. -/
def check (path : Path) : Except Failure Unit :=
  if path.components.any fun name => name.toList.contains '\x00' then
    .error (.invalid .nullCharacter)
  else .ok ()

end Path

end UplinkShaper
