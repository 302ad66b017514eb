import UplinkShaper.FileSystem.Path

/-!
Files and directories as a value. A place is the list of names that lead to it from
the root; the root itself is always a directory, and it is the working directory
too. An operation either succeeds with the files after it, or is refused and leaves
them alone; only the creation of several directories may be refused halfway.
-/

namespace UplinkShaper

inductive FileEntry
  | directory
  | file (content : String)
deriving DecidableEq, Repr

structure Files where
  entries : List (List String × FileEntry)
deriving DecidableEq, Repr

namespace Files

def empty : Files where
  entries := []

def entry? (files : Files) (place : List String) : Option FileEntry :=
  match place with
  | [] => some .directory
  | _ => (files.entries.find? fun (known, _) => known == place).map (·.2)

def set (files : Files) (place : List String) (entry : FileEntry) : Files where
  entries := (place, entry) :: files.entries.filter fun (known, _) => known != place

def erase (files : Files) (place : List String) : Files where
  entries := files.entries.filter fun (known, _) => known != place

/-! ## Places of paths -/

/-- The longest name, in bytes. -/
def longestName : Nat := 255

/-- Follow names from a place. Every place on the way has to be a directory, the last
one need not exist. -/
def walk (files : Files) (here : List String) : List String → Except FileFault (List String)
  | [] => .ok here
  | name :: rest =>
      match files.entry? here with
      | none => .error .missing
      | some (.file _) => .error .notDirectory
      | some .directory =>
          if name = ".." then walk files here.dropLast rest
          else if longestName < name.utf8ByteSize then .error .nameTooLong
          else walk files (here ++ [name]) rest

def refusing (path : Path) (result : Except FileFault α) : Except SystemError α :=
  result.mapError fun fault => .file fault path.text

def placeOf (files : Files) (path : Path) : Except FileFault (List String) :=
  files.walk [] path.components

/-- What a path leads to, if it leads to anything. -/
def find? (files : Files) (path : Path) : Option FileEntry :=
  match files.placeOf path with
  | .ok place => files.entry? place
  | .error _ => none

def isDirectory (files : Files) (path : Path) : Bool :=
  files.find? path == some .directory

/-! ## Operations -/

def read (files : Files) (path : Path) : Except SystemError String :=
  refusing path do
    match files.entry? (← files.placeOf path) with
    | none => .error .missing
    | some .directory => .error .isDirectory
    | some (.file content) => .ok content

def writablePlace (files : Files) (path : Path) : Except FileFault (List String) := do
  let place ← files.placeOf path
  match files.entry? place with
  | some .directory => .error .isDirectory
  | _ => return place

/-- Give a file a content, and create it if need be. -/
def write (files : Files) (path : Path) (content : String) : Except SystemError Files :=
  refusing path do return files.set (← files.writablePlace path) (.file content)

/-- Create an empty file, unless there is a file already. -/
def touch (files : Files) (path : Path) : Except SystemError Files :=
  refusing path do
    let place ← files.writablePlace path
    match files.entry? place with
    | some _ => return files
    | none => return files.set place (.file "")

def makeDirectory (files : Files) (path : Path) : Except FileFault Files := do
  let place ← files.placeOf path
  match files.entry? place with
  | some _ => .error .exists
  | none => return files.set place .directory

/-- The files after several directories were to be created, and what was refused, if
anything was. -/
structure Creation where
  files : Files
  refusal : Option SystemError
deriving DecidableEq, Repr

/-- What a refusal to create a directory comes to: nothing, if it is there already. -/
def tolerate (files : Files) (path : Path) (fault : FileFault) : Creation where
  files := files
  refusal := if files.isDirectory path then none else some (.file fault path.text)

/-- Create a directory and those above it, as far as they do not exist. The first
argument bounds how many there may be. -/
def makeUpTo (files : Files) (path : Path) : Nat → Creation
  | 0 => { files := files, refusal := some (.file .missing path.text) }
  | depth + 1 =>
      match files.makeDirectory path with
      | .ok made => { files := made, refusal := none }
      | .error .missing =>
          if path.components.isEmpty then
            { files := files, refusal := some (.file .missing path.text) }
          else
            let above := makeUpTo files path.parent depth
            match above.refusal with
            | some _ => above
            | none =>
                match above.files.makeDirectory path with
                | .ok made => { files := made, refusal := none }
                | .error fault => above.files.tolerate path fault
      | .error fault => files.tolerate path fault

/-- Create a directory and those above it, as far as they do not exist. -/
def makeDirectories (files : Files) (path : Path) : Creation :=
  files.makeUpTo path (path.components.length + 1)

/-- Write a file, in directories that are created for it. -/
def place (files : Files) (path : Path) (content : String) : Except SystemError Files :=
  let above := files.makeDirectories path.parent
  match above.refusal with
  | some refusal => .error refusal
  | none => above.files.write path content

/-- Move a file to another path, in place of the file that is there. What a step up
leads to is in use and cannot be replaced. -/
def move (files : Files) (source target : Path) : Except SystemError Files :=
  let refuse (fault : FileFault) : Except SystemError Files :=
    .error (.move fault source.text target.text)
  match files.placeOf source, files.placeOf target with
  | .error fault, _ => refuse fault
  | _, .error fault => refuse fault
  | .ok origin, .ok place =>
      if target.components.getLast? = some ".." then refuse .busy
      else
        match files.entry? origin with
        | none => refuse .missing
        | some entry =>
            if files.entry? place = some .directory then refuse .isDirectory
            else .ok ((files.erase origin).set place entry)

/-! ## Listing -/

/-- The text of an entry in a listing, where a slash marks a directory. -/
def listed (entry : List String × FileEntry) : String :=
  let text := String.intercalate "/" entry.1
  match entry.2 with
  | .directory => text ++ "/"
  | .file _ => text

/-- Everything there is, in the order of the texts. -/
def listing (files : Files) : List String :=
  (files.entries.map listed).mergeSort fun left right => !decide (right < left)

end Files

end UplinkShaper
