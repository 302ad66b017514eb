import UplinkShaper.Config.Settings
import UplinkShaper.FileSystem.Files
import UplinkShaper.Text.Lines
import UplinkShaper.Yaml.Document

/-!
Settings from files: a given one, else the one that the environment names, else the
system's own if it is there, else the built-in ones.
-/

namespace UplinkShaper

/-- What reading settings depends on. -/
structure ConfigurationContext where
  locations : Locations
  files : Files
  named : Option String

namespace Settings

/-- The document in a text. An empty one says nothing. -/
def documentOf (path : Path) (text : String) : Except Failure Value :=
  match Yaml.read (String.ofList (Text.unifyLineEnds text.toList)) with
  | .error .malformed => .error (.configuration (.malformed path.text))
  | .error (.scalar failure) => .error failure
  | .ok .null => .ok (.mapping [])
  | .ok (.mapping entries) => .ok (.mapping entries)
  | .ok _ => .error (.configuration .rootNotMapping)

def ofFile (locations : Locations) (files : Files) (path : Path) :
    Except Failure Settings := do
  path.check
  match files.read path with
  | .error error => .error (.configuration (.unreadable path.text error))
  | .ok text => ofDocument locations (← documentOf path text) (some path)

def load (context : ConfigurationContext) (given : Option String) : Except Failure Settings :=
  let ofText (text : String) := ofFile context.locations context.files (Path.ofText text)
  match given.filter (!·.isEmpty), context.named.filter (!·.isEmpty) with
  | some text, _ => ofText text
  | none, some text => ofText text
  | none, none =>
      let system := context.locations.configuration
      match context.files.find? (Path.ofText system) with
      | some _ => ofText system
      | none => ofDocument context.locations (.mapping []) none

end Settings

end UplinkShaper
