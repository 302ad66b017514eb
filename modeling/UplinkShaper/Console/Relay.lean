import UplinkShaper.Console.Commands

/-!
The program and its partner, who has the machine at hand. The partner describes the
machine and runs the commands that the program asks for; the program tells what it logs
and shows along with each command, and which files there are at the end. Everything is
said in documents of one line each.
-/

namespace UplinkShaper

namespace Relay

/-! ## What the partner says -/

def textIn? (document : Value) (name : String) : Option String :=
  match document.field? name with
  | some (.text text) => some text
  | _ => none

def textsIn (document : Value) (name : String) : List String :=
  match document.field? name with
  | some (.list items) => items.map (·.plain)
  | _ => []

def codeIn (document : Value) : Int :=
  match document.field? "code" with
  | some (.number (.whole code)) => code
  | _ => 0

def filesIn (document : Value) : Files :=
  match document.field? "files" with
  | some (.mapping entries) =>
      entries.foldl (fun files (path, content) =>
        match files.place (Path.ofText path.plain) content.plain with
        | .ok files => files
        | .error _ => files) .empty
  | _ => .empty

/-- The moment that a document names, in universal time. -/
def momentIn? (document : Value) : Option Moment :=
  ((textIn? document "now").bind Moment.read?).map (·.toUniversal)

def hostOf (document : Value) : Host where
  locations := .system
  named := textIn? document "environment"
  isPrivileged := document.field? "privileged" matches some (.boolean true)
  tools := textsIn document "tools"
  files := filesIn document
  locks := []
  now := (momentIn? document).getD default
  level := .info
  log := []
  screen := []
  printed := ""
  sessions := []

def replyOf (document : Value) : Reply :=
  match textIn? document "refused" with
  | some text => .refused text
  | none =>
      match textIn? document "interrupted" with
      | some "keyboard" => .interrupted .keyboard
      | some text => .interrupted (.runtime text)
      | none =>
          .finished (codeIn document) (textIn? document "output") (textIn? document "errors")

/-- The machine after a command, at the time that the reply names. -/
def hostAfter (host : Host) (reply : Value) : Host :=
  { host with now := (momentIn? reply).getD host.now, log := [], screen := [], printed := "" }

/-! ## What the program says -/

def texts (items : List String) : Value :=
  .list (items.map .text)

def tableDocument (table : Table) : Value :=
  .record [
    ("title", .ofOption .text table.title),
    ("columns", texts table.columns),
    ("rows", .list (table.rows.map texts))]

def panelDocument (panel : Panel) : Value :=
  .record [
    ("title", .ofOption .text panel.title),
    ("body", match panel.body with
      | .text text => .text text
      | .table table => tableDocument table)]

def displayDocument : Display → Value
  | .line text => .text text
  | .table table => .record [("table", tableDocument table)]
  | .panel panel => .record [("panel", panelDocument panel)]
  | .live panel refresh =>
      .record [("live", panelDocument panel), ("refresh", .number (.real refresh))]

/-- What was logged and shown since the last command. -/
def newsOf (host : Host) : List (String × Value) :=
  [("log", .list (host.log.map fun record => texts [record.level.name, record.message])),
    ("screen", .list (host.screen.map displayDocument)),
    ("printed", .text host.printed)]

def commandDocument (host : Host) (words : List String) : Value :=
  .record (("command", texts words) :: newsOf host)

def entryDocument : FileEntry → Value
  | .directory => .null
  | .file content => .text content

/-- Everything there is by path, with nothing for a directory. -/
def filesDocument (files : Files) : Value :=
  .mapping (files.entries.map fun (place, entry) =>
    (.text (String.intercalate "/" place), entryDocument entry))

/-- The exit code; a failure that was not reported ends the program with one. -/
def exitCode (result : Except Failure Console.Ending) : Nat :=
  match result with
  | .ok ending => ending.exitCode
  | .error _ => 1

def endDocument (host : Host) (result : Except Failure Console.Ending) : Value :=
  let failure :=
    match result with
    | .ok (.usage _) => [("usage", Value.text Console.usageText)]
    | .ok (.code _) => []
    | .error failure => [("failure", .text failure.message)]
  let code := exitCode result
  .record ([("exit", .whole (Int.ofNat code))] ++ failure ++ newsOf host ++
    [("files", filesDocument host.files)])

end Relay

end UplinkShaper
