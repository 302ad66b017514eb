import UplinkShaper.Session.Observation

/-!
What the commands of the console show, apart from the tables of trees and snapshots.
-/

namespace UplinkShaper

namespace Display

def summary (settings : Settings) : Table where
  title := none
  columns := ["", ""]
  rows := [
    ["Interface", settings.device],
    ["Upload", s!"{settings.capacity.rate}kbit"],
    ["Download", settings.download.text ++ "kbit"],
    ["Config", (settings.source.map (·.text)).getD "built-in defaults"]]

/-- A summary of settings, unless one of its rates is too long to be written. -/
def ofSettings (settings : Settings) : Except Failure Display :=
  if (Number.whole settings.capacity.rate).isWritable && settings.download.isWritable then
    .ok (.panel { title := some "QoS configuration", body := .table (summary settings) })
  else .error (.invalid .unwritable)

def ofWarning (warning : AllocationWarning) : Display :=
  .line ("[yellow]warning:[/yellow] " ++ warning.message)

def checkStatus (result : Session.CheckResult) : String :=
  if result.isOk then "[green]OK[/green]"
  else if result.isFatal then "[red]FAILED[/red]"
  else "[yellow]WARNING[/yellow]"

def ofCheck (result : Session.CheckResult) : Display :=
  .line s!"Test {result.name}... {checkStatus result} ({result.detail})"

def joinedLines (lines : List String) : String :=
  match String.intercalate "\n" lines with
  | "" => "(none)"
  | text => text

def ofLines (title : String) (lines : List String) : Display :=
  .panel { title := some title, body := .text (joinedLines lines) }

/-- What stands where counters will be shown. -/
def waiting : Panel where
  title := none
  body := .text "waiting for counters..."

end Display

end UplinkShaper
