import UplinkShaper.Console.Arguments
import UplinkShaper.Console.Screen
import UplinkShaper.Session.Reconfiguration

/-!
The commands of the console. Each ends with an exit code: zero where it did what it is
for, one where it did not.
-/

namespace UplinkShaper

namespace Console

open Host

/-- The exit code of success, or of a failure that was reported. -/
def exitCode (isOk : Bool) : Nat :=
  if isOk then 0 else 1

/-! ## What is needed -/

def requirePrivileges : HostOperation Unit := do
  if !(← get).isPrivileged then throw (.precondition .privileges)

def requireDevice (settings : Settings) (device : String) : HostOperation Unit := do
  match ← issue [settings.tools.link, "link", "show", device] with
  | .finished 0 _ _ => return
  | .finished _ _ _ => throw (.precondition (.device device))
  | .refused text => throw (.system (.command text))
  | .interrupted interruption => throw (.interrupted interruption)

/-- The tools that settings name and that cannot be found. -/
def missingTools (host : Host) (settings : Settings) : List String :=
  [settings.tools.shaper, settings.tools.marking, settings.tools.link].filter fun tool =>
    !host.tools.contains tool

def checkPrerequisites (settings : Settings) : HostOperation Unit := do
  let missing := missingTools (← get) settings
  if !missing.isEmpty then throw (.precondition (.tools missing))
  requireDevice settings settings.device
  requireDevice settings settings.localDevice
  record (.info "Prerequisites verified")

/-! ## Commands on a session -/

/-- Check what is applied and show what was found. -/
def test (id : SessionId) : HostOperation Bool := do
  let results ← Session.verify id
  results.forM fun result => display (Display.ofCheck result)
  let failed := results.countP fun result => !result.isOk && result.isFatal
  if failed = 0 then record (.info "All tests passed")
  else record (.error s!"{failed} test(s) failed")
  return failed = 0

def start (id : SessionId) : HostOperation Nat := do
  record (.info s!"Starting QoS on {(← session id).settings.device}")
  let _ ← Session.start id
  if ← test id then
    record (.info "QoS started")
    return 0
  else
    record (.error "QoS configuration did not pass the self-test")
    return 1

def stop (id : SessionId) : HostOperation Nat := do
  Session.stop id
  return 0

def restart (id : SessionId) : HostOperation Nat := do
  Session.stop id
  start id

def reload (id : SessionId) : HostOperation Nat := do
  record (.info "Reloading QoS configuration")
  let _ ← Session.reload id none
  return exitCode (← test id)

/-- A snapshot, unless the counters cannot be listed. -/
def snapshotOrError (id : SessionId) : HostOperation (Option Snapshot) := do
  try
    return some (← Session.snapshot id)
  catch
    | .listing failure =>
        record (.error ("Cannot read class counters: " ++ failure.listingMessage))
        return none
    | failure => throw failure

def printStatus (id : SessionId) (snapshot : Option Snapshot) : HostOperation Unit := do
  let described ← Session.describe id
  let counters := Value.ofOption Snapshot.toValue snapshot
  print (Json.indented (.record (described ++ [("stats", counters)])))

/-- Show a listing, or why it cannot be read. -/
def showListing (id : SessionId) (title what : String) (select : List String → List String) :
    HostOperation Unit := do
  let lines ←
    try
      pure ((Text.lines (← Session.read id what).toList).map String.ofList)
    catch
      | .listing failure => pure ["unavailable: " ++ failure.listingMessage]
      | failure => throw failure
  display (Display.ofLines title (select lines))

/-- The tree that is applied, or that the settings compile to. -/
def currentTree (id : SessionId) : HostOperation ClassTree := do
  match (← session id).applied with
  | some applied => return applied.compiled.tree
  | none => return (← Session.compile id).tree

/-- How many lines of filters are shown. -/
def filterLines : Nat := 20

def showStatus (id : SessionId) (snapshot : Option Snapshot) : HostOperation Unit := do
  display (← Display.ofSettings (← session id).settings)
  let tree ← currentTree id
  display (.table (← Display.ofTree tree))
  tree.warnings.forM fun warning => display (Display.ofWarning warning)
  if let some snapshot := snapshot then display (.table (← Display.ofSnapshot snapshot))
  showListing id "Active filters" "filter" (·.take filterLines)
  showListing id "Mark rules" Session.marksListing fun lines => lines

/-- Show the status. A snapshot without classes is none. -/
def status (id : SessionId) (isJson : Bool) : HostOperation Nat := do
  let snapshot := (← snapshotOrError id).filter fun snapshot => !snapshot.classes.isEmpty
  if isJson then printStatus id snapshot else showStatus id snapshot
  return exitCode snapshot.isSome

/-- How often a second the screen is redrawn. -/
def refreshRate (interval : Double) : Double :=
  if interval.compare? (.finite 0) = some .gt then Double.div (.finite 1) interval
  else .finite 1

/-- Show the counters again and again until the keyboard interrupts it, or until so many
polls are made. -/
def monitor (id : SessionId) (interval : Double) (polls : Nat) : HostOperation Nat := do
  let device := (← session id).settings.device
  record (.info s!"Monitoring {device} every {interval.shortest}s (Ctrl+C to quit)")
  try
    display (.live Display.waiting (refreshRate interval))
    let _ ← Session.watch id (.real interval) polls fun snapshot => do
      display (.table (← Display.ofSnapshot snapshot))
  catch
    | .interrupted .keyboard => return 0
    | failure => throw failure
  return 0

def save (id : SessionId) (path : Option String) : HostOperation Nat := do
  let target := (path.filter (!·.isEmpty)).map Path.ofText
  display (.line s!"Saved to {(← Session.save id target true).text}")
  return 0

/-! ## The program -/

def isPrivileged : ConsoleCommand → Bool
  | .start | .stop | .restart | .reload | .save _ | .test => true
  | .status _ | .monitor _ | .help => false

def isApplying : ConsoleCommand → Bool
  | .start | .restart | .reload => true
  | _ => false

inductive Ending
  | code (value : Nat)
  /-- The command line asks for nothing that the program does. -/
  | usage (reason : UsageEnd)
deriving DecidableEq, Repr

namespace Ending

def exitCode : Ending → Nat
  | .code value => value
  | .usage .help => 0
  | .usage .mistake => 2

end Ending

def usageText : String :=
  "usage: [-h] [-d] [-v] [-q] [-c CONFIG] " ++
    "[start | stop | restart | reload | status [--json] | monitor [interval] | test | " ++
    "save [path] | help]"

def levelOf (invocation : Invocation) : LogLevel :=
  if invocation.isDebug then .debug
  else if invocation.isQuiet ∧ !invocation.isVerbose then .warning
  else .info

def perform (polls : Nat) (command : ConsoleCommand) (id : SessionId) : HostOperation Nat :=
  match command with
  | .start => start id
  | .stop => stop id
  | .restart => restart id
  | .reload => reload id
  | .status isJson => status id isJson
  | .monitor interval => monitor id interval polls
  | .test => do return exitCode (← test id)
  | .save path => save id path
  | .help => return 0

def settingsOf (invocation : Invocation) : HostOperation Settings := do
  let host ← get
  let context : ConfigurationContext :=
    { locations := host.locations, files := host.files, named := host.named }
  Settings.load context invocation.settings

def invoke (polls : Nat) (invocation : Invocation) : HostOperation Nat := do
  let settings ← settingsOf invocation
  if isPrivileged invocation.command then requirePrivileges
  if isApplying invocation.command then checkPrerequisites settings
  perform polls invocation.command (← Session.make settings .made none)

/-- Whether a failure is reported and no more. The others end the program. -/
def isReported : Failure → Bool
  | .configuration _ | .allocation _ | .curve _ | .apply _ | .listing _ | .busy _
  | .precondition _ | .system _ => true
  | _ => false

/-- Do what an invocation asks for, and report why it cannot be done. -/
def runInvocation (polls : Nat) (invocation : Invocation) : HostOperation Nat := do
  modify fun host => { host with level := levelOf invocation }
  try
    invoke polls invocation
  catch failure =>
    if isReported failure then
      record (.error failure.message)
      return 1
    else throw failure

/-- The program for the words of a command line. A monitor makes so many polls. -/
def run (polls : Nat) (words : List String) : HostOperation Ending := do
  match Arguments.read words with
  | .error reason => return .usage reason
  | .ok invocation =>
      if invocation.command = .help then
        print usageText
        return .code 0
      else return .code (← runInvocation polls invocation)

end Console

end UplinkShaper
