import UplinkShaper.Command.Procedure
import UplinkShaper.Config.Source
import UplinkShaper.Display
import UplinkShaper.Session.State

/-!
The machine that sessions run on: its files and the locks on them, its clock, what is
logged and shown, and the sessions themselves. Sessions are numbered in the order in
which they are made, so an operation on one of them can go on while another operation
makes more.
-/

namespace UplinkShaper

abbrev SessionId := Nat

/-- Who holds a lock on a file. -/
inductive LockHolder
  | session (id : SessionId)
  | other
deriving DecidableEq, Repr

structure FileLock where
  place : List String
  holder : LockHolder
deriving DecidableEq, Repr

structure Host where
  locations : Locations
  /-- The path of the settings in the environment. -/
  named : Option String
  isPrivileged : Bool
  tools : List String
  files : Files
  locks : List FileLock
  now : Moment
  level : LogLevel
  log : List LogRecord
  screen : List Display
  /-- What is written to the standard output. -/
  printed : String
  sessions : List Session

abbrev HostOperation := Operation Host

namespace Host

/-! ## Logs and the screen -/

def logged (host : Host) (record : LogRecord) : Host :=
  if record.isShownFrom host.level then { host with log := host.log ++ [record] } else host

def record (record : LogRecord) : HostOperation Unit :=
  modify (·.logged record)

def recordAll (records : List LogRecord) : HostOperation Unit :=
  modify fun host => records.foldl logged host

def display (item : Display) : HostOperation Unit :=
  modify fun host => { host with screen := host.screen ++ [item] }

def print (line : String) : HostOperation Unit :=
  modify fun host => { host with printed := host.printed ++ line ++ "\n" }

/-! ## Files -/

def changeFiles (path : Path) (change : Files → Except SystemError Files) :
    HostOperation Unit := do
  path.check
  let host ← get
  match change host.files with
  | .ok files => set { host with files := files }
  | .error error => throw (.system error)

/-- Create a directory and those above it. Those that were created before a refusal
stay. -/
def makeDirectories (path : Path) : HostOperation Unit := do
  path.check
  let host ← get
  let made := host.files.makeDirectories path
  set { host with files := made.files }
  match made.refusal with
  | some error => throw (.system error)
  | none => return

/-- Create a file, unless it is there. -/
def touch (path : Path) : HostOperation Unit :=
  changeFiles path (·.touch path)

def writeContent (path : Path) (content : String) : HostOperation Unit :=
  changeFiles path (·.write path content)

/-- The content of a file, or why there is none. -/
def contentAt (path : Path) : HostOperation (Except SystemError String) := do
  path.check
  return (← get).files.read path

def movedLocks (source target : List String) (locks : List FileLock) : List FileLock :=
  if source = target then locks
  else
    (locks.filter (·.place != target)).map fun lock =>
      if lock.place = source then { lock with place := target } else lock

def moveFile (source target : Path) : HostOperation Unit := do
  let before := (← get).files
  changeFiles target (·.move source target)
  match before.placeOf source, before.placeOf target with
  | .ok origin, .ok place =>
      modify fun host => { host with locks := movedLocks origin place host.locks }
  | _, _ => return

/-! ## Locks -/

/-- Whether someone holds a lock on a file. -/
def isLocked (host : Host) (path : Path) : Bool :=
  match host.files.placeOf path with
  | .ok place => host.locks.any (·.place == place)
  | .error _ => false

/-- Take a lock on a file that exists. -/
def lock (holder : LockHolder) (path : Path) : HostOperation Unit :=
  modify fun host =>
    match host.files.placeOf path with
    | .ok place => { host with locks := { place := place, holder := holder } :: host.locks }
    | .error _ => host

def unlock (holder : LockHolder) : HostOperation Unit :=
  modify fun host => { host with locks := host.locks.filter (·.holder != holder) }

/-! ## Sessions -/

def session (id : SessionId) : HostOperation Session := do
  match (← get).sessions[id]? with
  | some session => return session
  | none => throw .key

def changeSession (id : SessionId) (change : Session → Session) : HostOperation Unit :=
  modify fun host => { host with sessions := host.sessions.modify id change }

/-- Make room for a new session. -/
def addSession (session : Session) : HostOperation SessionId := do
  let host ← get
  set { host with sessions := host.sessions ++ [session] }
  return host.sessions.length

end Host

end UplinkShaper
