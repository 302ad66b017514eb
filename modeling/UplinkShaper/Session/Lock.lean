import UplinkShaper.Host

/-!
Who may change backends, and when. A reconfiguration turns away every other one, of the
same session at once and of other sessions by a lock on a file. Files of settings with
one directory for their saved state share the locks.
-/

namespace UplinkShaper

namespace Session

open Host

/-- Create what the locks need and take the writer lock, then the reader lock. -/
def takeLocks (id : SessionId) (session : Session) : HostOperation Unit := do
  makeDirectories session.lockDirectory
  touch session.writerLock
  if (← get).isLocked session.writerLock then
    throw (.busy (.lockHeld session.writerLock.text))
  lock (.session id) session.writerLock
  touch session.readerLock
  lock (.session id) session.readerLock

def releaseLocks (id : SessionId) : HostOperation Unit := do
  unlock (.session id)
  changeSession id fun session => { session with isWriting := false }

def exclusively (id : SessionId) (body : HostOperation α) : HostOperation α := do
  let session ← session id
  if session.isWriting then throw (.busy .session)
  changeSession id fun session => { session with isWriting := true }
  Operation.ensuring (do takeLocks id session; body) (releaseLocks id)

/-- Read while no backend is changed. Without a lock file nothing was ever changed, and
nothing has to be waited for. -/
def whileShared (id : SessionId) (body : HostOperation α) : HostOperation α := do
  let path := (← session id).readerLock
  match ← contentAt path with
  | .ok _ => body
  | .error error =>
      record (.debug s!"Reading without {path.text}: {error.message}")
      body

end Session

end UplinkShaper
