import UplinkShaper.Session.Saved

/-!
Starting, reloading and stopping. Settings are compiled before anything is changed, so
what does not compile leaves the backends alone. An attempt tears everything down and
takes the steps of the plan; if no attempt succeeds the backends are left cleared.
-/

namespace UplinkShaper

namespace Session

open Host

def backends (session : Session) : Backends where
  shaper := session.shaper
  marking := session.marking

/-- Remove everything that a session could have built. -/
def teardown (id : SessionId) : HostOperation Unit := do
  (← session id).backends.teardown

/-! ## Moving -/

/-- Use backends for other settings. -/
def moved (session : Session) (settings : Settings) : Session :=
  { session with
    shaper := settings.shaper
    marking := settings.marking
    binding := settings.binding
    device := settings.device }

/-- Clear the backends and use those for other settings. -/
def move (id : SessionId) (settings : Settings) : HostOperation Unit := do
  teardown id
  let old := (← session id).binding.device
  changeSession id fun session => session.moved settings
  record (.info s!"Shaping moved from {old} to {settings.device}")

/-! ## Attempts -/

/-- What is applied, and the settings it is applied for. -/
structure Target where
  settings : Settings
  compiled : Compiled

def built (session : Session) (target : Target) (moment : Moment) : Session :=
  { session with
    settings := target.settings
    applied := some { compiled := target.compiled, appliedAt := moment }
    labels := target.compiled.tree.labels }

def builtRecord (target : Target) : LogRecord :=
  let tree := target.compiled.tree
  .info (s!"Applied {tree.tiers.length} classes and {target.compiled.rules.rules.length} " ++
    s!"mark rules on {target.settings.device} ({tree.capacity.rate}kbit)")

/-- Tear everything down and build anew. The command that fails is the result. -/
def attemptOnce (id : SessionId) (target : Target) :
    HostOperation (Option CommandFailure) := do
  teardown id
  try
    (← session id).backends.execute target.compiled.plan
    return none
  catch
    | .apply failure => return some failure
    | failure => throw failure

def cleared (session : Session) : Session :=
  { session with applied := none }

/-- Give up after a failure, and leave the backends cleared. -/
def abandon (id : SessionId) (target : Target) (failure : Failure) : HostOperation Unit := do
  teardown id
  changeSession id cleared
  record (.error s!"Shaping left cleared on {target.settings.device}")
  throw failure

def succeed (id : SessionId) (target : Target) : HostOperation Unit := do
  let now := (← get).now
  changeSession id fun session => session.built target now
  record (builtRecord target)

def attemptUpTo (id : SessionId) (target : Target) (total : Nat) (last : Failure) :
    Nat → HostOperation Unit
  | 0 => abandon id target last
  | rest + 1 => do
      match ← attemptOnce id target with
      | none => succeed id target
      | some failure =>
          record (.error (s!"Applying shaping plan failed (attempt {total - rest}/{total}): " ++
            failure.applyMessage))
          attemptUpTo id target total (.apply failure) rest

/-- One attempt and so many more. The number of them has to be a whole one. -/
def attemptAll (id : SessionId) (target : Target) : HostOperation Unit :=
  match target.settings.retries with
  | .whole retries =>
      let total := (1 + retries).toNat
      attemptUpTo id target total .mismatch total
  | .real _ => throw .mismatch

/-! ## Requests -/

/-- Apply settings, and move the backends first if they are bound to something else. -/
def reconfigure (id : SessionId) (settings : Settings) : HostOperation ClassTree := do
  let compiled ← compileWith id settings
  let session ← session id
  let isMoving := settings.binding ≠ session.binding
  if isMoving ∧ !session.isMovable then
    throw (.configuration (.boundBackends session.binding.device session.binding.chain))
  exclusively id do
    if isMoving then move id settings
    attemptAll id { settings := settings, compiled := compiled }
  persist id
  return compiled.tree

def start (id : SessionId) : HostOperation ClassTree := do
  reconfigure id (← session id).settings

/-- The settings that a reload applies where none are given: those of the file they came
from as it is now, else the current ones. -/
def reloadedSettings (id : SessionId) : HostOperation Settings := do
  let settings := (← session id).settings
  match settings.source with
  | none => return settings
  | some path => do
      let host ← get
      Settings.ofFile host.locations host.files path

/-- Apply given settings, or the current ones read anew. -/
def reload (id : SessionId) (given : Option Settings) : HostOperation ClassTree := do
  match given with
  | some settings => reconfigure id settings
  | none => reconfigure id (← reloadedSettings id)

def stop (id : SessionId) : HostOperation Unit := do
  exclusively id do
    teardown id
    changeSession id cleared
  record (.info s!"Shaping removed from {(← session id).settings.device}")

end Session

end UplinkShaper
