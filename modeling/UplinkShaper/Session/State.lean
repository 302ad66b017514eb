import UplinkShaper.Backend.Words
import UplinkShaper.Config.Settings
import UplinkShaper.Counter.Snapshot
import UplinkShaper.Plan

/-!
What a session knows: its settings, the backends it uses, what it applied to them,
and the counters it read last.
-/

namespace UplinkShaper

/-! ## Bindings -/

/-- What a pair of backends is bound to. -/
structure Binding where
  device : String
  shaperTool : String
  markingTool : String
  chain : String
deriving DecidableEq, Repr

namespace Settings

/-- What backends for these settings are bound to. -/
def binding (settings : Settings) : Binding where
  device := settings.device
  shaperTool := settings.tools.shaper
  markingTool := settings.tools.marking
  chain := settings.chain

def shaper (settings : Settings) : Shaper where
  tool := settings.tools.shaper
  device := settings.device

def marking (settings : Settings) : Marking where
  tool := settings.tools.marking
  device := settings.device
  chain := settings.chain
  table := Marking.standardTable

end Settings

/-! ## Sessions -/

/-- Everything that settings compile to. -/
structure Compiled where
  tree : ClassTree
  rules : RuleSet
  plan : Plan
deriving DecidableEq, Repr

/-- What the backends hold since some moment. -/
structure Applied where
  compiled : Compiled
  appliedAt : Moment
deriving DecidableEq, Repr

structure Session where
  settings : Settings
  shaper : Shaper
  marking : Marking
  /-- Whether other backends are made when settings move. -/
  isMovable : Bool
  binding : Binding
  /-- The round trip that class trees are made for, unless settings have another. -/
  roundTrip : Number
  /-- Whether a reconfiguration is under way. -/
  isWriting : Bool
  applied : Option Applied
  latest : Option Snapshot
  labels : Labels
  device : String
deriving Repr

inductive Provision
  /-- They are made from the settings, whenever those move. -/
  | made
  | given
deriving DecidableEq, Repr

namespace Session

def fresh (settings : Settings) (provision : Provision) (roundTrip : Option Number)
    (labels : Labels) : Session where
  settings := settings
  shaper := settings.shaper
  marking := settings.marking
  isMovable := provision = .made
  binding := settings.binding
  roundTrip := roundTrip.getD settings.roundTrip
  isWriting := false
  applied := none
  latest := none
  labels := labels
  device := settings.device

def lockDirectory (session : Session) : Path :=
  session.settings.statePath.parent

/-- Held while backends are changed. -/
def writerLock (session : Session) : Path :=
  session.lockDirectory.child "reconfigure.lock"

/-- Held against readers while backends are changed. -/
def readerLock (session : Session) : Path :=
  session.lockDirectory.child "read.lock"

end Session

end UplinkShaper
