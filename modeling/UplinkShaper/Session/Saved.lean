import UplinkShaper.Json
import UplinkShaper.Session.Observation

/-!
The saved state of a session: what it applied, or what its settings compile to while
nothing is applied, and the listings of the backends if they are asked for. A document
is written beside its target and moved there at the end, so a target holds an old state
or a new one and never a part.
-/

namespace UplinkShaper

namespace Session

open Host

def description (session : Session) (compiled : Compiled) : List (String × Value) :=
  [("interface", .text session.settings.device),
    ("applied_at", .ofOption (fun applied => .text applied.appliedAt.text) session.applied),
    ("tree", compiled.tree.toValue),
    ("rules", compiled.rules.toValue),
    ("plan", compiled.plan.toValue)]

def describe (id : SessionId) : HostOperation (List (String × Value)) := do
  let session ← session id
  match session.applied with
  | some applied => return session.description applied.compiled
  | none => return session.description (← compile id)

/-- One listing of the backends, null where it cannot be read. -/
def savedListing (id : SessionId) (what : String) : HostOperation (String × Value) := do
  try
    return (what, .text (← read id what))
  catch
    | .listing failure =>
        record (.warning s!"Could not read {what} for saving: {failure.listingMessage}")
        return (what, .null)
    | failure => throw failure

def savedListings : List String :=
  ["qdisc", "class", "filter", "marks"]

/-- The ending of a document that is being written. -/
def unfinishedEnding : String := ".tmp"

/-- Write a document beside its target, and move it there. -/
def writeDocument (path : Path) (document : Value) : HostOperation Unit := do
  makeDirectories path.parent
  let unfinished ← path.withEnding unfinishedEnding
  writeContent unfinished (Json.indented document)
  moveFile unfinished path

/-- Save the state of a session, at the path of its settings unless another is given. -/
def save (id : SessionId) (target : Option Path) (hasListings : Bool) :
    HostOperation Path := do
  let described ← describe id
  let savedAt := (← get).now.text
  let listings ←
    if hasListings then
      pure [("backend", Value.record (← savedListings.mapM (savedListing id)))]
    else pure []
  let path := target.getD (← session id).settings.statePath
  writeDocument path (.record (described ++ [("saved_at", .text savedAt)] ++ listings))
  record (.info s!"Saved shaping state to {path.text}")
  return path

/-- Save what was applied. Not being able to is logged and nothing more. -/
def persist (id : SessionId) : HostOperation Unit := do
  try
    let _ ← save id none false
  catch
    | .system _ => record (.error "Failed saving last-applied shaping state")
    | failure => throw failure

def loadSaved (path : Path) : HostOperation Value := do
  match ← contentAt path with
  | .error error => throw (.system error)
  | .ok text =>
      match Json.read? (String.ofList (Text.unifyLineEnds text.toList)) with
      | some value => return value
      | none => throw .document

end Session

end UplinkShaper
