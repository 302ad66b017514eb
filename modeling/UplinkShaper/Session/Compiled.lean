import UplinkShaper.Host

/-!
From settings to what a session applies: the class tree, its rules, and the plan that
builds both. Compiling logs what it finds and runs no command.
-/

namespace UplinkShaper

namespace Session

open Host

/-- The round trip for settings, which is the session's own one where both are equal. -/
def roundTripFor (session : Session) (settings : Settings) : Number :=
  if session.roundTrip.eq settings.roundTrip then session.roundTrip else settings.roundTrip

end Session

namespace Compiled

def ofSettings (settings : Settings) (roundTrip : Number) : Except Failure Compiled := do
  let tree ← settings.treeRequest.compile roundTrip
  let rules ← RuleSet.build tree settings.table
  return { tree := tree, rules := rules,
           plan := Plan.build tree rules settings.leafQueue settings.logMarks }

def log (settings : Settings) (roundTrip : Number) : List LogRecord :=
  settings.treeRequest.log roundTrip ++
    match ofSettings settings roundTrip with
    | .ok compiled => [RuleSet.builtRecord compiled.rules]
    | .error _ => []

end Compiled

namespace Session

open Host

def compileWith (id : SessionId) (settings : Settings) : HostOperation Compiled := do
  let session ← session id
  let roundTrip := session.roundTripFor settings
  recordAll (Compiled.log settings roundTrip)
  Compiled.ofSettings settings roundTrip

def compile (id : SessionId) : HostOperation Compiled := do
  let session ← session id
  compileWith id session.settings

/-! ## Making sessions -/

def labelsFor (settings : Settings) (roundTrip : Number) : HostOperation Labels := do
  recordAll (settings.treeRequest.log roundTrip)
  match settings.treeRequest.compile roundTrip with
  | .ok tree => return tree.labels
  | .error failure =>
      match failure with
      | .allocation _ | .curve _ =>
          record (.debug ("No class labels, configuration does not compile: " ++
            failure.message))
          return []
      | _ => throw failure

/-- Make a session for settings. A round trip may be given that class trees are made for
as long as the settings have the same one. -/
def make (settings : Settings) (provision : Provision) (roundTrip : Option Number) :
    HostOperation SessionId := do
  let labels ← labelsFor settings (roundTrip.getD settings.roundTrip)
  addSession (fresh settings provision roundTrip labels)

end Session

end UplinkShaper
