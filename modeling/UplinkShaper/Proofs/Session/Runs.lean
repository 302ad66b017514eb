import UplinkShaper.Proofs.Session.Requests

/-!
Runs of a session: any requests in any order, with any failures of changes, while the
files, the clock and other sessions change in between. As long as the capacities that are
asked for have finite doubles, the session and the kernel stay in step.
-/

namespace UplinkShaper

open Kernel Machine

inductive Request
  | start
  | stop
  | reload (given : Option Settings)

namespace Request

def perform (id : SessionId) : Request → HostOperation Unit
  | .start => do let _ ← Session.start id
  | .stop => Session.stop id
  | .reload given => do let _ ← Session.reload id given

/-- Whether all settings that a request can apply are among those that may be requested. -/
def IsAllowed (requested : Settings → Prop) (host : Host) (session : Session) : Request → Prop
  | .reload (some settings) => requested settings
  | .reload none =>
      ∀ path ∈ session.settings.source, ∀ settings,
        Settings.ofFile host.locations host.files path = .ok settings → requested settings
  | _ => True

/-- What is the case after a request that succeeded. -/
def HasEffect (session : Session) : Request → Prop
  | .stop => session.applied = none
  | .reload (some settings) => session.HasApplied settings
  | _ => session.applied.isSome = true

end Request

namespace Session

/-- What a new session reaches with requests, which others may come between. -/
inductive Reached (requested : Settings → Prop) (initial : Kernel) (script : FailureScript)
    (id : SessionId) : Machine → Host → Prop
  | made {machine : Machine} {host : Host} {settings : Settings} {roundTrip : Option Number}
      {labels : Labels} : machine.kernel = initial → requested settings →
      host.sessions[id]? = some (fresh settings .made roundTrip labels) →
        Reached requested initial script id machine host
  | performed {machine machine' : Machine} {host host' : Host} {session : Session}
      {request : Request} {result : Except Failure Unit} :
      Reached requested initial script id machine host → host.sessions[id]? = some session →
        request.IsAllowed requested host session →
          (request.perform id).run (answer script) machine host = (machine', host', result) →
            Reached requested initial script id machine' host'
  | meanwhile {machine : Machine} {host host' : Host} :
      Reached requested initial script id machine host →
        host'.sessions[id]? = host.sessions[id]? →
          Reached requested initial script id machine host'

variable {script : FailureScript} {machine : Machine} {host : Host} {id : SessionId}
  {session : Session} {requested : Settings → Prop} {initial : Kernel}

theorem ends_start (known : host.sessions[id]? = some session)
    (ready : session.IsReady requested initial machine.kernel)
    (admits : Admits requested initial) :
    (start id).Ends (answer script) machine host fun machine' host' result =>
      LeavesReady requested initial id machine' host' fun session' =>
        ∀ tree, result = .ok tree → session'.HasApplied session.settings :=
  (Host.ends_session_bind known).mpr (ends_reconfigure known ready admits ready.bound.settings)

/-- A reload from the file that the settings came from. -/
theorem ends_reloadedSettings (known : host.sessions[id]? = some session) :
    (reloadedSettings id).Ends (answer script) machine host fun machine' host' result =>
      (machine' = machine ∧ host'.sessions = host.sessions) ∧
        (result = .ok session.settings ∨ ∃ path ∈ session.settings.source,
          result = Settings.ofFile host.locations host.files path) := by
  apply (Host.ends_session_bind known).mpr
  dsimp only
  cases session.settings.source with
  | none => exact ⟨⟨rfl, rfl⟩, .inl rfl⟩
  | some path => exact ⟨⟨rfl, rfl⟩, .inr ⟨path, rfl, rfl⟩⟩

theorem ends_reload_none (known : host.sessions[id]? = some session)
    (ready : session.IsReady requested initial machine.kernel)
    (admits : Admits requested initial)
    (allowed : (Request.reload none).IsAllowed requested host session) :
    (reload id none).Ends (answer script) machine host fun machine' host' result =>
      LeavesReady requested initial id machine' host' fun session' =>
        ∀ tree, result = .ok tree → session'.applied.isSome = true := by
  apply (ends_reloadedSettings known).bind
  · intro machine₁ host₁ settings ended
    rcases ended with ⟨⟨rfl, sessions₁⟩, found⟩
    have isRequested : requested settings := by
      rcases found with same | ⟨path, isSource, read⟩
      · cases same
        exact ready.bound.settings
      · exact allowed path isSource settings read.symm
    apply (ends_reconfigure (sessions₁ ▸ known) ready admits isRequested).weaken
    intro _ _ _ left
    exact left.of_quiet ⟨rfl, rfl⟩ fun _ isHeld tree succeeded => (isHeld tree succeeded).2
  · intro machine₁ host₁ failure ended
    rcases ended with ⟨⟨rfl, sessions₁⟩, _⟩
    exact ⟨session, sessions₁ ▸ known, ready, fun _ impossible => nomatch impossible⟩

theorem ends_perform {request : Request} (known : host.sessions[id]? = some session)
    (ready : session.IsReady requested initial machine.kernel)
    (admits : Admits requested initial) (allowed : request.IsAllowed requested host session) :
    (request.perform id).Ends (answer script) machine host fun machine' host' result =>
      LeavesReady requested initial id machine' host' fun session' =>
        result = .ok () → request.HasEffect session' := by
  cases request with
  | start =>
      apply (ends_start known ready admits).bind
      · intro _ _ tree left
        exact left.of_quiet ⟨rfl, rfl⟩ fun _ isHeld _ => (isHeld tree rfl).2
      · intro _ _ _ left
        exact left.of_quiet ⟨rfl, rfl⟩ fun _ _ impossible => nomatch impossible
  | stop => exact ends_stop known ready admits
  | reload given =>
      cases given with
      | some settings =>
          apply (ends_reconfigure known ready admits allowed).bind
          · intro _ _ tree left
            exact left.of_quiet ⟨rfl, rfl⟩ fun _ isHeld _ => isHeld tree rfl
          · intro _ _ _ left
            exact left.of_quiet ⟨rfl, rfl⟩ fun _ _ impossible => nomatch impossible
      | none =>
          apply (ends_reload_none known ready admits allowed).bind
          · intro _ _ tree left
            exact left.of_quiet ⟨rfl, rfl⟩ fun _ isHeld _ => isHeld tree rfl
          · intro _ _ _ left
            exact left.of_quiet ⟨rfl, rfl⟩ fun _ _ impossible => nomatch impossible

/-- Whatever happens in between, a session is ready for every request. -/
theorem Reached.isReady (reached : Reached requested initial script id machine host)
    (admits : Admits requested initial) :
    ∃ session, host.sessions[id]? = some session ∧
      session.IsReady requested initial machine.kernel := by
  induction reached with
  | @made machine host settings roundTrip labels untouched isRequested known =>
      exact ⟨_, known, .inl untouched, rfl, isRequested, settings, isRequested, rfl, rfl⟩
  | @performed machine machine' host host' session request result _ known allowed ran induction =>
      rcases induction with ⟨same, found, ready⟩
      rw [known] at found
      cases found
      have ends : (request.perform id).Ends (answer script) machine host
          fun machine' host' _ =>
            LeavesReady requested initial id machine' host' fun _ => True := by
        apply (ends_perform known ready admits allowed).weaken
        intro _ _ _ left
        exact left.of_quiet ⟨rfl, rfl⟩ fun _ _ => trivial
      rw [Operation.Ends, ran] at ends
      rcases ends with ⟨session', known', ready', _⟩
      exact ⟨session', known', ready'⟩
  | meanwhile _ same induction =>
      rcases induction with ⟨session, known, ready⟩
      exact ⟨session, same.trans known, ready⟩

/-- Wherever requests lead a session, it is in step, and those that succeed have their
effects. -/
def StaysInStep (requested : Settings → Prop) (initial : Kernel) : Prop :=
  ∀ script id machine host, Reached requested initial script id machine host →
    ∃ session, host.sessions[id]? = some session ∧ session.InStep initial machine.kernel ∧
      ∀ request : Request, request.IsAllowed requested host session →
        (request.perform id).Ends (answer script) machine host fun _ host' result =>
          ∃ session', host'.sessions[id]? = some session' ∧
            (result = .ok () → request.HasEffect session')

theorem staysInStep_of_admits (admits : Admits requested initial) :
    StaysInStep requested initial := by
  intro script id machine host reached
  rcases reached.isReady admits with ⟨session, known, ready⟩
  refine ⟨session, known, ready.inStep, ?_⟩
  intro request allowed
  apply (ends_perform known ready admits allowed).weaken
  intro _ _ _ left
  rcases left with ⟨session', known', _, hasEffect⟩
  exact ⟨session', known', hasEffect⟩

end Session

end UplinkShaper
