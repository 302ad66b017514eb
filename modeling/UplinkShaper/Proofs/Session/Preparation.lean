import UplinkShaper.Proofs.Command.Guards
import UplinkShaper.Proofs.Session.Runs

/-!
Requests in three parts. A request first finds out what is to be applied, which needs no
lock and changes nothing; then it changes the backends, while nobody else may; and at the
end it tells what it did.
-/

namespace UplinkShaper

namespace Session

open Host

/-- What a session would apply for settings. -/
def targetFor (session : Session) (settings : Settings) : Except Failure Target := do
  let compiled ← Compiled.ofSettings settings (session.roundTripFor settings)
  if settings.binding ≠ session.binding ∧ !session.isMovable then
    throw (.configuration (.boundBackends session.binding.device session.binding.chain))
  return { settings := settings, compiled := compiled }

/-- Apply a target, or clear the backends where there is none. -/
def carryOut (id : SessionId) (session : Session) : Option Target → HostOperation Unit
  | none => do
      teardown id
      changeSession id cleared
  | some target => do
      if target.settings.binding ≠ session.binding then move id target.settings
      attemptAll id target

theorem carryOut_of_binding {id : SessionId} {session : Session} {target : Target}
    (same : target.settings.binding = session.binding) :
    session.carryOut id (some target) = attemptAll id target :=
  if_neg (not_not.mpr same)

theorem carryOut_of_move {id : SessionId} {session : Session} {target : Target}
    (moves : target.settings.binding ≠ session.binding) :
    session.carryOut id (some target) = (do move id target.settings; attemptAll id target) :=
  if_pos moves

/-- Tell that a target was applied, or that the backends were cleared. -/
def conclude (id : SessionId) : Option Target → HostOperation Unit
  | none => do record (.info s!"Shaping removed from {(← session id).settings.device}")
  | some _ => persist id

theorem isQuiet_conclude (id : SessionId) (target : Option Target) :
    (conclude id target).IsQuiet := by
  cases target with
  | none => exact (isQuiet_session id).bind fun _ => isQuiet_record _
  | some target => exact isQuiet_persist id

/-- What a request does once it is prepared. -/
def proceed (id : SessionId) (session : Session) (target : Option Target) :
    HostOperation Unit := do
  exclusively id (session.carryOut id target)
  conclude id target

end Session

namespace Request

/-- The settings that a request is to apply, if it is to apply any. -/
def settings (host : Host) (session : Session) : Request → Except Failure (Option Settings)
  | .start => .ok (some session.settings)
  | .stop => .ok none
  | .reload (some settings) => .ok (some settings)
  | .reload none =>
      match session.settings.source with
      | none => .ok (some session.settings)
      | some path => some <$> Settings.ofFile host.locations host.files path

/-- The class tree that a request answers with, if it is to apply one. -/
def outcome (id : SessionId) : Request → HostOperation (Option ClassTree)
  | .start => some <$> Session.start id
  | .stop => do
      Session.stop id
      return none
  | .reload given => some <$> Session.reload id given

/-- What a request is to apply, found before anything is changed. -/
def prepared (host : Host) (session : Session) (request : Request) :
    Except Failure (Option Session.Target) := do
  match ← request.settings host session with
  | none => return none
  | some settings => some <$> session.targetFor settings

end Request

namespace Host

variable {host : Host} {id : SessionId} {session : Session}

theorem session_eq_done (known : host.sessions[id]? = some session) :
    Host.session id host = .done host (.ok session) := by
  rw [Host.session, Operation.get_bind_apply, known]
  rfl

theorem session_eq_error (unknown : host.sessions[id]? = none) :
    Host.session id host = .done host (.error .key) := by
  rw [Host.session, Operation.get_bind_apply, unknown]
  rfl

theorem session_bind_apply {next : Session → HostOperation α}
    (known : host.sessions[id]? = some session) :
    (Host.session id >>= next) host = next session host :=
  Operation.bind_of_ok (session_eq_done known)

end Host

namespace Session

variable {host : Host} {id : SessionId} {session : Session} {settings : Settings}

theorem compileWith_eq_done (settings : Settings) (known : host.sessions[id]? = some session) :
    ∃ log, compileWith id settings host = .done { host with log := log }
      (Compiled.ofSettings settings (session.roundTripFor settings)) := by
  rcases Host.exists_foldl_logged
    (Compiled.log settings (session.roundTripFor settings)) host with ⟨log, logged⟩
  refine ⟨log, ?_⟩
  rw [← logged]
  exact Host.session_bind_apply known

/-- A reconfiguration that is not prepared is over before anything is changed. -/
theorem reconfigure_eq_of_error {failure : Failure} (known : host.sessions[id]? = some session)
    (fails : session.targetFor settings = .error failure) :
    ∃ log, reconfigure id settings host = .done { host with log := log } (.error failure) := by
  rcases compileWith_eq_done settings known with ⟨log, compiles⟩
  refine ⟨log, ?_⟩
  unfold targetFor at fails
  cases made : Compiled.ofSettings settings (session.roundTripFor settings) with
  | error reason =>
      rw [made] at compiles fails
      cases fails
      exact Operation.bind_of_error compiles
  | ok compiled =>
      rw [made] at compiles fails
      have known' : ({ host with log := log } : Host).sessions[id]? = some session := known
      refine (Operation.bind_of_ok compiles).trans ((Host.session_bind_apply known').trans ?_)
      by_cases stuck : settings.binding ≠ session.binding ∧ (!session.isMovable) = true
      · simp only [bind, Except.bind, if_pos stuck] at fails
        cases fails
        simp only [if_pos stuck]
        rfl
      · simp only [bind, Except.bind, if_neg stuck] at fails
        cases fails

theorem reconfigure_eq_of_ok {target : Target} (known : host.sessions[id]? = some session)
    (prepared : session.targetFor settings = .ok target) :
    ∃ log, reconfigure id settings host = (do
      exclusively id (session.carryOut id (some target))
      persist id
      return target.compiled.tree : HostOperation ClassTree) { host with log := log } := by
  rcases compileWith_eq_done settings known with ⟨log, compiles⟩
  refine ⟨log, ?_⟩
  unfold targetFor at prepared
  cases made : Compiled.ofSettings settings (session.roundTripFor settings) with
  | error reason =>
      rw [made] at prepared
      cases prepared
  | ok compiled =>
      rw [made] at compiles prepared
      have known' : ({ host with log := log } : Host).sessions[id]? = some session := known
      refine (Operation.bind_of_ok compiles).trans ((Host.session_bind_apply known').trans ?_)
      by_cases stuck : settings.binding ≠ session.binding ∧ (!session.isMovable) = true
      · simp only [bind, Except.bind, if_pos stuck] at prepared
        cases prepared
      · simp only [bind, Except.bind, if_neg stuck] at prepared
        cases prepared
        simp only [if_neg stuck]
        rfl

/-- What is found for settings is what they compile to. -/
theorem targetFor_eq_ok {target : Target} (prepared : session.targetFor settings = .ok target) :
    ∃ compiled, Compiled.ofSettings settings (session.roundTripFor settings) = .ok compiled ∧
      target = { settings := settings, compiled := compiled } := by
  unfold targetFor at prepared
  rcases Result.bind_eq_ok.mp prepared with ⟨compiled, compiles, goesOn⟩
  by_cases stuck : settings.binding ≠ session.binding ∧ (!session.isMovable) = true
  · rw [if_pos stuck] at goesOn
    cases goesOn
  · rw [if_neg stuck] at goesOn
    cases goesOn
    exact ⟨compiled, compiles, rfl⟩

theorem settings_of_targetFor {target : Target}
    (prepared : session.targetFor settings = .ok target) : target.settings = settings := by
  rcases targetFor_eq_ok prepared with ⟨_, _, rfl⟩
  rfl

theorem compiles_of_targetFor {target : Target}
    (prepared : session.targetFor settings = .ok target) :
    Compiled.ofSettings target.settings (session.roundTripFor target.settings) =
      .ok target.compiled := by
  rcases targetFor_eq_ok prepared with ⟨_, compiles, rfl⟩
  exact compiles

end Session

namespace Request

variable {host : Host} {id : SessionId} {session : Session} {request : Request}

theorem perform_eq_of_unknown (unknown : host.sessions[id]? = none) :
    request.perform id host = .done host (.error .key) := by
  have isKey := Host.session_eq_error unknown
  have compiles (settings : Settings) :
      Session.compileWith id settings host = .done host (.error .key) :=
    Operation.bind_of_error isKey
  cases request with
  | start => exact Operation.bind_of_error (Operation.bind_of_error isKey)
  | stop => exact Operation.bind_of_error (Operation.bind_of_error isKey)
  | reload given =>
      cases given with
      | some settings =>
          exact Operation.bind_of_error (Operation.bind_of_error (compiles settings))
      | none =>
          have reloads : Session.reloadedSettings id host = .done host (.error .key) :=
            Operation.bind_of_error isKey
          exact Operation.bind_of_error (Operation.bind_of_error reloads)

/-- Starting and reloading differ in where the settings come from, and in nothing else. -/
theorem outcome_eq_reconfigure {settings : Settings} (known : host.sessions[id]? = some session)
    (asks : request.settings host session = .ok (some settings)) :
    request.outcome id host = (some <$> Session.reconfigure id settings) host := by
  cases request with
  | stop => cases asks
  | start =>
      cases asks
      simp only [outcome, Session.start]
      rw [map_bind, Host.session_bind_apply known]
  | reload given =>
      cases given with
      | some settings =>
          cases asks
          rfl
      | none =>
          simp only [outcome, Session.reload, Session.reloadedSettings]
          rw [map_bind, bind_assoc, Host.session_bind_apply known]
          simp only [Request.settings] at asks
          cases source : session.settings.source with
          | none =>
              rw [source] at asks
              cases asks
              rfl
          | some path =>
              rw [source] at asks
              dsimp only at asks ⊢
              cases read : Settings.ofFile host.locations host.files path with
              | error failure =>
                  rw [read] at asks
                  cases asks
              | ok found =>
                  rw [read] at asks
                  cases asks
                  refine (congrFun (bind_assoc _ _ _) host).trans ?_
                  refine (Operation.bind_of_ok rfl).trans ?_
                  refine Operation.bind_of_ok ?_
                  change Operation.ofResult (Settings.ofFile host.locations host.files path) host = _
                  rw [read]
                  rfl

/-- To perform a request is to wait for its outcome. -/
theorem perform_eq_outcome (request : Request) (id : SessionId) :
    request.perform id = (do let _ ← request.outcome id : HostOperation Unit) := by
  cases request with
  | start => simp only [perform, outcome, map_eq_pure_bind, bind_assoc, pure_bind]
  | stop => simp only [perform, outcome, bind_assoc, pure_bind, bind_pure_unit]
  | reload given => simp only [perform, outcome, map_eq_pure_bind, bind_assoc, pure_bind]

theorem perform_eq_reconfigure {settings : Settings} (known : host.sessions[id]? = some session)
    (asks : request.settings host session = .ok (some settings)) :
    request.perform id host =
      (do let _ ← Session.reconfigure id settings : HostOperation Unit) host := by
  have answered : (do let _ ← request.outcome id : HostOperation Unit) host =
      (do let _ ← some <$> Session.reconfigure id settings : HostOperation Unit) host :=
    congrArg (Procedure.andThen · _) (outcome_eq_reconfigure known asks)
  rw [perform_eq_outcome, answered, map_eq_pure_bind, bind_assoc]
  simp only [pure_bind]

/-- Only a file that settings are read from anew can keep a request from having any. -/
theorem perform_eq_of_settings_error {failure : Failure}
    (known : host.sessions[id]? = some session)
    (fails : request.settings host session = .error failure) :
    request.perform id host = .done host (.error failure) := by
  cases request with
  | stop => cases fails
  | start => cases fails
  | reload given =>
      cases given with
      | some settings => cases fails
      | none =>
          simp only [perform, Session.reload, Session.reloadedSettings]
          rw [bind_assoc, bind_assoc, Host.session_bind_apply known]
          simp only [Request.settings] at fails
          cases source : session.settings.source with
          | none =>
              rw [source] at fails
              cases fails
          | some path =>
              rw [source] at fails
              dsimp only at fails ⊢
              cases read : Settings.ofFile host.locations host.files path with
              | ok found =>
                  rw [read] at fails
                  cases fails
              | error reason =>
                  rw [read] at fails
                  cases fails
                  apply Operation.bind_of_error
                  refine (Operation.bind_of_ok rfl).trans ?_
                  change Operation.ofResult (Settings.ofFile host.locations host.files path) host = _
                  rw [read]
                  rfl

theorem prepared_eq {settings : Settings}
    (asks : request.settings host session = .ok (some settings)) :
    request.prepared host session = some <$> session.targetFor settings := by
  rw [prepared, asks]
  rfl

/-- A target is what is found for the settings that a request is to apply. -/
theorem settings_of_prepared {target : Session.Target}
    (isPrepared : request.prepared host session = .ok (some target)) :
    request.settings host session = .ok (some target.settings) ∧
      session.targetFor target.settings = .ok target := by
  rcases asks : request.settings host session with reason | _ | settings
  · rw [prepared, asks] at isPrepared
    cases isPrepared
  · rw [prepared, asks] at isPrepared
    cases isPrepared
  · rw [prepared_eq asks] at isPrepared
    cases found : session.targetFor settings with
    | error failure =>
        rw [found] at isPrepared
        cases isPrepared
    | ok target =>
        rw [found] at isPrepared
        cases isPrepared
        cases Session.settings_of_targetFor found
        exact ⟨rfl, found⟩

theorem compiles_of_prepared {target : Session.Target}
    (isPrepared : request.prepared host session = .ok (some target)) :
    Compiled.ofSettings target.settings (session.roundTripFor target.settings) =
      .ok target.compiled :=
  Session.compiles_of_targetFor (settings_of_prepared isPrepared).2

/-- Only a stop applies no settings. -/
theorem eq_stop_of_settings (asks : request.settings host session = .ok none) :
    request = .stop := by
  cases request with
  | stop => rfl
  | start => cases asks
  | reload given =>
      cases given with
      | some settings => cases asks
      | none =>
          simp only [Request.settings] at asks
          cases source : session.settings.source with
          | none =>
              rw [source] at asks
              cases asks
          | some path =>
              rw [source] at asks
              dsimp only at asks
              cases read : Settings.ofFile host.locations host.files path with
              | error failure =>
                  rw [read] at asks
                  cases asks
              | ok settings =>
                  rw [read] at asks
                  cases asks

/-- An allowed request applies settings that may be requested. -/
theorem requested_of_settings {requested : Settings → Prop} {settings : Settings}
    (current : requested session.settings) (allowed : request.IsAllowed requested host session)
    (asks : request.settings host session = .ok (some settings)) : requested settings := by
  cases request with
  | stop => cases asks
  | start =>
      cases asks
      exact current
  | reload given =>
      cases given with
      | some given =>
          cases asks
          exact allowed
      | none =>
          simp only [Request.settings] at asks
          cases source : session.settings.source with
          | none =>
              rw [source] at asks
              cases asks
              exact current
          | some path =>
              rw [source] at asks
              dsimp only at asks
              cases read : Settings.ofFile host.locations host.files path with
              | error failure =>
                  rw [read] at asks
                  cases asks
              | ok found =>
                  rw [read] at asks
                  cases asks
                  exact allowed path source settings read

/-- A request that is not prepared is over before anything is changed. -/
theorem perform_eq_of_error {failure : Failure} (known : host.sessions[id]? = some session)
    (fails : request.prepared host session = .error failure) :
    ∃ log, request.perform id host = .done { host with log := log } (.error failure) := by
  rcases asks : request.settings host session with reason | _ | settings
  · rw [prepared, asks] at fails
    cases fails
    exact ⟨host.log, perform_eq_of_settings_error known asks⟩
  · rw [prepared, asks] at fails
    cases fails
  · rw [prepared_eq asks] at fails
    cases found : session.targetFor settings with
    | ok target =>
        rw [found] at fails
        cases fails
    | error reason =>
        rw [found] at fails
        cases fails
        rcases Session.reconfigure_eq_of_error known found with ⟨log, done⟩
        exact ⟨log, (perform_eq_reconfigure known asks).trans (Operation.bind_of_error done)⟩

/-- A request that is prepared goes on with what it has found. -/
theorem perform_eq_of_ok {target : Option Session.Target}
    (known : host.sessions[id]? = some session)
    (isPrepared : request.prepared host session = .ok target) :
    ∃ log, request.perform id host = session.proceed id target { host with log := log } := by
  rcases asks : request.settings host session with reason | _ | settings
  · rw [prepared, asks] at isPrepared
    cases isPrepared
  · rw [prepared, asks] at isPrepared
    cases isPrepared
    cases eq_stop_of_settings asks
    exact ⟨host.log, rfl⟩
  · rw [prepared_eq asks] at isPrepared
    cases found : session.targetFor settings with
    | error reason =>
        rw [found] at isPrepared
        cases isPrepared
    | ok target =>
        rw [found] at isPrepared
        cases isPrepared
        rcases Session.reconfigure_eq_of_ok known found with ⟨log, goesOn⟩
        let applied : HostOperation ClassTree := do
          Session.exclusively id (session.carryOut id (some target))
          Session.persist id
          return target.compiled.tree
        have proceeds : (do let _ ← applied : HostOperation Unit) =
            session.proceed id (some target) := by
          simp only [applied, bind_assoc, pure_bind]
          exact congrArg (Session.exclusively id (session.carryOut id (some target)) >>= fun _ => ·)
            (bind_pure (Session.persist id))
        refine ⟨log, ?_⟩
        calc request.perform id host
            = (do let _ ← Session.reconfigure id settings : HostOperation Unit) host :=
              perform_eq_reconfigure known asks
          _ = (do let _ ← applied : HostOperation Unit) { host with log := log } :=
              congrArg (Procedure.andThen · _) goesOn
          _ = session.proceed id (some target) { host with log := log } := by
              rw [proceeds]

end Request

end UplinkShaper
