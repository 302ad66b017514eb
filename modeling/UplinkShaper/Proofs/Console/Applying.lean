import UplinkShaper.Proofs.Console.Prerequisites

/-!
Commands that apply settings: they make a request, and then test what the kernel holds. The
exit code is zero where the request succeeds and the test is passed.
-/

namespace UplinkShaper

open Operation

/-! ## What is issued -/

namespace Operation.Issues

theorem test (id : SessionId) :
    Issues (fun words => isListing words = true) (Console.test id) := by
  refine (verify id).bind fun results => Issues.bind (fun host => ?_) fun _ => ?_
  · rcases Console.exists_forM_display Display.ofCheck results host with ⟨host', shown, _⟩
    rw [shown]
    trivial
  · dsimp only
    split
    · exact (record _).bind fun _ => ofResult _
    · exact (record _).bind fun _ => ofResult _

end Operation.Issues

namespace Console

open Session

/-- Once a command is under way it asks for no link. -/
def AsksNoLink (words : List String) : Prop :=
  isQuestion words = false ∨ isListing words = true

theorem AsksForLink.isListing_eq {settings : Settings} {exchange : Exchange}
    (asks : AsksForLink settings exchange) : isListing exchange.words = false := by
  rcases asks with ⟨device, _, words⟩
  rw [words]
  rfl

theorem not_asksNoLink (settings : Settings) (device : String) :
    ¬ AsksNoLink (linkQuestion settings device) := by
  rintro (⟨⟨⟩⟩ | ⟨⟨⟩⟩)

/-- What follows the request of a start, and that of a reload. -/
def concluded (request : Request) (id : SessionId) (finish : Bool → HostOperation Nat) :
    HostOperation Nat := do
  request.perform id
  finish (← test id)

/-- Tell the outcome of a start. -/
def tellStarted (isPassed : Bool) : HostOperation Nat :=
  if isPassed then do
    Host.record (.info "QoS started")
    return 0
  else do
    Host.record (.error "QoS configuration did not pass the self-test")
    return 1

/-- The request of a command that makes just one. -/
def requestOf : ConsoleCommand → Option Request
  | .start => some .start
  | .reload => some (.reload none)
  | _ => none

theorem isApplying_of_requestOf {command : ConsoleCommand} {request : Request}
    (requests : requestOf command = some request) : isApplying command = true := by
  cases command with
  | start => rfl
  | reload => rfl
  | _ => cases requests

theorem start_eq (id : SessionId) : start id = (do
    let session ← Host.session id
    Host.record (.info s!"Starting QoS on {session.settings.device}")
    concluded .start id tellStarted) := by
  refine congrArg (Host.session id >>= ·) (funext fun session => ?_)
  refine congrArg (Host.record _ >>= ·) (funext fun _ => ?_)
  unfold concluded
  simp only [Request.perform, bind_assoc, pure_bind]
  rfl

theorem reload_eq (id : SessionId) : reload id = (do
    Host.record (.info "Reloading QoS configuration")
    concluded (.reload none) id fun isPassed => return exitCode isPassed) := by
  refine congrArg (Host.record _ >>= ·) (funext fun _ => ?_)
  unfold concluded
  simp only [Request.perform, bind_assoc, pure_bind]

/-- Something that only tells an exit code. -/
def TellsCode (finish : Bool → HostOperation Nat) : Prop :=
  ∀ isPassed host, ∃ host', finish isPassed host = .done host' (.ok (exitCode isPassed))

theorem tellsCode_tellStarted : TellsCode tellStarted := by
  intro isPassed host
  cases isPassed with
  | true => exact ⟨_, rfl⟩
  | false => exact ⟨_, rfl⟩

theorem tellsCode_return : TellsCode fun isPassed => return exitCode isPassed :=
  fun _ host => ⟨host, rfl⟩

/-- A command with one request makes it, after a word on it. -/
theorem perform_eq {command : ConsoleCommand} {request : Request} {host : Host} {id : SessionId}
    {session : Session} (requests : requestOf command = some request) (polls : Nat)
    (known : host.sessions[id]? = some session) :
    ∃ log finish, TellsCode finish ∧
      perform polls command id host = concluded request id finish { host with log := log } := by
  cases command with
  | start =>
      cases requests
      rcases host.isLike_logged (.info s!"Starting QoS on {session.settings.device}") with
        ⟨log, logged⟩
      refine ⟨log, tellStarted, tellsCode_tellStarted, ?_⟩
      rw [perform, start_eq, Host.session_bind_apply known, ← logged]
      rfl
  | reload =>
      cases requests
      rcases host.isLike_logged (.info "Reloading QoS configuration") with ⟨log, logged⟩
      refine ⟨log, _, tellsCode_return, ?_⟩
      rw [perform, reload_eq, ← logged]
      rfl
  | _ => cases requests

/-- After its request a command asks for listings. -/
theorem issues_test (id : SessionId) {finish : Bool → HostOperation Nat}
    (tellsCode : TellsCode finish) :
    Issues (fun words => isListing words = true) (do finish (← test id)) := by
  refine (Issues.test id).bind fun isPassed host => ?_
  rcases tellsCode isPassed host with ⟨host', done⟩
  rw [done]
  trivial

theorem issues_concluded (request : Request) (id : SessionId) {finish : Bool → HostOperation Nat}
    (tellsCode : TellsCode finish) : Issues AsksNoLink (concluded request id finish) :=
  ((AsksNothing.perform request id).weaken fun _ => .inl).bind fun _ =>
    (issues_test id tellsCode).weaken fun _ => .inr

theorem issues_start (id : SessionId) : Issues AsksNoLink (start id) := by
  rw [start_eq]
  exact (Issues.of_quiet (Host.isQuiet_session id)).bind fun _ => (Issues.record _).bind fun _ =>
    issues_concluded .start id tellsCode_tellStarted

/-- A command that applies settings asks for no link itself. -/
theorem issues_perform {command : ConsoleCommand} (applies : isApplying command = true)
    (polls : Nat) (id : SessionId) : Issues AsksNoLink (perform polls command id) := by
  cases command with
  | start => exact issues_start id
  | restart =>
      exact ((AsksNothing.perform .stop id).weaken fun _ => .inl).bind fun _ => issues_start id
  | reload =>
      rw [perform, reload_eq]
      exact (Issues.record _).bind fun _ => issues_concluded (.reload none) id tellsCode_return
  | stop => cases applies
  | status isJson => cases applies
  | monitor interval => cases applies
  | test => cases applies
  | save path => cases applies
  | help => cases applies

/-! ## What is told -/

/-- What becomes of a request with a test after it: it fails before anything is listed, or it has
applied what settings compile to and the test tells the code. -/
inductive IsConcluded (settings : Settings) : List Exchange → Except Failure Nat → Prop
  | failed {exchanges failure} : (∀ exchange ∈ exchanges, isListing exchange.words = false) →
      IsConcluded settings exchanges (.error failure)
  | tested {compiled applying reads isPassed} :
      Compiled.ofSettings settings settings.roundTrip = .ok compiled →
      Applies settings compiled applying →
      List.Forall₂ (Check.AsksFor settings) (checksOf compiled.tree compiled.rules) reads →
      (isPassed = true ↔
        List.Forall₂ Check.IsPassed (checksOf compiled.tree compiled.rules) reads) →
      IsConcluded settings (applying ++ reads) (.ok (exitCode isPassed))

section Concluded

variable {host : Host} {id : SessionId} {session : Session} {settings : Settings}
  {request : Request} {locations : Locations} {document : Value} {source : Option Path}
  {exchanges before : List Exchange} {result : Except Failure Nat}

theorem IsConcluded.after (concluded : IsConcluded settings exchanges result)
    (none : ∀ exchange ∈ before, isListing exchange.words = false) :
    IsConcluded settings (before ++ exchanges) result := by
  cases concluded with
  | failed noneLater => exact .failed (List.forall_mem_append.mpr ⟨none, noneLater⟩)
  | tested compiles applies asked passed =>
      rcases applies with ⟨first, attempt, rfl, runs⟩
      rw [← List.append_assoc]
      refine .tested compiles ⟨before ++ first, attempt, ?_, runs⟩ asked passed
      exact (List.append_assoc ..).symm

theorem tells_concluded {finish : Bool → HostOperation Nat} (tellsCode : TellsCode finish)
    (known : host.sessions[id]? = some session) (isFor : session.IsFor settings)
    (asks : request.settings host session = .ok (some settings))
    (accepted : Settings.ofDocument locations document source = .ok settings) :
    (concluded request id finish).Tells host fun exchanges _ result =>
      AreHandled exchanges → IsConcluded settings exchanges result := by
  refine ((Request.tells_perform known isFor asks accepted).and
    ((AsksNothing.perform request id).tells host)).bind ?_ ?_
  · rintro applying host₁ value ⟨performed, asksNothing⟩
    by_cases handled : AreHandled applying
    case neg =>
      exact fun reads _ _ _ handledToo => (handled (areHandled_append.mp handledToo).1).elim
    case pos =>
      rcases performed handled with ⟨_, ⟨⟩⟩ | ⟨compiled, compiles, ⟨_, ⟨⟩⟩ | ⟨_, isApplied⟩⟩
      rcases isApplied.known with ⟨session', known', isFor'⟩
      refine (tells_test known' isFor' compiles).bind ?_ ?_
      · intro reads host₂ isPassed tested
        rcases tellsCode isPassed host₂ with ⟨host₃, done⟩
        refine (tells_of_done done).mpr fun handledToo => ?_
        rw [List.append_nil] at handledToo ⊢
        rcases tested (areHandled_append.mp handledToo).2 with
          ⟨_, _, _, ⟨⟩⟩ | ⟨_, ⟨⟩, asked, passed⟩
        exact .tested compiles isApplied.applies asked passed
      · intro reads host₂ failure tested handledToo
        rcases tested (areHandled_append.mp handledToo).2 with ⟨rfl, _⟩ | ⟨_, ⟨⟩, _⟩
        rw [List.append_nil]
        exact .failed fun exchange among => isListing_eq_false (asksNothing exchange among)
  · rintro applying host₁ failure ⟨_, asksNothing⟩ _
    exact .failed fun exchange among => isListing_eq_false (asksNothing exchange among)

/-- Sessions of settings that are still those in their file start and reload with them. -/
theorem settings_of_requestOf {command : ConsoleCommand}
    (requests : requestOf command = some request) (isFor : session.IsFor settings)
    (stays : ∀ path ∈ settings.source,
      Settings.ofFile host.locations host.files path = .ok settings) :
    request.settings host session = .ok (some settings) := by
  cases command with
  | start =>
      cases requests
      exact congrArg (Except.ok ∘ some) isFor.own
  | reload =>
      cases requests
      unfold Request.settings
      rw [isFor.own]
      cases isSource : settings.source with
      | none => rfl
      | some path => exact congrArg (some <$> ·) (stays path isSource)
  | _ => cases requests

/-- What was logged does not matter to a request. -/
theorem settings_of_log (request : Request) (host : Host) (session : Session)
    (log : List LogRecord) :
    request.settings { host with log := log } session = request.settings host session := by
  cases request with
  | start => rfl
  | stop => rfl
  | reload given =>
      cases given with
      | none => rfl
      | some settings => rfl

theorem tells_perform_request {command : ConsoleCommand}
    (requests : requestOf command = some request) (polls : Nat)
    (known : host.sessions[id]? = some session) (isFor : session.IsFor settings)
    (asks : request.settings host session = .ok (some settings))
    (accepted : Settings.ofDocument locations document source = .ok settings) :
    (perform polls command id).Tells host fun exchanges _ result =>
      AreHandled exchanges → IsConcluded settings exchanges result := by
  rcases perform_eq requests polls known with ⟨log, finish, tellsCode, performs⟩
  have known₁ : ({ host with log := log } : Host).sessions[id]? = some session := known
  rw [← settings_of_log request host session log] at asks
  intro exchanges host' result told
  rw [performs] at told
  exact tells_concluded tellsCode known₁ isFor asks accepted _ _ _ told

/-- A command that applies settings, in a session of settings that are still those in their
file. -/
theorem tells_perform {command : ConsoleCommand} (applies : isApplying command = true)
    (polls : Nat) (known : host.sessions[id]? = some session) (isFor : session.IsFor settings)
    (accepted : Settings.ofDocument locations document source = .ok settings)
    (stays : ∀ path ∈ settings.source,
      Settings.ofFile host.locations host.files path = .ok settings) :
    (perform polls command id).Tells host fun exchanges _ result =>
      AreHandled exchanges → IsConcluded settings exchanges result := by
  cases command with
  | start =>
      have requests : requestOf .start = some .start := rfl
      have asks := settings_of_requestOf requests isFor stays
      exact tells_perform_request requests polls known isFor asks accepted
  | restart =>
      refine ((Request.tells_stop known isFor).and
        ((AsksNothing.perform .stop id).tells host)).bind ?_ ?_
      · rintro before host₁ value ⟨stopped, asksNothing⟩ exchanges host₂ result told handled
        rcases areHandled_append.mp handled with ⟨handledFirst, handledLater⟩
        rcases stopped handledFirst with ⟨_, ⟨⟩⟩ | ⟨session', known', isFor'⟩
        have requests : requestOf .start = some .start := rfl
        have asks : Request.start.settings host₁ session' = .ok (some settings) :=
          congrArg (Except.ok ∘ some) isFor'.own
        have started := tells_perform_request requests polls known' isFor' asks accepted _ _ _ told
          handledLater
        exact started.after fun exchange among => isListing_eq_false (asksNothing exchange among)
      · rintro before host₁ failure ⟨_, asksNothing⟩ _
        exact .failed fun exchange among => isListing_eq_false (asksNothing exchange among)
  | reload =>
      have requests : requestOf .reload = some (.reload none) := rfl
      have asks := settings_of_requestOf requests isFor stays
      exact tells_perform_request requests polls known isFor asks accepted
  | stop => cases applies
  | status isJson => cases applies
  | monitor interval => cases applies
  | test => cases applies
  | save path => cases applies
  | help => cases applies

end Concluded

end Console

end UplinkShaper
