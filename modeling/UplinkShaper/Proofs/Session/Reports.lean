import UplinkShaper.Proofs.Session.Observing
import UplinkShaper.Proofs.Session.Outcomes

/-!
What a session reports. A class tree, rules and a plan that a session has applied were
compiled from the settings it has, and its labels, its device and its binding belong to these
settings too. Requests keep this up, however they end, and looking at the session does not
touch it; only a capacity without a finite double breaks it, where backends were moved.
-/

namespace UplinkShaper

open Operation

/-! ## Uses of a session -/

/-- What can be done with a session. A poll is one round of a watch. -/
inductive Use
  | asked (request : Request)
  | snapshot
  | poll (interval : Number)
  | watch (interval : Number) (polls : Nat)
  | read (what : String)
  | verify
  | describe
  | save (target : Option Path) (hasListings : Bool)

namespace Use

def perform (id : SessionId) : Use → HostOperation Unit
  | .asked request => request.perform id
  | .snapshot => do let _ ← Session.snapshot id
  | .poll interval => do let _ ← Session.poll id interval
  | .watch interval polls => do let _ ← Session.watch id interval polls fun _ => return
  | .read what => do let _ ← Session.read id what
  | .verify => do let _ ← Session.verify id
  | .describe => do let _ ← Session.describe id
  | .save target hasListings => do let _ ← Session.save id target hasListings

def IsAllowed (requested : Settings → Prop) (host : Host) (session : Session) : Use → Prop
  | .asked request => request.IsAllowed requested host session
  | _ => True

/-- Whatever is no request only looks at the session. -/
theorem asked_or_observes (use : Use) (id : SessionId) :
    (∃ request, use = .asked request) ∨ Observes id (use.perform id) := by
  have ignoring {α : Type} {operation : HostOperation α} (observes : Observes id operation) :
      Observes id (do let _ ← operation : HostOperation Unit) :=
    observes.bind fun _ => .pure ()
  cases use with
  | asked request => exact .inl ⟨request, rfl⟩
  | snapshot => exact .inr (ignoring .snapshot)
  | poll interval => exact .inr (ignoring (.poll interval))
  | watch interval polls => exact .inr (ignoring (.watch interval polls fun _ => .pure ()))
  | read what => exact .inr (ignoring (.read what))
  | verify => exact .inr (ignoring .verify)
  | describe => exact .inr (ignoring (.of_quiet (Session.isQuiet_describe id)))
  | save target hasListings => exact .inr (ignoring (.save target hasListings))

end Use

namespace Session

/-! ## Making sessions -/

/-- A session as it is made, with backends for its settings or with given ones in place of
either. Other backends are made when settings move, if there is a factory for them or none
were given. A collector without the name of a device takes that of its backend. -/
def constructed (settings : Settings) (shaper : Option Shaper) (marking : Option Marking)
    (hasFactory : Bool) (roundTrip : Option Number) (labels : Labels) : Session where
  settings := settings
  shaper := shaper.getD settings.shaper
  marking := marking.getD settings.marking
  isMovable := hasFactory || (shaper.isNone && marking.isNone)
  binding := settings.binding
  roundTrip := roundTrip.getD settings.roundTrip
  isWriting := false
  applied := none
  latest := none
  labels := labels
  device := if settings.device = "" then (shaper.getD settings.shaper).device else settings.device

theorem constructed_eq_fresh (settings : Settings) (roundTrip : Option Number) (labels : Labels) :
    constructed settings none none false roundTrip labels = fresh settings .made roundTrip labels := by
  have device : (if settings.device = "" then settings.shaper.device else settings.device) =
      settings.device := ite_self _
  simp only [constructed, fresh, Option.getD_none, Option.isNone_none, device]
  rfl

theorem constructed_device {settings : Settings} {shaper : Option Shaper}
    (named : settings.device = "" → ∀ given ∈ shaper, given.device = "")
    {marking : Option Marking} {hasFactory : Bool} {roundTrip : Option Number} {labels : Labels} :
    (constructed settings shaper marking hasFactory roundTrip labels).device = settings.device := by
  change (if settings.device = "" then (shaper.getD settings.shaper).device else settings.device) = _
  by_cases unnamed : settings.device = ""
  · rw [if_pos unnamed, unnamed]
    cases shaper with
    | none => exact unnamed
    | some given => exact named unnamed given rfl
  · exact if_neg unnamed

/-! ## What is reported -/

/-- What a session has applied is what its settings compile to, and everything else that it
tells belongs to these settings. -/
structure Tells (session : Session) (applied : Applied) : Prop where
  compiles : Compiled.ofSettings session.settings (session.roundTripFor session.settings) =
    .ok applied.compiled
  roundTrip : session.roundTripFor session.settings = session.settings.roundTrip ∨
    (session.roundTripFor session.settings).eq session.settings.roundTrip = true
  labels : session.labels = applied.compiled.tree.labels
  device : session.device = session.settings.device
  binding : session.binding = session.settings.binding

/-- A session that can be asked for more, and tells what it has applied. -/
structure IsTruthful (requested : Settings → Prop) (session : Session) : Prop where
  settings : requested session.settings
  device : session.device = session.binding.device
  tells : ∀ applied ∈ session.applied, session.Tells applied

/-- What hosts come to where a session is made and used, and others come between. -/
inductive IsUsed (requested : Settings → Prop) (id : SessionId) : Host → Prop
  | made {host : Host} {settings : Settings} {shaper : Option Shaper} {marking : Option Marking}
      {hasFactory : Bool} {roundTrip : Option Number} {labels : Labels} : requested settings →
      (settings.device = "" → ∀ given ∈ shaper, given.device = "") →
        host.sessions[id]? =
          some (constructed settings shaper marking hasFactory roundTrip labels) →
            IsUsed requested id host
  | used {ρ : Type} {runner : Runner ρ} {memory : ρ} {memory' : ρ × List Exchange}
      {host host' : Host} {session : Session} {use : Use} {result : Except Failure Unit} :
      IsUsed requested id host → host.sessions[id]? = some session →
        use.IsAllowed requested host session → runner.IsHandled →
          (use.perform id).run (recording runner) (memory, []) host = (memory', host', result) →
            IsUsed requested id host'
  | meanwhile {host host' : Host} : IsUsed requested id host →
      host'.sessions[id]? = host.sessions[id]? → IsUsed requested id host'

/-- However a session is used, what it has applied is what it tells about, and what it is
described by. -/
def StaysTruthful (requested : Settings → Prop) : Prop :=
  ∀ id host, IsUsed requested id host →
    ∃ session, host.sessions[id]? = some session ∧ ∀ applied ∈ session.applied,
      session.Tells applied ∧
        describe id host = .done host (.ok (session.description applied.compiled))

variable {ρ : Type} {runner : Runner ρ} {host : Host} {id : SessionId} {session : Session}
  {requested : Settings → Prop} {settings : Settings}

theorem roundTripFor_cases (session : Session) (settings : Settings) :
    session.roundTripFor settings = settings.roundTrip ∨
      (session.roundTripFor settings).eq settings.roundTrip = true := by
  unfold roundTripFor
  split
  · rename_i same
    exact .inr same
  · exact .inl rfl

theorem describe_eq_done (known : host.sessions[id]? = some session) {applied : Applied}
    (isApplied : applied ∈ session.applied) :
    describe id host = .done host (.ok (session.description applied.compiled)) := by
  rw [describe, Host.session_bind_apply known, Option.mem_def.mp isApplied]
  rfl

theorem bound_binding (session : Session) (settings : Settings) :
    (session.bound settings).binding = settings.binding := by
  unfold bound
  split
  · rename_i same
    exact same.symm
  · rfl

theorem bound_device (isBound : session.device = session.binding.device) :
    (session.bound settings).device = settings.device := by
  unfold bound
  split
  · rename_i same
    rw [isBound, ← same]
    rfl
  · rfl

theorem bound_settings (session : Session) (settings : Settings) :
    (session.bound settings).settings = session.settings := by
  unfold bound
  split
  · rfl
  · rfl

theorem bound_roundTripFor (session : Session) (settings next : Settings) :
    (session.bound settings).roundTripFor next = session.roundTripFor next := by
  unfold bound
  split
  · rfl
  · rfl

/-! ## Truthful sessions -/

namespace IsTruthful

theorem of_constructed (isRequested : requested settings) {shaper : Option Shaper}
    (named : settings.device = "" → ∀ given ∈ shaper, given.device = "")
    (marking : Option Marking) (hasFactory : Bool) (roundTrip : Option Number) (labels : Labels) :
    (constructed settings shaper marking hasFactory roundTrip labels).IsTruthful requested :=
  ⟨isRequested, constructed_device named, fun _ impossible => nomatch impossible⟩

/-- Neither a reconfiguration under way nor the counters matter. -/
theorem ignores (truthful : session.IsTruthful requested) (isWriting : Bool)
    (latest : Option Snapshot) :
    { session with isWriting := isWriting, latest := latest }.IsTruthful requested := by
  refine ⟨truthful.settings, truthful.device, fun applied isApplied => ?_⟩
  have tells := truthful.tells applied isApplied
  exact ⟨tells.compiles, tells.roundTrip, tells.labels, tells.device, tells.binding⟩

theorem cleared (truthful : session.IsTruthful requested) :
    session.cleared.IsTruthful requested :=
  ⟨truthful.settings, truthful.device, fun _ impossible => nomatch impossible⟩

theorem built {target : Target} (isRequested : requested target.settings)
    (compiles : Compiled.ofSettings target.settings (session.roundTripFor target.settings) =
      .ok target.compiled)
    (device : session.device = target.settings.device)
    (binding : session.binding = target.settings.binding) (moment : Moment) :
    (session.built target moment).IsTruthful requested := by
  refine ⟨isRequested, ?_, ?_⟩
  · change session.device = session.binding.device
    rw [device, binding]
    rfl
  · rintro _ ⟨⟩
    exact ⟨compiles, roundTripFor_cases session target.settings, rfl, device, binding⟩

end IsTruthful

end Session

namespace Settings

/-- Settings that were accepted, with a whole number of retries. -/
structure IsAsked (settings : Settings) : Prop where
  accepted : ∃ locations document source, ofDocument locations document source = .ok settings
  retries : ∃ retries : Int, settings.retries = .whole retries

theorem isAsked_of_isPlain {document : Value} {settings : Settings}
    (accepted : ofDocument .system document none = .ok settings)
    (isPlain : settings.isPlain = true) : settings.IsAsked :=
  let proper := isProper_of_isPlain accepted isPlain
  ⟨proper.accepted, proper.retries⟩

end Settings

namespace Session

variable {ρ : Type} {runner : Runner ρ} {host : Host} {id : SessionId} {session : Session}
  {requested : Settings → Prop}

/-- Settings that may be requested: accepted ones, whose capacity has a finite double. -/
def IsServed (requested : Settings → Prop) : Prop :=
  ∀ settings, requested settings → settings.IsAsked ∧ settings.capacity.rate < Double.bound

/-- Attempts for settings whose capacity has a finite double leave a session truthful. -/
theorem ends_carryOut_truthful {target : Target} (isHandled : runner.IsHandled)
    (known : host.sessions[id]? = some { session with isWriting := true })
    (truthful : session.IsTruthful requested) (isRequested : requested target.settings)
    (served : IsServed requested)
    (compiles : Compiled.ofSettings target.settings (session.roundTripFor target.settings) =
      .ok target.compiled) (memory : ρ) :
    (session.carryOut id (some target)).Ends (recording runner) (memory, []) host
      fun _ host' _ => ∃ session', host'.sessions[id]? = some session' ∧
        { session' with isWriting := false }.IsTruthful requested := by
  rcases served target.settings isRequested with ⟨⟨⟨_, _, _, accepted⟩, retries, isWhole⟩, below⟩
  have nonneg := Settings.retries_nonneg_of_ofDocument accepted isWhole
  have writable := Compiled.isWritable_attemptOrders accepted compiles below
    (session.backendsFor target.settings)
  have left := (ends_carryOut_outcome isHandled known nonneg isWhole memory).and
    (ends_carryOut_result isHandled known nonneg isWhole writable memory)
  apply left.weaken
  rintro _ host' result ⟨⟨session', known', outcome⟩, isResult⟩
  let bound := { session with isWriting := true }.bound target.settings
  have device : bound.device = target.settings.device := bound_device truthful.device
  have binding : bound.binding = target.settings.binding := bound_binding _ _
  have truthful' : session'.IsTruthful requested := by
    cases outcome with
    | built moment =>
        have isCompiled : Compiled.ofSettings target.settings
            (bound.roundTripFor target.settings) = .ok target.compiled :=
          (congrArg _ (bound_roundTripFor _ _ _)).trans compiles
        exact .built isRequested isCompiled device binding moment
    | cleared reason =>
        refine ⟨?_, ?_, fun _ impossible => nomatch impossible⟩
        · change requested bound.settings
          rw [bound_settings]
          exact truthful.settings
        · change bound.device = bound.binding.device
          rw [device, binding]
          rfl
    | kept isOther =>
        rcases isResult with ⟨⟨⟩⟩ | ⟨reason, ⟨⟩⟩
        exact absurd rfl (isOther reason)
  exact ⟨session', known', truthful'.ignores false session'.latest⟩

/-- A request leaves a session truthful, however it ends. -/
theorem IsTruthful.ends_perform {request : Request} (truthful : session.IsTruthful requested)
    (isHandled : runner.IsHandled) (known : host.sessions[id]? = some session)
    (allowed : request.IsAllowed requested host session) (served : IsServed requested)
    (memory : ρ) :
    (request.perform id).Ends (recording runner) (memory, []) host fun _ host' _ =>
      ∃ session', host'.sessions[id]? = some session' ∧ session'.IsTruthful requested := by
  apply Request.ends_perform_left known truthful
  intro target host₁ isPrepared working
  cases target with
  | none =>
      apply (ends_carryOut_none isHandled working session memory).weaken
      rintro _ host' _ ⟨known', _⟩
      exact ⟨_, known', truthful.cleared.ignores false session.latest⟩
  | some target =>
      have asks := (Request.settings_of_prepared isPrepared).1
      exact ends_carryOut_truthful isHandled working truthful
        (Request.requested_of_settings truthful.settings allowed asks) served
        (Request.compiles_of_prepared isPrepared) memory

/-- Every use leaves a session truthful. -/
theorem IsTruthful.ends_use {use : Use} (truthful : session.IsTruthful requested)
    (isHandled : runner.IsHandled) (known : host.sessions[id]? = some session)
    (allowed : use.IsAllowed requested host session) (served : IsServed requested) (memory : ρ) :
    (use.perform id).Ends (recording runner) (memory, []) host fun _ host' _ =>
      ∃ session', host'.sessions[id]? = some session' ∧ session'.IsTruthful requested := by
  rcases use.asked_or_observes id with ⟨request, rfl⟩ | observes
  · exact truthful.ends_perform isHandled known allowed served memory
  · apply (observes ρ runner memory [] host session known).weaken
    rintro _ host' _ ⟨latest, known'⟩
    exact ⟨_, known', truthful.ignores session.isWriting latest⟩

theorem IsUsed.after (used : IsUsed requested id host) (use : Use)
    (known : host.sessions[id]? = some session) (allowed : use.IsAllowed requested host session)
    (isHandled : runner.IsHandled) (memory : ρ) :
    IsUsed requested id ((use.perform id).run (recording runner) (memory, []) host).2.1 := by
  have ran : (use.perform id).run (recording runner) (memory, []) host = (_, _, _) := rfl
  exact used.used known allowed isHandled ran

theorem IsUsed.isTruthful (used : IsUsed requested id host) (served : IsServed requested) :
    ∃ session, host.sessions[id]? = some session ∧ session.IsTruthful requested := by
  induction used with
  | @made host settings shaper marking hasFactory roundTrip labels isRequested named known =>
      exact ⟨_, known, .of_constructed isRequested named marking hasFactory roundTrip labels⟩
  | @used ρ runner memory memory' host host' session use result _ known allowed isHandled ran
      induction =>
      rcases induction with ⟨same, found, truthful⟩
      cases known.symm.trans found
      have ends := truthful.ends_use isHandled known allowed served memory
      rw [Ends, ran] at ends
      exact ends
  | meanwhile _ same induction =>
      rcases induction with ⟨session, known, truthful⟩
      exact ⟨session, same.trans known, truthful⟩

theorem staysTruthful_of_served (served : IsServed requested) : StaysTruthful requested := by
  intro id host used
  rcases used.isTruthful served with ⟨session, known, truthful⟩
  exact ⟨session, known, fun applied isApplied =>
    ⟨truthful.tells applied isApplied, describe_eq_done known isApplied⟩⟩

/-! ## Sessions that are moved in vain -/

/-- A session can be started with some settings, and be asked for others that move it. -/
structure CanMove (settings next : Settings) : Prop where
  below : settings.capacity.rate < Double.bound
  moves : next.binding ≠ settings.binding
  compiles : ∃ compiled, Compiled.ofSettings settings settings.roundTrip = .ok compiled
  compilesNext : ∃ compiled,
    Compiled.ofSettings next ((fresh settings .made none []).roundTripFor next) = .ok compiled
  host : ∃ host id, CanStart settings host id

/-- A first start whose commands all succeed. -/
theorem ends_start_obliging (target : Target) (asked : target.settings.IsAsked)
    (below : target.settings.capacity.rate < Double.bound)
    (compiles : Compiled.ofSettings target.settings target.settings.roundTrip =
      .ok target.compiled) (canStart : CanStart target.settings host id) :
    (Request.start.perform id).Ends (recording Request.obliging) ((), []) host fun _ host' _ =>
      ∃ session', host'.sessions[id]? = some session' ∧
        ∃ moment, session' = (fresh target.settings .made none []).built target moment := by
  rcases asked with ⟨⟨_, _, _, accepted⟩, retries, isWhole⟩
  have nonneg := Settings.retries_nonneg_of_ofDocument accepted isWhole
  have isPrepared := Request.prepared_start_fresh compiles host
  have underway := Request.isCommand_of_prepared canStart.known isPrepared rfl canStart.lockable
    nonneg isWhole
  apply Request.ends_perform_underway canStart.known isPrepared underway
  intro host₁ working
  have tried := (ends_carryOut_outcome (fun _ _ => rfl) working nonneg isWhole ()).and
    (ends_carryOut_obliging working nonneg isWhole)
  apply tried.weaken
  rintro _ host₂ result ⟨⟨session₂, known₂, outcome⟩, exchanges, count, tries, noFailure⟩
  rcases tries.runs_of_writable (Compiled.isWritable_attemptOrders accepted compiles below _)
    noFailure with ⟨succeeded, _⟩
  have stays : { fresh target.settings .made none [] with isWriting := true }.bound
      target.settings = { fresh target.settings .made none [] with isWriting := true } :=
    if_pos rfl
  rw [stays] at outcome
  refine ⟨session₂, known₂, ?_⟩
  cases outcome with
  | built moment => exact ⟨moment, rfl⟩
  | cleared reason => cases succeeded
  | kept isOther => cases succeeded

/-- A move to settings with a vast capacity, where all commands succeed. -/
theorem ends_reload_obliging (target : Target) (known : host.sessions[id]? = some session)
    (isIdle : session.isWriting = false) (lockable : session.IsLockable host)
    (movable : session.isMovable = true) (asked : target.settings.IsAsked)
    (above : Double.bound ≤ target.settings.capacity.rate)
    (moves : target.settings.binding ≠ session.binding)
    (compiles : Compiled.ofSettings target.settings (session.roundTripFor target.settings) =
      .ok target.compiled) :
    ((Request.reload (some target.settings)).perform id).Ends (recording Request.obliging) ((), [])
      host fun _ host' _ => ∃ session', host'.sessions[id]? = some session' ∧
        session' = session.moved target.settings := by
  rcases asked with ⟨⟨_, _, _, accepted⟩, retries, isWhole⟩
  have nonneg := Settings.retries_nonneg_of_ofDocument accepted isWhole
  have isPrepared : (Request.reload (some target.settings)).prepared host session =
      .ok (some target) := by
    have isFree : ¬ (target.settings.binding ≠ session.binding ∧
        (!session.isMovable) = true) := by
      rw [movable]
      exact fun stuck => nomatch stuck.2
    rw [Request.prepared_eq rfl, targetFor, compiles]
    simp only [Result.ok_bind, if_neg isFree]
    rfl
  have underway := Request.isCommand_of_prepared known isPrepared isIdle lockable nonneg isWhole
  apply Request.ends_perform_underway known isPrepared underway
  intro host₁ working
  have tried := (ends_carryOut_outcome (fun _ _ => rfl) working nonneg isWhole ()).and
    (ends_carryOut_obliging working nonneg isWhole)
  apply tried.weaken
  rintro _ host₂ result ⟨⟨session₂, known₂, outcome⟩, exchanges, count, tries, noFailure⟩
  have overflows := tries.eq_overflow compiles above noFailure
  have isMoved : { session with isWriting := true }.bound target.settings =
      { session.moved target.settings with isWriting := true } := if_neg moves
  rw [isMoved] at outcome
  refine ⟨session₂, known₂, ?_⟩
  cases outcome with
  | built moment => cases overflows
  | cleared reason => cases overflows
  | kept isOther =>
      have idle : { session with isWriting := false } = session := by rw [← isIdle]
      exact congrArg (Session.moved · target.settings) idle

theorem not_staysTruthful {settings next : Settings} (isRequested : requested settings)
    (isNextRequested : requested next) (asked : settings.IsAsked) (askedNext : next.IsAsked)
    (above : Double.bound ≤ next.capacity.rate) (canMove : CanMove settings next) :
    ¬ StaysTruthful requested := by
  intro stays
  have obliges : Request.obliging.IsHandled := fun _ _ => rfl
  rcases canMove.compiles with ⟨compiled, compiles⟩
  rcases canMove.compilesNext with ⟨compiledNext, compilesNext⟩
  rcases canMove.host with ⟨host, id, canStart⟩
  have made : IsUsed requested id host := by
    apply @IsUsed.made requested id host settings none none false none [] isRequested
    · exact fun _ _ impossible => nomatch impossible
    · exact canStart.known.trans (congrArg some (constructed_eq_fresh settings none []).symm)
  rcases ends_start_obliging ⟨settings, compiled⟩ asked canMove.below compiles canStart with
    ⟨_, known₁, moment, rfl⟩
  have started := made.after (.asked .start) canStart.known trivial obliges ()
  let first := (fresh settings .made none []).built ⟨settings, compiled⟩ moment
  let host₂ : Host := { host with
    sessions := ((Request.start.perform id).run (recording Request.obliging) ((), [])
      host).2.1.sessions }
  have waited : IsUsed requested id host₂ := started.meanwhile rfl
  have known₂ : host₂.sessions[id]? = some first := known₁
  have lockable : first.IsLockable host₂ :=
    ⟨canStart.lockable.directory, canStart.lockable.writer, canStart.lockable.reader,
      canStart.lockable.files⟩
  rcases ends_reload_obliging ⟨next, compiledNext⟩ known₂ rfl lockable rfl askedNext above
    canMove.moves compilesNext with ⟨_, known₃, rfl⟩
  have reloaded := waited.after (.asked (.reload (some next))) known₂ isNextRequested obliges ()
  rcases stays id _ reloaded with ⟨left, known, tells⟩
  cases known₃.symm.trans known
  exact canMove.moves (tells _ rfl).1.binding

/-- The built-in settings without tiers. -/
def tierlessDocument : Value :=
  .record [("reserved", .list []), ("tiers", .list [])]

/-- Settings without tiers on another device, for a link of more than all doubles. -/
def vastElsewhereDocument : Value :=
  .record [("interfaces", .record [("wan", .text "eth1")]),
    ("bandwidth", .record [("upload_kbps", .whole (10 ^ 309))]), ("reserved", .list []),
    ("tiers", .list [])]

end Session

end UplinkShaper
