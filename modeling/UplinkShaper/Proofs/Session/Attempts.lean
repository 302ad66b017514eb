import UplinkShaper.Proofs.Session.InStep

/-!
Attempts to apply settings. Each of them tears down what there is and takes the steps of
the plan. In the end the session has applied what the kernel holds, or neither has
anything.
-/

namespace UplinkShaper

namespace Host

variable {ρ : Type} {responder : Procedure.Responder ρ Host} {memory : ρ} {host : Host}
  {id : SessionId} {session : Session}

theorem ends_session_bind {next : Session → HostOperation α}
    {after : ρ → Host → Except Failure α → Prop} (known : host.sessions[id]? = some session) :
    (Host.session id >>= next).Ends responder memory host after ↔
      (next session).Ends responder memory host after := by
  unfold Host.session
  rw [bind_assoc, Operation.ends_get_bind, known]
  rfl

theorem ends_changeSession_bind {change : Session → Session} {next : Unit → HostOperation α}
    {after : ρ → Host → Except Failure α → Prop} :
    (changeSession id change >>= next).Ends responder memory host after ↔
      (next ()).Ends responder memory
        { host with sessions := host.sessions.modify id change } after :=
  Iff.rfl

theorem getElem?_modify {change : Session → Session} (known : host.sessions[id]? = some session) :
    (host.sessions.modify id change)[id]? = some (change session) := by
  rw [List.getElem?_modify_eq, known]
  rfl

theorem getElem?_logged (known : host.sessions[id]? = some session) (record : LogRecord) :
    (host.logged record).sessions[id]? = some session := by
  rw [logged_sessions, known]

end Host

open Kernel Machine

namespace Session

variable {script : FailureScript} {machine : Machine} {host : Host} {id : SessionId}
  {session : Session} {base : Kernel} {part : Part}

theorem ends_teardown {settings : Settings} (known : host.sessions[id]? = some session)
    (backends : session.backends = settings.backends) (free : base.IsFree settings.chain)
    (holds : machine.kernel = base.holding settings.device settings.chain part) :
    (teardown id).Ends (answer script) machine host
      (Leaves settings base host Part.nothing) := by
  apply (Host.ends_session_bind known).mpr
  rw [backends]
  exact Machine.ends_teardown free holds

/-- What an attempt makes of the result of a plan. -/
def attempted : Except Failure Unit → Except Failure (Option CommandFailure)
  | .ok _ => .ok none
  | .error (.apply failure) => .ok (some failure)
  | .error failure => .error failure

theorem attemptOnce_eq (id : SessionId) (target : Target) :
    attemptOnce id target = (do
      teardown id
      Operation.andThen (do (← Host.session id).backends.execute target.compiled.plan) fun result =>
        Operation.ofResult (attempted result)) := by
  simp only [attemptOnce]
  apply congrArg (teardown id >>= ·)
  funext _
  rw [← bind_assoc]
  refine Operation.andThen_three fun result => ?_
  cases result with
  | ok value => rfl
  | error failure =>
      cases failure with
      | apply failure => rfl
      | _ => rfl

theorem ends_attemptOnce {target : Target} {last : Part}
    (known : host.sessions[id]? = some session)
    (backends : session.backends = target.settings.backends)
    (free : base.IsFree target.settings.chain)
    (built : PlanStep.BuildAll target.compiled.plan.steps Part.nothing last)
    (holds : machine.kernel = base.holding target.settings.device target.settings.chain part) :
    (attemptOnce id target).Ends (answer script) machine host fun machine' host' result =>
      Holds target.settings base host last machine' host' (result = .ok none)
        (script.MayFail ∧ ∃ failure, result = .ok (some failure)) := by
  rw [attemptOnce_eq]
  apply Leaves.bind (ends_teardown known backends free holds)
  intro machine₁ host₁ sessions₁ holds₁
  have known₁ : host₁.sessions[id]? = some session := by rw [sessions₁, known]
  apply Operation.ends_andThen.mpr
  apply (Host.ends_session_bind known₁).mpr
  rw [backends]
  apply (ends_takeAll free built target.compiled.plan.steps.length holds₁).weaken
  intro machine₂ host₂ result ended
  rcases ended with ⟨sessions₂, ⟨succeeded, holds₂⟩ | ⟨⟨mayFail, failure, failed⟩, left⟩⟩
  · rw [succeeded]
    exact ⟨sessions₂.trans sessions₁, .inl ⟨rfl, holds₂⟩⟩
  · rw [failed]
    exact ⟨sessions₂.trans sessions₁, .inr ⟨⟨mayFail, failure, rfl⟩, left⟩⟩

/-- How attempts end: the session has applied what the kernel holds, or nothing of either
is left. -/
inductive Ended (id : SessionId) (target : Target) (base : Kernel) (host : Host) (part : Part)
    (machine' : Machine) (host' : Host) (result : Except Failure Unit) : Prop
  | built (moment : Moment) :
      host'.sessions = host.sessions.modify id (fun session => session.built target moment) →
        machine'.kernel = base.holding target.settings.device target.settings.chain part →
          result = .ok () → Ended id target base host part machine' host' result
  | cleared (failure : Failure) : host'.sessions = host.sessions.modify id Session.cleared →
      machine'.kernel = base.holding target.settings.device target.settings.chain Part.nothing →
        result = .error failure → Ended id target base host part machine' host' result

theorem Ended.of_sessions {target : Target} {host₁ : Host} {machine' : Machine} {host' : Host}
    {result : Except Failure Unit} (same : host₁.sessions = host.sessions)
    (ended : Ended id target base host₁ part machine' host' result) :
    Ended id target base host part machine' host' result := by
  cases ended with
  | built moment sessions holds succeeded => exact .built moment (same ▸ sessions) holds succeeded
  | cleared failure sessions holds failed => exact .cleared failure (same ▸ sessions) holds failed

theorem ends_abandon {target : Target} {last : Part} (known : host.sessions[id]? = some session)
    (backends : session.backends = target.settings.backends)
    (free : base.IsFree target.settings.chain) (failure : Failure)
    (holds : machine.kernel = base.holding target.settings.device target.settings.chain part) :
    (abandon id target failure).Ends (answer script) machine host
      (Ended id target base host last) := by
  apply Leaves.bind (ends_teardown known backends free holds)
  intro machine₁ host₁ sessions₁ holds₁
  apply Ended.cleared failure ?_ holds₁ rfl
  rw [← sessions₁]
  exact Host.logged_sessions _ _

theorem ends_succeed {responder : Procedure.Responder Machine Host} {target : Target}
    (holds : machine.kernel = base.holding target.settings.device target.settings.chain part) :
    (succeed id target).Ends responder machine host (Ended id target base host part) :=
  .built host.now (Host.logged_sessions _ _) holds rfl

theorem ends_attemptUpTo {target : Target} {last : Part}
    (known : host.sessions[id]? = some session)
    (backends : session.backends = target.settings.backends)
    (free : base.IsFree target.settings.chain)
    (builds : PlanStep.BuildAll target.compiled.plan.steps Part.nothing last) (total : Nat)
    (failure : Failure) (count : Nat)
    (holds : machine.kernel = base.holding target.settings.device target.settings.chain part) :
    (attemptUpTo id target total failure count).Ends (answer script) machine host
      (Ended id target base host last) := by
  induction count generalizing machine host part failure with
  | zero => exact ends_abandon known backends free failure holds
  | succ count induction =>
      apply (ends_attemptOnce known backends free builds holds).bind
      · intro machine₁ host₁ outcome ended
        rcases ended with ⟨sessions₁, ⟨succeeded, holds₁⟩ | ⟨⟨_, reason, failed⟩, left, holds₁⟩⟩
        · cases succeeded
          exact (ends_succeed holds₁).weaken fun _ _ _ ended => ended.of_sessions sessions₁
        · cases failed
          let attempt := s!"Applying shaping plan failed (attempt {total - count}/{total}): "
          let shown := LogRecord.error (attempt ++ reason.applyMessage)
          have known₁ := Host.getElem?_logged (sessions₁ ▸ known) shown
          apply (induction known₁ (.apply reason) holds₁).weaken
          intro _ _ _ ended
          exact ended.of_sessions ((host₁.logged_sessions shown).trans sessions₁)
      · intro _ _ _ ended
        rcases ended with ⟨_, ⟨impossible, _⟩ | ⟨⟨_, _, impossible⟩, _⟩⟩
        · cases impossible
        · cases impossible

/-! ## Ready sessions -/

variable {requested : Settings → Prop} {initial : Kernel}

/-- The session is ready for more, and something holds of it. -/
def LeavesReady (requested : Settings → Prop) (initial : Kernel) (id : SessionId)
    (machine' : Machine) (host' : Host) (holds : Session → Prop) : Prop :=
  ∃ session', host'.sessions[id]? = some session' ∧
    session'.IsReady requested initial machine'.kernel ∧ holds session'

/-- Settings were applied by a session. -/
def HasApplied (settings : Settings) (session : Session) : Prop :=
  session.settings = settings ∧ session.applied.isSome = true

theorem ends_attemptAll {target : Target} (known : host.sessions[id]? = some session)
    (bound : session.IsBound requested) (isRequested : requested target.settings)
    (backends : session.backends = target.settings.backends)
    (binding : session.binding = target.settings.binding)
    (proper : target.settings.IsProper initial)
    (below : target.settings.capacity.rate < Double.bound)
    (compiles : Compiled.ofSettings target.settings (session.roundTripFor target.settings) =
      .ok target.compiled)
    (rest : base.IsRestOf initial)
    (holds : machine.kernel = base.holding target.settings.device target.settings.chain part) :
    (attemptAll id target).Ends (answer script) machine host fun machine' host' result =>
      LeavesReady requested initial id machine' host' fun session' =>
        result = .ok () → session'.HasApplied target.settings := by
  rcases proper.exists_buildAll below compiles with ⟨last, held, builds⟩
  rcases proper.retries with ⟨retries, isWhole⟩
  simp only [attemptAll]
  rw [isWhole]
  apply (ends_attemptUpTo known backends (rest.isFree proper.free) builds _ _ _ holds).weaken
  intro machine' host' result ended
  cases ended with
  | built moment sessions holds' succeeded =>
      refine ⟨session.built target moment, ?_, ⟨?_, bound.movable, isRequested, ?_⟩,
        fun _ => ⟨rfl, rfl⟩⟩
      · rw [sessions]
        exact Host.getElem?_modify known
      · exact ⟨backends, compiles, base, last, rest, held, holds'⟩
      · exact ⟨target.settings, isRequested, backends, binding⟩
  | cleared failure sessions holds' failed =>
      refine ⟨session.cleared, ?_, ?_, ?_⟩
      · rw [sessions]
        exact Host.getElem?_modify known
      · rw [holds']
        exact bound.isReady_cleared backends proper.free rest
      · rw [failed]
        intro impossible
        cases impossible

/-- What is ready stays ready while only other things change. -/
theorem LeavesReady.of_quiet {holds holds' : Session → Prop} {machine' : Machine} {host' : Host}
    (ready : LeavesReady requested initial id machine host holds)
    (quiet : machine' = machine ∧ host'.sessions = host.sessions)
    (weaker : ∀ session, holds session → holds' session) :
    LeavesReady requested initial id machine' host' holds' := by
  rcases ready with ⟨session, known, isReady, isHeld⟩
  exact ⟨session, quiet.2 ▸ known, quiet.1 ▸ isReady, weaker session isHeld⟩

end Session

end UplinkShaper
