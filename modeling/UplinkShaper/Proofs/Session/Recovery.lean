import UplinkShaper.Proofs.Backend.Remains
import UplinkShaper.Proofs.Session.Contention

/-!
Requests in which something is raised at one command, and handled. A session is settled
afterwards, whatever command it is: the attempt that is disturbed builds what it should or gives
way to another one, and those come to an end as always. Only moving away from what is applied
is not tried again.
-/

namespace UplinkShaper

open Kernel Machine

namespace Kernel

variable {base initial : Kernel} {device chain : String} {left : Part}

/-- What is left of a tree that was there before leaves nothing new behind. -/
theorem IsRestOf.holding_left (rest : base.IsRestOf initial) (free : initial.IsFree chain)
    (restOf : left.IsRestOf ⟨base.trees device, none, false⟩) :
    (base.holding device chain left).IsRestOf initial := by
  rcases left with ⟨tree, rules, isHooked⟩
  cases restOf.rules rfl
  cases restOf.isHooked rfl
  rcases restOf.tree with gone | same
  · cases gone
    exact rest.holding_nothing free device
  · cases same
    rw [(rest.isFree free).holding_self]
    exact rest

end Kernel

namespace Session

/-- The kernel holds what a session has applied; or nothing is applied, and no classes, filters,
chains or hooks of the session are there. -/
inductive IsSettled (initial kernel : Kernel) (session : Session) : Prop
  | applied {applied : Applied} {base : Kernel} {part : Part} : session.applied = some applied →
      base.IsRestOf initial → applied.compiled.IsHeld session.settings part →
        kernel = base.holding session.settings.device session.settings.chain part →
          IsSettled initial kernel session
  | cleared : session.applied = none →
      (∀ tree ∈ kernel.trees session.shaper.device, tree.classes = [] ∧ tree.filters = []) →
        kernel.chains session.marking.chain = none →
          (∀ device, (device, session.marking.chain) ∉ kernel.hooks) →
            IsSettled initial kernel session

/-- Whether a reconfiguration is under way does not matter. -/
theorem IsSettled.writing {initial kernel : Kernel} {session : Session} (isWriting : Bool)
    (settled : session.IsSettled initial kernel) :
    { session with isWriting := isWriting }.IsSettled initial kernel := by
  cases settled with
  | applied isApplied rest held holds => exact .applied isApplied rest held holds
  | cleared notApplied noTree noChain noHook => exact .cleared notApplied noTree noChain noHook

/-- Something holds of the kernel and of a session. -/
def EndsWith (holds : Kernel → Session → Prop) (id : SessionId) (machine : Machine) (host : Host) :
    Prop :=
  ∃ session, host.sessions[id]? = some session ∧ holds machine.kernel session

namespace Target

/-- The plan of a target can be carried out, and builds what is to be held. -/
structure CanBuild (target : Target) (base : Kernel) (last : Part) : Prop where
  free : base.IsFree target.settings.chain
  begins : ∃ capacity default rest,
    target.compiled.plan.steps = .root capacity default :: rest
  builds : PlanStep.BuildAll target.compiled.plan.steps Part.nothing last
  held : target.compiled.IsHeld target.settings last

theorem exists_canBuild {initial base : Kernel} {target : Target} {roundTrip : Number}
    (proper : target.settings.IsProper initial)
    (below : target.settings.capacity.rate < Double.bound)
    (compiles : Compiled.ofSettings target.settings roundTrip = .ok target.compiled)
    (free : base.IsFree target.settings.chain) : ∃ last, target.CanBuild base last := by
  rcases proper.exists_buildAll below compiles with ⟨last, held, builds⟩
  rcases Compiled.ofSettings_eq_ok_iff.mp compiles with ⟨_, _, isPlan⟩
  refine ⟨last, free, ?_, builds, held⟩
  rw [isPlan]
  exact ⟨_, _, _, rfl⟩

theorem CanBuild.cleared {target : Target} {base : Kernel} {last : Part}
    (canBuild : target.CanBuild base last) : last.rules.isSome := by
  rcases canBuild.held with ⟨_, _, rfl, _⟩
  rfl

end Target

variable {index : Nat} {isDone : Bool} {raised : Reply} {machine : Machine} {host : Host}
  {id : SessionId} {session : Session} {requested : Settings → Prop} {initial base : Kernel}
  {target : Target} {part last : Part}

/-! ## Attempts -/

theorem ends_teardown_interrupting {settings : Settings} (fails : raised.Fails)
    (known : host.sessions[id]? = some session) (backends : session.backends = settings.backends)
    (free : base.IsFree settings.chain)
    (holds : machine.kernel = base.holding settings.device settings.chain part) :
    (teardown id).Ends (interrupting index isDone raised) machine host
      fun machine' host' result => (host'.sessions = host.sessions ∧
        ∃ left : Part, left.IsRestOf part ∧ (left = Part.nothing ∨ IsPast index machine') ∧
          machine'.kernel = base.holding settings.device settings.chain left) ∧
            result = .ok () := by
  apply (Host.ends_session_bind known).mpr
  rw [backends]
  exact Machine.ends_teardown_interrupting fails free holds

/-- A plan is carried out on whatever a teardown left. -/
theorem ends_execute_interrupting (fails : raised.Fails) (canBuild : target.CanBuild base last)
    (left : part = Part.nothing ∨ IsPast index machine)
    (holds : machine.kernel = base.holding target.settings.device target.settings.chain part) :
    (target.settings.backends.execute target.compiled.plan).Ends
      (interrupting index isDone raised) machine host
        (Reaches (IsPast index) target.settings base host last) := by
  rcases left with rfl | past
  · exact (permits_interrupting fails canBuild.free).ends_takeAll canBuild.free canBuild.builds _
      holds
  · rcases canBuild.begins with ⟨_, _, _, begins⟩
    apply ends_of_past past
    apply ((ends_execute_of_any canBuild.free begins canBuild.builds canBuild.cleared holds).and
      (counts_answer.ends_le _)).weaken
    rintro machine' host' result ⟨⟨sessions, built | ⟨⟨_, failed⟩, held⟩⟩, later⟩
    · exact ⟨sessions, .inl built⟩
    · exact ⟨sessions, .inr ⟨⟨Nat.lt_of_lt_of_le past later, failed⟩, held⟩⟩

theorem ends_attemptOnce_interrupting (fails : raised.Fails)
    (known : host.sessions[id]? = some session)
    (backends : session.backends = target.settings.backends)
    (canBuild : target.CanBuild base last)
    (holds : machine.kernel = base.holding target.settings.device target.settings.chain part) :
    (attemptOnce id target).Ends (interrupting index isDone raised) machine host
      fun machine' host' result =>
        Holds target.settings base host last machine' host' (result = .ok none)
          (IsPast index machine' ∧ ∃ failure, result = .ok (some failure)) := by
  rw [attemptOnce_eq]
  apply (ends_teardown_interrupting fails known backends canBuild.free holds).bind_ok
    fun _ _ _ => And.right
  rintro machine₁ host₁ ⟨⟨sessions₁, left, _, isLeft, holds₁⟩, _⟩
  apply Operation.ends_andThen.mpr
  apply (Host.ends_session_bind (sessions₁ ▸ known)).mpr
  rw [backends]
  apply (ends_execute_interrupting fails canBuild isLeft holds₁).weaken
  rintro machine₂ host₂ result ⟨sessions₂, ⟨rfl, holds₂⟩ | ⟨⟨past, failure, rfl⟩, held⟩⟩
  · exact ⟨sessions₂.trans sessions₁, .inl ⟨rfl, holds₂⟩⟩
  · exact ⟨sessions₂.trans sessions₁, .inr ⟨⟨past, failure, rfl⟩, held⟩⟩

/-- There is one attempt at least. -/
theorem exists_attemptAll_eq (proper : target.settings.IsProper initial) (id : SessionId) :
    ∃ total count, attemptAll id target = attemptUpTo id target total .mismatch (count + 1) := by
  rcases proper.accepted with ⟨_, _, _, accepted⟩
  rcases proper.retries with ⟨retries, isWhole⟩
  have nonneg := Settings.retries_nonneg_of_ofDocument accepted isWhole
  have total : (1 + retries).toNat = retries.toNat + 1 := by omega
  refine ⟨(1 + retries).toNat, retries.toNat, ?_⟩
  simp only [attemptAll, isWhole, total]

/-- An attempt that is disturbed gives way to others, which are not. -/
theorem ends_attemptUpTo_interrupting (fails : raised.Fails)
    (known : host.sessions[id]? = some session)
    (backends : session.backends = target.settings.backends)
    (canBuild : target.CanBuild base last) (total : Nat) (failure : Failure) (count : Nat)
    (holds : machine.kernel = base.holding target.settings.device target.settings.chain part) :
    (attemptUpTo id target total failure (count + 1)).Ends (interrupting index isDone raised)
      machine host (Ended id target base host last) := by
  apply (ends_attemptOnce_interrupting fails known backends canBuild holds).bind
  · rintro machine₁ host₁ outcome
      ⟨sessions₁, ⟨⟨⟩, holds₁⟩ | ⟨⟨past, reason, ⟨⟩⟩, left, holds₁⟩⟩
    · exact (ends_succeed holds₁).weaken fun _ _ _ ended => ended.of_sessions sessions₁
    · let attempt := s!"Applying shaping plan failed (attempt {total - count}/{total}): "
      let shown := LogRecord.error (attempt ++ reason.applyMessage)
      have known₁ := Host.getElem?_logged (sessions₁ ▸ known) shown
      apply (ends_of_past past (ends_attemptUpTo known₁ backends canBuild.free canBuild.builds
        total (.apply reason) count holds₁)).weaken
      intro _ _ _ ended
      exact ended.of_sessions ((host₁.logged_sessions shown).trans sessions₁)
  · rintro _ _ _ ⟨_, ⟨⟨⟩, _⟩ | ⟨⟨_, _, ⟨⟩⟩, _⟩⟩

/-- However attempts end, the session is settled. -/
theorem Ended.isSettled {machine' : Machine} {host' : Host} {result : Except Failure Unit}
    (ended : Ended id target base host last machine' host' result)
    (known : host.sessions[id]? = some session)
    (backends : session.backends = target.settings.backends) (rest : base.IsRestOf initial)
    (canBuild : target.CanBuild base last) : EndsWith (IsSettled initial) id machine' host' := by
  cases ended with
  | built moment sessions holds' _ =>
      refine ⟨session.built target moment, ?_, .applied rfl rest canBuild.held holds'⟩
      rw [sessions]
      exact Host.getElem?_modify known
  | cleared failure sessions holds' _ =>
      have device : session.cleared.shaper.device = target.settings.device :=
        congrArg (·.shaper.device) backends
      have chain : session.cleared.marking.chain = target.settings.chain :=
        congrArg (·.marking.chain) backends
      refine ⟨session.cleared, ?_, .cleared rfl ?_ ?_ ?_⟩
      · rw [sessions]
        exact Host.getElem?_modify known
      · rw [holds', device, holding_trees]
        exact fun _ impossible => nomatch impossible
      · rw [holds', chain, holding_chains]
        rfl
      · intro device
        rw [holds', chain]
        simpa [holding, Part.nothing] using canBuild.free.unhooked device

theorem ends_attemptAll_interrupting (fails : raised.Fails)
    (known : host.sessions[id]? = some session)
    (backends : session.backends = target.settings.backends)
    (proper : target.settings.IsProper initial)
    (below : target.settings.capacity.rate < Double.bound) {roundTrip : Number}
    (compiles : Compiled.ofSettings target.settings roundTrip = .ok target.compiled)
    (rest : base.IsRestOf initial)
    (holds : machine.kernel = base.holding target.settings.device target.settings.chain part) :
    (attemptAll id target).Ends (interrupting index isDone raised) machine host
      fun machine' host' _ => EndsWith (IsSettled initial) id machine' host' := by
  rcases Target.exists_canBuild proper below compiles (rest.isFree proper.free) with
    ⟨last, canBuild⟩
  rcases exists_attemptAll_eq proper id with ⟨total, count, attempts⟩
  rw [attempts]
  apply (ends_attemptUpTo_interrupting fails known backends canBuild _ _ _ holds).weaken
  exact fun _ _ _ ended => ended.isSettled known backends rest canBuild

/-! ## Moving -/

/-- A session does not leave the device and the chain for which something is applied. -/
def Stays (session : Session) (settings : Settings) : Prop :=
  session.applied = none ∨
    settings.device = session.settings.device ∧ settings.chain = session.settings.chain

/-- A disturbed teardown of a session that stays leaves nothing elsewhere. -/
theorem ends_teardown_of_stays (fails : raised.Fails) (known : host.sessions[id]? = some session)
    (ready : session.IsReady requested initial machine.kernel) (admits : Admits requested initial)
    {settings : Settings} (free : initial.IsFree settings.chain) (stays : session.Stays settings) :
    (teardown id).Ends (interrupting index isDone raised) machine host
      fun machine' host' result => (host'.sessions = host.sessions ∧
        ∃ (base : Kernel) (left : Part), base.IsRestOf initial ∧
          machine'.kernel = base.holding settings.device settings.chain left) ∧
            result = .ok () := by
  have inStep := ready.inStep
  cases found : session.applied with
  | none =>
      rcases ready.bound.backends with ⟨old, isRequested, backends, _⟩
      have oldFree := (admits old isRequested).1.free
      have rest : machine.kernel.IsRestOf initial := by
        rw [InStep, found] at inStep
        rcases inStep with same | ⟨rest, _⟩
        · rw [same]
          exact .refl _
        · exact rest
      apply (ends_teardown_interrupting fails known backends (rest.isFree oldFree)
        (rest.isFree oldFree).holding_self.symm).weaken
      rintro machine' host' _ ⟨⟨sessions, left, restOf, _, holds⟩, rfl⟩
      have restNow := rest.holding_left oldFree restOf
      rw [← holds] at restNow
      exact ⟨⟨sessions, _, _, restNow, (restNow.isFree free).holding_self.symm⟩, rfl⟩
  | some applied =>
      rcases stays with impossible | ⟨device, chain⟩
      · rw [found] at impossible
        cases impossible
      · rw [InStep, found] at inStep
        rcases inStep with ⟨backends, _, base, part, rest, _, holds⟩
        have oldFree := (admits session.settings ready.bound.settings).1.free
        apply (ends_teardown_interrupting fails known backends (rest.isFree oldFree) holds).weaken
        rintro machine' host' _ ⟨⟨sessions, left, _, _, holds'⟩, rfl⟩
        exact ⟨⟨sessions, base, left, rest, by rw [holds', device, chain]⟩, rfl⟩

theorem ends_carryOut_interrupting (fails : raised.Fails)
    (known : host.sessions[id]? = some { session with isWriting := true })
    (ready : session.IsReady requested initial machine.kernel) (admits : Admits requested initial)
    (isRequested : requested target.settings)
    (compiles : Compiled.ofSettings target.settings (session.roundTripFor target.settings) =
      .ok target.compiled) (stays : session.Stays target.settings) :
    (session.carryOut id (some target)).Ends (interrupting index isDone raised) machine host
      fun machine' host' _ => EndsWith (IsSettled initial) id machine' host' := by
  rcases admits target.settings isRequested with ⟨proper, below⟩
  by_cases same : target.settings.binding = session.binding
  · rw [carryOut_of_binding same]
    have backends := ready.bound.backends_eq same
    rcases ready.exists_holding backends proper.free with ⟨base, part, rest, holds⟩
    exact ends_attemptAll_interrupting fails known backends proper below compiles rest holds
  · rw [carryOut_of_move same]
    have moves : (move id target.settings).Ends (interrupting index isDone raised) machine host
        fun machine' host' result => (host'.sessions[id]? =
            some { session.moved target.settings with isWriting := true } ∧
          ∃ (base : Kernel) (left : Part), base.IsRestOf initial ∧ machine'.kernel =
            base.holding target.settings.device target.settings.chain left) ∧
              result = .ok () := by
      apply (ends_teardown_of_stays fails known (ready.writing true) admits proper.free
        stays).bind_ok fun _ _ _ => And.right
      rintro machine₁ host₁ ⟨⟨sessions₁, left⟩, _⟩
      have known₁ : host₁.sessions[id]? = some { session with isWriting := true } :=
        sessions₁ ▸ known
      apply (Host.ends_session_bind known₁).mpr
      apply Host.ends_changeSession_bind.mpr
      exact ⟨⟨Host.getElem?_logged (Host.getElem?_modify known₁) _, left⟩, rfl⟩
    apply moves.bind_ok fun _ _ _ => And.right
    rintro machine₁ host₁ ⟨⟨known₁, base, left, rest, holds⟩, _⟩
    exact ends_attemptAll_interrupting fails known₁ rfl proper below compiles rest holds

end Session

/-! ## Requests -/

namespace Request

open Session

variable {machine : Machine} {host : Host} {id : SessionId} {session : Session}
  {requested : Settings → Prop} {initial : Kernel} {target : Target} {request : Request}
  {raised : Reply}

/-- A request that is under way ends as what it carries out: it tells of that, and changes
nothing more. -/
theorem exists_host_of_underway (known : host.sessions[id]? = some session)
    (isPrepared : request.prepared host session = .ok (some target))
    (underway : (request.perform id host).IsCommand) :
    ∃ host₁ : Host, host₁.sessions[id]? = some { session with isWriting := true } ∧
      ∀ (responder : Procedure.Responder Machine Host) (machine : Machine)
        (holds : Kernel → Session → Prop),
        (∀ kernel session, holds kernel session →
          holds kernel { session with isWriting := false }) →
        ((session.carryOut id (some target)).Ends responder machine host₁
          fun machine' host' _ => EndsWith holds id machine' host') →
        (request.perform id).Ends responder machine host
          fun machine' host' _ => EndsWith holds id machine' host' := by
  rcases exists_underway known isPrepared underway with ⟨_, host₁, _, known₁, performs⟩
  refine ⟨host₁, known₁, ?_⟩
  intro responder machine holds ignores carriesOut
  have released : (releasing id (session.carryOut id (some target))).Ends responder machine host₁
      fun machine' host' _ => EndsWith holds id machine' host' := by
    apply Operation.ends_andThen.mpr
    apply carriesOut.weaken
    rintro machine₂ host₂ _ ⟨session', known₂, held⟩
    exact ⟨_, Host.getElem?_modify known₂, ignores _ _ held⟩
  have concludes : (do releasing id (session.carryOut id (some target)); conclude id (some target) :
      HostOperation Unit).Ends responder machine host₁
        fun machine' host' _ => EndsWith holds id machine' host' := by
    apply released.bind
    · rintro machine₂ host₂ _ ⟨session', known₂, held⟩
      apply (isQuiet_conclude id (some target) _ responder machine₂ host₂).weaken
      rintro _ _ _ ⟨rfl, sessions⟩
      exact ⟨session', sessions ▸ known₂, held⟩
    · exact fun _ _ _ held => held
  unfold Operation.Ends Operation.run at concludes ⊢
  rw [performs]
  exact concludes

/-- Whatever command it is at which something is raised, done or not, the session is settled
when the request ends. -/
def Survives (request : Request) (raised : Reply) (initial : Kernel) (id : SessionId)
    (machine : Machine) (host : Host) : Prop :=
  ∀ index isDone, (request.perform id).Ends (interrupting index isDone raised) machine host
    fun machine' host' _ => EndsWith (IsSettled initial) id machine' host'

theorem survives_of_stays (known : host.sessions[id]? = some session)
    (ready : session.IsReady requested initial machine.kernel) (admits : Admits requested initial)
    (isPrepared : request.prepared host session = .ok (some target))
    (underway : (request.perform id host).IsCommand) (isRequested : requested target.settings)
    (isRaised : raised.isRaised = true) (isHandled : raised.isHandled = true)
    (stays : session.Stays target.settings) :
    request.Survives raised initial id machine host := by
  intro index isDone
  rcases exists_host_of_underway known isPrepared underway with ⟨host₁, known₁, ends⟩
  apply ends
  · exact fun _ _ settled => settled.writing false
  · exact ends_carryOut_interrupting (Reply.fails_of_isHandled isRaised isHandled) known₁ ready
      admits isRequested (compiles_of_prepared isPrepared) stays

end Request

end UplinkShaper
