import UplinkShaper.Proofs.Backend.Breaks
import UplinkShaper.Proofs.Session.Protocol
import UplinkShaper.Proofs.Session.Recovery

/-!
Requests in which something is raised at one command. Whatever command that is, the session is
settled afterwards, if and only if what is raised is handled and the session does not move away
from something that is applied. What is not handled can break off the plan when its first step is
taken; what is handled can make the teardown before a move pass over a tree or a hook, for which
nobody comes back.
-/

namespace UplinkShaper

open Kernel Machine

namespace Session

variable {raised : Reply} {machine : Machine} {host : Host} {id : SessionId} {session : Session}
  {requested : Settings → Prop} {initial base : Kernel} {target : Target} {part last : Part}
  {interruption : Interruption}

/-! ## Plans that are broken off -/

/-- A session is left with a tree that it does not count as applied. -/
def IsStranded (target : Target) (initial kernel : Kernel) (session : Session) : Prop :=
  session.backends = target.settings.backends ∧
    ∃ (base : Kernel) (default : Nat) (rate : String), base.IsRestOf initial ∧
      kernel = base.holding target.settings.device target.settings.chain
        ⟨some (.rooted default rate), none, false⟩

theorem IsStranded.not_isSettled {kernel : Kernel}
    (stranded : session.IsStranded target initial kernel)
    (free : initial.IsFree session.settings.chain) : ¬ session.IsSettled initial kernel := by
  rcases stranded with ⟨backends, base, default, rate, rest, holds⟩
  intro settled
  cases settled with
  | @applied _ around part _ _ held holdsToo =>
      rcases held with ⟨tree, rules, rfl, _⟩
      have present : kernel.chains session.settings.chain = some rules := by
        rw [holdsToo, holding_chains]
      have absent : kernel.chains session.settings.chain = none := by
        rw [holds]
        by_cases same : session.settings.chain = target.settings.chain
        · rw [same, holding_chains]
        · rw [holding_chains_of_ne same, rest.chains, free.chains_eq_none]
      rw [absent] at present
      cases present
  | cleared _ noTree _ _ =>
      have device : session.shaper.device = target.settings.device :=
        congrArg (·.shaper.device) backends
      rw [device, holds, holding_trees] at noTree
      have noClass := (noTree _ rfl).1
      simp [QueueTree.rooted] at noClass

theorem canEnd_session_bind {next : Session → HostOperation α}
    {after : Machine → Host → Except Failure α → Prop} (known : host.sessions[id]? = some session)
    (canEnd : CanEnd raised machine host (next session) after) :
    CanEnd raised machine host (Host.session id >>= next) after := by
  rcases canEnd with ⟨index, later, ends⟩
  exact ⟨index, later, (Host.ends_session_bind known).mpr ends⟩

theorem canEnd_attemptOnce (known : host.sessions[id]? = some session)
    (backends : session.backends = target.settings.backends) (canBuild : target.CanBuild base last)
    (unhandled : ∀ words, Completion.ofReply words raised = .error (.interrupted interruption))
    (holds : machine.kernel = base.holding target.settings.device target.settings.chain part) :
    CanEnd raised machine host (attemptOnce id target)
      (GoesThrough interruption (Strands target.settings base host)) := by
  rcases canBuild.begins with ⟨capacity, default, rest, begins⟩
  have builds := canBuild.builds
  rw [begins] at builds
  have goesOn : rest ≠ [] := by
    rintro rfl
    have cleared := canBuild.cleared
    cases builds with
    | cons builds others =>
        cases others
        cases builds
        cases cleared
  rw [attemptOnce_eq]
  apply CanEnd.bind_of_ends (ends_teardown known backends canBuild.free holds)
    fun _ _ _ left => left.2.1
  rintro machine₁ host₁ ⟨sessions₁, _, holds₁⟩
  have executes : CanEnd raised machine₁ host₁
      (do (← Host.session id).backends.execute target.compiled.plan)
      (GoesThrough interruption (Strands target.settings base host₁)) := by
    apply canEnd_session_bind (sessions₁ ▸ known)
    rw [backends, Backends.execute, begins]
    exact canEnd_takeAll canBuild.free builds goesOn unhandled holds₁ _
  apply executes.andThen_of_canEnd
  rintro machine₂ host₂ _ ⟨rfl, sessions₂, left⟩
  exact ⟨rfl, sessions₂.trans sessions₁, left⟩

/-- What goes through ends all attempts at once. -/
theorem canEnd_attemptAll (known : host.sessions[id]? = some session)
    (backends : session.backends = target.settings.backends)
    (proper : target.settings.IsProper initial)
    (below : target.settings.capacity.rate < Double.bound) {roundTrip : Number}
    (compiles : Compiled.ofSettings target.settings roundTrip = .ok target.compiled)
    (rest : base.IsRestOf initial)
    (unhandled : ∀ words, Completion.ofReply words raised = .error (.interrupted interruption))
    (holds : machine.kernel = base.holding target.settings.device target.settings.chain part) :
    CanEnd raised machine host (attemptAll id target)
      (GoesThrough interruption (Strands target.settings base host)) := by
  rcases Target.exists_canBuild proper below compiles (rest.isFree proper.free) with
    ⟨last, canBuild⟩
  rcases exists_attemptAll_eq proper id with ⟨total, count, attempts⟩
  rw [attempts, attemptUpTo]
  exact (canEnd_attemptOnce known backends canBuild unhandled holds).bind

theorem canEnd_carryOut
    (known : host.sessions[id]? = some { session with isWriting := true })
    (ready : session.IsReady requested initial machine.kernel) (admits : Admits requested initial)
    (isRequested : requested target.settings)
    (compiles : Compiled.ofSettings target.settings (session.roundTripFor target.settings) =
      .ok target.compiled)
    (unhandled : ∀ words, Completion.ofReply words raised = .error (.interrupted interruption)) :
    CanEnd raised machine host (session.carryOut id (some target)) fun machine' host' _ =>
      EndsWith (fun kernel session' => session'.IsStranded target initial kernel ∧
        session'.settings = session.settings) id machine' host' := by
  rcases admits target.settings isRequested with ⟨proper, below⟩
  by_cases same : target.settings.binding = session.binding
  · rw [carryOut_of_binding same]
    have backends := ready.bound.backends_eq same
    rcases ready.exists_holding backends proper.free with ⟨base, part, rest, holds⟩
    apply (canEnd_attemptAll known backends proper below compiles rest unhandled holds).weaken
    rintro machine₁ host₁ _ ⟨_, sessions₁, default, rate, holds₁⟩
    exact ⟨{ session with isWriting := true }, sessions₁ ▸ known,
      ⟨backends, base, default, rate, rest, holds₁⟩, rfl⟩
  · rw [carryOut_of_move same]
    apply CanEnd.bind_of_ends (ends_move known (ready.writing true) admits) fun _ _ _ => And.left
    rintro machine₁ host₁ ⟨_, rest, known₁⟩
    apply (canEnd_attemptAll known₁ rfl proper below compiles rest unhandled
      (rest.isFree proper.free).holding_self.symm).weaken
    rintro machine₂ host₂ _ ⟨_, sessions₂, default, rate, holds₂⟩
    exact ⟨{ session.moved target.settings with isWriting := true }, sessions₂ ▸ known₁,
      ⟨rfl, _, default, rate, rest, holds₂⟩, rfl⟩

end Session

/-! ## Moves that leave something behind -/

namespace Kernel

/-- Something new is there that does not belong to a device and a chain. -/
inductive IsLittered (kernel initial : Kernel) (device chain : String) : Prop
  | tree {other : String} : other ≠ device → (kernel.trees other).isSome →
      kernel.trees other ≠ initial.trees other → kernel.IsLittered initial device chain
  | hook {other : String × String} : other.2 ≠ chain → other ∉ initial.hooks →
      other ∈ kernel.hooks → kernel.IsLittered initial device chain

variable {initial kernel base : Kernel} {device chain other : String} {part : Part}

/-- What is held for a device and a chain does not tidy up elsewhere. -/
theorem IsLittered.holding (littered : kernel.IsLittered initial device chain) (part : Part) :
    (kernel.holding device chain part).IsLittered initial device chain := by
  cases littered with
  | tree different present isNew =>
      rw [← holding_trees_of_ne different] at present isNew
      exact .tree different present isNew
  | hook different isNew present =>
      exact .hook different isNew (List.mem_append_left _ present)

theorem IsRestOf.not_isLittered (rest : base.IsRestOf initial) :
    ¬ (base.holding device chain part).IsLittered initial device chain := by
  intro littered
  cases littered with
  | @tree other different present isNew =>
      rw [holding_trees_of_ne different] at present isNew
      rcases rest.trees other with absent | same
      · rw [absent] at present
        cases present
      · exact isNew same
  | @hook other different isNew present =>
      rcases List.mem_append.mp present with old | own
      · rw [rest.hooks] at old
        exact isNew old
      · cases isHooked : part.isHooked with
        | false =>
            rw [isHooked] at own
            cases own
        | true =>
            rw [isHooked] at own
            cases List.mem_singleton.mp own
            exact different rfl

/-- Another chain stays free, and a chain that is removed becomes free. -/
theorem IsFree.holding (free : base.IsFree other)
    (apart : other = chain → part.rules = none ∧ part.isHooked = false) :
    (base.holding device chain part).IsFree other := by
  have unused := free.unused
  simp only [hasChain, not_or] at unused
  refine ⟨?_, fun someDevice member => ?_⟩
  · simp only [hasChain, not_or]
    refine ⟨unused.1, ?_⟩
    by_cases same : other = chain
    · rw [same, holding_chains, (apart same).1]
      exact Bool.false_ne_true
    · rw [holding_chains_of_ne same]
      exact unused.2
  · rcases List.mem_append.mp member with old | own
    · exact free.unhooked someDevice old
    · cases isHooked : part.isHooked with
      | false =>
          rw [isHooked] at own
          cases own
      | true =>
          rw [isHooked] at own
          cases List.mem_singleton.mp own
          rw [(apart rfl).2] at isHooked
          cases isHooked

end Kernel

namespace Session

variable {raised : Reply} {machine : Machine} {host : Host} {id : SessionId} {session : Session}
  {requested : Settings → Prop} {initial base : Kernel} {target : Target} {part last : Part}

/-- Where nothing fails, the first attempt succeeds. -/
theorem ends_attemptAll_of_canBuild (known : host.sessions[id]? = some session)
    (backends : session.backends = target.settings.backends)
    (proper : target.settings.IsProper initial) (canBuild : target.CanBuild base last)
    (holds : machine.kernel = base.holding target.settings.device target.settings.chain part) :
    (attemptAll id target).Ends (answer .none) machine host fun machine' host' _ =>
      machine'.kernel = base.holding target.settings.device target.settings.chain last ∧
        ∃ moment, host'.sessions[id]? = some (session.built target moment) := by
  rcases exists_attemptAll_eq proper id with ⟨total, count, attempts⟩
  rw [attempts, attemptUpTo]
  have attempted : (attemptOnce id target).Ends (answer .none) machine host
      fun machine' host' result => (host'.sessions = host.sessions ∧ machine'.kernel =
        base.holding target.settings.device target.settings.chain last) ∧ result = .ok none := by
    apply (ends_attemptOnce known backends canBuild.free canBuild.builds holds).weaken
    rintro _ _ _ ⟨sessions, ⟨succeeded, holds'⟩ | ⟨⟨mayFail, _⟩, _⟩⟩
    · exact ⟨⟨sessions, holds'⟩, succeeded⟩
    · exact absurd mayFail FailureScript.not_mayFail_none
  apply attempted.bind_ok fun _ _ _ => And.right
  rintro machine₁ host₁ ⟨⟨sessions₁, holds₁⟩, _⟩
  refine ⟨holds₁, host₁.now, ?_⟩
  exact Host.getElem?_logged (Host.getElem?_modify (sessions₁ ▸ known)) _

/-- A session that keeps its binding stays. -/
theorem IsReady.stays {kernel : Kernel} (ready : session.IsReady requested initial kernel)
    {settings : Settings} (same : settings.binding = session.binding) : session.Stays settings := by
  have inStep := ready.inStep
  cases found : session.applied with
  | none => exact .inl found
  | some applied =>
      rw [InStep, found] at inStep
      have backends := (ready.bound.backends_eq same).symm.trans inStep.1
      exact .inr ⟨congrArg (·.shaper.device) backends, congrArg (·.marking.chain) backends⟩

/-- The teardown before a move can leave something behind. -/
theorem canEnd_teardown_littered {settings : Settings} (fails : raised.Fails)
    (known : host.sessions[id]? = some session)
    (ready : session.IsReady requested initial machine.kernel) (admits : Admits requested initial)
    (isNew : session.applied.isSome →
      machine.kernel.trees session.settings.device ≠ initial.trees session.settings.device)
    (free : initial.IsFree settings.chain) (leaves : ¬ session.Stays settings) :
    CanEnd raised machine host (teardown id) fun machine' host' result =>
      (host'.sessions = host.sessions ∧ machine'.kernel.IsFree settings.chain ∧
        machine'.kernel.IsLittered initial settings.device settings.chain) ∧ result = .ok () := by
  have inStep := ready.inStep
  simp only [Stays, not_or] at leaves
  rcases leaves with ⟨isApplied, apart⟩
  rcases Option.ne_none_iff_exists'.mp isApplied with ⟨applied, found⟩
  rw [InStep, found] at inStep
  rcases inStep with ⟨backends, _, base, part, rest, ⟨tree, rules, rfl, _⟩, holds⟩
  have oldFree := (admits session.settings ready.bound.settings).1.free
  apply canEnd_session_bind known
  rw [backends]
  by_cases same : settings.device = session.settings.device
  · have different : settings.chain ≠ session.settings.chain := fun equal => apart ⟨same, equal⟩
    apply (canEnd_teardown_with_hook fails holds).weaken
    rintro machine₁ host₁ _ ⟨sessions₁, rfl, holds₁⟩
    refine ⟨⟨sessions₁, ?_, ?_⟩, rfl⟩
    · rw [holds₁]
      exact (rest.isFree free).holding fun equal => absurd equal different
    · rw [holds₁]
      exact .hook different.symm (oldFree.unhooked session.settings.device)
        (List.mem_append_right _ (List.mem_singleton_self _))
  · apply (canEnd_teardown_with_tree fails (rest.isFree oldFree) holds).weaken
    rintro machine₁ host₁ _ ⟨sessions₁, rfl, holds₁⟩
    refine ⟨⟨sessions₁, ?_, ?_⟩, rfl⟩
    · rw [holds₁]
      exact (rest.isFree free).holding fun _ => ⟨rfl, rfl⟩
    · have differs := isNew (by rw [found]; rfl)
      rw [holds, holding_trees] at differs
      rw [holds₁]
      exact .tree (Ne.symm same) (by rw [holding_trees]; rfl) (by rw [holding_trees]; exact differs)

theorem canEnd_carryOut_littered (fails : raised.Fails)
    (known : host.sessions[id]? = some { session with isWriting := true })
    (ready : session.IsReady requested initial machine.kernel) (admits : Admits requested initial)
    (isRequested : requested target.settings)
    (compiles : Compiled.ofSettings target.settings (session.roundTripFor target.settings) =
      .ok target.compiled)
    (isNew : session.applied.isSome →
      machine.kernel.trees session.settings.device ≠ initial.trees session.settings.device)
    (leaves : ¬ session.Stays target.settings) :
    CanEnd raised machine host (session.carryOut id (some target)) fun machine' host' _ =>
      EndsWith (fun kernel session' => session'.applied.isSome ∧ kernel.IsLittered initial
        session'.settings.device session'.settings.chain) id machine' host' := by
  rcases admits target.settings isRequested with ⟨proper, below⟩
  rw [carryOut_of_move fun same => leaves (ready.stays same)]
  have moved : CanEnd raised machine host (move id target.settings) fun machine' host' result =>
      (host'.sessions[id]? = some { session.moved target.settings with isWriting := true } ∧
        machine'.kernel.IsFree target.settings.chain ∧ machine'.kernel.IsLittered initial
          target.settings.device target.settings.chain) ∧ result = .ok () := by
    apply (canEnd_teardown_littered fails known (ready.writing true) admits isNew proper.free
      leaves).bind_of_canEnd fun _ _ _ => And.right
    rintro machine₁ host₁ ⟨⟨sessions₁, left⟩, _⟩
    have known₁ : host₁.sessions[id]? = some { session with isWriting := true } :=
      sessions₁ ▸ known
    apply (Host.ends_session_bind known₁).mpr
    apply Host.ends_changeSession_bind.mpr
    exact ⟨⟨Host.getElem?_logged (Host.getElem?_modify known₁) _, left⟩, rfl⟩
  apply moved.bind_of_canEnd fun _ _ _ => And.right
  rintro machine₁ host₁ ⟨⟨known₁, free, littered⟩, _⟩
  rcases Target.exists_canBuild proper below compiles free with ⟨last, canBuild⟩
  apply (ends_attemptAll_of_canBuild known₁ rfl proper canBuild free.holding_self.symm).weaken
  rintro machine₂ host₂ _ ⟨holds₂, moment, known₂⟩
  refine ⟨_, known₂, rfl, ?_⟩
  rw [holds₂]
  exact littered.holding last

end Session

/-! ## Requests -/

namespace Request

open Session

variable {raised : Reply} {machine : Machine} {host : Host} {id : SessionId} {session : Session}
  {requested : Settings → Prop} {initial : Kernel} {target : Target} {request : Request}

/-- A session that can end in a way that is not settled. -/
theorem not_survives_of_canEnd (holds : Kernel → Session → Prop)
    (known : host.sessions[id]? = some session)
    (isPrepared : request.prepared host session = .ok (some target))
    (underway : (request.perform id host).IsCommand)
    (ignores : ∀ kernel session, holds kernel session →
      holds kernel { session with isWriting := false })
    (unsettled : ∀ kernel session, holds kernel session → ¬ session.IsSettled initial kernel)
    (canEnd : ∀ host₁ : Host, host₁.sessions[id]? = some { session with isWriting := true } →
      CanEnd raised machine host₁ (session.carryOut id (some target))
        fun machine' host' _ => EndsWith holds id machine' host') :
    ¬ request.Survives raised initial id machine host := by
  intro survives
  rcases exists_host_of_underway known isPrepared underway with ⟨host₁, known₁, ends⟩
  rcases canEnd host₁ known₁ with ⟨index, _, carriesOut⟩
  have ended := ends (interrupting index false raised) machine holds ignores
    (carriesOut.weaken fun _ _ _ => And.right)
  rcases ended with ⟨session₁, isFound, held⟩
  rcases survives index false with ⟨session₂, isFoundToo, settled⟩
  cases isFound.symm.trans isFoundToo
  exact unsettled _ _ held settled

theorem not_survives_of_unhandled (known : host.sessions[id]? = some session)
    (ready : session.IsReady requested initial machine.kernel) (admits : Admits requested initial)
    (isPrepared : request.prepared host session = .ok (some target))
    (underway : (request.perform id host).IsCommand) (isRequested : requested target.settings)
    (unhandled : raised.isHandled = false) :
    ¬ request.Survives raised initial id machine host := by
  rcases Reply.exists_interruption unhandled with ⟨interruption, goesThrough⟩
  apply not_survives_of_canEnd (fun kernel session' =>
    session'.IsStranded target initial kernel ∧ session'.settings = session.settings)
    known isPrepared underway
  · exact fun _ _ held => held
  · rintro kernel session' ⟨stranded, same⟩
    apply stranded.not_isSettled
    rw [same]
    exact (admits session.settings ready.bound.settings).1.free
  · intro host₁ known₁
    exact canEnd_carryOut known₁ ready admits isRequested (compiles_of_prepared isPrepared)
      goesThrough

theorem not_survives_of_leaves (known : host.sessions[id]? = some session)
    (ready : session.IsReady requested initial machine.kernel) (admits : Admits requested initial)
    (isNew : session.applied.isSome →
      machine.kernel.trees session.settings.device ≠ initial.trees session.settings.device)
    (isPrepared : request.prepared host session = .ok (some target))
    (underway : (request.perform id host).IsCommand) (isRequested : requested target.settings)
    (isRaised : raised.isRaised = true) (isHandled : raised.isHandled = true)
    (leaves : ¬ session.Stays target.settings) :
    ¬ request.Survives raised initial id machine host := by
  apply not_survives_of_canEnd (fun kernel session' => session'.applied.isSome ∧
    kernel.IsLittered initial session'.settings.device session'.settings.chain)
    known isPrepared underway
  · exact fun _ _ held => held
  · rintro kernel session' ⟨isApplied, littered⟩ settled
    cases settled with
    | applied _ rest _ held =>
        rw [held] at littered
        exact rest.not_isLittered littered
    | cleared notApplied _ _ _ =>
        rw [notApplied] at isApplied
        cases isApplied
  · intro host₁ known₁
    exact canEnd_carryOut_littered (Reply.fails_of_isHandled isRaised isHandled) known₁ ready
      admits isRequested (compiles_of_prepared isPrepared) isNew leaves

/-- Whatever command it is at which something is raised, the session is settled afterwards, if
and only if that is handled and the session does not leave behind what is applied. -/
theorem survives_iff (known : host.sessions[id]? = some session)
    (ready : session.IsReady requested initial machine.kernel) (admits : Admits requested initial)
    (isNew : session.applied.isSome →
      machine.kernel.trees session.settings.device ≠ initial.trees session.settings.device)
    (isPrepared : request.prepared host session = .ok (some target))
    (underway : (request.perform id host).IsCommand) (isRequested : requested target.settings)
    (isRaised : raised.isRaised = true) :
    request.Survives raised initial id machine host ↔
      raised.isHandled = true ∧ session.Stays target.settings := by
  constructor
  · intro survives
    cases handled : raised.isHandled with
    | false =>
        exact absurd survives
          (not_survives_of_unhandled known ready admits isPrepared underway isRequested handled)
    | true =>
        refine ⟨rfl, ?_⟩
        by_contra leaves
        exact not_survives_of_leaves known ready admits isNew isPrepared underway isRequested
          isRaised handled leaves survives
  · rintro ⟨isHandled, stays⟩
    exact survives_of_stays known ready admits isPrepared underway isRequested isRaised isHandled
      stays

/-! ### The first start -/

/-- A machine that was never asked for anything. -/
def newMachine : Machine := { kernel := .untouched, count := 0, previous := none }

/-- The first start of a session with the built-in settings. -/
theorem exists_first_start :
    ∃ settings compiled, Settings.ofDocument .system (.mapping []) none = .ok settings ∧
      IsStarting settings compiled ∧ Admits (· = settings) .untouched ∧
        (fresh settings .made none []).IsReady (· = settings) .untouched .untouched := by
  have evaluated : Settings.isAcceptedWith (.mapping []) (fun settings =>
      startsOnce settings && (settings.isPlain &&
        decide (settings.capacity.rate < Double.bound))) = true := by
    decide +kernel
  rcases Settings.exists_of_isAcceptedWith evaluated with ⟨settings, accepted, holds⟩
  simp only [Bool.and_eq_true, decide_eq_true_eq] at holds
  rcases holds with ⟨starts, isPlain, below⟩
  rcases exists_isStarting starts with ⟨compiled, starting⟩
  refine ⟨settings, compiled, accepted, starting, ?_, .inl rfl, rfl, rfl, settings, rfl, rfl, rfl⟩
  rintro _ rfl
  exact ⟨Settings.isProper_of_isPlain accepted isPlain, below⟩

/-- A command that cannot be run, whichever it is, does no harm. -/
theorem start_survives_refusal :
    ∃ settings compiled, Settings.ofDocument .system (.mapping []) none = .ok settings ∧
      IsStarting settings compiled ∧
        start.Survives (.refused "") .untouched 0 newMachine (newHost settings) := by
  rcases exists_first_start with ⟨settings, compiled, accepted, starting, admits, ready⟩
  refine ⟨settings, compiled, accepted, starting, ?_⟩
  exact (survives_iff starting.known ready admits (fun isApplied => nomatch isApplied)
    starting.isPrepared starting.underway rfl rfl).mpr ⟨rfl, .inl rfl⟩

/-- An error that nobody handles can leave a tree behind. -/
theorem start_not_survives_runtime :
    ∃ settings compiled, Settings.ofDocument .system (.mapping []) none = .ok settings ∧
      IsStarting settings compiled ∧
        ¬ start.Survives (.interrupted (.runtime "")) .untouched 0 newMachine
          (newHost settings) := by
  rcases exists_first_start with ⟨settings, compiled, accepted, starting, admits, ready⟩
  refine ⟨settings, compiled, accepted, starting, ?_⟩
  exact not_survives_of_unhandled starting.known ready admits starting.isPrepared
    starting.underway rfl rfl

end Request

end UplinkShaper
