import UplinkShaper.Proofs.Session.Retries

/-!
Requests as their runners see them: attempts to apply a target, after one teardown where the
backends have to move. Whatever a runner answers, that is all it sees of a request, if and
only if every command of the plan has words; and those are missing only where the capacity is
beyond all doubles.
-/

namespace UplinkShaper

/-! ## Commands with words -/

namespace PlanStep

variable {backends : Backends}

theorem isWritable_ofWords {words : Except Failure α} {command : α → List String}
    (written : ∃ found, words = .ok found) :
    (Order.ofWords (command <$> words)).isWritable = true := by
  rcases written with ⟨found, rfl⟩
  rfl

/-- What the words of a step are made of can be written. -/
def IsWritten : PlanStep → Prop
  | .root capacity _ => ∃ rate, Words.rate (.whole capacity.rate) = .ok rate
  | .shapingClass _ _ curve => ∃ words, Words.curve curve = .ok words
  | .leafQueue _ kind limit => ∃ words, Shaper.queueWords kind limit = .ok words
  | .mark rule => ∃ words, Marking.ruleWords rule = .ok words
  | _ => True

theorem IsWritten.orders {step : PlanStep} (written : step.IsWritten) :
    ∀ order ∈ step.orders backends, order.isWritable = true := by
  cases step with
  | root capacity default =>
      exact List.forall_mem_cons.mpr ⟨rfl, List.forall_mem_singleton.mpr (isWritable_ofWords written)⟩
  | shapingClass id parent curve =>
      exact List.forall_mem_singleton.mpr (isWritable_ofWords written)
  | leafQueue id kind limit =>
      exact List.forall_mem_singleton.mpr (isWritable_ofWords written)
  | mark rule => exact List.forall_mem_singleton.mpr (isWritable_ofWords written)
  | clearMarks => simp [PlanStep.orders, Order.isWritable]
  | attachMarks => simp [PlanStep.orders, Order.isWritable]
  | logMarks => simp [PlanStep.orders, Order.isWritable]
  | markFilter filter => simp [PlanStep.orders, Order.isWritable]

end PlanStep

namespace Compiled

variable {settings : Settings} {roundTrip : Number} {compiled : Compiled} {locations : Locations}
  {document : Value} {source : Option Path}

/-- Below a bound all commands of a plan have words. -/
theorem isWritten_of_below
    (accepted : Settings.ofDocument locations document source = .ok settings)
    (compiles : ofSettings settings roundTrip = .ok compiled)
    (below : settings.capacity.rate < Double.bound) :
    ∀ step ∈ compiled.plan.steps, step.IsWritten := by
  rcases ofSettings_eq_ok_iff.mp compiles with ⟨made, built, isPlan⟩
  have isBuilt := RuleSet.isBuilt_of_build (Settings.tableIsWritten_of_ofDocument accepted) built
  have isKind := Settings.leafQueue_of_ofDocument accepted
  have queues : ∀ step ∈ Plan.queueSteps compiled.tree settings.leafQueue, step.IsWritten := by
    unfold Plan.queueSteps
    split
    · exact fun _ impossible => nomatch impossible
    · rename_i isQueue
      simp only [Configuration.leafQueues, List.mem_cons, List.not_mem_nil, or_false] at isKind
      have isFairOrPlain : settings.leafQueue = "sfq" ∨ settings.leafQueue = "bfifo" := by
        rcases isKind with isFair | isPlain | isNone
        · exact .inl isFair
        · exact .inr isPlain
        · exact absurd isNone isQueue
      refine List.forall_mem_map.mpr fun tier _ => ?_
      exact PlanStep.exists_queueWords isFairOrPlain _
  rw [isPlan]
  simp only [Plan.build, List.forall_mem_append, List.forall_mem_cons, List.forall_mem_map]
  refine ⟨⟨⟨⟨⟨⟨⟨?_, List.forall_mem_nil _⟩, ?_⟩, queues⟩, ⟨trivial, trivial, List.forall_mem_nil _⟩⟩,
    ?_⟩, ?_⟩, fun _ _ => trivial⟩
  · exact ClassTree.exists_rate_of_compile made below
  · exact List.forall_mem_map.mpr (ClassTree.exists_curves_of_compile made below)
  · exact isBuilt.isApplicable.written
  · split
    · exact List.forall_mem_singleton.mpr trivial
    · exact List.forall_mem_nil _

theorem isWritable_attemptOrders {target : Session.Target}
    (accepted : Settings.ofDocument locations document source = .ok target.settings)
    (compiles : ofSettings target.settings roundTrip = .ok target.compiled)
    (below : target.settings.capacity.rate < Double.bound) (backends : Backends) :
    ∀ order ∈ Session.attemptOrders backends target, order.isWritable = true := by
  refine List.forall_mem_append.mpr ⟨by simp [Backends.teardownOrders, Order.isWritable], ?_⟩
  intro order member
  rcases List.mem_flatMap.mp member with ⟨step, isStep, isOrder⟩
  exact (isWritten_of_below accepted compiles below step isStep).orders order isOrder

/-- The root of a vast plan has no words. -/
theorem exists_orders_of_above (compiles : ofSettings settings roundTrip = .ok compiled)
    (above : Double.bound ≤ settings.capacity.rate) (backends : Backends) :
    ∃ words after,
      backends.orders compiled.plan = .required words :: .unwritable .overflow :: after := by
  rcases ofSettings_eq_ok_iff.mp compiles with ⟨made, _, isPlan⟩
  have capacity := (TreeRequest.exists_made_of_compile made).1
  have isAbove : Double.bound ≤ compiled.tree.capacity.rate := by
    rw [capacity]
    exact above
  have starts : ∃ rest,
      compiled.plan.steps = .root compiled.tree.capacity compiled.defaultId :: rest := by
    rw [isPlan]
    exact ⟨_, rfl⟩
  rcases starts with ⟨rest, isFirst⟩
  rw [Backends.orders, isFirst, List.flatMap_cons, PlanStep.orders,
    Words.rate_eq_overflow isAbove]
  exact ⟨_, _, rfl⟩

end Compiled

/-- Where no command fails, attempts for a vast capacity do. -/
theorem Tries.eq_overflow {target : Session.Target} {backends : Backends} {roundTrip : Number}
    {cleanup : List Order} {last : Failure} {count : Nat} {exchanges : List Exchange}
    {result : Except Failure Unit}
    (tries : Tries (Session.attemptOrders backends target) cleanup last (count + 1) exchanges result)
    (compiles : Compiled.ofSettings target.settings roundTrip = .ok target.compiled)
    (above : Double.bound ≤ target.settings.capacity.rate)
    (noFailure : ∀ exchange ∈ exchanges, exchange.failure? = none) :
    result = .error .overflow := by
  rcases Compiled.exists_orders_of_above compiles above backends with ⟨words, after, orders⟩
  have work : Session.attemptOrders backends target =
      (backends.teardownOrders ++ [.required words]) ++ .unwritable .overflow :: after := by
    rw [Session.attemptOrders, orders, List.append_assoc]
    rfl
  have writable : ∀ order ∈ backends.teardownOrders ++ [.required words],
      order.isWritable = true := by
    simp [Backends.teardownOrders, Order.isWritable]
  rw [work] at tries
  exact tries.result_of_unwritable (by rintro _ ⟨⟩) writable noFailure

/-! ## Where the protocol is kept -/

namespace Request

open Session

variable {host : Host} {id : SessionId} {session : Session} {target : Target}
  {request : Request} {retries : Int} {locations : Locations} {document : Value}
  {source : Option Path}

/-- Whatever a runner answers, what a session says to it are attempts to apply a target, after
one teardown where the backends have to move; and after a failure nothing is applied. -/
def IsRetried (request : Request) (id : SessionId) (host : Host) (session : Session)
    (target : Target) (retries : Int) : Prop :=
  ∀ (ρ : Type) (runner : Runner ρ) (memory : ρ), runner.IsHandled →
    (request.perform id).Ends (recording runner) (memory, []) host fun memory' host' result =>
      ∃ moving exchanges, memory'.2 = moving ++ exchanges ∧
        Runs (session.movingOrders target.settings) moving (.ok ()) ∧
          AreAttempts (attemptOrders (session.backendsFor target.settings) target)
            (session.backendsFor target.settings).teardownOrders retries exchanges result ∧
            ∀ failure, result = .error failure →
              ∃ session', host'.sessions[id]? = some session' ∧ session'.applied = none

theorem isRetried_of_below (known : host.sessions[id]? = some session)
    (isPrepared : request.prepared host session = .ok (some target))
    (underway : (request.perform id host).IsCommand)
    (accepted : Settings.ofDocument locations document source = .ok target.settings)
    (isWhole : target.settings.retries = .whole retries)
    (isNamed : target.settings.statePath.components ≠ [])
    (checked : target.settings.statePath.check = .ok ())
    (below : target.settings.capacity.rate < Double.bound) :
    request.IsRetried id host session target retries := by
  intro ρ runner memory isHandled
  have nonneg := Settings.retries_nonneg_of_ofDocument accepted isWhole
  have total : (1 + retries).toNat = retries.toNat + 1 := by omega
  have writable := Compiled.isWritable_attemptOrders accepted (compiles_of_prepared isPrepared)
    below (session.backendsFor target.settings)
  apply (ends_perform_recorded isHandled known isPrepared underway isWhole isNamed checked
    memory).weaken
  rintro _ host' result ⟨moving, runs, ⟨added, recorded, tries⟩, session', known', isLeft⟩
  rw [total] at tries
  have attempts := tries.areAttempts writable
  rw [Int.toNat_of_nonneg nonneg] at attempts
  refine ⟨moving, added, recorded, runs, attempts, ?_⟩
  rintro failure rfl
  rcases attempts with ⟨_, _, _, _, _, _, ⟨_, _, ⟨⟩⟩ | ⟨reason, _, _, _, ⟨⟩⟩⟩
  exact ⟨session', known', isLeft.cleared reason rfl⟩

/-- Lets every command succeed. -/
def obliging : Runner Unit := fun _ _ => ((), .finished 0 none none)

theorem not_isRetried_of_above (known : host.sessions[id]? = some session)
    (isPrepared : request.prepared host session = .ok (some target))
    (underway : (request.perform id host).IsCommand)
    (accepted : Settings.ofDocument locations document source = .ok target.settings)
    (isWhole : target.settings.retries = .whole retries)
    (isNamed : target.settings.statePath.components ≠ [])
    (checked : target.settings.statePath.check = .ok ())
    (above : Double.bound ≤ target.settings.capacity.rate) :
    ¬ request.IsRetried id host session target retries := by
  intro isRetried
  have isHandled : obliging.IsHandled := fun _ _ => rfl
  have nonneg := Settings.retries_nonneg_of_ofDocument accepted isWhole
  have total : (1 + retries).toNat = retries.toNat + 1 := by omega
  have noFailure := obliging.recorded (fun _ _ => rfl) (request.perform id host) () []
    (List.forall_mem_nil fun exchange => exchange.failure? = none)
  have tried := ends_perform_recorded isHandled known isPrepared underway isWhole isNamed checked ()
  rcases isRetried Unit obliging () isHandled with ⟨_, _, _, _, attempts, _⟩
  rcases tried with ⟨moving, _, ⟨added, recorded, tries⟩, _⟩
  have written : ((request.perform id host).run (recording obliging) ((), [])).1.2 =
      moving ++ added := recorded
  rw [written] at noFailure
  rw [total] at tries
  have overflows := tries.eq_overflow (compiles_of_prepared isPrepared) above
    fun exchange member => noFailure exchange (List.mem_append_right _ member)
  rcases attempts with ⟨_, _, _, _, _, _, ⟨_, _, succeeded⟩ | ⟨reason, _, _, _, failed⟩⟩
  · rw [overflows] at succeeded
    cases succeeded
  · rw [overflows] at failed
    cases failed

/-- What a session says to its runner are attempts, as many as it may make, if and only if the
capacity has a finite double. -/
theorem isRetried_iff (known : host.sessions[id]? = some session)
    (isPrepared : request.prepared host session = .ok (some target))
    (underway : (request.perform id host).IsCommand)
    (accepted : Settings.ofDocument locations document source = .ok target.settings)
    (isWhole : target.settings.retries = .whole retries)
    (isNamed : target.settings.statePath.components ≠ [])
    (checked : target.settings.statePath.check = .ok ()) :
    request.IsRetried id host session target retries ↔
      target.settings.capacity.rate < Double.bound := by
  constructor
  · intro isRetried
    by_contra above
    exact not_isRetried_of_above known isPrepared underway accepted isWhole isNamed checked
      (not_lt.mp above) isRetried
  · exact isRetried_of_below known isPrepared underway accepted isWhole isNamed checked

/-! ### Starts on a new host -/

/-- A request of an idle session that gets its locks is carried out under them. -/
theorem perform_of_isLockable (known : host.sessions[id]? = some session)
    (isIdle : session.isWriting = false) (lockable : session.IsLockable host)
    (isPrepared : request.prepared host session = .ok (some target)) :
    ∃ host', host'.sessions[id]? = some { session with isWriting := true } ∧
      request.perform id host =
        (do releasing id (session.carryOut id (some target)); conclude id (some target) :
          HostOperation Unit) host' := by
  rcases perform_eq_of_ok known isPrepared with ⟨log, proceeds⟩
  let logged : Host := { host with log := log }
  have known' : logged.sessions[id]? = some session := known
  have lockable' : session.IsLockable (occupied logged id) := { lockable with }
  rcases @exists_takeLocks _ id _ lockable' with ⟨host', taken, sessions⟩
  exact ⟨host', sessions ▸ getElem?_occupied known',
    proceeds.trans (proceed_eq_of_ok known' isIdle taken)⟩

/-- A request that gets its locks begins with a teardown. -/
theorem isCommand_of_prepared (known : host.sessions[id]? = some session)
    (isPrepared : request.prepared host session = .ok (some target))
    (isIdle : session.isWriting = false) (lockable : session.IsLockable host)
    (nonneg : 0 ≤ retries) (isWhole : target.settings.retries = .whole retries) :
    (request.perform id host).IsCommand := by
  rcases perform_of_isLockable known isIdle lockable isPrepared with ⟨host', working, performs⟩
  have tears := isCommand_teardown working
  have total : (1 + retries).toNat = retries.toNat + 1 := by omega
  have carries : (session.carryOut id (some target) host').IsCommand := by
    by_cases same : target.settings.binding = session.binding
    · rw [carryOut_of_binding same, attemptAll, isWhole]
      dsimp only
      rw [total, attemptUpTo, attemptOnce]
      exact (tears.andThen _).andThen _
    · rw [carryOut_of_move same]
      exact (tears.andThen _).andThen _
  rw [performs]
  exact (carries.andThen _).andThen _

/-- A session that keeps its binding starts with what it compiles. -/
theorem prepared_start {compiled : Compiled}
    (compiles : Compiled.ofSettings session.settings (session.roundTripFor session.settings) =
      .ok compiled) (same : session.settings.binding = session.binding) (host : Host) :
    start.prepared host session =
      .ok (some { settings := session.settings, compiled := compiled }) := by
  have asks : start.settings host session = .ok (some session.settings) := rfl
  have stays : ¬ (session.settings.binding ≠ session.binding ∧ (!session.isMovable) = true) :=
    fun moves => moves.1 same
  rw [prepared_eq asks, targetFor, compiles]
  simp only [Result.ok_bind, if_neg stays]
  rfl

theorem prepared_start_fresh {settings : Settings} {compiled : Compiled}
    (compiles : Compiled.ofSettings settings settings.roundTrip = .ok compiled) (host : Host) :
    start.prepared host (fresh settings .made none []) =
      .ok (some { settings := settings, compiled := compiled }) := by
  have sameRoundTrip :
      (fresh settings .made none []).roundTripFor settings = settings.roundTrip :=
    ite_self _
  exact prepared_start (sameRoundTrip.symm ▸ compiles) rfl host

/-- Whether settings can be started with, for one more attempt at most, and have their state
saved at the standard place. -/
def startsOnce (settings : Settings) : Bool :=
  settings.compilesInOrder && (decide (settings.retries = .whole 1) &&
    decide (settings.statePath = ⟨"/", ["var", "lib", "hfsc-qos", "last_applied.json"]⟩))

/-- What a start on a new host goes on with. -/
structure IsStarting (settings : Settings) (compiled : Compiled) : Prop where
  known : (newHost settings).sessions[0]? = some (fresh settings .made none [])
  isPrepared : start.prepared (newHost settings) (fresh settings .made none []) =
    .ok (some { settings := settings, compiled := compiled })
  underway : (start.perform 0 (newHost settings)).IsCommand
  isWhole : settings.retries = .whole 1
  isNamed : settings.statePath.components ≠ []
  checked : settings.statePath.check = .ok ()

theorem exists_isStarting {settings : Settings} (starts : startsOnce settings = true) :
    ∃ compiled, IsStarting settings compiled := by
  simp only [startsOnce, Bool.and_eq_true, decide_eq_true_eq] at starts
  rcases starts with ⟨inOrder, isWhole, standard⟩
  rcases Settings.exists_ofSettings_of_compilesInOrder inOrder with ⟨compiled, compiles⟩
  have canStart := canStart_newHost standard
  have isPrepared := prepared_start_fresh compiles (newHost settings)
  exact ⟨compiled, canStart.known, isPrepared,
    isCommand_of_prepared canStart.known isPrepared rfl canStart.lockable (by decide) isWhole,
    isWhole, by rw [standard]; exact List.cons_ne_nil _ _, by rw [standard]; rfl⟩

/-- The built-in settings on a new host. -/
theorem isRetried_of_builtIn :
    ∃ settings compiled, Settings.ofDocument .system (.mapping []) none = .ok settings ∧
      IsStarting settings compiled ∧
        start.IsRetried 0 (newHost settings) (fresh settings .made none [])
          { settings := settings, compiled := compiled } 1 := by
  have evaluated : Settings.isAcceptedWith (.mapping []) (fun settings =>
      startsOnce settings && decide (settings.capacity.rate < Double.bound)) = true := by
    decide +kernel
  rcases Settings.exists_of_isAcceptedWith evaluated with ⟨settings, accepted, holds⟩
  rw [Bool.and_eq_true, decide_eq_true_eq] at holds
  rcases exists_isStarting holds.1 with ⟨compiled, starting⟩
  refine ⟨settings, compiled, accepted, starting, ?_⟩
  exact (isRetried_iff starting.known starting.isPrepared starting.underway accepted
    starting.isWhole starting.isNamed starting.checked).mpr holds.2

/-- A start with a vast capacity fails after one attempt, in which no command failed, and leaves
it at that. -/
theorem not_isRetried_of_vastDocument :
    ∃ settings compiled, Settings.ofDocument .system vastDocument none = .ok settings ∧
      IsStarting settings compiled ∧
        ¬ start.IsRetried 0 (newHost settings) (fresh settings .made none [])
          { settings := settings, compiled := compiled } 1 := by
  have evaluated : Settings.isAcceptedWith vastDocument (fun settings =>
      startsOnce settings && decide (Double.bound ≤ settings.capacity.rate)) = true := by
    decide +kernel
  rcases Settings.exists_of_isAcceptedWith evaluated with ⟨settings, accepted, holds⟩
  rw [Bool.and_eq_true, decide_eq_true_eq] at holds
  rcases exists_isStarting holds.1 with ⟨compiled, starting⟩
  refine ⟨settings, compiled, accepted, starting, ?_⟩
  exact not_isRetried_of_above starting.known starting.isPrepared starting.underway accepted
    starting.isWhole starting.isNamed starting.checked holds.2

end Request

end UplinkShaper
