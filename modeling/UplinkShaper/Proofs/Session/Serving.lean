import UplinkShaper.Proofs.Session.Handles
import UplinkShaper.Proofs.Session.Moderation

/-!
Serving requests. While every command succeeds, a session with moderate settings is made, and
a request to apply them succeeds or fails with a failure of the library's own; and its
commands name classes by decimal handles, each below a class that was added before it. That
takes whole numbers for the retries and for all parents: the schema admits a double without a
fraction as well, which counts no attempts and is written with its fraction.
-/

namespace UplinkShaper

open Result

/-! ## Runners that let every command succeed -/

namespace Runner

variable {ρ : Type} {runner : Runner ρ}

/-- A runner with which every command succeeds. -/
def IsObliging (runner : Runner ρ) : Prop :=
  ∀ memory words, ∃ output errors, (runner memory words).2 = .finished 0 output errors

theorem IsObliging.isHandled (obliging : runner.IsObliging) : runner.IsHandled := by
  intro memory words
  rcases obliging memory words with ⟨output, errors, isReply⟩
  rw [isReply]
  rfl

theorem IsObliging.failure? (obliging : runner.IsObliging) (memory : ρ) (words : List String) :
    (⟨words, (runner memory words).2⟩ : Exchange).failure? = none := by
  rcases obliging memory words with ⟨output, errors, isReply⟩
  rw [isReply]
  rfl

end Runner

/-! ## Settings in whole numbers -/

namespace Settings

/-- Settings whose numbers of attempts and parents are written as whole numbers. -/
structure IsWhole (settings : Settings) : Prop where
  retries : ∃ retries : Int, settings.retries = .whole retries
  parents : ∀ spec ∈ settings.treeRequest.specs, ∃ parent : Int, spec.parent = .whole parent

/-- Settings that a session can compile. -/
def IsCompilable (settings : Settings) : Prop :=
  ∃ (session : Session) (compiled : Compiled),
    Compiled.ofSettings settings (session.roundTripFor settings) = .ok compiled

end Settings

/-! ## Commands of attempts -/

namespace Session

open Handles

variable {ρ : Type} {runner : Runner ρ} {host : Host} {id : SessionId} {session : Session}
  {target : Target} {locations : Locations} {document : Value} {source : Option Path}
  {known : List String}

theorem rate_lt_bound {settings : Settings} (small : settings.capacity.rate < 2 ^ 46) :
    settings.capacity.rate < Double.bound :=
  lt_trans small (by decide +kernel)

theorem commands_orders (backends : Backends) (plan : Plan) :
    (backends.orders plan).flatMap Order.commands = plan.steps.flatMap (·.commands backends) :=
  List.flatMap_assoc

/-- The commands of an attempt are scoped, if the parents of its tiers are whole numbers. -/
theorem areScoped_attemptOrders {roundTrip : Number}
    (accepted : Settings.ofDocument locations document source = .ok target.settings)
    (compiles : Compiled.ofSettings target.settings roundTrip = .ok target.compiled)
    (below : target.settings.capacity.rate < Double.bound)
    (parents : ∀ spec ∈ target.settings.treeRequest.specs, ∃ parent : Int,
      spec.parent = .whole parent) (backends : Backends) :
    AreScoped known ((attemptOrders backends target).flatMap Order.commands) := by
  have written := Compiled.isWritten_of_below accepted compiles below
  rcases Compiled.ofSettings_eq_ok_iff.mp compiles with ⟨made, built, isPlan⟩
  have wellFormed := TreeRequest.isWellFormed_of_compile parents made
  have isBuilt := RuleSet.isBuilt_of_build (Settings.tableIsWritten_of_ofDocument accepted) built
  have cleared := @leads_teardown known backends
  rw [attemptOrders, List.flatMap_append, commands_orders]
  refine areScoped_append.mpr ⟨cleared.areScoped, ?_⟩
  rw [cleared.reached, isPlan]
  rw [isPlan] at written
  refine areScoped_build written ?_ wellFormed.parents ?_
  · intro tier member
    have isTierId := TreeRequest.isTierId_of_compile made tier member
    exact le_trans (by decide) isTierId.1
  · intro filter member
    rcases (isBuilt.filters filter member).2 with ⟨tier, isTier, _, leadsTo⟩
    exact ⟨tier, isTier, leadsTo⟩

/-- Every attempt adds a class for each tier that is asked for, below its parent. -/
theorem exists_required_of_spec {roundTrip : Number} {spec : TierSpec}
    (accepted : Settings.ofDocument locations document source = .ok target.settings)
    (compiles : Compiled.ofSettings target.settings roundTrip = .ok target.compiled)
    (below : target.settings.capacity.rate < Double.bound) (backends : Backends)
    (member : spec ∈ target.settings.treeRequest.specs) :
    ∃ (id : Int) (words : List String), .required (backends.shaper.shapingClass id spec.parent
      words) ∈ attemptOrders backends target := by
  have written := Compiled.isWritten_of_below accepted compiles below
  rcases Compiled.ofSettings_eq_ok_iff.mp compiles with ⟨made, _, isPlan⟩
  have outlined : spec.outline ∈ target.compiled.tree.tiers.map (·.outline) :=
    (TreeRequest.outlines_of_compile made).mem_iff.mpr (List.mem_map_of_mem member)
  rcases List.mem_map.mp outlined with ⟨tier, isTier, equal⟩
  have isParent : tier.parent = spec.parent := congrArg TierOutline.parent equal
  have isStep : .shapingClass tier.id tier.parent tier.curve ∈ target.compiled.plan.steps := by
    rw [isPlan]
    simp only [Plan.build, List.mem_append]
    exact .inl (.inl (.inl (.inl (.inl (.inr (List.mem_map.mpr ⟨tier, isTier, rfl⟩))))))
  rcases written _ isStep with ⟨words, areWords⟩
  refine ⟨tier.id, words, List.mem_append_right _ (List.mem_flatMap.mpr ⟨_, isStep, ?_⟩)⟩
  rw [PlanStep.orders, areWords, isParent]
  exact List.mem_cons_self ..

/-! ## Attempts with an obliging runner -/

theorem commands_movingOrders (session : Session) (settings : Settings) :
    Leads known ((session.movingOrders settings).flatMap Order.commands)
      (if settings.binding = session.binding then known else []) := by
  unfold movingOrders
  split
  · exact .nil
  · exact leads_teardown session.backends

/-- Under its locks a session carries out all that there is to do, while every command
succeeds. -/
theorem ends_releasing_of_isObliging (obliging : runner.IsObliging)
    (known : host.sessions[id]? = some { session with isWriting := true })
    (accepted : Settings.ofDocument locations document source = .ok target.settings)
    {retries : Int} (isWhole : target.settings.retries = .whole retries)
    (compiles : Compiled.ofSettings target.settings (session.roundTripFor target.settings) =
      .ok target.compiled)
    (below : target.settings.capacity.rate < Double.bound)
    (isNamed : target.settings.statePath.components ≠ [])
    (checked : target.settings.statePath.check = .ok ()) (memory : ρ) :
    (do releasing id (session.carryOut id (some target)); conclude id (some target) :
      HostOperation Unit).Ends (recording runner) (memory, []) host fun memory' _ result =>
        result = .ok () ∧ Runs (session.movingOrders target.settings ++
          attemptOrders (session.backendsFor target.settings) target) memory'.2 (.ok ()) := by
  let operation : HostOperation Unit := do
    releasing id (session.carryOut id (some target))
    conclude id (some target)
  have nonneg := Settings.retries_nonneg_of_ofDocument accepted isWhole
  have total : (1 + retries).toNat = retries.toNat + 1 := by omega
  have writable := Compiled.isWritable_attemptOrders accepted compiles below
    (session.backendsFor target.settings)
  have noFailure := runner.recorded obliging.failure? (operation host) memory []
    (List.forall_mem_nil fun exchange => exchange.failure? = none)
  rcases ends_releasing_recorded obliging.isHandled known isWhole isNamed checked memory with
    ⟨moving, moves, ⟨added, recorded, tries⟩, _⟩
  have written : ((operation host).run (recording runner) (memory, [])).1.2 = moving ++ added :=
    recorded
  rw [written] at noFailure
  rw [total] at tries
  rcases tries.runs_of_writable writable fun exchange member =>
    noFailure exchange (List.mem_append_right _ member) with ⟨succeeded, runs⟩
  refine ⟨succeeded, ?_⟩
  rw [recorded]
  exact moves.append runs

end Session

/-! ## Requests -/

namespace Request

open Session Handles

variable {host : Host} {id : SessionId} {session : Session} {settings : Settings}
  {target : Target} {request : Request} {locations : Locations} {document : Value}
  {source : Option Path}

/-- While every command succeeds, a request succeeds or fails with a failure of the library's
own, and its commands name what those before them have added. -/
def GoesWell (request : Request) (id : SessionId) (host : Host) : Prop :=
  ∀ (ρ : Type) (runner : Runner ρ) (memory : ρ), runner.IsObliging →
    (request.perform id).Ends (recording runner) (memory, []) host fun memory' _ result =>
      IsAnswer result ∧ AreScoped [] (memory'.2.map (·.words))

theorem goesWell_of_done {host' : Host} {failure : Failure} (isOwn : failure.isOwn = true)
    (done : request.perform id host = .done host' (.error failure)) :
    request.GoesWell id host := by
  intro ρ runner memory _
  unfold Operation.Ends Operation.run
  rw [done]
  exact ⟨isAnswer_error isOwn, trivial⟩

theorem goesWell_of_error {failure : Failure} (known : host.sessions[id]? = some session)
    (isOwn : failure.isOwn = true) (fails : request.prepared host session = .error failure) :
    request.GoesWell id host := by
  rcases perform_eq_of_error known fails with ⟨log, done⟩
  exact goesWell_of_done isOwn done

/-- A prepared request is turned away, or it is carried out under its locks. -/
theorem perform_of_isAccessible (known : host.sessions[id]? = some session)
    (accessible : session.IsAccessible host)
    (isPrepared : request.prepared host session = .ok (some target)) :
    (∃ host' error, request.perform id host = .done host' (.error (.busy error))) ∨
      ∃ host', host'.sessions[id]? = some { session with isWriting := true } ∧
        request.perform id host =
          (do releasing id (session.carryOut id (some target)); conclude id (some target) :
            HostOperation Unit) host' := by
  rcases perform_eq_of_ok known isPrepared with ⟨log, proceeds⟩
  let logged : Host := { host with log := log }
  have known' : logged.sessions[id]? = some session := known
  have accessible' : session.IsAccessible logged := { accessible with }
  rcases proceed_of_isAccessible (some target) known' accessible' with
    ⟨host', error, held⟩ | ⟨host', working, goesOn⟩
  · exact .inl ⟨host', error, proceeds.trans held⟩
  · exact .inr ⟨host', working, proceeds.trans goesOn⟩

theorem goesWell_of_ok (known : host.sessions[id]? = some session)
    (accessible : session.IsAccessible host)
    (isPrepared : request.prepared host session = .ok (some target))
    (accepted : Settings.ofDocument locations document source = .ok target.settings)
    (below : target.settings.capacity.rate < Double.bound) (isWhole : target.settings.IsWhole)
    (isNamed : target.settings.statePath.components ≠ [])
    (checked : target.settings.statePath.check = .ok ()) : request.GoesWell id host := by
  have compiles := compiles_of_prepared isPrepared
  rcases isWhole.retries with ⟨retries, areRetries⟩
  rcases perform_of_isAccessible known accessible isPrepared with
    ⟨host', error, held⟩ | ⟨host', working, performs⟩
  · exact goesWell_of_done rfl held
  · intro ρ runner memory obliging
    have ended := ends_releasing_of_isObliging obliging working accepted areRetries compiles
      below isNamed checked memory
    unfold Operation.Ends Operation.run at ended ⊢
    rw [performs]
    rcases ended with ⟨succeeded, runs⟩
    refine ⟨succeeded ▸ isAnswer_ok (), areScoped_of_runs runs ?_⟩
    rw [List.flatMap_append]
    refine areScoped_append.mpr ⟨(commands_movingOrders session target.settings).areScoped, ?_⟩
    exact areScoped_attemptOrders accepted compiles below isWhole.parents _

/-- A double counts no attempts. -/
theorem not_goesWell_of_real {double : Double} (known : host.sessions[id]? = some session)
    (isIdle : session.isWriting = false) (lockable : session.IsLockable host)
    (isPrepared : request.prepared host session = .ok (some target))
    (same : target.settings.binding = session.binding)
    (isReal : target.settings.retries = .real double) : ¬ request.GoesWell id host := by
  intro goesWell
  rcases perform_of_isLockable known isIdle lockable isPrepared with ⟨host', _, performs⟩
  have fails : session.carryOut id (some target) host' = .done host' (.error .mismatch) := by
    rw [carryOut_of_binding same, attemptAll, isReal]
    rfl
  have releases : releasing id (session.carryOut id (some target)) host' =
      .done (released host' id) (.error .mismatch) := by
    change Procedure.andThen (session.carryOut id (some target) host') _ = _
    rw [fails]
    rfl
  have ended := goesWell Unit obliging () fun _ _ => ⟨none, none, rfl⟩
  unfold Operation.Ends Operation.run at ended
  rw [performs, Operation.bind_of_error releases] at ended
  cases ended.1 .mismatch rfl

/-- The class of a tier whose parent is a double is added below no place. -/
theorem not_goesWell_of_real_parent {retries : Int} {spec : TierSpec} {double : Double}
    (known : host.sessions[id]? = some session)
    (isIdle : session.isWriting = false) (lockable : session.IsLockable host)
    (isPrepared : request.prepared host session = .ok (some target))
    (accepted : Settings.ofDocument locations document source = .ok target.settings)
    (below : target.settings.capacity.rate < Double.bound)
    (isWhole : target.settings.retries = .whole retries)
    (isNamed : target.settings.statePath.components ≠ [])
    (checked : target.settings.statePath.check = .ok ())
    (member : spec ∈ target.settings.treeRequest.specs) (isReal : spec.parent = .real double) :
    ¬ request.GoesWell id host := by
  intro goesWell
  have compiles := compiles_of_prepared isPrepared
  rcases perform_of_isLockable known isIdle lockable isPrepared with ⟨host', working, performs⟩
  have isObliging : obliging.IsObliging := fun _ _ => ⟨none, none, rfl⟩
  have ended := goesWell Unit obliging () isObliging
  unfold Operation.Ends Operation.run at ended
  rw [performs] at ended
  have runs := (ends_releasing_of_isObliging isObliging working accepted isWhole compiles below
    isNamed checked ()).2
  rcases exists_required_of_spec accepted compiles below
    (session.backendsFor target.settings) member with ⟨number, words, isRequired⟩
  have isRun := mem_of_runs runs (List.mem_append_right _ isRequired)
  rcases exists_known_of_mem ended.2 isRun with ⟨known, named⟩
  have isPlace := named.parents _ rfl (classHandle spec.parent.text) (List.mem_cons_self ..)
  rw [isReal] at isPlace
  exact not_isPlace_of_real known double isPlace

end Request

/-! ## Settings that are served -/

namespace Settings

open Session

variable {settings : Settings} {locations : Locations} {document : Value} {source : Option Path}

/-- Sessions are made for settings, and all goes well with requests to apply them. -/
structure IsServed (settings : Settings) : Prop where
  made : ∀ (provision : Provision) (roundTrip : Option Number) (host : Host),
    (∀ delay ∈ roundTrip, delay.IsModerate) →
      ∃ host' id labels, make settings provision roundTrip host = .done host' (.ok id) ∧
        host'.sessions[id]? = some (fresh settings provision roundTrip labels)
  performed : ∀ (host : Host) (id : SessionId) (session : Session) (request : Request),
    host.sessions[id]? = some session →
      request.settings host session = .ok (some settings) → session.IsAccessible host →
        request.GoesWell id host

theorem isServed_of_isWhole (accepted : ofDocument locations document source = .ok settings)
    (small : settings.capacity.rate < 2 ^ 46) (moderate : settings.IsModerate)
    (isNamed : settings.statePath.components ≠ []) (checked : settings.statePath.check = .ok ())
    (isWhole : settings.IsCompilable → settings.IsWhole) : settings.IsServed := by
  have below := rate_lt_bound small
  have decides (delay : Number) (isModerate : delay.IsModerate) :
      IsDecision (settings.treeRequest.compile delay) :=
    TreeRequest.isDecision_compile moderate.specs (defaultKind_of_ofDocument accepted) small.le
      isModerate
  constructor
  · intro provision roundTrip host areModerate
    apply exists_make
    apply decides
    cases roundTrip with
    | none => exact moderate.roundTrip
    | some delay => exact areModerate delay rfl
  · intro host id session request known asks accessible
    have isPrepared := Request.prepared_eq asks
    cases found : session.targetFor settings with
    | error failure =>
        rw [found] at isPrepared
        have compiles := Compiled.isAnswer_ofSettings
          (decides _ (isModerate_roundTripFor session moderate.roundTrip)).isAnswer
        have answers : IsAnswer (session.targetFor settings) := isAnswer_targetFor compiles
        exact Request.goesWell_of_error known (answers failure found) isPrepared
    | ok target =>
        rw [found] at isPrepared
        rcases targetFor_eq_ok found with ⟨compiled, compiles, rfl⟩
        exact Request.goesWell_of_ok known accessible isPrepared accepted below
          (isWhole ⟨session, compiled, compiles⟩) isNamed checked

/-- Settings that are served and can be compiled are written in whole numbers. -/
theorem IsServed.isWhole (served : settings.IsServed)
    (accepted : ofDocument locations document source = .ok settings)
    (below : settings.capacity.rate < Double.bound)
    (isNamed : settings.statePath.components ≠ []) (checked : settings.statePath.check = .ok ())
    (canStart : ∃ host id, CanStart settings host id) (compilable : settings.IsCompilable) :
    settings.IsWhole := by
  rcases canStart with ⟨host, id, start⟩
  rcases compilable with ⟨session, compiled, compiles⟩
  let own := fresh settings .made (some session.roundTrip) []
  let host' : Host := { host with sessions := host.sessions.modify id fun _ => own }
  let target : Target := { settings := settings, compiled := compiled }
  have known : host'.sessions[id]? = some own := Host.getElem?_modify start.known
  have lockable : own.IsLockable host' :=
    ⟨start.lockable.directory, start.lockable.writer, start.lockable.reader, start.lockable.files⟩
  have sameRoundTrip : own.roundTripFor settings = session.roundTripFor settings := rfl
  have isPrepared : Request.start.prepared host' own = .ok (some target) :=
    Request.prepared_start (sameRoundTrip ▸ compiles) rfl host'
  have goesWell := served.performed host' id own .start known rfl lockable.isAccessible
  have isWhole : ∃ retries : Int, settings.retries = .whole retries := by
    cases written : settings.retries with
    | whole retries => exact ⟨retries, rfl⟩
    | real double =>
        exact absurd goesWell
          (Request.not_goesWell_of_real known rfl lockable isPrepared rfl written)
  refine ⟨isWhole, fun spec member => ?_⟩
  rcases isWhole with ⟨retries, areRetries⟩
  cases written : spec.parent with
  | whole parent => exact ⟨parent, rfl⟩
  | real double =>
      exact absurd goesWell (Request.not_goesWell_of_real_parent known rfl lockable isPrepared
        accepted below areRetries isNamed checked member written)

/-! ### Settings on a new host -/

/-- Whether settings have moderate numbers, compile for a link with exact shares, and have
their state saved at the standard place. -/
def isOrdinary (settings : Settings) : Bool :=
  decide settings.IsModerate && (decide (settings.capacity.rate < 2 ^ 46) &&
    (settings.compilesInOrder &&
      decide (settings.statePath = ⟨"/", ["var", "lib", "hfsc-qos", "last_applied.json"]⟩)))

/-- What ordinary settings of a document bring along. -/
structure IsOrdinary (document : Value) (settings : Settings) : Prop where
  accepted : ofDocument .system document none = .ok settings
  small : settings.capacity.rate < 2 ^ 46
  moderate : settings.IsModerate
  isNamed : settings.statePath.components ≠ []
  checked : settings.statePath.check = .ok ()
  canStart : ∃ host id, CanStart settings host id
  compilable : settings.IsCompilable

theorem exists_isOrdinary {holds : Settings → Bool}
    (evaluated : isAcceptedWith document (fun settings =>
      settings.isOrdinary && holds settings) = true) :
    ∃ settings, IsOrdinary document settings ∧ holds settings = true := by
  rcases exists_of_isAcceptedWith evaluated with ⟨settings, accepted, both⟩
  simp only [isOrdinary, Bool.and_eq_true, decide_eq_true_eq] at both
  rcases both with ⟨⟨moderate, small, inOrder, standard⟩, isHeld⟩
  rcases exists_ofSettings_of_compilesInOrder inOrder with ⟨compiled, compiles⟩
  have sameRoundTrip :
      (fresh settings .made none []).roundTripFor settings = settings.roundTrip :=
    ite_self _
  refine ⟨settings, ?_, isHeld⟩
  exact {
    accepted := accepted
    small := small
    moderate := moderate
    isNamed := by rw [standard]; exact List.cons_ne_nil _ _
    checked := by rw [standard]; rfl
    canStart := ⟨_, _, canStart_newHost standard⟩
    compilable := ⟨fresh settings .made none [], compiled, sameRoundTrip.symm ▸ compiles⟩ }

/-! ### Where requests are served -/

/-- Accepted settings with moderate numbers are served, if and only if their retries and
parents are written as whole numbers or they do not compile. -/
theorem isServed_iff (accepted : ofDocument locations document source = .ok settings)
    (small : settings.capacity.rate < 2 ^ 46) (moderate : settings.IsModerate)
    (isNamed : settings.statePath.components ≠ []) (checked : settings.statePath.check = .ok ())
    (canStart : ∃ host id, CanStart settings host id) :
    settings.IsServed ↔ (settings.IsCompilable → settings.IsWhole) := by
  constructor
  · exact fun served => served.isWhole accepted (rate_lt_bound small) isNamed checked canStart
  · exact isServed_of_isWhole accepted small moderate isNamed checked

/-- The built-in settings are served. -/
theorem isServed_of_builtIn :
    ∃ settings, IsOrdinary (.mapping []) settings ∧ settings.IsWhole ∧ settings.IsServed := by
  have evaluated : isAcceptedWith (.mapping []) (fun settings =>
      settings.isOrdinary && settings.isPlain) = true := by
    decide +kernel
  rcases exists_isOrdinary evaluated with ⟨settings, ordinary, isPlain⟩
  have proper := isProper_of_isPlain ordinary.accepted isPlain
  have isWhole : settings.IsWhole := ⟨proper.retries, proper.parents⟩
  refine ⟨settings, ordinary, isWhole, ?_⟩
  exact (isServed_iff ordinary.accepted ordinary.small ordinary.moderate ordinary.isNamed
    ordinary.checked ordinary.canStart).mpr fun _ => isWhole

/-- Two more attempts, written as a double without a fraction. -/
def doubleRetriesDocument : Value :=
  .record [("apply_retries", .number (.real (.finite 2))), ("reserved", .list []),
    ("tiers", .list [])]

/-- A tier below the root, which is written as a double without a fraction. -/
def doubleParentDocument : Value :=
  .record [("reserved", .list []), ("tiers", .list [.record [("id", .whole 20),
    ("label", .text "Web"), ("share", .whole 50), ("parent", .number (.real (.finite 1)))]])]

/-- Doubles without fractions are accepted, and requests to apply them are not served. -/
theorem not_isServed_of_doubles :
    (∃ settings, IsOrdinary doubleRetriesDocument settings ∧ ¬ settings.IsServed) ∧
      ∃ settings, IsOrdinary doubleParentDocument settings ∧ ¬ settings.IsServed := by
  have whole {document : Value} {settings : Settings} (ordinary : IsOrdinary document settings)
      (served : settings.IsServed) : settings.IsWhole :=
    served.isWhole ordinary.accepted (rate_lt_bound ordinary.small) ordinary.isNamed
      ordinary.checked ordinary.canStart ordinary.compilable
  constructor
  · have evaluated : isAcceptedWith doubleRetriesDocument (fun settings =>
        settings.isOrdinary && decide (settings.retries = .real (.finite 2))) = true := by
      decide +kernel
    rcases exists_isOrdinary evaluated with ⟨settings, ordinary, isDouble⟩
    refine ⟨settings, ordinary, fun served => ?_⟩
    rcases (whole ordinary served).retries with ⟨retries, areRetries⟩
    rw [areRetries, decide_eq_true_eq] at isDouble
    cases isDouble
  · have evaluated : isAcceptedWith doubleParentDocument (fun settings =>
        settings.isOrdinary && settings.tiers.any (·.parent == .real (.finite 1))) = true := by
      decide +kernel
    rcases exists_isOrdinary evaluated with ⟨settings, ordinary, hasDouble⟩
    refine ⟨settings, ordinary, fun served => ?_⟩
    rcases List.any_eq_true.mp hasDouble with ⟨spec, member, isDouble⟩
    have isSpec : spec ∈ settings.treeRequest.specs :=
      List.mem_append_left _ (List.mem_append_right _ member)
    rcases (whole ordinary served).parents spec isSpec with ⟨parent, isParent⟩
    rw [isParent, beq_iff_eq] at isDouble
    cases isDouble

end Settings

end UplinkShaper
