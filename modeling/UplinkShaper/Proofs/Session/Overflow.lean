import UplinkShaper.Proofs.Session.Runs

/-!
Capacities without a finite double. Such a rate cannot be written, which is found out only
once the queueing tree was added. As no command failed, nothing is torn down: the tree
stays, and no session has applied anything. For smaller capacities a session stays in step.
-/

namespace UplinkShaper

open Kernel

theorem Words.rate_eq_overflow {rate : Int} (above : Double.bound ≤ rate) :
    Words.rate (.whole rate) = .error .overflow := by
  rw [Words.rate, Number.toDouble, Double.ofInt_eq_overflow above]
  rfl

/-- What stays of a plan whose root class cannot be written. -/
def Compiled.stray (compiled : Compiled) : Part where
  tree := some (.bare ⟨1, 0⟩ (Handle.ofId compiled.defaultId).minor)
  rules := none
  isHooked := false

namespace Host

variable {ρ : Type} {responder : Procedure.Responder ρ Host} {memory : ρ} {host : Host}
  {path : Path}

theorem ends_makeDirectories {made : Files} (checked : path.check = .ok ())
    (creates : host.files.makeDirectories path = ⟨made, none⟩) :
    (makeDirectories path).Ends responder memory host fun _ host' result =>
      host' = { host with files := made } ∧ result = .ok () := by
  apply (Operation.ends_lift_bind checked).mpr
  apply Operation.ends_get_bind.mpr
  apply Operation.ends_set_bind.mpr
  rw [creates]
  exact ⟨rfl, rfl⟩

theorem ends_touch {touched : Files} (checked : path.check = .ok ())
    (touches : host.files.touch path = .ok touched) :
    (touch path).Ends responder memory host fun _ host' result =>
      host' = { host with files := touched } ∧ result = .ok () := by
  apply (Operation.ends_lift_bind checked).mpr
  apply Operation.ends_get_bind.mpr
  dsimp only
  rw [touches]
  exact ⟨rfl, rfl⟩

theorem ends_lock (holder : LockHolder) :
    (lock holder path).Ends responder memory host fun _ host' result =>
      host'.files = host.files ∧ result = .ok () := by
  apply Operation.ends_modify.mpr
  cases host.files.placeOf path with
  | ok place => exact ⟨rfl, rfl⟩
  | error fault => exact ⟨rfl, rfl⟩

end Host

namespace Machine

variable {machine : Machine} {host : Host} {settings : Settings} {base : Kernel} {part : Part}
  {compiled : Compiled}

/-- An overflow, at which a stray tree is held. -/
def Overflows (settings : Settings) (base : Kernel) (compiled : Compiled) (host : Host)
    (machine' : Machine) (host' : Host) (result : Except Failure α) : Prop :=
  host'.sessions = host.sessions ∧ result = .error .overflow ∧
    machine'.kernel = base.holding settings.device settings.chain compiled.stray

theorem Overflows.of_sessions {host₁ : Host} {machine' : Machine} {host' : Host}
    {result : Except Failure α} (same : host₁.sessions = host.sessions)
    (overflows : Overflows settings base compiled host₁ machine' host' result) :
    Overflows settings base compiled host machine' host' result :=
  ⟨overflows.1.trans same, overflows.2⟩

/-- What does not handle an overflow fails with it. -/
theorem Overflows.bind {first : HostOperation α} {next : α → HostOperation β}
    (overflows : first.Ends (answer .none) machine host (Overflows settings base compiled host)) :
    (first >>= next).Ends (answer .none) machine host
      (Overflows settings base compiled host) := by
  apply Operation.Ends.bind overflows
  · intro _ _ _ ended
    cases ended.2.1
  · intro _ _ _ ended
    rcases ended with ⟨sessions, isOverflow, holds⟩
    cases isOverflow
    exact ⟨sessions, rfl, holds⟩

theorem ends_applyRoot_of_above {capacity : LinkCapacity} (above : Double.bound ≤ capacity.rate)
    (nonneg : 0 ≤ compiled.defaultId) (narrow : compiled.defaultId ≤ 9999)
    (holds : machine.kernel = base.holding settings.device settings.chain Part.nothing) :
    (settings.backends.take (.root capacity compiled.defaultId)).Ends (answer .none) machine host
      (Overflows settings base compiled host) := by
  apply Leaves.bind ((ends_change_part holds
    (settings.shaper.ofWords?_rootQueue nonneg narrow) (after_addRoot rfl)).weaken
      fun _ _ _ builds => builds.leaves)
  intro machine' host' sessions holds'
  rw [Words.rate_eq_overflow above]
  exact ⟨sessions, rfl, holds'⟩

theorem ends_takeAll_of_above {capacity : LinkCapacity} (above : Double.bound ≤ capacity.rate)
    (nonneg : 0 ≤ compiled.defaultId) (narrow : compiled.defaultId ≤ 9999)
    (holds : machine.kernel = base.holding settings.device settings.chain Part.nothing)
    (total : Nat) (rest : List PlanStep) :
    (settings.backends.takeAll total (.root capacity compiled.defaultId :: rest)).Ends
      (answer .none) machine host (Overflows settings base compiled host) := by
  let step := PlanStep.root capacity compiled.defaultId
  let shown := LogRecord.debug s!"[{total - rest.length}/{total}] {step.describe}"
  have taken : (do settings.backends.take step; settings.backends.takeAll total rest :
      HostOperation Unit).Ends (answer .none) machine (host.logged shown)
        (Overflows settings base compiled (host.logged shown)) :=
    Overflows.bind (ends_applyRoot_of_above above nonneg narrow holds)
  exact taken.weaken fun _ _ _ overflows => overflows.of_sessions (host.logged_sessions shown)

/-- The plan of settings whose capacity has no finite double. -/
theorem ends_execute_of_above {roundTrip : Number}
    (compiles : Compiled.ofSettings settings roundTrip = .ok compiled)
    (above : Double.bound ≤ settings.capacity.rate)
    (holds : machine.kernel = base.holding settings.device settings.chain Part.nothing) :
    (settings.backends.execute compiled.plan).Ends (answer .none) machine host
      (Overflows settings base compiled host) := by
  rcases Compiled.ofSettings_eq_ok_iff.mp compiles with ⟨made, _, isPlan⟩
  have capacity := (TreeRequest.exists_made_of_compile made).1
  rcases ClassTree.default_bounds (TreeRequest.isTierId_of_compile made) with ⟨nonneg, narrow⟩
  have isAbove : Double.bound ≤ compiled.tree.capacity.rate := by
    rw [capacity]
    exact above
  rw [isPlan]
  exact ends_takeAll_of_above isAbove nonneg narrow holds _ _

end Machine

namespace Session

open Machine

variable {machine : Machine} {host : Host} {id : SessionId} {session : Session}
  {settings : Settings} {compiled : Compiled} {base : Kernel} {part : Part} {roundTrip : Number}

theorem ends_attemptOnce_of_above (known : host.sessions[id]? = some session)
    (backends : session.backends = settings.backends) (free : base.IsFree settings.chain)
    (compiles : Compiled.ofSettings settings roundTrip = .ok compiled)
    (above : Double.bound ≤ settings.capacity.rate)
    (holds : machine.kernel = base.holding settings.device settings.chain part) :
    (attemptOnce id { settings := settings, compiled := compiled }).Ends (answer .none) machine
      host (Overflows settings base compiled host) := by
  rw [attemptOnce_eq]
  apply Leaves.bind (ends_teardown known backends free holds)
  intro machine₁ host₁ sessions₁ holds₁
  have known₁ : host₁.sessions[id]? = some session := by rw [sessions₁, known]
  apply Operation.ends_andThen.mpr
  apply (Host.ends_session_bind known₁).mpr
  rw [backends]
  apply (ends_execute_of_above compiles above holds₁).weaken
  intro _ _ _ ended
  rcases ended with ⟨sessions₂, isOverflow, holds₂⟩
  rw [isOverflow]
  exact ⟨sessions₂.trans sessions₁, rfl, holds₂⟩

/-- An overflow ends all attempts at once. -/
theorem ends_attemptAll_of_above (known : host.sessions[id]? = some session)
    (backends : session.backends = settings.backends) (free : base.IsFree settings.chain)
    (compiles : Compiled.ofSettings settings roundTrip = .ok compiled)
    (above : Double.bound ≤ settings.capacity.rate) {retries : Int} (nonneg : 0 ≤ retries)
    (isWhole : settings.retries = .whole retries)
    (holds : machine.kernel = base.holding settings.device settings.chain part) :
    (attemptAll id { settings := settings, compiled := compiled }).Ends (answer .none) machine
      host (Overflows settings base compiled host) := by
  have total : (1 + retries).toNat = retries.toNat + 1 := by omega
  simp only [attemptAll]
  rw [isWhole]
  dsimp only
  rw [total, attemptUpTo]
  exact Overflows.bind (ends_attemptOnce_of_above known backends free compiles above holds)

/-- A tree was left that does not count as applied. -/
structure LeavesStray (session : Session) (base : Kernel) (compiled : Compiled) (id : SessionId)
    (machine' : Machine) (host' : Host) (result : Except Failure α) : Prop where
  known : host'.sessions[id]? = some session
  kernel : machine'.kernel =
    base.holding session.settings.device session.settings.chain compiled.stray
  failed : result = .error .overflow

theorem LeavesStray.bind {first : HostOperation α} {next : α → HostOperation β}
    (leaves : first.Ends (answer .none) machine host (session.LeavesStray base compiled id)) :
    (first >>= next).Ends (answer .none) machine host (session.LeavesStray base compiled id) := by
  apply Operation.Ends.bind leaves
  · intro _ _ _ left
    cases left.failed
  · intro _ _ _ left
    cases left.failed
    exact ⟨left.known, left.kernel, rfl⟩

/-- The files for the locks of a session can be made, and nobody holds the locks. -/
structure IsLockable (session : Session) (host : Host) : Prop where
  directory : session.lockDirectory.check = .ok ()
  writer : session.writerLock.check = .ok ()
  reader : session.readerLock.check = .ok ()
  files : ∃ made touched files,
    host.files.makeDirectories session.lockDirectory = ⟨made, none⟩ ∧
      made.touch session.writerLock = .ok touched ∧
        ({ host with files := touched } : Host).isLocked session.writerLock = false ∧
          touched.touch session.readerLock = .ok files

theorem ends_takeLocks (lockable : session.IsLockable host) :
    (takeLocks id session).Ends (answer .none) machine host fun _ _ result => result = .ok () := by
  rcases lockable.files with ⟨made, touched, files, creates, touches, isFree, touchesToo⟩
  apply (Host.ends_makeDirectories lockable.directory creates).bind_ok fun _ _ _ => And.right
  intro machine₁ host₁ ended₁
  rw [ended₁.1]
  apply (Host.ends_touch lockable.writer touches).bind_ok fun _ _ _ => And.right
  intro machine₂ host₂ ended₂
  rw [ended₂.1]
  apply Operation.ends_get_bind.mpr
  rw [if_neg (by rw [isFree]; decide)]
  apply (Host.ends_lock (.session id)).bind_ok fun _ _ _ => And.right
  intro machine₃ host₃ ended₃
  have touchesLast : host₃.files.touch session.readerLock = .ok files := by
    rw [ended₃.1, touchesToo]
  apply (Host.ends_touch lockable.reader touchesLast).bind_ok fun _ _ _ => And.right
  intro machine₄ host₄ _
  exact (Host.ends_lock (.session id)).weaken fun _ _ _ => And.right

/-- A host with a new session that can take its locks. -/
structure CanStart (settings : Settings) (host : Host) (id : SessionId) : Prop where
  known : host.sessions[id]? = some (fresh settings .made none [])
  lockable : (fresh settings .made none []).IsLockable host

theorem ends_exclusively_of_overflows {body : HostOperation α}
    (known : host.sessions[id]? = some session) (isIdle : session.isWriting = false)
    (lockable : session.IsLockable host)
    (overflows : ∀ host', host'.sessions[id]? = some { session with isWriting := true } →
      body.Ends (answer .none) machine host' (Overflows session.settings base compiled host')) :
    (exclusively id body).Ends (answer .none) machine host
      (session.LeavesStray base compiled id) := by
  have locked := isQuiet_takeLocks id session _ (answer .none) machine (occupied host id)
  have changed : (do takeLocks id session; body).Ends (answer .none) machine (occupied host id)
      (Overflows session.settings base compiled (occupied host id)) := by
    have taken : session.IsLockable (occupied host id) := { lockable with }
    apply (locked.and (ends_takeLocks taken)).bind_ok fun _ _ _ => And.right
    intro machine₁ host₁ ended
    rcases ended with ⟨⟨same, sessions⟩, _⟩
    rw [same]
    have known₁ : host₁.sessions[id]? = some { session with isWriting := true } := by
      rw [sessions, getElem?_occupied known]
    exact (overflows host₁ known₁).weaken fun _ _ _ left => left.of_sessions sessions
  apply (Host.ends_session_bind known).mpr
  rw [isIdle]
  apply Host.ends_changeSession_bind.mpr
  apply changed.ensuring
  intro machine₂ host₂ result ended
  rcases ended with ⟨sessions, failed, holds⟩
  have known₂ : host₂.sessions[id]? = some { session with isWriting := true } := by
    rw [sessions, getElem?_occupied known]
  have idle : { session with isWriting := false } = session := by
    rw [← isIdle]
  have released : (host₂.sessions.modify id fun session =>
      { session with isWriting := false })[id]? = some { session with isWriting := false } := by
    rw [List.getElem?_modify_eq, known₂]
    rfl
  rw [idle] at released
  exact ⟨rfl, released, holds, failed⟩

theorem ends_reconfigure_of_above (canStart : CanStart settings host id)
    (free : machine.kernel.IsFree settings.chain)
    (compiles : Compiled.ofSettings settings settings.roundTrip = .ok compiled)
    (above : Double.bound ≤ settings.capacity.rate) {retries : Int} (nonneg : 0 ≤ retries)
    (isWhole : settings.retries = .whole retries) :
    (reconfigure id settings).Ends (answer .none) machine host
      ((fresh settings .made none []).LeavesStray machine.kernel compiled id) := by
  have sameRoundTrip :
      (fresh settings .made none []).roundTripFor settings = settings.roundTrip :=
    ite_self _
  have made : (compileWith id settings).Ends (answer .none) machine host
      fun machine' host' result =>
        (machine' = machine ∧ ∃ log, host' = { host with log := log }) ∧
          result = .ok compiled := by
    apply (ends_compileWith canStart.known).weaken
    intro _ _ _ ended
    rcases ended with ⟨same, logs, result⟩
    exact ⟨⟨same, logs⟩, by rw [result, sameRoundTrip, compiles]⟩
  apply made.bind_ok fun _ _ _ => And.right
  intro machine₁ host₁ ended
  rcases ended with ⟨⟨rfl, log, same⟩, _⟩
  have known₁ : host₁.sessions[id]? = some (fresh settings .made none []) := by
    rw [same, canStart.known]
  have stays : ¬ settings.binding ≠ (fresh settings .made none []).binding := not_not.mpr rfl
  apply (Host.ends_session_bind known₁).mpr
  dsimp only
  rw [if_neg fun impossible => stays impossible.1]
  apply LeavesStray.bind
  apply ends_exclusively_of_overflows known₁ rfl
  · rw [same]
    exact { canStart.lockable with }
  · intro host₂ known₂
    rw [if_neg stays]
    exact ends_attemptAll_of_above known₂ rfl free compiles above nonneg isWhole
      free.holding_self.symm

/-- Settings that a new session can start with on some host, for a device without a tree. -/
structure IsStartable (initial : Kernel) (settings : Settings) : Prop where
  compiles : ∃ compiled, Compiled.ofSettings settings settings.roundTrip = .ok compiled
  untouched : initial.trees settings.device = none
  host : ∃ host id, CanStart settings host id

variable {requested : Settings → Prop} {initial : Kernel}

/-- The first start with a capacity that has no finite double is out of step. -/
theorem not_staysInStep (isRequested : requested settings) (proper : settings.IsProper initial)
    (startable : IsStartable initial settings) (above : Double.bound ≤ settings.capacity.rate) :
    ¬ StaysInStep requested initial := by
  intro stays
  rcases startable.compiles with ⟨compiled, compiles⟩
  rcases startable.host with ⟨host, id, canStart⟩
  rcases proper.accepted with ⟨_, _, _, accepted⟩
  rcases proper.retries with ⟨retries, isWhole⟩
  have nonneg := Settings.retries_nonneg_of_ofDocument accepted isWhole
  let machine : Machine := { kernel := initial, count := 0, previous := none }
  have stray : ((Request.perform id .start).Ends (answer .none) machine host
      ((fresh settings .made none []).LeavesStray initial compiled id)) :=
    LeavesStray.bind ((Host.ends_session_bind canStart.known).mpr
      (ends_reconfigure_of_above canStart proper.free compiles above nonneg isWhole))
  have made : Reached requested initial .none id machine host :=
    .made rfl isRequested canStart.known
  have allowed : Request.start.IsAllowed requested host (fresh settings .made none []) := trivial
  have started := made.performed canStart.known allowed rfl
  rcases stays _ _ _ _ started with ⟨session, known, inStep, _⟩
  have isFresh : session = fresh settings .made none [] :=
    Option.some.inj (known.symm.trans stray.known)
  have held : ∀ kernel : Kernel, kernel = initial.holding settings.device settings.chain
      compiled.stray → kernel.trees settings.device ≠ none := by
    intro kernel isHeld isNone
    rw [isHeld, holding_trees] at isNone
    cases isNone
  rw [isFresh] at inStep
  rcases inStep with same | ⟨_, cleared⟩
  · exact held _ stray.kernel (same ▸ startable.untouched)
  · exact held _ stray.kernel cleared

end Session

/-! ## Documents on a new host -/

namespace Settings

/-- Whether a document is accepted, with settings of which something holds. -/
def isAcceptedWith (document : Value) (holds : Settings → Bool) : Bool :=
  match ofDocument .system document none with
  | .ok settings => holds settings
  | .error _ => false

theorem exists_of_isAcceptedWith {document : Value} {holds : Settings → Bool}
    (accepted : isAcceptedWith document holds = true) :
    ∃ settings, ofDocument .system document none = .ok settings ∧ holds settings = true := by
  simp only [isAcceptedWith] at accepted
  split at accepted
  case h_1 settings isOk => exact ⟨settings, isOk, accepted⟩
  case h_2 => cases accepted

/-- Whether the numbers that have to be whole ones are, and the chain has a name of its
own. -/
def isPlain (settings : Settings) : Bool :=
  settings.treeRequest.specs.all (fun spec => spec.parent matches .whole _) &&
    settings.retries matches .whole _ && settings.chain != outgoing

theorem whole_of_isPlain {settings : Settings} (isPlain : settings.isPlain = true) :
    (∃ retries : Int, settings.retries = .whole retries) ∧
      ∀ spec ∈ settings.treeRequest.specs, ∃ parent : Int, spec.parent = .whole parent := by
  simp only [Settings.isPlain, Bool.and_eq_true] at isPlain
  rcases isPlain with ⟨⟨parents, retries⟩, _⟩
  refine ⟨?_, exists_parent_of_all parents⟩
  cases shown : settings.retries with
  | whole count => exact ⟨count, rfl⟩
  | real double => rw [shown] at retries; cases retries

theorem isProper_of_isPlain {document : Value} {settings : Settings}
    (accepted : ofDocument .system document none = .ok settings)
    (isPlain : settings.isPlain = true) : settings.IsProper .untouched := by
  rcases whole_of_isPlain isPlain with ⟨retries, parents⟩
  simp only [Settings.isPlain, Bool.and_eq_true, bne_iff_ne] at isPlain
  exact ⟨⟨_, _, _, accepted⟩, parents, retries, isFree_untouched isPlain.2⟩

/-- Whether settings compile to tiers that are in the order of their rules. -/
def compilesInOrder (settings : Settings) : Bool :=
  match settings.treeRequest.compile settings.roundTrip with
  | .ok tree =>
      decide (RuleSet.IsInOrder tree settings.table) &&
        (RuleSet.rulesInOrder tree settings.table).toOption.isSome
  | .error _ => false

theorem exists_ofSettings_of_compilesInOrder {settings : Settings}
    (inOrder : settings.compilesInOrder = true) :
    ∃ compiled, Compiled.ofSettings settings settings.roundTrip = .ok compiled := by
  simp only [compilesInOrder] at inOrder
  split at inOrder
  case h_2 => cases inOrder
  case h_1 tree made =>
    rw [Bool.and_eq_true, decide_eq_true_eq] at inOrder
    cases numbers : RuleSet.rulesInOrder tree settings.table with
    | error failure =>
        rw [numbers] at inOrder
        cases inOrder.2
    | ok rules =>
        rcases RuleSet.exists_build_of_isInOrder inOrder.1 numbers with ⟨built, isBuilt, _⟩
        refine ⟨⟨tree, built, Plan.build tree built settings.leafQueue settings.logMarks⟩, ?_⟩
        exact Compiled.ofSettings_eq_ok_iff.mpr ⟨made, isBuilt, rfl⟩

end Settings

namespace Session

/-- A host with one new session and no files. -/
def newHost (settings : Settings) : Host where
  locations := .system
  named := none
  isPrivileged := true
  tools := []
  files := .empty
  locks := []
  now := ⟨⟨2026, 1, 1⟩, 0, 0, 0, 0, none⟩
  level := .info
  log := []
  screen := []
  printed := ""
  sessions := [fresh settings .made none []]

theorem canStart_newHost {settings : Settings}
    (standard : settings.statePath = ⟨"/", ["var", "lib", "hfsc-qos", "last_applied.json"]⟩) :
    CanStart settings (newHost settings) 0 := by
  have directory : (fresh settings .made none []).lockDirectory =
      ⟨"/", ["var", "lib", "hfsc-qos"]⟩ := by
    change settings.statePath.parent = _
    rw [standard]
    rfl
  refine ⟨rfl, ?_, ?_, ?_, ?_⟩
  · rw [directory]
    rfl
  · rw [writerLock, directory]
    rfl
  · rw [readerLock, directory]
    rfl
  · rw [writerLock, readerLock, directory]
    exact ⟨_, _, _, rfl, rfl, rfl, rfl⟩

/-- Sessions stay in step, however requests and failures follow each other, if and only if
the capacities that are asked for have finite doubles. -/
theorem staysInStep_iff {requested : Settings → Prop} {initial : Kernel}
    (proper : ∀ settings, requested settings → settings.IsProper initial)
    (startable : ∀ settings, requested settings → Double.bound ≤ settings.capacity.rate →
      IsStartable initial settings) :
    StaysInStep requested initial ↔
      ∀ settings, requested settings → settings.capacity.rate < Double.bound := by
  constructor
  · intro stays settings isRequested
    by_contra above
    have isAbove := not_lt.mp above
    exact not_staysInStep isRequested (proper settings isRequested)
      (startable settings isRequested isAbove) isAbove stays
  · intro below
    exact staysInStep_of_admits fun settings isRequested =>
      ⟨proper settings isRequested, below settings isRequested⟩

/-- A host that never set anything up starts with the built-in settings. -/
theorem staysInStep_of_builtIn :
    ∃ settings, Settings.ofDocument .system (.mapping []) none = .ok settings ∧
      settings.IsProper .untouched ∧ StaysInStep (· = settings) .untouched := by
  have evaluated : Settings.isAcceptedWith (.mapping []) (fun settings => settings.isPlain &&
      decide (settings.capacity.rate < Double.bound)) = true := by
    decide +kernel
  rcases Settings.exists_of_isAcceptedWith evaluated with ⟨settings, accepted, holds⟩
  rw [Bool.and_eq_true, decide_eq_true_eq] at holds
  rcases holds with ⟨isPlain, below⟩
  have proper := Settings.isProper_of_isPlain accepted isPlain
  have admitted : ∀ other, other = settings → other.IsProper .untouched := by
    rintro other rfl
    exact proper
  have isBelow : ∀ other, other = settings → other.capacity.rate < Double.bound := by
    rintro other rfl
    exact below
  refine ⟨settings, accepted, proper, (staysInStep_iff admitted ?_).mpr isBelow⟩
  intro other isSettings above
  exact absurd (isBelow other isSettings) (not_lt.mpr above)

/-- The built-in settings without tiers, for a link of more than all doubles. -/
def vastDocument : Value :=
  .record [("bandwidth", .record [("upload_kbps", .whole (10 ^ 309))]), ("reserved", .list []),
    ("tiers", .list [])]

/-- The start of a session with a vast capacity leaves a tree that it has not applied. -/
theorem not_staysInStep_of_vastDocument :
    ∃ settings, Settings.ofDocument .system vastDocument none = .ok settings ∧
      settings.IsProper .untouched ∧ ¬ StaysInStep (· = settings) .untouched := by
  have evaluated : Settings.isAcceptedWith vastDocument (fun settings =>
      settings.isPlain && settings.compilesInOrder &&
        (decide (Double.bound ≤ settings.capacity.rate) && settings.statePath =
          ⟨"/", ["var", "lib", "hfsc-qos", "last_applied.json"]⟩)) = true := by
    decide +kernel
  rcases Settings.exists_of_isAcceptedWith evaluated with ⟨settings, accepted, holds⟩
  simp only [Bool.and_eq_true, decide_eq_true_eq] at holds
  rcases holds with ⟨⟨isPlain, inOrder⟩, above, standard⟩
  have proper := Settings.isProper_of_isPlain accepted isPlain
  refine ⟨settings, accepted, proper, not_staysInStep rfl proper ?_ above⟩
  exact {
    compiles := Settings.exists_ofSettings_of_compilesInOrder inOrder
    untouched := rfl
    host := ⟨_, _, canStart_newHost standard⟩ }

end Session

end UplinkShaper
