import UplinkShaper.Proofs.Command.Runners
import UplinkShaper.Proofs.Session.Blindness
import UplinkShaper.Proofs.Session.Saving

/-!
Requests that come while a session is at work. Those to the same session, and to sessions
whose states are saved in the same directory, are turned away and leave nothing behind but
log records. The session that is at work does not notice them, and once it is done nobody
is turned away on its account.
-/

namespace UplinkShaper

open Procedure

/-- A procedure that has a command to run. -/
def Procedure.IsCommand (procedure : Procedure σ α) : Prop :=
  ∃ state words resume, procedure = .command state words resume

theorem Procedure.IsCommand.andThen {first : Procedure σ α} (isCommand : first.IsCommand)
    (next : σ → Except Failure α → Procedure σ β) : (first.andThen next).IsCommand := by
  rcases isCommand with ⟨state, words, resume, rfl⟩
  exact ⟨state, words, _, rfl⟩

theorem Host.isCommand_discard (words : List String) (host : Host) :
    (Host.discard words host).IsCommand :=
  ⟨_, _, _, rfl⟩

/-! ## Hosts with a session at work -/

namespace Host

/-- Locks are held on lock files only, and by sessions only while they are writing. -/
structure IsOrderly (host : Host) : Prop where
  writers : ∀ lock ∈ host.locks, ∀ id, lock.holder = .session id →
    ∃ session, host.sessions[id]? = some session ∧ session.isWriting = true
  names : ∀ lock ∈ host.locks, lock.IsNamed

/-- What work on the backends of a session leaves as it is. -/
structure IsFramed (frame host : Host) : Prop where
  files : host.files = frame.files
  locks : host.locks = frame.locks
  writers : host.sessions.map (·.isWriting) = frame.sessions.map (·.isWriting)

theorem IsFramed.refl (host : Host) : IsFramed host host :=
  ⟨rfl, rfl, rfl⟩

theorem IsFramed.of_like {frame host other : Host} (framed : IsFramed frame host)
    (like : host.IsLike other) : IsFramed frame other := by
  rcases like with ⟨log, rfl⟩
  exact ⟨framed.files, framed.locks, framed.writers⟩

/-- While a command runs, others may log. -/
def framing (frame : Host) : Terms Host where
  guarantee := IsFramed frame
  rely := IsLike

theorem framing_allow (frame : Host) (id : SessionId) : (framing frame).Allow id where
  logged host shown framed := framed.of_like (isLike_logged host shown)
  changed host change keeps framed := by
    refine ⟨framed.files, framed.locks, Eq.trans ?_ framed.writers⟩
    apply List.ext_getElem?
    intro other
    rw [List.getElem?_map, List.getElem?_map, List.getElem?_modify]
    cases host.sessions[other]? with
    | none => rfl
    | some session =>
        by_cases same : id = other
        · simp [same, keeps]
        · simp [same]
  returned _ _ framed like := framed.of_like like

theorem isWriting_of_writers {host other : Host} {id : SessionId}
    (same : other.sessions.map (·.isWriting) = host.sessions.map (·.isWriting))
    {isWriting : Bool}
    (known : ∃ session, host.sessions[id]? = some session ∧ session.isWriting = isWriting) :
    ∃ session, other.sessions[id]? = some session ∧ session.isWriting = isWriting := by
  rcases known with ⟨session, found, rfl⟩
  have flag := congrArg (·[id]?) same
  simp only [List.getElem?_map, found, Option.map_some] at flag
  exact Option.map_eq_some_iff.mp flag

/-- A session is at work, with the writer lock in a directory. -/
structure IsOccupied (host : Host) (id : SessionId) (directory : List String) : Prop where
  orderly : host.IsOrderly
  writing : ∃ session, host.sessions[id]? = some session ∧ session.isWriting = true
  isDirectory : host.files.entry? directory = some .directory
  isFile : ∃ content, host.files.entry? (directory ++ ["reconfigure.lock"]) = some (.file content)
  locked : ∃ lock ∈ host.locks, lock.place = directory ++ ["reconfigure.lock"]

theorem IsOccupied.of_framed {frame host : Host} {id : SessionId} {directory : List String}
    (isOccupied : frame.IsOccupied id directory) (framed : IsFramed frame host) :
    host.IsOccupied id directory where
  orderly := by
    refine ⟨fun lock isHeld id isHolder => ?_, framed.locks ▸ isOccupied.orderly.names⟩
    exact isWriting_of_writers framed.writers
      (isOccupied.orderly.writers lock (framed.locks ▸ isHeld) id isHolder)
  writing := isWriting_of_writers framed.writers isOccupied.writing
  isDirectory := framed.files ▸ isOccupied.isDirectory
  isFile := framed.files ▸ isOccupied.isFile
  locked := framed.locks ▸ isOccupied.locked

/-- Whether a request to a session is one to the session at work, or to one whose state is
saved in the same directory. -/
def contends (host : Host) (id : SessionId) (directory : List String) (other : SessionId) :
    Bool :=
  other == id ||
    match host.sessions[other]? with
    | some session => session.lockDirectory.check.isOk &&
        (host.files.placeOf session.lockDirectory).toOption == some directory
    | none => false

theorem exists_of_contends {host : Host} {id other : SessionId} {directory : List String}
    (contends : host.contends id directory other = true) :
    other = id ∨ ∃ session, host.sessions[other]? = some session ∧
      session.lockDirectory.check = .ok () ∧
        host.files.placeOf session.lockDirectory = .ok directory := by
  simp only [Host.contends, Bool.or_eq_true, beq_iff_eq] at contends
  rcases contends with same | contends
  · exact .inl same
  · cases known : host.sessions[other]? with
    | none =>
        rw [known] at contends
        cases contends
    | some session =>
        rw [known] at contends
        simp only [Bool.and_eq_true, beq_iff_eq] at contends
        refine .inr ⟨session, rfl, ?_, ?_⟩
        · cases checked : session.lockDirectory.check with
          | ok value => rfl
          | error failure =>
              rw [checked] at contends
              cases contends.1
        · cases leads : host.files.placeOf session.lockDirectory with
          | ok place =>
              rw [leads] at contends
              exact congrArg Except.ok (Option.some.inj contends.2)
          | error fault =>
              rw [leads] at contends
              cases contends.2

end Host

/-! ## Intrusions -/

/-- A request to a session while another one is at work. -/
structure Intrusion where
  before : Host
  id : SessionId
  request : Request

/-- A request that is over at once without a command, as the session is busy or as the
request was not prepared. It has changed nothing, unless the log. -/
def Intrusion.IsTurnedAway (intrusion : Intrusion) : Prop :=
  ∃ log failure, intrusion.request.perform intrusion.id intrusion.before =
      .done { intrusion.before with log := log } (.error failure) ∧
    ((∃ error, failure = .busy error) ∨
      ∃ session, intrusion.before.sessions[intrusion.id]? = some session ∧
        intrusion.request.prepared intrusion.before session = .error failure)

namespace Host.IsOccupied

open Session

variable {host : Host} {id other : SessionId} {directory : List String} {session : Session}

theorem of_like {like : Host} (isOccupied : host.IsOccupied id directory)
    (isLike : host.IsLike like) : like.IsOccupied id directory :=
  isOccupied.of_framed ((IsFramed.refl host).of_like isLike)

/-- A session that is not writing gives back no lock. -/
theorem released_occupied (orderly : host.IsOrderly) (known : host.sessions[other]? = some session)
    (isIdle : session.isWriting = false) : released (occupied host other) other = host := by
  have kept : host.locks.filter (·.holder != .session other) = host.locks := by
    apply List.filter_eq_self.mpr
    intro lock isHeld
    rw [bne_iff_ne]
    intro isHolder
    rcases orderly.writers lock isHeld other isHolder with ⟨found, isFound, isWriting⟩
    rw [known] at isFound
    cases isFound
    rw [isIdle] at isWriting
    cases isWriting
  have same := modify_writing_modify known isIdle
  unfold released
  rw [same]
  change { host with locks := host.locks.filter (·.holder != .session other) } = host
  rw [kept]

/-- A session that contends gets no further than to its locks. -/
theorem proceed_eq (isOccupied : host.IsOccupied id directory)
    (known : host.sessions[other]? = some session)
    (contends : other = id ∨ session.lockDirectory.check = .ok () ∧
      host.files.placeOf session.lockDirectory = .ok directory) (target : Option Target) :
    ∃ error, session.proceed other target host = .done host (.error (.busy error)) := by
  cases isWriting : session.isWriting with
  | true =>
      exact ⟨.session, Operation.bind_of_error (exclusively_eq_of_writing known isWriting)⟩
  | false =>
      rcases contends with rfl | ⟨checked, leads⟩
      · rcases isOccupied.writing with ⟨found, isFound, impossible⟩
        rw [known] at isFound
        cases isFound
        rw [isWriting] at impossible
        cases impossible
      · rcases isOccupied.isFile with ⟨content, isFile⟩
        have held : takeLocks other session (occupied host other) = _ :=
          takeLocks_eq_of_held checked leads isOccupied.isDirectory isFile isOccupied.locked
        have excluded : exclusively other (session.carryOut other target) host = _ :=
          exclusively_eq_of_error known isWriting held
        rw [released_occupied isOccupied.orderly known isWriting] at excluded
        exact ⟨_, Operation.bind_of_error excluded⟩

theorem isTurnedAway (isOccupied : host.IsOccupied id directory)
    (contends : host.contends id directory other = true) (request : Request) :
    Intrusion.IsTurnedAway ⟨host, other, request⟩ := by
  have found : ∃ session, host.sessions[other]? = some session ∧
      (other = id ∨ session.lockDirectory.check = .ok () ∧
        host.files.placeOf session.lockDirectory = .ok directory) := by
    rcases exists_of_contends contends with rfl | ⟨session, known, same⟩
    · rcases isOccupied.writing with ⟨session, known, _⟩
      exact ⟨session, known, .inl rfl⟩
    · exact ⟨session, known, .inr same⟩
  rcases found with ⟨session, known, contends⟩
  cases isPrepared : request.prepared host session with
  | error failure =>
      rcases Request.perform_eq_of_error known isPrepared with ⟨log, done⟩
      exact ⟨log, failure, done, .inr ⟨session, known, isPrepared⟩⟩
  | ok target =>
      rcases Request.perform_eq_of_ok known isPrepared with ⟨log, proceeds⟩
      have later := isOccupied.of_like ⟨log, rfl⟩
      have known' : ({ host with log := log } : Host).sessions[other]? = some session := known
      rcases later.proceed_eq known' contends target with ⟨error, done⟩
      exact ⟨log, _, proceeds.trans done, .inl ⟨error, rfl⟩⟩

end Host.IsOccupied

/-! ## Answers -/

variable {ρ : Type}

/-- Perform requests that contend with the session at work, one after another. Commands they
run are answered, too. -/
def intrude (runner : Runner ρ) (id : SessionId) (directory : List String) :
    List (SessionId × Request) → ρ → List Intrusion → Host → ρ × List Intrusion × Host
  | [], memory, intrusions, host => (memory, intrusions, host)
  | (other, request) :: rest, memory, intrusions, host =>
      if host.contends id directory other then
        let (memory, host', _) := (request.perform other).run (undisturbed runner) memory host
        intrude runner id directory rest memory (intrusions ++ [⟨host, other, request⟩]) host'
      else intrude runner id directory rest memory intrusions host

/-- Answers of a runner, before each of which others perform requests. -/
def disturbed (runner : Runner ρ)
    (intruders : ρ → Host → List String → List (SessionId × Request)) (id : SessionId)
    (directory : List String) : Responder (ρ × List Intrusion) Host :=
  fun (memory, intrusions) host words =>
    let (memory, intrusions, host) :=
      intrude runner id directory (intruders memory host words) memory intrusions host
    let (memory, reply) := runner memory words
    ((memory, intrusions), host, reply)

section Runs

variable {runner : Runner ρ} {id : SessionId} {directory : List String} {host : Host}

/-- All that is left of intrusions are log records. -/
theorem intrude_eq (runner : Runner ρ) (isOccupied : host.IsOccupied id directory)
    (attempts : List (SessionId × Request)) (memory : ρ) (intrusions : List Intrusion)
    (turnedAway : ∀ intrusion ∈ intrusions, intrusion.IsTurnedAway) :
    ∃ intrusions' host', intrude runner id directory attempts memory intrusions host =
        (memory, intrusions', host') ∧
      host.IsLike host' ∧ ∀ intrusion ∈ intrusions', intrusion.IsTurnedAway := by
  induction attempts generalizing intrusions host with
  | nil => exact ⟨intrusions, host, rfl, .refl host, turnedAway⟩
  | cons attempt rest induction =>
      rcases attempt with ⟨other, request⟩
      rw [intrude]
      split
      case isFalse => exact induction isOccupied intrusions turnedAway
      case isTrue contends =>
        have isTurnedAway := isOccupied.isTurnedAway contends request
        have allTurnedAway : ∀ intrusion ∈ intrusions ++ [⟨host, other, request⟩],
            intrusion.IsTurnedAway := by
          intro intrusion isOne
          rcases List.mem_append.mp isOne with before | isNew
          · exact turnedAway intrusion before
          · cases List.mem_singleton.mp isNew
            exact isTurnedAway
        rcases isTurnedAway with ⟨log, failure, done, _⟩
        have isLike : host.IsLike { host with log := log } := ⟨log, rfl⟩
        have ran : (request.perform other).run (undisturbed runner) memory host =
            (memory, { host with log := log }, .error failure) := by
          change (request.perform other host).run (undisturbed runner) memory = _
          rw [done]
          rfl
        rw [ran]
        rcases induction (isOccupied.of_like isLike) _ allTurnedAway with
          ⟨intrusions', host', intrudes, isLikeToo, allTurnedAway'⟩
        exact ⟨intrusions', host', intrudes, isLike.trans isLikeToo, allTurnedAway'⟩

/-- Runs of like procedures, the second of which is disturbed, end alike. -/
theorem run_disturbed (runner : Runner ρ) {frame : Host} {first second : Procedure Host α}
    {after : Host → Except Failure α → Prop}
    (intruders : ρ → Host → List String → List (SessionId × Request))
    (isOccupied : frame.IsOccupied id directory)
    (alike : first.Alike Host.IsLike second) (keeps : first.Keeps (Host.framing frame) after)
    (memory : ρ) (intrusions : List Intrusion)
    (turnedAway : ∀ intrusion ∈ intrusions, intrusion.IsTurnedAway) :
    let calm := first.run (undisturbed runner) memory
    let ending := second.run (disturbed runner intruders id directory) (memory, intrusions)
    ending.1.1 = calm.1 ∧ calm.2.1.IsLike ending.2.1 ∧ ending.2.2 = calm.2.2 ∧
      ∀ intrusion ∈ ending.1.2, intrusion.IsTurnedAway := by
  induction alike generalizing memory intrusions with
  | done isLike => exact ⟨rfl, isLike, rfl, turnedAway⟩
  | @command state state' words resume resume' isLike _ induction =>
      have framed : Host.IsFramed frame state' := Host.IsFramed.of_like keeps.1 isLike
      rcases intrude_eq runner (isOccupied.of_framed framed) (intruders memory state' words)
        memory intrusions turnedAway with ⟨intrusions', host', intrudes, isLikeToo, turnedAway'⟩
      have goesOn := keeps.2 state (runner memory words).2 (.refl state)
      have answered : (disturbed runner intruders id directory) (memory, intrusions) state' words =
          (((runner memory words).1, intrusions'), host', (runner memory words).2) := by
        simp only [disturbed]
        rw [intrudes]
      simp only [Procedure.run]
      rw [answered]
      exact induction state host' (runner memory words).2 (isLike.trans isLikeToo) goesOn
        (runner memory words).1 intrusions' turnedAway'

end Runs

/-! ## Requests -/

namespace Session

open Host

variable {host host' : Host} {id : SessionId} {session : Session}

/-- Whoever is writing still is when another session begins. -/
theorem isWriting_occupied {other : SessionId}
    (known : ∃ session, host.sessions[other]? = some session ∧ session.isWriting = true) :
    ∃ session, (occupied host id).sessions[other]? = some session ∧
      session.isWriting = true := by
  rcases known with ⟨session, found, isWriting⟩
  rw [occupied, List.getElem?_modify, found]
  by_cases same : id = other
  · exact ⟨_, rfl, by simp [same]⟩
  · exact ⟨_, rfl, by simp [same, isWriting]⟩

/-- A session that has taken its locks is at work. -/
theorem HasTaken.isOccupied (taken : HasTaken (occupied host id) id session host')
    (known : host.sessions[id]? = some session) (orderly : host.IsOrderly) :
    host'.IsOccupied id session.lockDirectory.place := by
  have sessions : host'.sessions = (occupied host id).sessions :=
    congrArg (·.sessions) taken.others
  have writing : ∃ session, host'.sessions[id]? = some session ∧ session.isWriting = true :=
    ⟨_, sessions ▸ getElem?_occupied known, rfl⟩
  refine ⟨⟨?_, ?_⟩, writing, taken.directory, ?_, ?_⟩
  · intro lock isHeld holder isHolder
    rw [taken.locks] at isHeld
    rcases List.mem_cons.mp isHeld with rfl | isHeld
    · cases isHolder
      exact writing
    rcases List.mem_cons.mp isHeld with rfl | isHeld
    · cases isHolder
      exact writing
    · rw [sessions]
      exact isWriting_occupied (orderly.writers lock isHeld holder isHolder)
  · intro lock isHeld
    rw [taken.locks] at isHeld
    rcases List.mem_cons.mp isHeld with rfl | isHeld
    · exact ⟨_, .inr (readerLock_place session)⟩
    rcases List.mem_cons.mp isHeld with rfl | isHeld
    · exact ⟨_, .inl (writerLock_place session)⟩
    · exact orderly.names lock isHeld
  · rw [← writerLock_place]
    exact taken.writer
  · rw [← writerLock_place, taken.locks]
    exact ⟨_, List.mem_cons_of_mem _ List.mem_cons_self, rfl⟩

/-- How a session that has done its work leaves a host. -/
theorem keeps_framing_releasing {frame : Host} (orderly : frame.IsOrderly) (id : SessionId)
    (session : Session) (target : Option Target) :
    (do releasing id (session.carryOut id target); conclude id target :
      HostOperation Unit).Keeps (framing frame) frame fun host' _ =>
        ∃ worked, IsFramed frame worked ∧ host'.sessions = (released worked id).sessions ∧
          ∀ lock ∈ host'.locks, lock ∈ (released worked id).locks := by
  have worked := (IsWork.carryOut session target).keeps (framing_allow frame id) (.refl frame)
  have released : (releasing id (session.carryOut id target)).Keeps (framing frame) frame
      fun host' _ => ∃ worked, IsFramed frame worked ∧ host' = released worked id :=
    worked.andThen fun worked _ ended => ⟨worked, ended.1, rfl⟩
  apply released.bind
  · rintro _ _ ⟨worked, framed, rfl⟩
    have named : ∀ lock ∈ (Session.released worked id).locks, lock.IsNamed := by
      intro lock isHeld
      exact orderly.names lock (framed.locks ▸ (List.mem_filter.mp isHeld).1)
    have fewer := ShrinksLocks.conclude id target _ named
    rcases (isQuiet_conclude id target).exists_done (Session.released worked id) with
      ⟨concluded, result, done, sessions⟩
    change (conclude id target (Session.released worked id)).Keeps .loose _ at fewer
    change (conclude id target (Session.released worked id)).Keeps (framing frame) _
    rw [done] at fewer ⊢
    exact ⟨worked, framed, sessions, fewer⟩
  · rintro _ _ ⟨worked, framed, rfl⟩
    exact ⟨worked, framed, rfl, fun _ isHeld => isHeld⟩

end Session

namespace Request

open Session Host

variable {host : Host} {id : SessionId} {session : Session} {request : Request}

/-- A request that runs a command goes on under its locks with what it has prepared. -/
theorem exists_underway {target : Option Target} (known : host.sessions[id]? = some session)
    (isPrepared : request.prepared host session = .ok target)
    (underway : (request.perform id host).IsCommand) :
    ∃ log host', takeLocks id session (occupied { host with log := log } id) =
        .done host' (.ok ()) ∧
      host'.sessions[id]? = some { session with isWriting := true } ∧
        request.perform id host =
          (do releasing id (session.carryOut id target); conclude id target :
            HostOperation Unit) host' := by
  rcases underway with ⟨_, _, _, commands⟩
  rcases perform_eq_of_ok known isPrepared with ⟨log, proceeds⟩
  have known' : ({ host with log := log } : Host).sessions[id]? = some session := known
  rcases proceed_cases target known' with ⟨_, _, done, _⟩ | ⟨_, host', taken, same, goesOn⟩
  · rw [proceeds, done] at commands
    cases commands
  · exact ⟨log, host', taken, by rw [same, getElem?_occupied known'], proceeds.trans goesOn⟩

/-- A request that runs a command has taken its locks before. -/
theorem exists_taken (known : host.sessions[id]? = some session)
    (underway : (request.perform id host).IsCommand) :
    ∃ log target host', HasTaken (occupied { host with log := log } id) id session host' ∧
      request.perform id host =
        (do releasing id (session.carryOut id target); conclude id target :
          HostOperation Unit) host' := by
  cases isPrepared : request.prepared host session with
  | error failure =>
      rcases perform_eq_of_error known isPrepared with ⟨log, done⟩
      rcases underway with ⟨_, _, _, commands⟩
      rw [done] at commands
      cases commands
  | ok target =>
      rcases exists_underway known isPrepared underway with ⟨log, host', taken, _, performs⟩
      refine ⟨log, target, host', ?_, performs⟩
      rcases takeLocks_cases (occupied { host with log := log } id) id session with
        ⟨_, _, fails, _⟩ | ⟨_, fails, _⟩ | ⟨_, succeeds, hasTaken⟩
      · rw [taken] at fails
        cases fails
      · rw [taken] at fails
        cases fails
      · rw [taken] at succeeds
        cases succeeds
        exact hasTaken

/-- An idle session whose writer lock is free is not turned away. -/
theorem ne_busy {target : Option Target} (known : host.sessions[id]? = some session)
    (isIdle : session.isWriting = false)
    (isFree : ∀ lock ∈ host.locks, lock.place ≠ session.writerLock.place)
    (isPrepared : request.prepared host session = .ok target) (responder : Responder ρ Host)
    (memory : ρ) (error : BusyError) :
    ((request.perform id).run responder memory host).2.2 ≠ .error (.busy error) := by
  intro isBusy
  change ((request.perform id host).run responder memory).2.2 = _ at isBusy
  rcases perform_eq_of_ok known isPrepared with ⟨log, proceeds⟩
  have known' : ({ host with log := log } : Host).sessions[id]? = some session := known
  rw [proceeds] at isBusy
  rcases takeLocks_cases (occupied { host with log := log } id) id session with
    ⟨_, failure, fails, refused⟩ | ⟨_, _, lock, isHeld, same⟩ | ⟨host', taken, _⟩
  · rw [proceed_eq_of_error known' isIdle fails] at isBusy
    cases isBusy
    rcases refused with impossible | ⟨_, impossible⟩
    · cases impossible
    · cases impossible
  · exact isFree lock isHeld same
  · rw [proceed_eq_of_ok known' isIdle taken] at isBusy
    have kept : (do releasing id (session.carryOut id target); conclude id target :
        HostOperation Unit).Keeps .loose host' fun _ result => FailsLate result :=
      keeps_releasing session target
    have late := kept.run responder (fun _ _ _ _ => trivial) memory
    have impossible := late _ isBusy
    cases impossible

theorem isWriting_released (known : (released host id).sessions[id]? = some session) :
    session.isWriting = false := by
  rw [released, List.getElem?_modify_eq] at known
  rcases Option.map_eq_some_iff.mp known with ⟨_, _, rfl⟩
  rfl

/-- Of the locks, only those are left that others held before. -/
theorem mem_locks_of_taken {frame worked : Host} {log : List LogRecord}
    (taken : HasTaken (occupied { host with log := log } id) id session frame)
    (framed : IsFramed frame worked) {lock : FileLock}
    (isHeld : lock ∈ (released worked id).locks) : lock ∈ host.locks := by
  rcases List.mem_filter.mp isHeld with ⟨isHeld, isOther⟩
  rw [framed.locks, taken.locks] at isHeld
  rw [bne_iff_ne] at isOther
  rcases List.mem_cons.mp isHeld with rfl | isHeld
  · exact absurd rfl isOther
  rcases List.mem_cons.mp isHeld with rfl | isHeld
  · exact absurd rfl isOther
  · exact isHeld

/-- Whatever requests come while a session is at work, they are turned away, the session
does what it would do without them, and afterwards the way is free for everyone. -/
theorem withstands_intrusions (runner : Runner ρ)
    (intruders : ρ → Host → List String → List (SessionId × Request))
    (known : host.sessions[id]? = some session) (orderly : host.IsOrderly)
    (underway : (request.perform id host).IsCommand)
    (memory : ρ) :
    let directory := session.lockDirectory.place
    let calm := (request.perform id).run (undisturbed runner) memory host
    let ending := (request.perform id).run (disturbed runner intruders id directory)
      (memory, []) host
    (ending.1.1 = calm.1 ∧ calm.2.1.IsLike ending.2.1 ∧ ending.2.2 = calm.2.2) ∧
      (∀ intrusion ∈ ending.1.2, intrusion.IsTurnedAway) ∧
      ∀ other later (next : Request) target, ending.2.1.sessions[other]? = some later →
        (other = id ∨ later.isWriting = false) →
        (later.lockDirectory.place = directory ∨
          ∀ lock ∈ host.locks, lock.place ≠ later.writerLock.place) →
        next.prepared ending.2.1 later = .ok target →
          ∀ {ρ' : Type} (responder : Responder ρ' Host) (memory' : ρ') (error : BusyError),
            ((next.perform other).run responder memory' ending.2.1).2.2 ≠
              .error (.busy error) := by
  rcases exists_taken known underway with ⟨log, target, frame, taken, performs⟩
  have known' : ({ host with log := log } : Host).sessions[id]? = some session := known
  have orderly' : ({ host with log := log } : Host).IsOrderly := ⟨orderly.writers, orderly.names⟩
  have isOccupied := taken.isOccupied known' orderly'
  have kept := keeps_framing_releasing isOccupied.orderly id session target
  have blind : IsBlind (do releasing id (session.carryOut id target); conclude id target) :=
    (IsBlind.ofWork (.carryOut session target)).releasing.bind fun _ => .conclude id target
  have alike := blind frame frame (.refl frame)
  have stands := run_disturbed runner intruders isOccupied alike kept memory []
    (fun _ none => nomatch none)
  have ended := Procedure.Keeps.run kept (undisturbed runner) (fun _ host _ _ => .refl host)
    memory
  rw [← performs] at stands ended
  intro directory calm ending
  rcases stands with ⟨sameMemory, ⟨log', isLike⟩, sameResult, turnedAway⟩
  rcases ended with ⟨worked, framed, sessions, fewer⟩
  refine ⟨⟨sameMemory, ⟨log', isLike⟩, sameResult⟩, turnedAway, ?_⟩
  intro other later next target' isLater isIdle isFree isPrepared ρ' responder memory' error
  have sessionsLeft : ending.2.1.sessions = (released worked id).sessions :=
    (congrArg (·.sessions) isLike).trans sessions
  have locksLeft : ∀ lock ∈ ending.2.1.locks, lock ∈ host.locks := by
    intro lock isHeld
    rw [show ending.2.1.locks = calm.2.1.locks from congrArg (·.locks) isLike] at isHeld
    exact mem_locks_of_taken taken framed (fewer lock isHeld)
  apply ne_busy isLater ?_ ?_ isPrepared
  · rcases isIdle with rfl | isIdle
    · rw [sessionsLeft] at isLater
      exact isWriting_released isLater
    · exact isIdle
  · intro lock isHeld
    rcases isFree with same | isFree
    · rw [writerLock_place, same, ← writerLock_place]
      exact taken.free lock (locksLeft lock isHeld)
    · exact isFree lock (locksLeft lock isHeld)

theorem isCommand_teardown (known : host.sessions[id]? = some session) :
    (teardown id host).IsCommand := by
  rw [teardown, session_bind_apply known]
  exact ((Host.isCommand_discard _ host).andThen _).andThen _

/-- A stop that gets its locks runs a command. -/
theorem isCommand_stop (known : host.sessions[id]? = some session)
    (isIdle : session.isWriting = false) (lockable : session.IsLockable host) :
    (Request.stop.perform id host).IsCommand := by
  have lockable' : session.IsLockable (occupied host id) :=
    ⟨lockable.directory, lockable.writer, lockable.reader, lockable.files⟩
  rcases @exists_takeLocks _ id _ lockable' with ⟨host', taken, sessions⟩
  have working : host'.sessions[id]? = some { session with isWriting := true } :=
    sessions ▸ getElem?_occupied known
  have stops : Request.stop.perform id = session.proceed id none := rfl
  rw [stops, proceed_eq_of_ok known isIdle taken]
  exact (((isCommand_teardown working).andThen _).andThen _).andThen _

/-- A stop of the built-in settings on a new host, where a start comes before every answer. -/
theorem stop_withstands_starts :
    ∃ settings, Settings.ofDocument .system (.mapping []) none = .ok settings ∧
      let host := newHost settings
      let runner : Runner Nat := fun count _ => (count + 1, .finished 0 none none)
      let directory := ["var", "lib", "hfsc-qos"]
      let ending := (Request.stop.perform 0).run
        (disturbed runner (fun _ _ _ => [(0, .start)]) 0 directory) (0, []) host
      host.IsOrderly ∧
        (Request.stop.perform 0 host).IsCommand ∧
        ending.2.2 = ((Request.stop.perform 0).run (undisturbed runner) 0 host).2.2 ∧
        ∀ intrusion ∈ ending.1.2, intrusion.IsTurnedAway := by
  have evaluated : Settings.isAcceptedWith (.mapping []) (fun settings => settings.statePath =
      ⟨"/", ["var", "lib", "hfsc-qos", "last_applied.json"]⟩) = true := by
    decide +kernel
  rcases Settings.exists_of_isAcceptedWith evaluated with ⟨settings, accepted, standard⟩
  rw [decide_eq_true_eq] at standard
  have orderly : (newHost settings).IsOrderly :=
    ⟨fun _ isHeld => (nomatch isHeld), fun _ isHeld => (nomatch isHeld)⟩
  have canStart := canStart_newHost standard
  have underway := isCommand_stop canStart.known rfl canStart.lockable
  have directory : (Session.fresh settings .made none []).lockDirectory.place =
      ["var", "lib", "hfsc-qos"] := by
    change settings.statePath.parent.place = _
    rw [standard]
    rfl
  have stands := withstands_intrusions (fun count _ => (count + 1, .finished 0 none none))
    (fun _ _ _ => [(0, .start)]) canStart.known orderly underway 0
  rw [directory] at stands
  exact ⟨settings, accepted, orderly, underway, stands.1.2.2, stands.2.1⟩

end Request

end UplinkShaper
