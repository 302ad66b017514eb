import UplinkShaper.Proofs.Session.Preparation

/-!
Taking the locks of a session. They are taken before a session does anything to its
backends, and they are released at the end, however it ends.
-/

namespace UplinkShaper

namespace Session

open Host

/-- A host on which a session is done with what it changed. -/
def released (host : Host) (id : SessionId) : Host :=
  { host with
    locks := host.locks.filter (·.holder != .session id)
    sessions := host.sessions.modify id fun session => { session with isWriting := false } }

/-- Do something, and release the locks of a session. -/
def releasing (id : SessionId) (body : HostOperation α) : HostOperation α :=
  body.andThen fun result host => .done (released host id) result

variable {host host' : Host} {id : SessionId} {session : Session}

/-- What is done exclusively is done between taking the locks and releasing them. -/
theorem exclusively_eq {body : HostOperation α} (known : host.sessions[id]? = some session)
    (isIdle : session.isWriting = false) :
    exclusively id body host =
      (Operation.ensuring (do takeLocks id session; body) (releaseLocks id))
        (occupied host id) := by
  refine (session_bind_apply known).trans ?_
  rw [isIdle]
  rfl

theorem exclusively_eq_of_writing {body : HostOperation α}
    (known : host.sessions[id]? = some session) (isWriting : session.isWriting = true) :
    exclusively id body host = .done host (.error (.busy .session)) := by
  refine (session_bind_apply known).trans ?_
  rw [isWriting]
  rfl

theorem exclusively_eq_of_error {body : HostOperation α} {failure : Failure}
    (known : host.sessions[id]? = some session) (isIdle : session.isWriting = false)
    (fails : takeLocks id session (occupied host id) = .done host' (.error failure)) :
    exclusively id body host = .done (released host' id) (.error failure) := by
  rw [exclusively_eq known isIdle, Operation.ensuring, Operation.andThen,
    Operation.bind_of_error fails]
  rfl

theorem exclusively_eq_of_ok {body : HostOperation α}
    (known : host.sessions[id]? = some session) (isIdle : session.isWriting = false)
    (taken : takeLocks id session (occupied host id) = .done host' (.ok ())) :
    exclusively id body host = releasing id body host' := by
  rw [exclusively_eq known isIdle, Operation.ensuring, Operation.andThen,
    Operation.bind_of_ok taken]
  rfl

/-- A session that is done is what it was before, but for what it changed meanwhile. -/
theorem modify_writing_modify (known : host.sessions[id]? = some session)
    (isIdle : session.isWriting = false) :
    (occupied host id).sessions.modify id (fun session => { session with isWriting := false }) =
      host.sessions := by
  apply List.ext_getElem?
  intro other
  rw [occupied, List.getElem?_modify, List.getElem?_modify]
  by_cases same : id = other
  · subst same
    have unchanged : { session with isWriting := false } = session := by rw [← isIdle]
    rw [known]
    simp only [if_true]
    exact congrArg some unchanged
  · simp only [if_neg same]
    cases host.sessions[other]? with
    | none => rfl
    | some session => rfl

/-- Either a session cannot take its locks, and nothing was changed; or it has taken them
and goes on. -/
theorem exclusively_cases (body : HostOperation α) (known : host.sessions[id]? = some session) :
    (∃ host' failure, exclusively id body host = .done host' (.error failure) ∧
      host'.sessions = host.sessions) ∨
    (session.isWriting = false ∧
      ∃ host', takeLocks id session (occupied host id) = .done host' (.ok ()) ∧
        host'.sessions = (occupied host id).sessions ∧
          exclusively id body host = releasing id body host') := by
  cases isWriting : session.isWriting with
  | true => exact .inl ⟨host, _, exclusively_eq_of_writing known isWriting, rfl⟩
  | false =>
      rcases (isQuiet_takeLocks id session).exists_done (occupied host id) with
        ⟨host', _ | ⟨⟨⟩⟩, taken, same⟩
      · refine .inl ⟨_, _, exclusively_eq_of_error known isWriting taken, ?_⟩
        rw [released, same, modify_writing_modify known isWriting]
      · exact .inr ⟨rfl, host', taken, same, exclusively_eq_of_ok known isWriting taken⟩

theorem proceed_eq_of_error {target : Option Target} {failure : Failure}
    (known : host.sessions[id]? = some session) (isIdle : session.isWriting = false)
    (fails : takeLocks id session (occupied host id) = .done host' (.error failure)) :
    session.proceed id target host = .done (released host' id) (.error failure) :=
  Operation.bind_of_error (exclusively_eq_of_error known isIdle fails)

theorem proceed_eq_of_ok {target : Option Target} (known : host.sessions[id]? = some session)
    (isIdle : session.isWriting = false)
    (taken : takeLocks id session (occupied host id) = .done host' (.ok ())) :
    session.proceed id target host =
      (do releasing id (session.carryOut id target); conclude id target :
        HostOperation Unit) host' := by
  have goesOn : exclusively id (session.carryOut id target) host = _ :=
    exclusively_eq_of_ok known isIdle taken
  rw [proceed]
  change (exclusively id (session.carryOut id target) host).andThen _ = _
  rw [goesOn]
  rfl

/-- A request goes on under its locks, or it is over at once. -/
theorem proceed_cases (target : Option Target) (known : host.sessions[id]? = some session) :
    (∃ host' failure, session.proceed id target host = .done host' (.error failure) ∧
      host'.sessions = host.sessions) ∨
    (session.isWriting = false ∧
      ∃ host', takeLocks id session (occupied host id) = .done host' (.ok ()) ∧
        host'.sessions = (occupied host id).sessions ∧
          session.proceed id target host =
            (do releasing id (session.carryOut id target); conclude id target :
              HostOperation Unit) host') := by
  rcases exclusively_cases (session.carryOut id target) known with
    ⟨host', failure, failed, same⟩ | ⟨isIdle, host', taken, same, _⟩
  · exact .inl ⟨host', failure, Operation.bind_of_error failed, same⟩
  · exact .inr ⟨isIdle, host', taken, same, proceed_eq_of_ok known isIdle taken⟩

end Session

end UplinkShaper
