import UplinkShaper.Proofs.Session.Overflow
import UplinkShaper.Proofs.Session.Refusals

/-!
Failures that are found before anything is changed: of settings and class trees, of locks
that others hold, and of the files for locks. A request that fails with one of them has run
no command, and every session is what it was before. Later no such failure comes up.
-/

namespace UplinkShaper

namespace Session

open Host Operation

variable {host : Host} {id : SessionId} {session : Session}

/-! ## Success -/

/-- A session that succeeds has applied something. -/
def LeavesApplied (id : SessionId) (host' : Host) (result : Except Failure Unit) : Prop :=
  result = .ok () → ∀ session, host'.sessions[id]? = some session → session.applied.isSome = true

theorem LeavesApplied.of_error (host' : Host) (failure : Failure) :
    LeavesApplied id host' (.error failure) :=
  fun impossible => nomatch impossible

theorem LeavesApplied.released {host' : Host} {result : Except Failure Unit}
    (leaves : LeavesApplied id host' result) : LeavesApplied id (released host' id) result := by
  intro succeeded session known
  have modified := (List.getElem?_modify_eq ..).symm.trans known
  cases found : host'.sessions[id]? with
  | none =>
      rw [found] at modified
      cases modified
  | some before =>
      rw [found] at modified
      cases modified
      exact leaves succeeded before found

theorem keeps_succeed (target : Target) :
    (succeed id target).Keeps .loose host (LeavesApplied id) := by
  let record := builtRecord target
  intro _ session known
  have modified : (host.sessions.modify id fun session => session.built target host.now)[id]? =
      some session := (congrArg (·[id]?) (logged_sessions _ record)).symm.trans known
  rw [List.getElem?_modify_eq] at modified
  cases found : host.sessions[id]? with
  | none =>
      rw [found] at modified
      cases modified
  | some before =>
      rw [found] at modified
      cases modified
      rfl

theorem keeps_abandon (target : Target) (failure : Failure) :
    (abandon id target failure).Keeps .loose host (LeavesApplied id) := by
  apply (IsWork.teardown.keeps_loose host).bind
  · exact fun host' _ _ impossible => nomatch impossible
  · exact fun host' failure _ => .of_error host' failure

theorem keeps_attemptUpTo (target : Target) (total : Nat) (last : Failure) (count : Nat) :
    (attemptUpTo id target total last count).Keeps .loose host (LeavesApplied id) := by
  induction count generalizing host last with
  | zero => exact keeps_abandon target last
  | succ count induction =>
      apply ((IsWork.attemptOnce target).keeps_loose host).bind
      · intro host' outcome _
        cases outcome with
        | none => exact keeps_succeed target
        | some failure => exact induction _
      · exact fun host' failure _ => .of_error host' failure

theorem keeps_attemptAll (target : Target) :
    (attemptAll id target).Keeps .loose host (LeavesApplied id) := by
  unfold attemptAll
  cases target.settings.retries with
  | whole retries => exact keeps_attemptUpTo target _ _ _
  | real retries => exact .of_error host _

theorem keeps_carryOut (session : Session) (target : Target) :
    (session.carryOut id (some target)).Keeps .loose host (LeavesApplied id) := by
  unfold carryOut
  dsimp only
  split
  · apply ((IsWork.move _).keeps_loose host).bind
    · exact fun host' _ _ => keeps_attemptAll target
    · exact fun host' failure _ => .of_error host' failure
  · exact keeps_attemptAll target

/-! ## Saving -/

theorem isWritable_late (path : Path) :
    FailsWithin.IsWritable (fun failure => failure.isEarly = false) path where
  parent := path.parent.failsLate_check
  ending := path.failsLate_withEnding _
  unfinished beside _ _ := beside.failsLate_check _
  target := path.failsLate_check

/-- After a success, saving fails late if it fails at all. -/
theorem failsLate_persist (applied : ∀ session, host.sessions[id]? = some session →
    session.applied.isSome = true) :
    (persist id).Keeps .loose host fun _ result => FailsLate result := by
  cases known : host.sessions[id]? with
  | none =>
      have saves : save id none false host = .done host (.error .key) :=
        bind_of_error (bind_of_error (session_eq_error known))
      have ignored : (do let _ ← save id none false : HostOperation Unit) host =
          .done host (.error .key) :=
        bind_of_error saves
      have fails : persist id host = .done host (.error .key) := by
        change Procedure.andThen ((do let _ ← save id none false : HostOperation Unit) host) _ = _
        rw [ignored]
        rfl
      change (persist id host).Keeps .loose _
      rw [fails]
      exact .error rfl
  | some session => exact keeps_persist known (applied session known) (isWritable_late _)

/-! ## Requests -/

theorem keeps_conclude (target : Option Target)
    (applied : target.isSome = true → ∀ session, host.sessions[id]? = some session →
      session.applied.isSome = true) :
    (conclude id target).Keeps .loose host fun _ result => FailsLate result := by
  cases target with
  | none => exact (IsWork.session.bind fun _ => IsWork.record _).keeps_loose host
  | some target => exact failsLate_persist (applied rfl)

/-- Once the locks are taken, all failures are late ones. -/
theorem keeps_releasing (session : Session) (target : Option Target) :
    (do releasing id (session.carryOut id target); conclude id target :
      HostOperation Unit).Keeps .loose host fun _ result => FailsLate result := by
  have carriedOut : (session.carryOut id target).Keeps .loose host fun host' result =>
      FailsLate result ∧ (target.isSome = true → LeavesApplied id host' result) := by
    cases target with
    | none =>
        apply ((IsWork.carryOut session none).keeps_loose host).weaken
        exact fun _ _ late => ⟨late, fun impossible => nomatch impossible⟩
    | some target =>
        apply Procedure.Keeps.weaken
          (((IsWork.carryOut session (some target)).keeps_loose host).and
            (keeps_carryOut session target))
        exact fun _ _ ended => ⟨ended.1, fun _ => ended.2⟩
  have released : (releasing id (session.carryOut id target)).Keeps .loose host
      fun host' result =>
        FailsLate result ∧ (target.isSome = true → LeavesApplied id host' result) :=
    carriedOut.andThen fun _ _ ended => ⟨ended.1, fun isSome => (ended.2 isSome).released⟩
  apply released.bind
  · exact fun _ _ ended => keeps_conclude target fun isSome => ended.2 isSome rfl
  · exact fun _ _ ended => ended.1

end Session

namespace Request

/-- A request is over at once, with every session as it was, or it fails late. -/
theorem perform_cases (request : Request) (id : SessionId) (host : Host) :
    (∃ host' failure, request.perform id host = .done host' (.error failure) ∧
      host'.sessions = host.sessions) ∨
    (request.perform id).Keeps .loose host fun _ result => FailsLate result := by
  cases known : host.sessions[id]? with
  | none => exact .inl ⟨host, .key, perform_eq_of_unknown known, rfl⟩
  | some session =>
      cases isPrepared : request.prepared host session with
      | error failure =>
          rcases perform_eq_of_error known isPrepared with ⟨log, done⟩
          exact .inl ⟨_, failure, done, rfl⟩
      | ok target =>
          rcases perform_eq_of_ok known isPrepared with ⟨log, proceeds⟩
          have known' : ({ host with log := log } : Host).sessions[id]? = some session := known
          rcases Session.proceed_cases target known' with
            ⟨host', failure, done, same⟩ | ⟨_, host', _, _, goesOn⟩
          · exact .inl ⟨host', failure, proceeds.trans done, same⟩
          · have kept := @Session.keeps_releasing host' id session target
            refine .inr ?_
            change (request.perform id host).Keeps .loose _
            rw [proceeds, goesOn]
            exact kept

/-- A request that fails with what can be found beforehand has run no command, and every
session is what it was. -/
theorem eq_done_of_isEarly {ρ : Type} {responder : Procedure.Responder ρ Host}
    {memory memory' : ρ} {host host' : Host} {id : SessionId} {request : Request}
    {failure : Failure}
    (ran : (request.perform id).run responder memory host = (memory', host', .error failure))
    (early : failure.isEarly = true) :
    request.perform id host = .done host' (.error failure) ∧ memory' = memory ∧
      host'.sessions = host.sessions := by
  rcases perform_cases request id host with ⟨host₁, failure₁, done, same⟩ | kept
  · rw [Operation.run, done] at ran
    cases ran
    exact ⟨done, rfl, same⟩
  · have late := Procedure.Keeps.run kept responder (fun _ _ _ _ => trivial) memory
    have ended : (request.perform id host).run responder memory =
        (memory', host', .error failure) := ran
    rw [ended] at late
    rw [late failure rfl] at early
    cases early

/-- The built-in settings, if they had been read from a file that is no longer there. -/
theorem eq_done_of_missing_file :
    ∃ settings, Settings.ofDocument .system (.mapping []) none = .ok settings ∧
      let path : Path := ⟨"/", ["etc", "uplink.yaml"]⟩
      let host := Session.newHost { settings with source := some path }
      let failure := Failure.configuration
        (.unreadable path.text (.file .missing path.text))
      ((Request.reload none).perform 0).run (Machine.answer .none)
          (⟨.untouched, 0, none⟩ : Machine) host =
        (⟨.untouched, 0, none⟩, host, .error failure) ∧
      (Request.reload none).perform 0 host = .done host (.error failure) := by
  have evaluated : Settings.isAcceptedWith (.mapping []) (fun _ => true) = true := by
    decide +kernel
  rcases Settings.exists_of_isAcceptedWith evaluated with ⟨settings, accepted, _⟩
  have ran : ((Request.reload none).perform 0).run (Machine.answer .none)
      (⟨.untouched, 0, none⟩ : Machine)
      (Session.newHost { settings with source := some ⟨"/", ["etc", "uplink.yaml"]⟩ }) =
        (_, _, .error (.configuration (.unreadable _ (.file .missing _)))) := rfl
  exact ⟨settings, accepted, ran, (eq_done_of_isEarly ran rfl).1⟩

end Request

end UplinkShaper
