import UplinkShaper.Proofs.Counter.Legible
import UplinkShaper.Proofs.Session.Applying
import UplinkShaper.Proofs.Session.Serving

/-!
Operations that end orderly: with a value, a failure of the library's own or a refusal of the
system. Requests of a session for regular settings do, as long as no reply interrupts them.
-/

namespace UplinkShaper

open Operation

/-! ## Orderly results -/

namespace Result

/-- A value, a failure of the library's own or a refusal of the system. -/
def IsOrderly (result : Except Failure α) : Prop :=
  ∀ failure, result = .error failure → IsRefusalOr (fun failure => failure.isOwn = true) failure

theorem isOrderly_ok (value : α) : IsOrderly (.ok value : Except Failure α) :=
  fun _ impossible => nomatch impossible

theorem isOrderly_error {failure : Failure} (isOwn : failure.isOwn = true) :
    IsOrderly (.error failure : Except Failure α) := by
  intro other same
  cases same
  exact .inl isOwn

theorem not_isOrderly_error {failure : Failure} (isOther : failure.isOwn = false)
    (isNone : ∀ error, failure ≠ .system error) :
    ¬ IsOrderly (.error failure : Except Failure α) := by
  intro orderly
  rcases orderly failure rfl with isOwn | ⟨error, isSystem⟩
  · rw [isOther] at isOwn
    cases isOwn
  · exact isNone error isSystem

theorem IsAnswer.isOrderly {result : Except Failure α} (answers : IsAnswer result) :
    IsOrderly result :=
  fun failure failed => .inl (answers failure failed)

/-- A failure is orderly whatever would have been there in its place. -/
theorem IsOrderly.error {failure : Failure}
    (orderly : IsOrderly (.error failure : Except Failure α)) :
    IsOrderly (.error failure : Except Failure β) := by
  intro other same
  cases same
  exact orderly failure rfl

end Result

open Result

/-! ## Plain replies -/

/-- A reply at which a program goes on, with an output that is legible. -/
structure Reply.IsPlain (reply : Reply) : Prop where
  isHandled : reply.isHandled = true
  output : ∀ code output errors, reply = .finished code (some output) errors →
    Text.IsLegible output.toList

def ArePlain (exchanges : List Exchange) : Prop :=
  ∀ exchange ∈ exchanges, exchange.reply.IsPlain

theorem ArePlain.areHandled {exchanges : List Exchange} (plain : ArePlain exchanges) :
    AreHandled exchanges :=
  fun exchange among => (plain exchange among).isHandled

theorem arePlain_append {before later : List Exchange} :
    ArePlain (before ++ later) ↔ ArePlain before ∧ ArePlain later :=
  List.forall_mem_append

/-- What is kept while the state is in other hands holds at the end of every transcript. -/
theorem Procedure.Keeps.says {procedure : Procedure σ α} {exchanges : List Exchange} {state : σ}
    {result : Except Failure α} {after : σ → Except Failure α → Prop}
    (keeps : procedure.Keeps .loose after) (told : procedure.Says exchanges state result) :
    after state result := by
  induction told with
  | done => exact keeps
  | command _ induction => exact induction (keeps.2 _ _ trivial)

namespace Operation

variable {α : Type} {host : Host}

/-- An operation ends orderly while all replies are plain. -/
def EndsOrderly (host : Host) (operation : HostOperation α) : Prop :=
  operation.Tells host fun exchanges _ result => ArePlain exchanges → IsOrderly result

theorem endsOrderly_of_done {operation : HostOperation α} {host' : Host}
    {result : Except Failure α} (done : operation host = .done host' result)
    (orderly : IsOrderly result) : operation.EndsOrderly host :=
  (tells_of_done done).mpr fun _ => orderly

/-- What fails in orderly ways only ends orderly. -/
theorem endsOrderly_of_within {operation : HostOperation α}
    (within : FailsWithin (IsRefusalOr fun failure => failure.isOwn = true) operation) :
    operation.EndsOrderly host :=
  fun _ _ _ told _ => Procedure.Keeps.says (within host) told

end Operation

/-! ## Regular settings -/

/-- A capacity with a finite double, whole numbers where attempts are counted and parents are
named, and a file for what is saved. -/
structure Settings.IsRegular (settings : Settings) : Prop where
  below : settings.capacity.rate < Double.bound
  isWhole : settings.IsWhole
  isNamed : settings.statePath.components ≠ []
  checked : settings.statePath.check = .ok ()

namespace Session

open Host

variable {host : Host} {id : SessionId} {session : Session} {settings : Settings}
  {compiled : Compiled} {locations : Locations} {document : Value} {source : Option Path}

theorem IsDecided.isAnswer (decided : IsDecided settings) :
    IsAnswer (settings.treeRequest.compile settings.roundTrip) := by
  intro failure fails
  rcases decided failure fails with ⟨_, rfl⟩ | ⟨_, rfl⟩
  · rfl
  · rfl

theorem check_readerLock (checked : session.settings.statePath.check = .ok ()) :
    session.readerLock.check = .ok () :=
  Path.check_child (Path.check_parent checked) (by decide)

theorem check_writerLock (checked : session.settings.statePath.check = .ok ()) :
    session.writerLock.check = .ok () :=
  Path.check_child (Path.check_parent checked) (by decide)

/-! ## Locks -/

theorem failsWithin_takeLocks (id : SessionId)
    (checked : session.settings.statePath.check = .ok ()) :
    FailsWithin (IsRefusalOr fun failure => failure.isOwn = true) (takeLocks id session) := by
  have never {path : Path} (isChecked : path.check = .ok ()) :
      ∀ failure, path.check = .error failure → failure.isOwn = true := by
    rw [isChecked]
    exact nofun
  have directory : session.lockDirectory.check = .ok () := Path.check_parent checked
  have rest : FailsWithin (IsRefusalOr fun failure => failure.isOwn = true) (do
      lock (.session id) session.writerLock
      touch session.readerLock
      lock (.session id) session.readerLock) :=
    (FailsWithin.modify _).bind fun _ =>
      (FailsWithin.changeFiles _ (never (check_readerLock checked))).bind fun _ =>
        FailsWithin.modify _
  refine (FailsWithin.makeDirectories (never directory)).bind fun _ =>
    (FailsWithin.changeFiles _ (never (check_writerLock checked))).bind fun _ =>
      FailsWithin.get.bind fun found => ?_
  cases found.isLocked session.writerLock with
  | false => exact rest
  | true =>
      intro host' failure failed
      cases failed
      exact .inl rfl

/-- A session goes on under its locks, or it fails orderly. -/
theorem proceed_of_checked (target : Option Target) (known : host.sessions[id]? = some session)
    (checked : session.settings.statePath.check = .ok ()) :
    (∃ host' failure, session.proceed id target host = .done host' (.error failure) ∧
      IsOrderly (.error failure : Except Failure Unit)) ∨
    ∃ host', host'.sessions[id]? = some { session with isWriting := true } ∧
      session.proceed id target host =
        (do releasing id (session.carryOut id target); conclude id target :
          HostOperation Unit) host' := by
  cases isWriting : session.isWriting with
  | true =>
      exact .inl ⟨host, .busy .session, bind_of_error (exclusively_eq_of_writing known isWriting),
        isOrderly_error rfl⟩
  | false =>
      have within := failsWithin_takeLocks id checked (occupied host id)
      rcases (isQuiet_takeLocks id session).exists_done (occupied host id) with
        ⟨host', result, taken, same⟩
      unfold Operation.Keeps at within
      rw [taken] at within
      cases result with
      | error failure =>
          refine .inl ⟨_, failure, proceed_eq_of_error known isWriting taken, ?_⟩
          exact IsOrderly.error within
      | ok value =>
          exact .inr ⟨host', same ▸ getElem?_occupied known,
            proceed_eq_of_ok known isWriting taken⟩

/-! ## Under locks -/

theorem endsOrderly_releasing (known : host.sessions[id]? = some { session with isWriting := true })
    (regular : settings.IsRegular)
    (accepted : Settings.ofDocument locations document source = .ok settings)
    (compiles : Compiled.ofSettings settings settings.roundTrip = .ok compiled) :
    (do
      releasing id (session.carryOut id (some { settings := settings, compiled := compiled }))
      conclude id (some { settings := settings, compiled := compiled }) :
        HostOperation Unit).EndsOrderly host := by
  rcases regular.isWhole.retries with ⟨retries, areRetries⟩
  have nonneg := Settings.retries_nonneg_of_ofDocument accepted areRetries
  have total : (1 + retries).toNat = retries.toNat + 1 := by omega
  have writable := @Compiled.isWritable_attemptOrders _ _ _ _
    { settings := settings, compiled := compiled } accepted compiles
    regular.below (session.backendsFor settings)
  have told := @tells_of_ends Unit host (do
      releasing id (session.carryOut id (some { settings := settings, compiled := compiled }))
      conclude id (some { settings := settings, compiled := compiled }))
    (fun _ _ result => IsOrderly result) ?_
  · exact told.weaken fun _ _ _ ended plain => ended plain.areHandled
  · intro runner memory isHandled
    apply (ends_releasing_recorded isHandled known areRetries regular.isNamed regular.checked
      memory).weaken
    rintro _ _ result ⟨moving, _, ⟨added, _, tries⟩, _⟩
    rw [total] at tries
    rcases tries.areAttempts writable with
      ⟨_, _, _, _, _, _, ⟨_, _, succeeded⟩ | ⟨reason, _, _, _, failed⟩⟩
    · rw [succeeded]
      exact isOrderly_ok ()
    · rw [failed]
      exact isOrderly_error rfl

/-- Clearing under locks succeeds. -/
theorem endsOrderly_clearing
    (known : host.sessions[id]? = some { session with isWriting := true }) :
    (do
      releasing id (session.carryOut id none)
      conclude id none : HostOperation Unit).EndsOrderly host := by
  have told := @tells_of_ends Unit host (do
      releasing id (session.carryOut id none)
      conclude id none)
    (fun _ _ result => IsOrderly result) ?_
  · exact told.weaken fun _ _ _ ended plain => ended plain.areHandled
  · intro runner memory isHandled
    have carried := ends_carryOut_none isHandled known session memory
    have left : (releasing id (session.carryOut id none)).Ends (recording runner) (memory, []) host
        fun _ host' result => result = .ok () ∧
          ∃ session', host'.sessions[id]? = some session' := by
      apply ends_andThen.mpr
      apply carried.weaken
      intro _ host₁ result ended
      exact ⟨ended.2, _, getElem?_modify ended.1⟩
    apply left.bind_ok fun _ _ _ ended => ended.1
    intro _ host₁ ended
    rcases ended.2 with ⟨session₁, known₁⟩
    exact (ends_session_bind known₁).mpr (isOrderly_ok ())

end Session

/-! ## Requests -/

namespace Request

open Session

variable {host : Host} {id : SessionId} {session : Session} {settings : Settings}
  {request : Request} {locations : Locations} {document : Value} {source : Option Path}

/-- A request to apply regular settings ends orderly. -/
theorem endsOrderly_perform (known : host.sessions[id]? = some session)
    (isFor : session.IsFor settings) (regular : settings.IsRegular)
    (answers : IsAnswer (Compiled.ofSettings settings settings.roundTrip))
    (asks : request.settings host session = .ok (some settings))
    (accepted : Settings.ofDocument locations document source = .ok settings) :
    (request.perform id).EndsOrderly host := by
  have isPrepared := prepared_eq asks
  cases found : session.targetFor settings with
  | error failure =>
      rw [found] at isPrepared
      rcases perform_eq_of_error known isPrepared with ⟨log, done⟩
      rw [← isFor.roundTripFor] at answers
      exact endsOrderly_of_done done
        (isOrderly_error (isAnswer_targetFor answers failure found))
  | ok target =>
      rw [found] at isPrepared
      rcases targetFor_eq_ok found with ⟨compiled, compiles, rfl⟩
      rw [isFor.roundTripFor] at compiles
      rcases perform_eq_of_ok known isPrepared with ⟨log, proceeds⟩
      have known' : ({ host with log := log } : Host).sessions[id]? = some session := known
      have checked := isFor.own ▸ regular.checked
      rcases proceed_of_checked (some { settings := settings, compiled := compiled }) known'
        checked with ⟨host₁, failure, done, orderly⟩ | ⟨host₁, known₁, goesOn⟩
      · exact endsOrderly_of_done (proceeds.trans done) orderly
      · intro exchanges host' result told
        rw [proceeds, goesOn] at told
        exact endsOrderly_releasing known₁ regular accepted compiles _ _ _ told

theorem endsOrderly_stop (known : host.sessions[id]? = some session)
    (checked : session.settings.statePath.check = .ok ()) :
    (Request.stop.perform id).EndsOrderly host := by
  have isPrepared : Request.stop.prepared host session = .ok none := rfl
  rcases perform_eq_of_ok known isPrepared with ⟨log, proceeds⟩
  have known' : ({ host with log := log } : Host).sessions[id]? = some session := known
  rcases proceed_of_checked none known' checked with
    ⟨host₁, failure, done, orderly⟩ | ⟨host₁, known₁, goesOn⟩
  · exact endsOrderly_of_done (proceeds.trans done) orderly
  · intro exchanges host' result told
    rw [proceeds, goesOn] at told
    exact endsOrderly_clearing known₁ _ _ _ told

end Request

end UplinkShaper
