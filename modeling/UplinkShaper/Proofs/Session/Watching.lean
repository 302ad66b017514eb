import UplinkShaper.Proofs.Session.Checking
import UplinkShaper.Proofs.Session.Orderly

/-!
Looking at a session, and how it ends. Listings that are not there are failures of their commands,
and a legible listing of counters becomes a snapshot. So checks, descriptions and saved states of
sessions with regular settings end orderly, as long as all replies are plain.
-/

namespace UplinkShaper

open Operation Result

/-- A listing is there, or it is a failure of its command that it is not. -/
theorem Exchange.isOrderly_listed {exchange : Exchange}
    (isHandled : exchange.reply.isHandled = true) : IsOrderly exchange.listed := by
  cases found : exchange.listed with
  | ok listing => exact isOrderly_ok listing
  | error failure =>
      rcases listed_of_error isHandled found with ⟨reason, rfl⟩
      exact isOrderly_error rfl

/-! ## Watching -/

/-- In a session of the given settings an operation ends orderly, and leaves the session as it was
but for its latest snapshot. -/
def Watches (id : SessionId) (settings : Settings) (operation : HostOperation α) : Prop :=
  ∀ (host : Host) (session : Session), host.sessions[id]? = some session →
    session.IsFor settings → operation.Tells host fun exchanges host' result =>
      ArePlain exchanges → IsOrderly result ∧
        ∃ latest, host'.sessions[id]? = some { session with latest := latest }

namespace Watches

variable {id : SessionId} {settings : Settings}

theorem ofResult {result : Except Failure α} (orderly : IsOrderly result) :
    Watches id settings (Operation.ofResult result : HostOperation α) :=
  fun _ session known _ => (tells_of_done rfl).mpr fun _ => ⟨orderly, session.latest, known⟩

theorem pure (value : α) : Watches id settings (Pure.pure value : HostOperation α) :=
  ofResult (isOrderly_ok value)

/-- What runs no command and fails in orderly ways. -/
theorem of_within {operation : HostOperation α} (quiet : operation.IsQuiet)
    (within : FailsWithin (IsRefusalOr fun failure => failure.isOwn = true) operation) :
    Watches id settings operation := by
  intro host session known _
  refine ((endsOrderly_of_within within).and quiet.tells).weaken ?_
  intro exchanges host' result told plain
  exact ⟨told.1 plain, session.latest, told.2.2 ▸ known⟩

theorem record (shown : LogRecord) : Watches id settings (Host.record shown) :=
  of_within (Host.isQuiet_record shown) (.modify _)

theorem get : Watches id settings (MonadState.get : HostOperation Host) :=
  of_within isQuiet_get .get

/-- What is done with the session has to be watched where it is one of the settings. -/
theorem session_bind {next : Session → HostOperation α}
    (watches : ∀ session, session.IsFor settings → Watches id settings (next session)) :
    Watches id settings (Host.session id >>= next) :=
  fun host session known isFor =>
    (tells_bind_of_ok (Host.session_eq_done known)).mpr
      (watches session isFor host session known isFor)

/-- Watching goes on after a part that left the session as it was. -/
theorem goesOn {operation : HostOperation α} {before : List Exchange} {host : Host}
    {session : Session} (watches : Watches id settings operation) (isFor : session.IsFor settings)
    (left : ∃ latest, host.sessions[id]? = some { session with latest := latest }) :
    operation.Tells host fun later host' result => ArePlain (before ++ later) →
      IsOrderly result ∧
        ∃ latest, host'.sessions[id]? = some { session with latest := latest } := by
  rcases left with ⟨latest, known⟩
  intro later host' result told plain
  exact watches host _ known ⟨isFor.own, isFor.backends, isFor.binding, isFor.roundTrip⟩ later host'
    result told (arePlain_append.mp plain).2

theorem bind {first : HostOperation α} {next : α → HostOperation β}
    (watches : Watches id settings first)
    (nextWatches : ∀ value, Watches id settings (next value)) :
    Watches id settings (first >>= next) := by
  intro host session known isFor
  refine (watches host session known isFor).bind ?_ ?_
  · intro exchanges host₁ value ended later host₂ result told plain
    have left := (ended (arePlain_append.mp plain).1).2
    exact (nextWatches value).goesOn isFor left later host₂ result told plain
  · intro exchanges host₁ failure ended plain
    exact ⟨(ended plain).1.error, (ended plain).2⟩

/-- Listings that are not there are made up for, and other failures are handed on. -/
theorem tryCatch {body : HostOperation α} {handle : Failure → HostOperation α}
    (watches : Watches id settings body)
    (handles : ∀ reason, Watches id settings (handle (.listing reason)))
    (handsOn : ∀ failure, (∃ reason, failure = .listing reason) ∨
      handle failure = throw failure) : Watches id settings (tryCatch body handle) := by
  intro host session known isFor
  refine (watches host session known isFor).tryCatch (fun _ _ _ ended => ended) ?_
  intro exchanges host₁ failure ended
  rcases handsOn failure with ⟨reason, rfl⟩ | isHandedOn
  · intro later host₂ result told plain
    have left := (ended (arePlain_append.mp plain).1).2
    exact (handles reason).goesOn isFor left later host₂ result told plain
  · rw [isHandedOn]
    refine (tells_of_done rfl).mpr fun plain => ?_
    rw [List.append_nil] at plain
    exact ended plain

theorem mapM {items : List α} {next : α → HostOperation β}
    (watches : ∀ item ∈ items, Watches id settings (next item)) :
    Watches id settings (items.mapM next) := by
  induction items with
  | nil => exact pure []
  | cons item rest induction =>
      rcases List.forall_mem_cons.mp watches with ⟨first, others⟩
      rw [List.mapM_cons]
      exact first.bind fun _ => (induction others).bind fun _ => pure _

end Watches

/-! ## What is watched -/

namespace Watches

variable {id : SessionId} {settings : Settings} {what : String}

theorem read {words : List String} (checked : settings.statePath.check = .ok ())
    (isWords : settings.listing what = .ok words) :
    Watches id settings (Session.read id what) := by
  intro host session known isFor
  refine (Session.tells_read known (Session.check_readerLock (isFor.own ▸ checked))
    ((isFor.listing_eq what).trans isWords)).weaken ?_
  intro exchanges host' result told plain
  rcases told with ⟨reply, rfl, ⟨log, rfl⟩, rfl⟩
  have handled := (plain _ (List.mem_singleton_self _)).isHandled
  exact ⟨Exchange.isOrderly_listed handled, session.latest, known⟩

/-- A listing that is not there fails the check, and no more. -/
theorem performCheck {check : Session.Check} {words : List String}
    (checked : settings.statePath.check = .ok ())
    (isWords : settings.listing check.listing = .ok words) :
    Watches id settings (Session.performCheck id check) := by
  refine (tryCatch ((read checked isWords).bind fun _ => (record _).bind fun _ => pure _)
    (fun reason => ?_) fun failure => ?_).bind fun found => ?_
  · exact pure _
  · cases failure with
    | listing reason => exact .inl ⟨reason, rfl⟩
    | _ => exact .inr rfl
  · cases found with
    | error result => exact pure result
    | ok result => exact pure result

theorem savedListing {words : List String} (checked : settings.statePath.check = .ok ())
    (isWords : settings.listing what = .ok words) :
    Watches id settings (Session.savedListing id what) := by
  refine (tryCatch ((read checked isWords).bind fun _ => pure _)
    (fun reason => (record _).bind fun _ => pure _) fun failure => ?_).bind fun found => ?_
  · cases failure with
    | listing reason => exact .inl ⟨reason, rfl⟩
    | _ => exact .inr rfl
  · cases found with
    | error shown => exact pure shown
    | ok shown => exact pure shown

theorem compile (answers : IsAnswer (Compiled.ofSettings settings settings.roundTrip)) :
    Watches id settings (Session.compile id) := by
  intro host session known isFor
  rcases Session.compile_eq_done known isFor with ⟨log, done⟩
  exact (tells_of_done done).mpr fun _ => ⟨answers.isOrderly, session.latest, known⟩

theorem verify (answers : IsAnswer (Compiled.ofSettings settings settings.roundTrip))
    (checked : settings.statePath.check = .ok ()) :
    Watches id settings (Session.verify id) := by
  refine (compile answers).bind fun compiled => mapM fun check among => ?_
  rcases Session.exists_listing_of_mem_checksOf settings.backends among with ⟨words, isWords⟩
  exact performCheck checked isWords

theorem describe (answers : IsAnswer (Compiled.ofSettings settings settings.roundTrip)) :
    Watches id settings (Session.describe id) := by
  refine session_bind fun session _ => ?_
  cases session.applied with
  | some applied => exact pure _
  | none => exact (compile answers).bind fun _ => pure _

theorem writeDocument {path : Path} (isNamed : path.components ≠ []) (checked : path.check = .ok ())
    (document : Value) : Watches id settings (Session.writeDocument path document) := by
  have within := FailsWithin.writeDocument (Session.isWritable_of_isNamed isNamed checked) document
  refine of_within (Session.isQuiet_writeDocument path document) fun host => ?_
  refine (within host).weaken fun host' result refused failure failed => ?_
  exact (refused failure failed).imp_left False.elim

/-- A state is saved at the path of the settings, or the system refuses it. -/
theorem save (answers : IsAnswer (Compiled.ofSettings settings settings.roundTrip))
    (isNamed : settings.statePath.components ≠ []) (checked : settings.statePath.check = .ok ()) :
    Watches id settings (Session.save id none true) := by
  refine (describe answers).bind fun described => get.bind fun host => ?_
  have listings : Watches id settings (Session.savedListings.mapM (Session.savedListing id)) := by
    refine mapM fun what among => ?_
    simp only [Session.savedListings, List.mem_cons, List.not_mem_nil, or_false] at among
    rcases among with rfl | rfl | rfl | rfl
    · exact savedListing checked rfl
    · exact savedListing checked rfl
    · exact savedListing checked rfl
    · exact savedListing checked rfl
  refine listings.bind fun _ => (pure _).bind fun listed => session_bind fun session isFor => ?_
  have own := isFor.own
  exact (writeDocument (own.symm ▸ isNamed) (own.symm ▸ checked) _).bind fun _ =>
    (record _).bind fun _ => pure _

end Watches

end UplinkShaper
