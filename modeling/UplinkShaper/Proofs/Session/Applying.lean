import UplinkShaper.Proofs.Backend.Hooks
import UplinkShaper.Proofs.Session.Issuing
import UplinkShaper.Proofs.Session.Outcomes

/-!
What is said when settings are applied. A session whose backends are those of its settings has
nothing to move, and where its request succeeds the last thing it told is an attempt that was
carried out to its end.
-/

namespace UplinkShaper

open Operation

/-- Where attempts succeed, the last of them was carried out. -/
theorem Tries.exists_of_ok {work cleanup : List Order} {last : Failure} {count : Nat}
    {exchanges : List Exchange} (tries : Tries work cleanup last count exchanges (.ok ())) :
    ∃ before attempt, exchanges = before ++ attempt ∧ Runs work attempt (.ok ()) := by
  generalize succeeded : (Except.ok () : Except Failure Unit) = outcome at tries
  induction tries with
  | abandoned _ => cases succeeded
  | @succeeded _ _ exchanges runs => exact ⟨[], exchanges, rfl, runs⟩
  | broken _ _ => cases succeeded
  | @again _ _ first _ _ _ _ _ induction =>
      rcases induction succeeded with ⟨before, attempt, rfl, runs⟩
      exact ⟨first ++ before, attempt, (List.append_assoc ..).symm, runs⟩

/-- Attempts and the cleanup after them ask for nothing else. -/
theorem Tries.asked {work cleanup : List Order} {last : Failure} {count : Nat}
    {exchanges : List Exchange} {result : Except Failure Unit}
    (tries : Tries work cleanup last count exchanges result) :
    ∀ exchange ∈ exchanges, ∃ order ∈ cleanup ++ work, order.Asks exchange.words := by
  have working {exchanges : List Exchange} {result : Except Failure Unit}
      (runs : Runs work exchanges result) :
      ∀ exchange ∈ exchanges, ∃ order ∈ cleanup ++ work, order.Asks exchange.words := by
    intro exchange among
    rcases runs.asked exchange among with ⟨order, member, asks⟩
    exact ⟨order, List.mem_append_right _ member, asks⟩
  induction tries with
  | abandoned runs =>
      intro exchange among
      rcases runs.asked exchange among with ⟨order, member, asks⟩
      exact ⟨order, List.mem_append_left _ member, asks⟩
  | succeeded runs => exact working runs
  | broken runs _ => exact working runs
  | again runs _ induction => exact List.forall_mem_append.mpr ⟨working runs, induction⟩

namespace Session

variable {host : Host} {id : SessionId} {session : Session} {settings : Settings} {target : Target}
  {locations : Locations} {document : Value} {source : Option Path}

/-- A session of settings, with backends and a round trip that are theirs. -/
structure IsFor (settings : Settings) (session : Session) : Prop where
  own : session.settings = settings
  backends : session.backends = settings.backends
  binding : session.binding = settings.binding
  roundTrip : session.roundTrip = settings.roundTrip

theorem isFor_fresh (settings : Settings) (provision : Provision) (labels : Labels) :
    (fresh settings provision none labels).IsFor settings :=
  ⟨rfl, rfl, rfl, rfl⟩

/-- The class tree of settings is made, or an allocation or a curve is refused. -/
def IsDecided (settings : Settings) : Prop :=
  ∀ failure, settings.treeRequest.compile settings.roundTrip = .error failure →
    (∃ error, failure = .allocation error) ∨ ∃ error, failure = .curve error

/-- A session is made from settings, unless not even its labels can be found. -/
theorem make_cases (settings : Settings) (provision : Provision) (host : Host) :
    (∃ host' failure, settings.treeRequest.compile settings.roundTrip = .error failure ∧
      ¬ IsDecided settings ∧ make settings provision none host = .done host' (.error failure)) ∨
    IsDecided settings ∧
      ∃ log labels, make settings provision none host =
        .done { host with log := log, sessions := host.sessions ++
          [fresh settings provision none labels] } (.ok host.sessions.length) := by
  have labelled : ∃ log found, labelsFor settings settings.roundTrip host =
      .done { host with log := log } found ∧
        ((∃ labels, found = .ok labels) ∧ IsDecided settings ∨
          ∃ failure, found = .error failure ∧ ¬ IsDecided settings ∧
            settings.treeRequest.compile settings.roundTrip = .error failure) := by
    rcases Host.exists_foldl_logged (settings.treeRequest.log settings.roundTrip) host with
      ⟨log, logged⟩
    have recorded : Host.recordAll (settings.treeRequest.log settings.roundTrip) host =
        .done { host with log := log } (.ok ()) := by
      rw [← logged]
      rfl
    rw [labelsFor, bind_of_ok recorded, IsDecided]
    cases settings.treeRequest.compile settings.roundTrip with
    | ok tree => exact ⟨log, _, rfl, .inl ⟨⟨_, rfl⟩, nofun⟩⟩
    | error failure =>
        rcases Host.isLike_logged { host with log := log }
          (.debug ("No class labels, configuration does not compile: " ++ failure.message)) with
          ⟨later, isLogged⟩
        cases failure with
        | allocation error =>
            refine ⟨later, _, congrArg (Procedure.done · _) isLogged, .inl ⟨⟨[], rfl⟩, ?_⟩⟩
            intro failure same
            cases same
            exact .inl ⟨error, rfl⟩
        | curve error =>
            refine ⟨later, _, congrArg (Procedure.done · _) isLogged, .inl ⟨⟨[], rfl⟩, ?_⟩⟩
            intro failure same
            cases same
            exact .inr ⟨error, rfl⟩
        | _ =>
            refine ⟨log, _, rfl, .inr ⟨_, rfl, fun decided => ?_, rfl⟩⟩
            rcases decided _ rfl with ⟨_, ⟨⟩⟩ | ⟨_, ⟨⟩⟩
  rcases labelled with ⟨log, found, done, ⟨⟨labels, rfl⟩, decided⟩ |
    ⟨failure, rfl, undecided, fails⟩⟩
  · exact .inr ⟨decided, log, labels, bind_of_ok done⟩
  · exact .inl ⟨_, failure, fails, undecided, bind_of_error done⟩

theorem IsFor.roundTripFor (isFor : session.IsFor settings) :
    session.roundTripFor settings = settings.roundTrip := by
  rw [Session.roundTripFor, isFor.roundTrip, ite_self]

/-! ## Attempts -/

/-- A target was applied in the last attempt that exchanges tell of. -/
def Applies (settings : Settings) (compiled : Compiled) (exchanges : List Exchange) : Prop :=
  ∃ before attempt, exchanges = before ++ attempt ∧
    Runs (attemptOrders settings.backends { settings := settings, compiled := compiled })
      attempt (.ok ())

/-- Settings were applied, and nothing was asked for but what they order. -/
structure IsApplied (id : SessionId) (settings : Settings) (compiled : Compiled)
    (exchanges : List Exchange) (host' : Host) : Prop where
  retries : ∃ retries : Int, settings.retries = .whole retries
  applies : Applies settings compiled exchanges
  asked : ∀ exchange ∈ exchanges, ∃ order ∈ settings.backends.teardownOrders ++
    settings.backends.orders compiled.plan, order.Asks exchange.words
  known : ∃ session', host'.sessions[id]? = some session' ∧ session'.IsFor settings

/-- A session has failed, or it has applied what was compiled for settings. -/
def FailsOrApplies (id : SessionId) (settings : Settings) (compiled : Compiled)
    (exchanges : List Exchange) (host' : Host) (result : Except Failure Unit) : Prop :=
  (∃ failure, result = .error failure) ∨
    result = .ok () ∧ IsApplied id settings compiled exchanges host'

theorem tells_carryOut {compiled : Compiled}
    (known : host.sessions[id]? = some { session with isWriting := true })
    (isFor : session.IsFor settings)
    (accepted : Settings.ofDocument locations document source = .ok settings) :
    (session.carryOut id (some { settings := settings, compiled := compiled })).Tells host
      fun exchanges host' result => AreHandled exchanges →
        FailsOrApplies id settings compiled exchanges host' result := by
  have stays : settings.binding = session.binding := isFor.binding.symm
  cases written : settings.retries with
  | real retries =>
      have fails : session.carryOut id (some { settings := settings, compiled := compiled }) host =
          .done host (.error .mismatch) := by
        rw [carryOut_of_binding stays, attemptAll, written]
        rfl
      exact (tells_of_done fails).mpr fun _ => .inl ⟨_, rfl⟩
  | whole retries =>
      refine tells_of_ends fun runner memory isHandled => ?_
      have nonneg := Settings.retries_nonneg_of_ofDocument accepted written
      apply ((ends_carryOut_recorded isHandled known written memory).and
        (ends_carryOut_outcome isHandled known nonneg written memory)).weaken
      rintro _ host' result
        ⟨⟨moving, runs, ⟨added, recorded, tries⟩, _⟩, session', known', outcome⟩
      rw [movingOrders, if_pos stays] at runs
      rw [backendsFor, if_pos stays, isFor.backends] at tries
      cases runs
      rw [List.nil_append] at recorded
      rw [bound, if_pos stays] at outcome
      cases outcome with
      | built moment =>
          refine .inr ⟨rfl, ⟨retries, written⟩, ?_, ?_, _, known', ?_⟩
          · rw [recorded]
            exact tries.exists_of_ok
          · rw [recorded]
            intro exchange among
            rcases tries.asked exchange among with ⟨order, member, asks⟩
            refine ⟨order, ?_, asks⟩
            rcases List.mem_append.mp member with tearing | working
            · exact List.mem_append_left _ tearing
            · exact working
          · exact ⟨rfl, isFor.backends, isFor.binding, isFor.roundTrip⟩
      | cleared reason => exact .inl ⟨_, rfl⟩
      | kept isOther => exact .inl ⟨_, rfl⟩

theorem FailsOrApplies.released {compiled : Compiled} {exchanges : List Exchange} {host' : Host}
    {result : Except Failure Unit}
    (applied : FailsOrApplies id settings compiled exchanges host' result) :
    FailsOrApplies id settings compiled exchanges (released host' id) result := by
  rcases applied with fails | ⟨succeeded, isApplied⟩
  · exact .inl fails
  · rcases isApplied.known with ⟨session', known', isFor⟩
    exact .inr ⟨succeeded, isApplied.retries, isApplied.applies, isApplied.asked, _,
      Host.getElem?_modify known', isFor.own, isFor.backends, isFor.binding, isFor.roundTrip⟩

theorem tells_releasing {compiled : Compiled}
    (known : host.sessions[id]? = some { session with isWriting := true })
    (isFor : session.IsFor settings)
    (accepted : Settings.ofDocument locations document source = .ok settings) :
    let target : Option Target := some { settings := settings, compiled := compiled }
    (do releasing id (session.carryOut id target); conclude id target : HostOperation Unit).Tells
      host fun exchanges host' result => AreHandled exchanges →
        FailsOrApplies id settings compiled exchanges host' result := by
  intro target
  have carried : (releasing id (session.carryOut id target)).Tells host
      fun exchanges host' result => AreHandled exchanges →
        FailsOrApplies id settings compiled exchanges host' result := by
    refine tells_andThen.mpr ((tells_carryOut known isFor accepted).weaken ?_)
    intro exchanges host₁ result applied
    refine (tells_of_done rfl).mpr fun handled => ?_
    rw [List.append_nil] at handled ⊢
    exact (applied handled).released
  refine carried.bind ?_ fun _ _ failure _ _ => .inl ⟨failure, rfl⟩
  · intro exchanges host₁ _ applied
    refine (isQuiet_conclude id target).tells.weaken ?_
    rintro _ host₂ result ⟨rfl, sameLater⟩ handled
    rw [List.append_nil] at handled ⊢
    rcases applied handled with ⟨_, ⟨⟩⟩ | ⟨_, isApplied⟩
    cases result with
    | error failure => exact .inl ⟨failure, rfl⟩
    | ok value =>
        refine .inr ⟨rfl, isApplied.retries, isApplied.applies, isApplied.asked, ?_⟩
        rw [sameLater]
        exact isApplied.known

end Session

/-! ## Requests -/

namespace Request

open Session

variable {host : Host} {id : SessionId} {session : Session} {settings : Settings}
  {request : Request} {locations : Locations} {document : Value} {source : Option Path}

/-- A request to apply settings fails, or it applies what they compile to. -/
theorem tells_perform (known : host.sessions[id]? = some session) (isFor : session.IsFor settings)
    (asks : request.settings host session = .ok (some settings))
    (accepted : Settings.ofDocument locations document source = .ok settings) :
    (request.perform id).Tells host fun exchanges host' result => AreHandled exchanges →
      (∃ failure, result = .error failure) ∨
        ∃ compiled, Compiled.ofSettings settings settings.roundTrip = .ok compiled ∧
          FailsOrApplies id settings compiled exchanges host' result := by
  have isPrepared := prepared_eq asks
  cases found : session.targetFor settings with
  | error failure =>
      rw [found] at isPrepared
      rcases perform_eq_of_error known isPrepared with ⟨log, done⟩
      exact (tells_of_done done).mpr fun _ => .inl ⟨failure, rfl⟩
  | ok target =>
      rw [found] at isPrepared
      rcases targetFor_eq_ok found with ⟨compiled, compiles, rfl⟩
      rw [isFor.roundTripFor] at compiles
      rcases perform_eq_of_ok known isPrepared with ⟨log, proceeds⟩
      have known₁ : ({ host with log := log } : Host).sessions[id]? = some session := known
      rcases proceed_cases (some { settings := settings, compiled := compiled }) known₁ with
        ⟨host₁, failure, done, _⟩ | ⟨_, host₁, _, same, goesOn⟩
      · exact (tells_of_done (proceeds.trans done)).mpr fun _ => .inl ⟨failure, rfl⟩
      · have concluded := @tells_releasing _ _ _ _ _ _ _ compiled
          (same ▸ getElem?_occupied known₁) isFor accepted
        intro exchanges host' result told handled
        rw [proceeds, goesOn] at told
        exact .inr ⟨compiled, compiles, concluded exchanges host' result told handled⟩

/-- A stop fails, or it leaves a session with its settings and backends. -/
theorem tells_stop (known : host.sessions[id]? = some session) (isFor : session.IsFor settings) :
    (Request.stop.perform id).Tells host fun exchanges host' result => AreHandled exchanges →
      (∃ failure, result = .error failure) ∨
        ∃ session', host'.sessions[id]? = some session' ∧ session'.IsFor settings := by
  refine tells_of_ends fun runner memory isHandled => ?_
  have left : (Request.stop.perform id).Ends (recording runner) (memory, []) host
      fun _ host' _ => ∃ session', host'.sessions[id]? = some session' ∧
        session'.IsFor settings := by
    refine ends_perform_left known isFor fun target host₁ isPrepared known₁ => ?_
    cases isPrepared
    apply (ends_carryOut_none isHandled known₁ session memory).weaken
    rintro _ host₂ _ ⟨known₂, _⟩
    exact ⟨_, known₂, isFor.own, isFor.backends, isFor.binding, isFor.roundTrip⟩
  exact left.weaken fun _ _ _ => .inr

end Request

end UplinkShaper
