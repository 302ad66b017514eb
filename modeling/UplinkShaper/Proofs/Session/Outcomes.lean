import UplinkShaper.Proofs.Session.Protocol

/-!
What a request leaves of its session. The result of attempts tells which: after a success the
session has applied the target, after a command that failed for good it has applied nothing,
and any other failure leaves it as the attempts found it.
-/

namespace UplinkShaper

open Operation

namespace Session

variable {ρ : Type} {runner : Runner ρ} {host : Host} {id : SessionId} {session : Session}
  {target : Target}

/-! ## Attempts -/

/-- What attempts make of a session, by their result. -/
inductive Outcome (target : Target) (session : Session) : Session → Except Failure Unit → Prop
  | built (moment : Moment) : Outcome target session (session.built target moment) (.ok ())
  | cleared (reason : CommandFailure) :
      Outcome target session session.cleared (.error (.apply reason))
  | kept {failure : Failure} : (∀ reason, failure ≠ .apply reason) →
      Outcome target session session (.error failure)

/-- Attempts have made something of a session. -/
def HasOutcome (id : SessionId) (target : Target) (session : Session) (host' : Host)
    (result : Except Failure Unit) : Prop :=
  ∃ session', host'.sessions[id]? = some session' ∧ Outcome target session session' result

theorem ends_abandon_outcome (isHandled : runner.IsHandled)
    (known : host.sessions[id]? = some session) (target : Target) (reason : CommandFailure)
    (memory : ρ) (exchanges : List Exchange) :
    (abandon id target (.apply reason)).Ends (recording runner) (memory, exchanges) host
      fun _ host' result => HasOutcome id target session host' result := by
  apply (ends_teardown_recorded isHandled known memory exchanges).bind_ok fun _ _ _ => And.right
  rintro ⟨memory₁, _⟩ host₁ ⟨⟨same₁, _⟩, _⟩
  exact ⟨session.cleared, Host.getElem?_logged (Host.getElem?_modify (same₁ ▸ known)) _,
    .cleared reason⟩

theorem ends_attemptUpTo_outcome (isHandled : runner.IsHandled)
    (known : host.sessions[id]? = some session) (target : Target) (total : Nat) (last : Failure)
    (count : Nat) (isReason : count = 0 → ∃ reason, last = .apply reason) (memory : ρ)
    (exchanges : List Exchange) :
    (attemptUpTo id target total last count).Ends (recording runner) (memory, exchanges) host
      fun _ host' result => HasOutcome id target session host' result := by
  induction count generalizing host last memory exchanges with
  | zero =>
      obtain ⟨reason, rfl⟩ := isReason rfl
      exact ends_abandon_outcome isHandled known target reason memory exchanges
  | succ count induction =>
      apply (ends_attemptOnce_recorded isHandled known target memory exchanges).bind
      · rintro ⟨memory₁, exchanges₁⟩ host₁ outcome ⟨same₁, _⟩
        have known₁ : host₁.sessions[id]? = some session := same₁ ▸ known
        cases outcome with
        | none =>
            exact ⟨session.built target host₁.now,
              Host.getElem?_logged (Host.getElem?_modify known₁) _, .built _⟩
        | some reason =>
            apply Performs.ends_record_bind.mpr
            exact induction (Host.getElem?_logged known₁ _) _ (fun _ => ⟨reason, rfl⟩) memory₁ _
      · rintro ⟨memory₁, exchanges₁⟩ host₁ failure ⟨same₁, _, tried, _, _, isOutcome⟩
        refine ⟨session, same₁ ▸ known, .kept ?_⟩
        rintro reason rfl
        cases tried with
        | ok value => cases isOutcome
        | error failed => cases failed <;> cases isOutcome

/-! ## Requests that carry out a target -/

/-- A session that is bound to what settings are for. -/
def bound (session : Session) (settings : Settings) : Session :=
  if settings.binding = session.binding then session else session.moved settings

theorem ends_carryOut_outcome (isHandled : runner.IsHandled)
    (known : host.sessions[id]? = some { session with isWriting := true }) {retries : Int}
    (nonneg : 0 ≤ retries) (isWhole : target.settings.retries = .whole retries) (memory : ρ) :
    (session.carryOut id (some target)).Ends (recording runner) (memory, []) host
      fun _ host' result => HasOutcome id target
        ({ session with isWriting := true }.bound target.settings) host' result := by
  have total : (1 + retries).toNat = retries.toNat + 1 := by omega
  have attempts : attemptAll id target =
      attemptUpTo id target (1 + retries).toNat .mismatch (1 + retries).toNat := by
    rw [attemptAll, isWhole]
  have several : (1 + retries).toNat = 0 → ∃ reason, Failure.mismatch = .apply reason := by
    intro impossible
    omega
  by_cases same : target.settings.binding = session.binding
  · rw [carryOut_of_binding same, attempts, bound, if_pos same]
    exact ends_attemptUpTo_outcome isHandled known target _ _ _ several memory []
  · rw [carryOut_of_move same, attempts, bound, if_neg same]
    apply (ends_move_recorded isHandled known target.settings memory []).bind_ok
      fun _ _ _ => And.right
    rintro ⟨memory₁, moving⟩ host₁ ⟨⟨known₁, _⟩, _⟩
    exact ends_attemptUpTo_outcome isHandled known₁ target _ _ _ several memory₁ _

/-- What attempts leave of a session, however many there are to be. -/
inductive Remains (target : Target) (session : Session) : Session → Prop
  | built (moment : Moment) : Remains target session (session.built target moment)
  | cleared : Remains target session session.cleared
  | kept : Remains target session session

theorem Outcome.remains {session' : Session} {result : Except Failure Unit}
    (outcome : Outcome target session session' result) : Remains target session session' := by
  cases outcome with
  | built moment => exact .built moment
  | cleared reason => exact .cleared
  | kept isOther => exact .kept

theorem ends_attemptUpTo_remains (isHandled : runner.IsHandled)
    (known : host.sessions[id]? = some session) (target : Target) (total count : Nat) (memory : ρ)
    (exchanges : List Exchange) :
    (attemptUpTo id target total .mismatch count).Ends (recording runner) (memory, exchanges) host
      fun _ host' _ => ∃ session', host'.sessions[id]? = some session' ∧
        Remains target session session' := by
  cases count with
  | zero =>
      apply (ends_teardown_recorded isHandled known memory exchanges).bind_ok
        fun _ _ _ => And.right
      rintro ⟨memory₁, _⟩ host₁ ⟨⟨same₁, _⟩, _⟩
      exact ⟨session.cleared, Host.getElem?_logged (Host.getElem?_modify (same₁ ▸ known)) _,
        .cleared⟩
  | succ count =>
      have several : count + 1 = 0 → ∃ reason, Failure.mismatch = .apply reason :=
        fun none => absurd none (Nat.succ_ne_zero count)
      apply (ends_attemptUpTo_outcome isHandled known target total _ _ several memory
        exchanges).weaken
      rintro _ _ _ ⟨session', known', outcome⟩
      exact ⟨session', known', outcome.remains⟩

theorem ends_attemptAll_remains (isHandled : runner.IsHandled)
    (known : host.sessions[id]? = some session) (target : Target) (memory : ρ)
    (exchanges : List Exchange) :
    (attemptAll id target).Ends (recording runner) (memory, exchanges) host fun _ host' _ =>
      ∃ session', host'.sessions[id]? = some session' ∧ Remains target session session' := by
  unfold attemptAll
  cases target.settings.retries with
  | whole retries => exact ends_attemptUpTo_remains isHandled known target _ _ memory exchanges
  | real retries => exact ⟨session, known, .kept⟩

/-- Whatever the retries are that settings ask for. -/
theorem ends_carryOut_remains (isHandled : runner.IsHandled)
    (known : host.sessions[id]? = some { session with isWriting := true }) (memory : ρ) :
    (session.carryOut id (some target)).Ends (recording runner) (memory, []) host fun _ host' _ =>
      ∃ session', host'.sessions[id]? = some session' ∧
        Remains target ({ session with isWriting := true }.bound target.settings) session' := by
  by_cases same : target.settings.binding = session.binding
  · rw [carryOut_of_binding same, bound, if_pos same]
    exact ends_attemptAll_remains isHandled known target memory []
  · rw [carryOut_of_move same, bound, if_neg same]
    apply (ends_move_recorded isHandled known target.settings memory []).bind_ok
      fun _ _ _ => And.right
    rintro ⟨memory₁, moving⟩ host₁ ⟨⟨known₁, _⟩, _⟩
    exact ends_attemptAll_remains isHandled known₁ target memory₁ moving

/-- A teardown and nothing else leaves a session with nothing applied. -/
theorem ends_carryOut_none (isHandled : runner.IsHandled)
    (known : host.sessions[id]? = some session) (former : Session) (memory : ρ) :
    (former.carryOut id none).Ends (recording runner) (memory, []) host fun _ host' result =>
      host'.sessions[id]? = some session.cleared ∧ result = .ok () := by
  apply (ends_teardown_recorded isHandled known memory []).bind_ok fun _ _ _ => And.right
  rintro ⟨memory₁, _⟩ host₁ ⟨⟨same₁, _⟩, _⟩
  exact ⟨Host.getElem?_modify (same₁ ▸ known), rfl⟩

/-- Where every command has words, attempts succeed or fail in a command. -/
theorem ends_carryOut_result (isHandled : runner.IsHandled)
    (known : host.sessions[id]? = some { session with isWriting := true }) {retries : Int}
    (nonneg : 0 ≤ retries) (isWhole : target.settings.retries = .whole retries)
    (writable : ∀ order ∈ attemptOrders (session.backendsFor target.settings) target,
      order.isWritable = true) (memory : ρ) :
    (session.carryOut id (some target)).Ends (recording runner) (memory, []) host
      fun _ _ result => result = .ok () ∨ ∃ reason, result = .error (.apply reason) := by
  have total : (1 + retries).toNat = retries.toNat + 1 := by omega
  apply (ends_carryOut_recorded isHandled known isWhole memory).weaken
  rintro _ _ result ⟨moving, _, ⟨added, _, tries⟩, _⟩
  rw [total] at tries
  rcases tries.areAttempts writable with
    ⟨_, _, _, _, _, _, ⟨_, _, succeeded⟩ | ⟨reason, _, _, _, failed⟩⟩
  · exact .inl succeeded
  · exact .inr ⟨reason, failed⟩

/-! ### Where every command succeeds -/

/-- The attempts of a session whose runner lets every command succeed. -/
theorem ends_carryOut_obliging
    (known : host.sessions[id]? = some { session with isWriting := true }) {retries : Int}
    (nonneg : 0 ≤ retries) (isWhole : target.settings.retries = .whole retries) :
    (session.carryOut id (some target)).Ends (recording Request.obliging) ((), []) host
      fun _ _ result => ∃ exchanges count,
        Tries (attemptOrders (session.backendsFor target.settings) target)
          (session.backendsFor target.settings).teardownOrders .mismatch (count + 1) exchanges
          result ∧ ∀ exchange ∈ exchanges, exchange.failure? = none := by
  have total : (1 + retries).toNat = retries.toNat + 1 := by omega
  have isHandled : Request.obliging.IsHandled := fun _ _ => rfl
  have carried := ends_carryOut_recorded isHandled known isWhole ()
  have noFailure := Request.obliging.recorded (fun _ _ => rfl)
    (session.carryOut id (some target) host) () []
    (List.forall_mem_nil fun exchange => exchange.failure? = none)
  rcases carried with ⟨moving, _, ⟨added, recorded, tries⟩, _⟩
  have written : ((session.carryOut id (some target) host).run (recording Request.obliging)
      ((), [])).1.2 = moving ++ added := recorded
  rw [written] at noFailure
  rw [total] at tries
  exact ⟨added, retries.toNat, tries,
    fun exchange member => noFailure exchange (List.mem_append_right _ member)⟩

end Session

/-! ## Requests -/

namespace Request

open Session

variable {ρ : Type} {runner : Runner ρ} {host : Host} {id : SessionId} {session : Session}
  {request : Request} {memory : ρ}

/-- What is told in the end changes no session. -/
theorem ends_concluded {holds : Session → Prop} {target : Option Target} {responder : Procedure.Responder ρ Host}
    (carried : (session.carryOut id target).Ends responder memory host fun _ host' _ =>
      ∃ session', host'.sessions[id]? = some session' ∧
        holds { session' with isWriting := false }) :
    (do releasing id (session.carryOut id target); conclude id target : HostOperation Unit).Ends
      responder memory host fun _ host' _ =>
        ∃ session', host'.sessions[id]? = some session' ∧ holds session' := by
  have released : (releasing id (session.carryOut id target)).Ends responder memory host
      fun _ host' _ => ∃ session', host'.sessions[id]? = some session' ∧ holds session' := by
    apply ends_andThen.mpr
    apply carried.weaken
    rintro _ host₂ _ ⟨session₂, known₂, isHeld⟩
    exact ⟨_, Host.getElem?_modify known₂, isHeld⟩
  apply released.bind
  · rintro memory₂ host₂ _ ⟨session₂, known₂, isHeld⟩
    apply (isQuiet_conclude id target _ responder memory₂ host₂).weaken
    rintro _ _ _ ⟨_, sameLater⟩
    exact ⟨session₂, sameLater ▸ known₂, isHeld⟩
  · exact fun _ _ _ left => left

/-- What a session is left as by a request that runs commands. -/
theorem ends_perform_underway {holds : Session → Prop} {target : Option Target}
    (known : host.sessions[id]? = some session)
    (isPrepared : request.prepared host session = .ok target)
    (underway : (request.perform id host).IsCommand)
    (carried : ∀ host₁, host₁.sessions[id]? = some { session with isWriting := true } →
      (session.carryOut id target).Ends (recording runner) (memory, []) host₁ fun _ host' _ =>
        ∃ session', host'.sessions[id]? = some session' ∧
          holds { session' with isWriting := false }) :
    (request.perform id).Ends (recording runner) (memory, []) host fun _ host' _ =>
      ∃ session', host'.sessions[id]? = some session' ∧ holds session' := by
  rcases exists_underway known isPrepared underway with ⟨_, host₁, _, known₁, performs⟩
  rw [Ends, Operation.run, performs]
  exact ends_concluded (carried host₁ known₁)

/-- What holds of a session, and of what it is left as when its backends were changed, holds
after a request. -/
theorem ends_perform_left {holds : Session → Prop} (known : host.sessions[id]? = some session)
    (unchanged : holds session)
    (carried : ∀ target host₁, request.prepared host session = .ok target →
      host₁.sessions[id]? = some { session with isWriting := true } →
        (session.carryOut id target).Ends (recording runner) (memory, []) host₁ fun _ host' _ =>
          ∃ session', host'.sessions[id]? = some session' ∧
            holds { session' with isWriting := false }) :
    (request.perform id).Ends (recording runner) (memory, []) host fun _ host' _ =>
      ∃ session', host'.sessions[id]? = some session' ∧ holds session' := by
  cases isPrepared : request.prepared host session with
  | error failure =>
      rcases perform_eq_of_error known isPrepared with ⟨log, done⟩
      rw [Ends, Operation.run, done]
      exact ⟨session, known, unchanged⟩
  | ok target =>
      rcases perform_eq_of_ok known isPrepared with ⟨log, proceeds⟩
      have known₁ : ({ host with log := log } : Host).sessions[id]? = some session := known
      rw [Ends, Operation.run, proceeds]
      rcases proceed_cases target known₁ with ⟨host₁, failure, done, same⟩ | ⟨_, host₁, _, same, goesOn⟩
      · rw [done]
        exact ⟨session, same ▸ known₁, unchanged⟩
      · have working : host₁.sessions[id]? = some { session with isWriting := true } :=
          same ▸ getElem?_occupied known₁
        rw [goesOn]
        exact ends_concluded (carried target host₁ isPrepared working)

end Request

end UplinkShaper
