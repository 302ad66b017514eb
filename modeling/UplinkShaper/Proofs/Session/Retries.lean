import UplinkShaper.Proofs.Backend.Orders
import UplinkShaper.Proofs.Session.Contention
import UplinkShaper.Proofs.Session.Overflow

/-!
How often a session tries. Every attempt tears everything down and carries out the plan up
to the first command that fails; after the last one that is allowed there is one more
teardown, and its failure is what the request fails with. Only a command that has no words
ends an attempt in another way.
-/

namespace UplinkShaper

open Operation

/-! ## Attempts in a row -/

/-- What so many attempts come to: those before the last one fail in a command. -/
inductive Tries (work cleanup : List Order) :
    Failure → Nat → List Exchange → Except Failure Unit → Prop
  | abandoned {last exchanges} : Runs cleanup exchanges (.ok ()) →
      Tries work cleanup last 0 exchanges (.error last)
  | succeeded {last count exchanges} : Runs work exchanges (.ok ()) →
      Tries work cleanup last (count + 1) exchanges (.ok ())
  | broken {last count exchanges failure} : Runs work exchanges (.error failure) →
      (∀ reason, failure ≠ .apply reason) →
        Tries work cleanup last (count + 1) exchanges (.error failure)
  | again {last count exchanges more reason result} :
      Runs work exchanges (.error (.apply reason)) →
        Tries work cleanup (.apply reason) count more result →
          Tries work cleanup last (count + 1) (exchanges ++ more) result

/-- Attempts that fail in a command, as many as there are retries at most, and then one that
succeeds; or one more that fails in a command, a cleanup, and that failure as the result. -/
def AreAttempts (work cleanup : List Order) (retries : Int) (exchanges : List Exchange)
    (result : Except Failure Unit) : Prop :=
  ∃ (failed : List (List Exchange)) (last rest : List Exchange),
    exchanges = failed.flatten ++ last ++ rest ∧ failed.length ≤ retries ∧
      (∀ attempt ∈ failed, ∃ failure, Runs work attempt (.error (.apply failure))) ∧
        (Runs work last (.ok ()) ∧ rest = [] ∧ result = .ok () ∨
          ∃ failure, Runs work last (.error (.apply failure)) ∧ failed.length = retries ∧
            Runs cleanup rest (.ok ()) ∧ result = .error (.apply failure))

namespace Tries

variable {work cleanup : List Order} {last : Failure} {count : Nat} {exchanges : List Exchange}
  {result : Except Failure Unit}

theorem areAttempts (tries : Tries work cleanup last (count + 1) exchanges result)
    (writable : ∀ order ∈ work, order.isWritable = true) :
    AreAttempts work cleanup count exchanges result := by
  induction count generalizing last exchanges with
  | zero =>
      cases tries with
      | succeeded runs =>
          exact ⟨[], exchanges, [], by simp, by simp, by simp, .inl ⟨runs, rfl, rfl⟩⟩
      | broken runs isOther =>
          rcases runs.result_of_writable writable with ⟨⟨⟩⟩ | ⟨reason, ⟨⟩⟩
          exact absurd rfl (isOther reason)
      | @again _ _ first more reason _ runs tries =>
          cases tries with
          | abandoned cleans =>
              exact ⟨[], first, more, by simp, by simp, by simp,
                .inr ⟨reason, runs, by simp, cleans, rfl⟩⟩
  | succ count induction =>
      cases tries with
      | succeeded runs =>
          exact ⟨[], exchanges, [], by simp, by simp; omega, by simp, .inl ⟨runs, rfl, rfl⟩⟩
      | broken runs isOther =>
          rcases runs.result_of_writable writable with ⟨⟨⟩⟩ | ⟨reason, ⟨⟩⟩
          exact absurd rfl (isOther reason)
      | @again _ _ first more reason _ runs tries =>
          rcases induction tries with ⟨failed, final, rest, rfl, few, each, ended⟩
          refine ⟨first :: failed, final, rest, by simp, ?_, ?_, ?_⟩
          · rw [List.length_cons]
            omega
          · exact List.forall_mem_cons.mpr ⟨⟨reason, runs⟩, each⟩
          · rw [List.length_cons]
            rcases ended with succeeds | ⟨failure, runsLast, isLast, cleans, fails⟩
            · exact .inl succeeds
            · exact .inr ⟨failure, runsLast, by omega, cleans, fails⟩

/-- Where no command fails, the first attempt is carried out to its end. -/
theorem runs_of_writable (tries : Tries work cleanup last (count + 1) exchanges result)
    (writable : ∀ order ∈ work, order.isWritable = true)
    (noFailure : ∀ exchange ∈ exchanges, exchange.failure? = none) :
    result = .ok () ∧ Runs work exchanges (.ok ()) := by
  cases tries with
  | succeeded runs => exact ⟨rfl, runs⟩
  | broken runs _ => cases runs.eq_ok_of_writable writable noFailure
  | again runs _ =>
      cases runs.eq_ok_of_writable writable fun exchange member =>
        noFailure exchange (List.mem_append_left _ member)

/-- An order without words ends everything, if no command fails before it. -/
theorem result_of_unwritable {before after : List Order} {failure : Failure}
    (tries : Tries (before ++ .unwritable failure :: after) cleanup last (count + 1) exchanges
      result)
    (isOther : ∀ reason, failure ≠ .apply reason)
    (writable : ∀ order ∈ before, order.isWritable = true)
    (noFailure : ∀ exchange ∈ exchanges, exchange.failure? = none) :
    result = .error failure := by
  cases tries with
  | succeeded runs => exact runs.result_of_unwritable writable noFailure
  | broken runs _ => exact runs.result_of_unwritable writable noFailure
  | @again _ _ first _ reason _ runs _ =>
      have isFailure := runs.result_of_unwritable writable fun exchange member =>
        noFailure exchange (List.mem_append_left _ member)
      cases isFailure
      exact absurd rfl (isOther reason)

end Tries

namespace Session

variable {ρ : Type} {runner : Runner ρ} {host : Host} {id : SessionId} {session : Session}
  {target : Target}

/-! ## Attempts of a session -/

theorem performs_teardown (isHandled : runner.IsHandled)
    (known : host.sessions[id]? = some session) :
    Performs runner host session.backends.teardownOrders (teardown id) := fun memory exchanges =>
  (Host.ends_session_bind known).mpr
    (Performs.teardown isHandled session.backends memory exchanges)

/-- What every attempt has to carry out. -/
def attemptOrders (backends : Backends) (target : Target) : List Order :=
  backends.teardownOrders ++ backends.orders target.compiled.plan

/-- A teardown cannot fail. -/
theorem ends_teardown_recorded (isHandled : runner.IsHandled)
    (known : host.sessions[id]? = some session) (memory : ρ) (exchanges : List Exchange) :
    (teardown id).Ends (recording runner) (memory, exchanges) host fun memory' host' result =>
      (host'.sessions = host.sessions ∧ ∃ added, memory'.2 = exchanges ++ added ∧
        Runs session.backends.teardownOrders added (.ok ())) ∧ result = .ok () := by
  apply (performs_teardown isHandled known memory exchanges).weaken
  rintro _ _ _ ⟨same, added, recorded, runs⟩
  cases runs.eq_ok_of_harmless session.backends.teardownOrders_harmless
  exact ⟨⟨same, added, recorded, runs⟩, rfl⟩

theorem ends_attemptOnce_recorded (isHandled : runner.IsHandled)
    (known : host.sessions[id]? = some session) (target : Target) (memory : ρ)
    (exchanges : List Exchange) :
    (attemptOnce id target).Ends (recording runner) (memory, exchanges) host
      fun memory' host' result => host'.sessions = host.sessions ∧
        ∃ added outcome, memory'.2 = exchanges ++ added ∧
          Runs (attemptOrders session.backends target) added outcome ∧
            result = attempted outcome := by
  rw [attemptOnce_eq]
  apply (ends_teardown_recorded isHandled known memory exchanges).bind_ok fun _ _ _ => And.right
  rintro ⟨memory₁, _⟩ host₁ ⟨⟨same₁, cleaned, rfl, cleans⟩, _⟩
  apply ends_andThen.mpr
  apply (Host.ends_session_bind (same₁ ▸ known)).mpr
  apply (Performs.takeAll isHandled session.backends _ _ memory₁ _).weaken
  rintro _ host₂ outcome ⟨same₂, added, recorded, runs⟩
  exact ⟨same₂.trans same₁, cleaned ++ added, outcome, recorded.trans (List.append_assoc ..),
    cleans.append runs, rfl⟩

/-- What a session is left with: what it was to apply, or nothing after a failed command. -/
structure IsLeft (target : Target) (result : Except Failure Unit) (session : Session) : Prop where
  applied : result = .ok () → session.HasApplied target.settings
  cleared : ∀ failure, result = .error (.apply failure) → session.applied = none

/-- Attempts were made by a session, and then it is left with their result. -/
def HasTried (id : SessionId) (target : Target) (backends : Backends) (last : Failure)
    (count : Nat) (exchanges recorded : List Exchange) (host' : Host)
    (result : Except Failure Unit) : Prop :=
  (∃ added, recorded = exchanges ++ added ∧
    Tries (attemptOrders backends target) backends.teardownOrders last count added result) ∧
  ∃ session, host'.sessions[id]? = some session ∧ session.IsLeft target result

theorem ends_abandon_recorded (isHandled : runner.IsHandled)
    (known : host.sessions[id]? = some session) (target : Target) (last : Failure) (memory : ρ)
    (exchanges : List Exchange) :
    (abandon id target last).Ends (recording runner) (memory, exchanges) host
      fun memory' host' result =>
        HasTried id target session.backends last 0 exchanges memory'.2 host' result := by
  apply (ends_teardown_recorded isHandled known memory exchanges).bind_ok fun _ _ _ => And.right
  rintro ⟨memory₁, _⟩ host₁ ⟨⟨same₁, added, rfl, cleans⟩, _⟩
  refine ⟨⟨added, rfl, .abandoned cleans⟩, session.cleared, ?_, ?_⟩
  · exact Host.getElem?_logged (Host.getElem?_modify (same₁ ▸ known)) _
  · exact ⟨fun impossible => (nomatch impossible), fun _ _ => rfl⟩

theorem ends_succeed_recorded (known : host.sessions[id]? = some session) (target : Target)
    {responder : Procedure.Responder ρ Host} {memory : ρ} :
    (succeed id target).Ends responder memory host fun memory' host' result =>
      memory' = memory ∧ result = .ok () ∧
        ∃ session, host'.sessions[id]? = some session ∧ session.HasApplied target.settings :=
  ⟨rfl, rfl, session.built target host.now,
    Host.getElem?_logged (Host.getElem?_modify known) _, rfl, rfl⟩

theorem ends_attemptUpTo_recorded (isHandled : runner.IsHandled)
    (known : host.sessions[id]? = some session) (target : Target) (total : Nat) (last : Failure)
    (count : Nat) (memory : ρ) (exchanges : List Exchange) :
    (attemptUpTo id target total last count).Ends (recording runner) (memory, exchanges) host
      fun memory' host' result =>
        HasTried id target session.backends last count exchanges memory'.2 host' result := by
  induction count generalizing host last memory exchanges with
  | zero => exact ends_abandon_recorded isHandled known target last memory exchanges
  | succ count induction =>
      apply (ends_attemptOnce_recorded isHandled known target memory exchanges).bind
      · rintro ⟨memory₁, _⟩ host₁ outcome ⟨same₁, first, tried, rfl, runs, isOutcome⟩
        have known₁ : host₁.sessions[id]? = some session := same₁ ▸ known
        rcases tried with failure | ⟨⟨⟩⟩
        · cases failure with
          | apply failure =>
              cases isOutcome
              apply Performs.ends_record_bind.mpr
              apply (induction (Host.getElem?_logged known₁ _) (.apply failure) memory₁ _).weaken
              rintro _ _ result ⟨⟨more, recorded, tries⟩, left⟩
              exact ⟨⟨first ++ more, recorded.trans (List.append_assoc ..), .again runs tries⟩,
                left⟩
          | _ => cases isOutcome
        · cases isOutcome
          apply (ends_succeed_recorded known₁ target).weaken
          rintro _ host₂ _ ⟨rfl, rfl, session', known₂, isApplied⟩
          exact ⟨⟨first, rfl, .succeeded runs⟩, session', known₂, fun _ => isApplied,
            fun _ impossible => nomatch impossible⟩
      · rintro ⟨memory₁, _⟩ host₁ failure ⟨same₁, first, tried, rfl, runs, isOutcome⟩
        rcases tried with reason | ⟨⟨⟩⟩
        · have isOther : ∀ failed, reason ≠ .apply failed := by
            rintro failed rfl
            cases isOutcome
          have isReason : failure = reason := by
            cases reason with
            | apply failed => exact absurd rfl (isOther failed)
            | _ => cases isOutcome; rfl
          rw [isReason]
          refine ⟨⟨first, rfl, .broken runs isOther⟩, session, same₁ ▸ known, ?_, ?_⟩
          · exact fun impossible => nomatch impossible
          · rintro failed ⟨⟩
            exact absurd rfl (isOther failed)
        · cases isOutcome

/-! ## Moving -/

/-- The backends that a session makes attempts with. -/
def backendsFor (session : Session) (settings : Settings) : Backends :=
  if settings.binding = session.binding then session.backends else settings.backends

/-- What a session has to carry out before it makes attempts. -/
def movingOrders (session : Session) (settings : Settings) : List Order :=
  if settings.binding = session.binding then [] else session.backends.teardownOrders

theorem ends_move_recorded (isHandled : runner.IsHandled)
    (known : host.sessions[id]? = some session) (settings : Settings) (memory : ρ)
    (exchanges : List Exchange) :
    (move id settings).Ends (recording runner) (memory, exchanges) host fun memory' host' result =>
      (host'.sessions[id]? = some (session.moved settings) ∧ ∃ added,
        memory'.2 = exchanges ++ added ∧ Runs session.backends.teardownOrders added (.ok ())) ∧
          result = .ok () := by
  apply (ends_teardown_recorded isHandled known memory exchanges).bind_ok fun _ _ _ => And.right
  rintro ⟨memory₁, _⟩ host₁ ⟨⟨same₁, added, rfl, cleans⟩, _⟩
  have known₁ : host₁.sessions[id]? = some session := same₁ ▸ known
  apply (Host.ends_session_bind known₁).mpr
  apply Host.ends_changeSession_bind.mpr
  exact ⟨⟨Host.getElem?_logged (Host.getElem?_modify known₁) _, added, rfl, cleans⟩, rfl⟩

/-- A target was carried out, after the backends were moved if that was needed. -/
def HasCarriedOut (id : SessionId) (session : Session) (target : Target) (retries : Int)
    (recorded : List Exchange) (host' : Host) (result : Except Failure Unit) : Prop :=
  ∃ moving, Runs (session.movingOrders target.settings) moving (.ok ()) ∧
    HasTried id target (session.backendsFor target.settings) .mismatch (1 + retries).toNat moving
      recorded host' result

theorem ends_carryOut_recorded (isHandled : runner.IsHandled)
    (known : host.sessions[id]? = some { session with isWriting := true }) {retries : Int}
    (isWhole : target.settings.retries = .whole retries) (memory : ρ) :
    (session.carryOut id (some target)).Ends (recording runner) (memory, []) host
      fun memory' host' result =>
        HasCarriedOut id session target retries memory'.2 host' result := by
  have attempts : attemptAll id target =
      attemptUpTo id target (1 + retries).toNat .mismatch (1 + retries).toNat := by
    rw [attemptAll, isWhole]
  unfold HasCarriedOut movingOrders backendsFor
  by_cases same : target.settings.binding = session.binding
  · rw [carryOut_of_binding same, attempts, if_pos same, if_pos same]
    apply (ends_attemptUpTo_recorded isHandled known target _ _ _ memory []).weaken
    exact fun _ _ _ tried => ⟨[], .nil, tried⟩
  · rw [carryOut_of_move same, attempts, if_neg same, if_neg same]
    apply (ends_move_recorded isHandled known target.settings memory []).bind_ok
      fun _ _ _ => And.right
    rintro ⟨memory₁, moving⟩ host₁ ⟨⟨known₁, _, rfl, cleans⟩, _⟩
    apply (ends_attemptUpTo_recorded isHandled known₁ target _ _ _ memory₁ _).weaken
    exact fun _ _ _ tried => ⟨moving, cleans, tried⟩

/-! ## Telling -/

/-- A state can be saved at the path of a file. -/
theorem isWritable_of_isNamed {path : Path} (isNamed : path.components ≠ [])
    (checked : path.check = .ok ()) : FailsWithin.IsWritable (fun _ => False) path := by
  have isPlain : '\x00' ∉ unfinishedEnding.toList := by decide
  rcases Path.exists_withEnding isNamed checked isPlain with
    ⟨beside, isBeside, besideChecked⟩
  refine ⟨?_, ?_, ?_, ?_⟩
  · intro failure fails
    rw [Path.check_parent checked] at fails
    cases fails
  · intro failure fails
    rw [isBeside] at fails
    cases fails
  · intro other failure isOther fails
    rw [isBeside] at isOther
    cases isOther
    rw [besideChecked] at fails
    cases fails
  · intro failure fails
    rw [checked] at fails
    cases fails

theorem ends_persist (known : host.sessions[id]? = some session)
    (isApplied : session.HasApplied target.settings)
    (isNamed : target.settings.statePath.components ≠ [])
    (checked : target.settings.statePath.check = .ok ()) (responder : Procedure.Responder ρ Host)
    (memory : ρ) :
    (persist id).Ends responder memory host fun memory' host' result =>
      memory' = memory ∧ host'.sessions = host.sessions ∧ result = .ok () := by
  have writable := isWritable_of_isNamed (isApplied.1.symm ▸ isNamed) (isApplied.1.symm ▸ checked)
  have succeeds := Procedure.Keeps.run (keeps_persist known isApplied.2 writable) responder
    (fun _ _ _ _ => trivial) memory
  have quiet := isQuiet_persist id ρ responder memory host
  refine ⟨quiet.1, quiet.2, ?_⟩
  change ∀ failure, ((persist id).run responder memory host).2.2 = .error failure → False at succeeds
  cases ended : ((persist id).run responder memory host).2.2 with
  | ok value => rfl
  | error failure => exact (succeeds failure ended).elim

theorem HasCarriedOut.released {retries : Int} {recorded : List Exchange} {host' : Host}
    {result : Except Failure Unit}
    (carried : HasCarriedOut id session target retries recorded host' result) :
    HasCarriedOut id session target retries recorded (released host' id) result := by
  rcases carried with ⟨moving, runs, tried, session', known, isLeft⟩
  exact ⟨moving, runs, tried, _, Host.getElem?_modify known,
    ⟨isLeft.applied, isLeft.cleared⟩⟩

theorem ends_releasing_carryOut (isHandled : runner.IsHandled)
    (known : host.sessions[id]? = some { session with isWriting := true }) {retries : Int}
    (isWhole : target.settings.retries = .whole retries) (memory : ρ) :
    (releasing id (session.carryOut id (some target))).Ends (recording runner) (memory, []) host
      fun memory' host' result =>
        HasCarriedOut id session target retries memory'.2 host' result :=
  ends_andThen.mpr ((ends_carryOut_recorded isHandled known isWhole memory).weaken
    fun _ _ _ carriedOut => carriedOut.released)

theorem ends_releasing_recorded (isHandled : runner.IsHandled)
    (known : host.sessions[id]? = some { session with isWriting := true }) {retries : Int}
    (isWhole : target.settings.retries = .whole retries)
    (isNamed : target.settings.statePath.components ≠ [])
    (checked : target.settings.statePath.check = .ok ()) (memory : ρ) :
    (do releasing id (session.carryOut id (some target)); conclude id (some target) :
      HostOperation Unit).Ends (recording runner) (memory, []) host fun memory' host' result =>
        HasCarriedOut id session target retries memory'.2 host' result := by
  apply (ends_releasing_carryOut isHandled known isWhole memory).bind
  · rintro memory₁ host₁ _ ⟨moving, runs, tried, session', known₁, isLeft⟩
    apply (ends_persist known₁ (isLeft.applied rfl) isNamed checked _ memory₁).weaken
    rintro _ host₂ _ ⟨rfl, same, rfl⟩
    exact ⟨moving, runs, tried, session', same ▸ known₁, isLeft⟩
  · exact fun _ _ _ carriedOut => carriedOut

end Session

namespace Request

open Session

variable {ρ : Type} {runner : Runner ρ} {host : Host} {id : SessionId} {session : Session}
  {target : Target} {request : Request} {retries : Int}

/-! ## Requests -/

theorem ends_perform_recorded (isHandled : runner.IsHandled)
    (known : host.sessions[id]? = some session)
    (isPrepared : request.prepared host session = .ok (some target))
    (underway : (request.perform id host).IsCommand)
    (isWhole : target.settings.retries = .whole retries)
    (isNamed : target.settings.statePath.components ≠ [])
    (checked : target.settings.statePath.check = .ok ()) (memory : ρ) :
    (request.perform id).Ends (recording runner) (memory, []) host fun memory' host' result =>
      HasCarriedOut id session target retries memory'.2 host' result := by
  rcases exists_underway known isPrepared underway with ⟨_, host₁, _, known₁, performs⟩
  have ended := ends_releasing_recorded isHandled known₁ isWhole isNamed checked memory
  unfold Operation.Ends Operation.run at ended ⊢
  rw [performs]
  exact ended

end Request

end UplinkShaper
