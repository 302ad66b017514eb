import UplinkShaper.Proofs.Command.Transcripts
import UplinkShaper.Proofs.Session.Outcomes

/-!
Keeping what was applied. Once an attempt has carried out a plan to its end, the state of the
session is still to be saved; whatever the system refuses then is logged, and the request
answers with the class tree. Only a path that no document can be written at, whatever the
files, makes a failure of it.
-/

namespace UplinkShaper

open Operation

/-! ## Readings of exchanges

Exchanges can be read in one way only: two readings that begin alike are the same. -/

theorem Unhooks.eq_of_append {marking : Marking} {count : Nat}
    {copies others rest more : List Exchange} (unhooks : Unhooks marking count copies)
    (unhooksToo : Unhooks marking count others) (same : copies ++ rest = others ++ more) :
    copies = others ∧ rest = more := by
  induction unhooks generalizing others with
  | enough =>
      cases unhooksToo
      exact ⟨rfl, same⟩
  | absent isFailure =>
      cases unhooksToo with
      | absent _ =>
          rcases List.cons.inj same with ⟨⟨⟩, sameRest⟩
          exact ⟨rfl, sameRest⟩
      | removed noFailure _ =>
          rcases List.cons.inj same with ⟨⟨⟩, _⟩
          rw [noFailure] at isFailure
          cases isFailure
  | removed noFailure _ induction =>
      cases unhooksToo with
      | absent isFailure =>
          rcases List.cons.inj same with ⟨⟨⟩, _⟩
          rw [noFailure] at isFailure
          cases isFailure
      | removed _ unhooksToo =>
          rcases List.cons.inj same with ⟨⟨⟩, sameRest⟩
          rcases induction unhooksToo sameRest with ⟨rfl, rfl⟩
          exact ⟨rfl, rfl⟩

theorem Runs.eq_of_append {orders : List Order} {exchanges others rest more : List Exchange}
    {result outcome : Except Failure Unit} (runs : Runs orders exchanges result)
    (runsToo : Runs orders others outcome) (same : exchanges ++ rest = others ++ more) :
    exchanges = others ∧ rest = more ∧ result = outcome := by
  induction runs generalizing others with
  | nil =>
      cases runsToo
      exact ⟨rfl, same, rfl⟩
  | required noFailure _ induction =>
      cases runsToo with
      | required _ runsToo =>
          rcases List.cons.inj same with ⟨⟨⟩, sameRest⟩
          rcases induction runsToo sameRest with ⟨rfl, rfl, rfl⟩
          exact ⟨rfl, rfl, rfl⟩
      | failed isFailure =>
          rcases List.cons.inj same with ⟨⟨⟩, _⟩
          rw [noFailure] at isFailure
          cases isFailure
  | failed isFailure =>
      cases runsToo with
      | required noFailure _ =>
          rcases List.cons.inj same with ⟨⟨⟩, _⟩
          rw [noFailure] at isFailure
          cases isFailure
      | failed isFailureToo =>
          rcases List.cons.inj same with ⟨⟨⟩, sameRest⟩
          cases isFailure.symm.trans isFailureToo
          exact ⟨rfl, sameRest, rfl⟩
  | tried _ induction =>
      cases runsToo with
      | tried runsToo =>
          rcases List.cons.inj same with ⟨⟨⟩, sameRest⟩
          rcases induction runsToo sameRest with ⟨rfl, rfl, rfl⟩
          exact ⟨rfl, rfl, rfl⟩
  | unhook unhooks _ induction =>
      cases runsToo with
      | unhook unhooksToo runsToo =>
          rw [List.append_assoc, List.append_assoc] at same
          rcases unhooks.eq_of_append unhooksToo same with ⟨rfl, sameRest⟩
          rcases induction runsToo sameRest with ⟨rfl, rfl, rfl⟩
          exact ⟨rfl, rfl, rfl⟩
  | unwritable =>
      cases runsToo
      exact ⟨rfl, same, rfl⟩

theorem Tries.result_eq {work cleanup : List Order} {last : Failure} {count : Nat}
    {exchanges others rest more : List Exchange} {result outcome : Except Failure Unit}
    (tries : Tries work cleanup last count exchanges result)
    (triesToo : Tries work cleanup last count others outcome)
    (same : exchanges ++ rest = others ++ more) : result = outcome := by
  induction tries generalizing others with
  | abandoned _ =>
      cases triesToo
      rfl
  | succeeded runs =>
      cases triesToo with
      | succeeded _ => rfl
      | broken runsToo _ => cases (runs.eq_of_append runsToo same).2.2
      | again runsToo _ =>
          rw [List.append_assoc] at same
          cases (runs.eq_of_append runsToo same).2.2
  | broken runs isOther =>
      cases triesToo with
      | succeeded runsToo => cases (runs.eq_of_append runsToo same).2.2
      | broken runsToo _ => exact (runs.eq_of_append runsToo same).2.2
      | again runsToo _ =>
          rw [List.append_assoc] at same
          cases (runs.eq_of_append runsToo same).2.2
          exact absurd rfl (isOther _)
  | again runs _ induction =>
      rw [List.append_assoc] at same
      cases triesToo with
      | succeeded runsToo => cases (runs.eq_of_append runsToo same).2.2
      | broken runsToo isOther =>
          cases (runs.eq_of_append runsToo same).2.2
          exact absurd rfl (isOther _)
      | again runsToo triesToo =>
          rw [List.append_assoc] at same
          rcases runs.eq_of_append runsToo same with ⟨rfl, sameRest, ⟨⟩⟩
          exact induction triesToo sameRest

namespace Path

theorem exists_of_check_ne_ok {path : Path} (isCut : path.check ≠ .ok ()) :
    ∃ error, path.check = .error (.invalid error) := by
  unfold check at isCut ⊢
  split
  case isTrue isNull => exact ⟨_, rfl⟩
  case isFalse isWhole => exact absurd (if_neg isWhole) isCut

end Path

namespace Session

open Host

variable {host : Host} {id : SessionId} {session : Session} {target : Target} {retries : Int}

/-- A session has carried out a plan to its end, after attempts that failed in a command if there
were any, and was not interrupted. -/
def HasExecuted (session : Session) (target : Target) (retries : Int)
    (exchanges : List Exchange) : Prop :=
  AreHandled exchanges ∧ ∃ moving attempts, exchanges = moving ++ attempts ∧
    Runs (session.movingOrders target.settings) moving (.ok ()) ∧
      Tries (attemptOrders (session.backendsFor target.settings) target)
        (session.backendsFor target.settings).teardownOrders .mismatch (1 + retries).toNat
        attempts (.ok ())

/-- An attempt begins with a command. -/
theorem ne_nil_of_runs {backends : Backends} {exchanges : List Exchange}
    {result : Except Failure Unit} (runs : Runs (attemptOrders backends target) exchanges result) :
    exchanges ≠ [] := by
  cases runs with
  | tried _ => exact List.cons_ne_nil _ _

theorem not_hasExecuted_nil : ¬ session.HasExecuted target retries [] := by
  rintro ⟨_, moving, attempts, isNothing, _, tries⟩
  rcases List.append_eq_nil_iff.mp isNothing.symm with ⟨_, noAttempt⟩
  generalize (1 + retries).toNat = count at tries
  cases tries with
  | succeeded runs => exact ne_nil_of_runs runs noAttempt
  | again runs _ => exact ne_nil_of_runs runs (List.append_eq_nil_iff.mp noAttempt).1

/-- What was carried out with another result has executed no plan. -/
theorem HasCarriedOut.eq_ok {recorded : List Exchange} {host' : Host}
    {result : Except Failure Unit}
    (carried : HasCarriedOut id session target retries recorded host' result)
    (executed : session.HasExecuted target retries recorded) : result = .ok () := by
  rcases carried with ⟨moving, runs, ⟨added, rfl, tries⟩, _⟩
  rcases executed with ⟨_, others, attempts, same, runsToo, succeeds⟩
  rcases runs.eq_of_append runsToo same with ⟨rfl, rfl, _⟩
  exact tries.result_eq succeeds (Eq.refl (added ++ []))

/-! ## Saving at a path -/

/-- Nothing but the path itself keeps a document from being written at it: its directory can be
created, and a file beside it can be written. -/
structure IsOpen (path : Path) (files : Files) : Prop where
  checked : path.parent.check = .ok ()
  creates : (files.makeDirectories path.parent).refusal = none
  writes : ∀ beside, path.withEnding unfinishedEnding = .ok beside → ∀ content,
    ∃ written, (files.makeDirectories path.parent).files.write beside content = .ok written

/-- A path that names nothing, or has a null character in it, is found out in the end. -/
theorem writeDocument_eq_error {path : Path} (document : Value) (isOpen : IsOpen path host.files)
    (isBad : ¬ (path.components ≠ [] ∧ path.check = .ok ())) :
    ∃ host' error, writeDocument path document host = .done host' (.error (.invalid error)) := by
  have created := makeDirectories_eq_of_none isOpen.checked isOpen.creates
  let host₁ : Host := { host with files := (host.files.makeDirectories path.parent).files }
  have goesOn : writeDocument path document host = (do
      let unfinished ← path.withEnding unfinishedEnding
      writeContent unfinished (Json.indented document)
      moveFile unfinished path : HostOperation Unit) host₁ := Operation.bind_of_ok created
  rw [goesOn]
  cases ending : path.withEnding unfinishedEnding with
  | error failure =>
      unfold Path.withEnding at ending
      split at ending
      · cases ending
        exact ⟨host₁, _, rfl⟩
      · cases ending
  | ok beside =>
      have isNamed : path.components ≠ [] := by
        intro isNothing
        rw [Path.withEnding, isNothing] at ending
        cases ending
      have isCut : ∃ error, path.check = .error (.invalid error) :=
        Path.exists_of_check_ne_ok fun checked => isBad ⟨isNamed, checked⟩
      rcases isCut with ⟨error, isCut⟩
      by_cases besideChecked : beside.check = .ok ()
      · rcases isOpen.writes beside ending (Json.indented document) with ⟨written, writes⟩
        let host₂ : Host := { host₁ with files := written }
        have writes : writeContent beside (Json.indented document) host₁ = .done host₂ (.ok ()) :=
          changeFiles_eq besideChecked writes
        have moves : moveFile beside path host₂ = .done host₂ (.error (.invalid error)) := by
          rw [moveFile, Operation.get_bind_apply]
          exact Operation.bind_of_error (changeFiles_eq_error isCut (·.move beside path))
        exact ⟨host₂, error, (Operation.bind_of_ok writes).trans moves⟩
      · rcases Path.exists_of_check_ne_ok besideChecked with ⟨error, isCut⟩
        have fails : writeContent beside (Json.indented document) host₁ =
            .done host₁ (.error (.invalid error)) := changeFiles_eq_error isCut _
        have ended : (do
            writeContent beside (Json.indented document)
            moveFile beside path : HostOperation Unit) host₁ =
              .done host₁ (.error (.invalid error)) := Operation.bind_of_error fails
        exact ⟨host₁, error, ended⟩

theorem persist_eq_error (known : host.sessions[id]? = some session)
    (isApplied : session.HasApplied target.settings)
    (isOpen : IsOpen target.settings.statePath host.files)
    (isBad : ¬ (target.settings.statePath.components ≠ [] ∧
      target.settings.statePath.check = .ok ())) :
    ∃ host' failure, persist id host = .done host' (.error failure) := by
  rcases save_eq known isApplied.2 with ⟨document, saves⟩
  rw [isApplied.1] at saves
  rcases writeDocument_eq_error document isOpen isBad with ⟨host', error, fails⟩
  have saved : save id none false host = .done host' (.error (.invalid error)) :=
    saves.trans (Operation.bind_of_error fails)
  have ended : (do let _ ← save id none false : HostOperation Unit) host =
      .done host' (.error (.invalid error)) := Operation.bind_of_error saved
  refine ⟨host', .invalid error, ?_⟩
  change ((do let _ ← save id none false : HostOperation Unit) host).andThen _ = _
  rw [ended]
  rfl

/-! ## Answers -/

/-- What a request does once it has its locks and something to apply. -/
def applying (id : SessionId) (session : Session) (target : Target) :
    HostOperation (Option ClassTree) := do
  releasing id (session.carryOut id (some target))
  persist id
  return some target.compiled.tree

theorem ends_applying {ρ : Type} {runner : Runner ρ} (isHandled : runner.IsHandled)
    (known : host.sessions[id]? = some { session with isWriting := true })
    (isWhole : target.settings.retries = .whole retries)
    (isNamed : target.settings.statePath.components ≠ [])
    (checked : target.settings.statePath.check = .ok ()) (memory : ρ) :
    (session.applying id target).Ends (recording runner) (memory, []) host
      fun memory' _ result => session.HasExecuted target retries memory'.2 →
        result = .ok (some target.compiled.tree) := by
  apply (ends_releasing_carryOut isHandled known isWhole memory).bind
  · rintro memory₁ host₁ _ ⟨_, _, _, session', known₁, isLeft⟩
    apply (ends_persist known₁ (isLeft.applied rfl) isNamed checked _ memory₁).bind_ok
      fun _ _ _ ended => ended.2.2
    exact fun _ _ _ _ => rfl
  · intro memory₁ host₁ failure carried executed
    cases carried.eq_ok executed

/-- Where no command fails, a plan is executed, and the state cannot be saved at a path that is
none. -/
theorem ends_applying_obliging (known : host.sessions[id]? = some { session with isWriting := true })
    (isWhole : target.settings.retries = .whole retries) (nonneg : 0 ≤ retries)
    (writable : ∀ order ∈ attemptOrders (session.backendsFor target.settings) target,
      order.isWritable = true)
    (isOpen : IsOpen target.settings.statePath host.files)
    (isBad : ¬ (target.settings.statePath.components ≠ [] ∧
      target.settings.statePath.check = .ok ())) :
    (session.applying id target).Ends (recording Request.obliging) ((), []) host
      fun memory' _ result => session.HasExecuted target retries memory'.2 ∧
        ∃ failure, result = .error failure := by
  have isHandled : Request.obliging.IsHandled := fun _ _ => rfl
  have total : (1 + retries).toNat = retries.toNat + 1 := by omega
  have carried := ends_releasing_carryOut isHandled known isWhole ()
  have oblige : (releasing id (session.carryOut id (some target))).Ends
      (recording Request.obliging) ((), []) host fun memory' _ _ => ∀ exchange ∈ memory'.2,
        exchange.reply.isHandled = true ∧ exchange.failure? = none :=
    Request.obliging.recorded (fun _ _ => ⟨rfl, rfl⟩) _ () [] (List.forall_mem_nil _)
  have framed : (releasing id (session.carryOut id (some target))).Ends
      (recording Request.obliging) ((), []) host fun _ host' _ => host'.files = host.files := by
    have works := (IsWork.carryOut session (some target)).keeps (framing_allow host id) (.refl host)
    exact ends_andThen.mpr (works.run (recording Request.obliging)
      (fun _ state _ _ => IsLike.refl state) ((), [])).1.files
  apply ((carried.and oblige).and framed).bind
  · rintro memory₁ host₁ _ ⟨⟨⟨moving, runs, ⟨added, recorded, tries⟩, session', known₁, isLeft⟩,
      obliged⟩, sameFiles⟩
    rw [total] at tries
    have executed : session.HasExecuted target retries memory₁.2 :=
      ⟨fun exchange member => (obliged exchange member).1, moving, added, recorded, runs,
        total ▸ tries⟩
    rcases persist_eq_error known₁ (isLeft.applied rfl) (sameFiles ▸ isOpen) isBad with
      ⟨host₂, failure, fails⟩
    have ended : (do persist id; return some target.compiled.tree :
        HostOperation (Option ClassTree)) host₁ = .done host₂ (.error failure) :=
      Operation.bind_of_error fails
    rw [Operation.Ends, Operation.run, ended]
    exact ⟨executed, failure, rfl⟩
  · rintro memory₁ _ failure ⟨⟨⟨moving, _, ⟨added, recorded, tries⟩, _⟩, obliged⟩, _⟩
    rw [total] at tries
    cases (tries.runs_of_writable writable fun exchange member =>
      (obliged exchange (recorded ▸ List.mem_append_right _ member)).2).1

end Session

namespace Request

open Session

variable {host : Host} {id : SessionId} {session : Session} {target : Target}
  {request : Request} {retries : Int}

/-- A request that is prepared is over at once, or it has its locks and applies its target. -/
theorem outcome_cases (known : host.sessions[id]? = some session)
    (isPrepared : request.prepared host session = .ok (some target)) :
    (∃ host' failure, request.outcome id host = .done host' (.error failure)) ∨
    ∃ log host', takeLocks id session (occupied { host with log := log } id) =
        .done host' (.ok ()) ∧
      host'.sessions[id]? = some { session with isWriting := true } ∧
        request.outcome id host = session.applying id target host' := by
  rcases settings_of_prepared isPrepared with ⟨asks, found⟩
  rcases reconfigure_eq_of_ok known found with ⟨log, goesOn⟩
  let logged : Host := { host with log := log }
  have known' : logged.sessions[id]? = some session := known
  have answers : request.outcome id host = (do
      exclusively id (session.carryOut id (some target))
      persist id
      return some target.compiled.tree : HostOperation (Option ClassTree)) logged := by
    rw [outcome_eq_reconfigure known asks, map_eq_pure_bind]
    change (reconfigure id target.settings host).andThen _ = _
    rw [goesOn]
    change ((do
      exclusively id (session.carryOut id (some target))
      persist id
      return target.compiled.tree : HostOperation ClassTree) >>= fun tree => pure (some tree))
        logged = _
    simp only [bind_assoc, pure_bind]
  rcases exclusively_cases (session.carryOut id (some target)) known' with
    ⟨host', failure, fails, _⟩ | ⟨_, host', taken, sessions, performs⟩
  · exact .inl ⟨host', failure, answers.trans (Operation.bind_of_error fails)⟩
  · refine .inr ⟨log, host', taken, by rw [sessions, getElem?_occupied known'], answers.trans ?_⟩
    change (exclusively id (session.carryOut id (some target)) logged).andThen _ = _
    rw [performs]
    rfl

/-- A session that has executed a plan to its end answers with what it has applied, whatever
becomes of its saved state. -/
def KeepsTree (request : Request) (id : SessionId) (host : Host) (session : Session)
    (target : Target) (retries : Int) : Prop :=
  (request.outcome id).Tells host fun exchanges _ result =>
    session.HasExecuted target retries exchanges → result = .ok (some target.compiled.tree)

theorem keepsTree_of_isNamed (known : host.sessions[id]? = some session)
    (isPrepared : request.prepared host session = .ok (some target))
    (isWhole : target.settings.retries = .whole retries)
    (isNamed : target.settings.statePath.components ≠ [])
    (checked : target.settings.statePath.check = .ok ()) :
    request.KeepsTree id host session target retries := by
  unfold KeepsTree
  rcases outcome_cases known isPrepared with
    ⟨host', failure, fails⟩ | ⟨_, host', _, known', applies⟩
  · exact (tells_of_done fails).mpr fun executed => absurd executed not_hasExecuted_nil
  · have ended : (session.applying id target).Tells host' fun exchanges _ result =>
        AreHandled exchanges → session.HasExecuted target retries exchanges →
          result = .ok (some target.compiled.tree) :=
      tells_of_ends fun _ memory isHandled =>
        ends_applying isHandled known' isWhole isNamed checked memory
    intro exchanges last result told executed
    rw [applies] at told
    exact ended exchanges last result told executed.1 executed

theorem not_keepsTree_of_isBad {locations : Locations} {document : Value} {source : Option Path}
    (known : host.sessions[id]? = some session)
    (isPrepared : request.prepared host session = .ok (some target))
    (isWhole : target.settings.retries = .whole retries)
    (accepted : Settings.ofDocument locations document source = .ok target.settings)
    (below : target.settings.capacity.rate < Double.bound)
    (underway : (request.perform id host).IsCommand)
    (isOpen : ∀ log host', takeLocks id session (occupied { host with log := log } id) =
      .done host' (.ok ()) → IsOpen target.settings.statePath host'.files)
    (isBad : ¬ (target.settings.statePath.components ≠ [] ∧
      target.settings.statePath.check = .ok ())) :
    ¬ request.KeepsTree id host session target retries := by
  intro keeps
  rcases outcome_cases known isPrepared with
    ⟨host', failure, fails⟩ | ⟨log, host', taken, known', applies⟩
  · rcases underway with ⟨_, _, _, commands⟩
    have ended : request.perform id host = .done host' (.error failure) := by
      rw [perform_eq_outcome]
      exact Operation.bind_of_error fails
    rw [ended] at commands
    cases commands
  · have nonneg := Settings.retries_nonneg_of_ofDocument accepted isWhole
    have writable := Compiled.isWritable_attemptOrders accepted (compiles_of_prepared isPrepared)
      below (session.backendsFor target.settings)
    have ended := ends_applying_obliging known' isWhole nonneg writable (isOpen log host' taken)
      isBad
    have succeeds : (session.applying id target).Tells host' fun exchanges _ result =>
        session.HasExecuted target retries exchanges →
          result = .ok (some target.compiled.tree) := by
      intro exchanges last result told
      exact keeps exchanges last result (by rw [applies]; exact told)
    rcases Procedure.says_run (session.applying id target host') obliging () [] with
      ⟨exchanges, written, told, _⟩
    rw [List.nil_append] at written
    rcases ended with ⟨executed, failure, fails⟩
    cases fails.symm.trans (succeeds _ _ _ told (written ▸ executed))

/-- Whatever the system, the runner and the files do, a tree that was applied is the answer, if the
state is to be saved at a path that names a file and has no null character. Otherwise it is not
where the path is all that is in the way. -/
theorem keepsTree_iff (known : host.sessions[id]? = some session)
    (isPrepared : request.prepared host session = .ok (some target))
    (isWhole : target.settings.retries = .whole retries) :
    (target.settings.statePath.components ≠ [] ∧ target.settings.statePath.check = .ok () →
      request.KeepsTree id host session target retries) ∧
    ∀ locations document source,
      Settings.ofDocument locations document source = .ok target.settings →
        target.settings.capacity.rate < Double.bound → (request.perform id host).IsCommand →
          (∀ log host', takeLocks id session (occupied { host with log := log } id) =
            .done host' (.ok ()) → IsOpen target.settings.statePath host'.files) →
              (request.KeepsTree id host session target retries ↔
                target.settings.statePath.components ≠ [] ∧
                  target.settings.statePath.check = .ok ()) := by
  refine ⟨fun isFine => keepsTree_of_isNamed known isPrepared isWhole isFine.1 isFine.2, ?_⟩
  intro locations document source accepted below underway isOpen
  constructor
  · intro keeps
    by_contra isBad
    exact not_keepsTree_of_isBad known isPrepared isWhole accepted below underway isOpen isBad keeps
  · exact fun isFine => keepsTree_of_isNamed known isPrepared isWhole isFine.1 isFine.2

/-- The built-in settings on a new host. -/
theorem keepsTree_of_builtIn :
    ∃ settings compiled, Settings.ofDocument .system (.mapping []) none = .ok settings ∧
      IsStarting settings compiled ∧
        start.KeepsTree 0 (newHost settings) (fresh settings .made none [])
          { settings := settings, compiled := compiled } 1 := by
  have evaluated : Settings.isAcceptedWith (.mapping []) startsOnce = true := by decide +kernel
  rcases Settings.exists_of_isAcceptedWith evaluated with ⟨settings, accepted, starts⟩
  rcases exists_isStarting starts with ⟨compiled, starting⟩
  refine ⟨settings, compiled, accepted, starting, ?_⟩
  exact (keepsTree_iff starting.known starting.isPrepared starting.isWhole).1
    ⟨starting.isNamed, starting.checked⟩

/-- Settings without tiers that name no file for the state. -/
def namelessDocument : Value :=
  .record [("state_path", .text ""), ("reserved", .list []), ("tiers", .list [])]

/-- A start that executes its plan fails, as its state is to be saved at no name. -/
theorem not_keepsTree_of_namelessDocument :
    ∃ settings compiled, Settings.ofDocument .system namelessDocument none = .ok settings ∧
      (start.perform 0 (newHost settings)).IsCommand ∧
        ¬ start.KeepsTree 0 (newHost settings) (fresh settings .made none [])
          { settings := settings, compiled := compiled } 1 := by
  have evaluated : Settings.isAcceptedWith namelessDocument (fun settings =>
      settings.compilesInOrder && (decide (settings.retries = .whole 1) &&
        (decide (settings.capacity.rate < Double.bound) &&
          decide (settings.statePath = ⟨"", []⟩)))) = true := by
    decide +kernel
  rcases Settings.exists_of_isAcceptedWith evaluated with ⟨settings, accepted, holds⟩
  simp only [Bool.and_eq_true, decide_eq_true_eq] at holds
  rcases holds with ⟨inOrder, isWhole, below, nameless⟩
  rcases Settings.exists_ofSettings_of_compilesInOrder inOrder with ⟨compiled, compiles⟩
  have known : (newHost settings).sessions[0]? = some (fresh settings .made none []) := rfl
  have isPrepared := prepared_start_fresh compiles (newHost settings)
  have directory : (fresh settings .made none []).lockDirectory = ⟨"", []⟩ := by
    change settings.statePath.parent = _
    rw [nameless]
    rfl
  have lockable : (fresh settings .made none []).IsLockable (newHost settings) := by
    refine ⟨?_, ?_, ?_, ?_⟩
    · rw [directory]
      rfl
    · rw [writerLock, directory]
      rfl
    · rw [readerLock, directory]
      rfl
    · rw [writerLock, readerLock, directory]
      exact ⟨_, _, _, rfl, rfl, rfl, rfl⟩
  have underway := isCommand_of_prepared known isPrepared rfl lockable (by decide) isWhole
  have isOpen : ∀ files, IsOpen settings.statePath files := by
    intro files
    rw [nameless]
    refine { checked := rfl, creates := rfl, writes := ?_ }
    intro beside ending
    cases ending
  refine ⟨settings, compiled, accepted, underway, ?_⟩
  exact not_keepsTree_of_isBad known isPrepared isWhole accepted below underway
    (fun _ host' _ => isOpen host'.files) fun isFine => isFine.1 (by rw [nameless])

end Request

end UplinkShaper
