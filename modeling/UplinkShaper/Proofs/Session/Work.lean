import UplinkShaper.Proofs.Session.Exclusion

/-!
What a session does to its backends while it holds its locks: it runs commands, keeps a
log and changes itself. It touches no files, no locks and no other session, and what it
fails with is never a failure that is found beforehand.
-/

namespace UplinkShaper

namespace Failure

/-- Failures of what is looked at before anything is changed: settings, class trees, locks
and the files for them. -/
def isEarly : Failure → Bool
  | .configuration _ | .allocation _ | .curve _ | .busy _ | .system _ => true
  | _ => false

end Failure

/-! ## Late failures -/

/-- A result that is no early failure. -/
def FailsLate (result : Except Failure α) : Prop :=
  ∀ failure, result = .error failure → failure.isEarly = false

namespace FailsLate

theorem ok (value : α) : FailsLate (.ok value : Except Failure α) :=
  fun _ impossible => nomatch impossible

theorem error {failure : Failure} (late : failure.isEarly = false) :
    FailsLate (.error failure : Except Failure α) := by
  rintro _ ⟨⟩
  exact late

theorem bind {result : Except Failure α} {next : α → Except Failure β} (late : FailsLate result)
    (nextLate : ∀ value, FailsLate (next value)) : FailsLate (result >>= next) := by
  cases result with
  | ok value => exact nextLate value
  | error failure => exact error (late failure rfl)

theorem mapM {items : List α} {next : α → Except Failure β}
    (late : ∀ item, FailsLate (next item)) : FailsLate (items.mapM next) := by
  induction items with
  | nil => exact ok []
  | cons item rest induction =>
      rw [List.mapM_cons]
      exact (late item).bind fun _ => induction.bind fun _ => ok _

theorem arithmetic (result : Except ArithmeticError α) :
    FailsLate (UplinkShaper.arithmetic result) := by
  cases result with
  | ok value => exact ok value
  | error reason =>
      cases reason with
      | overflow => exact error rfl
      | noWholePart => exact error rfl

theorem rate (value : Number) : FailsLate (Words.rate value) :=
  (arithmetic _).bind fun _ => ok _

theorem curve (curve : ServiceCurve) : FailsLate (Words.curve curve) := by
  have shared (realtime : List String) : FailsLate (do
      return realtime ++ ["ls", "rate", ← Words.rate curve.sustained]) :=
    (rate _).bind fun _ => ok _
  unfold Words.curve
  cases curve.burst with
  | none => exact shared []
  | some burst => exact (rate _).bind fun _ => (rate _).bind fun _ => shared _

theorem queueWords (kind : String) (limit : Int) : FailsLate (Shaper.queueWords kind limit) := by
  simp only [Shaper.queueWords]
  split
  · exact ok _
  · exact ok _
  · exact error rfl

theorem ruleWords (rule : ClassificationRule) : FailsLate (Marking.ruleWords rule) := by
  refine mapM fun word => ?_
  cases word with
  | none => exact error rfl
  | some word => exact ok word

theorem attempted {result : Except Failure Unit} (late : FailsLate result) :
    FailsLate (Session.attempted result) := by
  cases result with
  | ok value => exact ok none
  | error failure =>
      cases failure with
      | apply failure => exact ok (some failure)
      | _ => exact error (late _ rfl)

theorem ofReply (words : List String) (reply : Reply) :
    FailsLate (Completion.ofReply words reply) := by
  simp only [Completion.ofReply]
  split
  · exact ok _
  · exact ok _
  · exact ok _
  · exact ok _
  · exact error rfl

end FailsLate

/-! ## Work -/

/-- Operations on the backends of a session, which may change that session but not whether
it is writing. -/
inductive IsWork (id : SessionId) : {α : Type} → HostOperation α → Prop
  | ofResult {α : Type} {result : Except Failure α} :
      FailsLate result → IsWork id (Operation.ofResult result)
  | command (words : List String) : IsWork id (Operation.command words)
  | record (shown : LogRecord) : IsWork id (Host.record shown)
  | session : IsWork id (Host.session id)
  | changeSession {change : Session → Session} :
      (∀ session, (change session).isWriting = session.isWriting) →
        IsWork id (Host.changeSession id change)
  | timed {α : Type} {next : Moment → HostOperation α} :
      (∀ moment, IsWork id (next moment)) → IsWork id (do next (← get).now)
  | andThen {α β : Type} {first : HostOperation α} {next : Except Failure α → HostOperation β} :
      IsWork id first → (∀ result, FailsLate result → IsWork id (next result)) →
        IsWork id (first.andThen next)

namespace IsWork

variable {id : SessionId}

theorem pure (value : α) : IsWork id (Pure.pure value : HostOperation α) :=
  ofResult (.ok value)

theorem throw {failure : Failure} (late : failure.isEarly = false) :
    IsWork id (MonadExcept.throw failure : HostOperation α) :=
  ofResult (.error late)

theorem bind {first : HostOperation α} {next : α → HostOperation β} (work : IsWork id first)
    (nextWork : ∀ value, IsWork id (next value)) : IsWork id (first >>= next) := by
  refine work.andThen fun result late => ?_
  cases result with
  | ok value => exact nextWork value
  | error failure => exact throw (late failure rfl)

/-! ## Commands -/

theorem execute (words : List String) : IsWork id (Host.execute words) :=
  ((record _).bind fun _ => command words).bind fun _ => ofResult (.ofReply _ _)

theorem change (words : List String) : IsWork id (Host.change words) := by
  refine (execute words).bind fun completion => ?_
  cases completion.isSuccess with
  | true => exact pure _
  | false => exact throw rfl

theorem discard (words : List String) : IsWork id (Host.discard words) := by
  refine (execute words).bind fun completion => ?_
  cases completion.isSuccess with
  | true => exact pure _
  | false => exact (record _).bind fun _ => pure _

theorem unhookUpTo (marking : Marking) (count : Nat) : IsWork id (marking.unhookUpTo count) := by
  induction count with
  | zero => exact pure _
  | succ count induction =>
      refine (discard _).bind fun hasGone => ?_
      cases hasGone with
      | true => exact induction
      | false => exact pure _

theorem take (backends : Backends) (step : PlanStep) : IsWork id (backends.take step) := by
  cases step with
  | root capacity default =>
      exact (change _).bind fun _ => (ofResult (.rate _)).bind fun _ => change _
  | shapingClass id parent curve => exact (ofResult (.curve _)).bind fun _ => change _
  | leafQueue id kind limit => exact (ofResult (.queueWords _ _)).bind fun _ => change _
  | clearMarks =>
      exact (discard _).bind fun _ => (change _).bind fun _ => unhookUpTo _ _
  | attachMarks => exact change _
  | mark rule => exact (ofResult (.ruleWords _)).bind fun _ => change _
  | logMarks => exact change _
  | markFilter filter => exact change _

theorem takeAll (backends : Backends) (total : Nat) (steps : List PlanStep) :
    IsWork id (backends.takeAll total steps) := by
  induction steps with
  | nil => exact pure _
  | cons step rest induction =>
      exact (record _).bind fun _ => (take backends step).bind fun _ => induction

theorem teardown : IsWork id (Session.teardown id) := by
  refine session.bind fun session => ?_
  have clears : IsWork id session.backends.shaper.clear :=
    (discard _).bind fun _ => (discard _).bind fun _ => pure _
  exact clears.bind fun _ => (unhookUpTo _ _).bind fun _ =>
    (discard _).bind fun _ => (discard _).bind fun _ => pure _

/-! ## Attempts -/

theorem move (settings : Settings) : IsWork id (Session.move id settings) := by
  refine teardown.bind fun _ => session.bind fun session => ?_
  have moves : IsWork id (Host.changeSession id fun session => session.moved settings) :=
    changeSession fun _ => rfl
  exact moves.bind fun _ => record _

theorem attemptOnce (target : Session.Target) : IsWork id (Session.attemptOnce id target) := by
  rw [Session.attemptOnce_eq]
  refine teardown.bind fun _ => andThen ?_ fun result late => ofResult late.attempted
  exact session.bind fun session => takeAll _ _ _

theorem clearSession : IsWork id (Host.changeSession id Session.cleared) :=
  changeSession fun _ => rfl

theorem abandon (target : Session.Target) {failure : Failure} (late : failure.isEarly = false) :
    IsWork id (Session.abandon id target failure) :=
  teardown.bind fun _ => clearSession.bind fun _ => (record _).bind fun _ => throw late

theorem succeed (target : Session.Target) : IsWork id (Session.succeed id target) := by
  have builds (moment : Moment) :
      IsWork id (Host.changeSession id fun session => session.built target moment) :=
    changeSession fun _ => rfl
  exact @timed id Unit _ fun moment => (builds moment).bind fun _ => record _

theorem attemptUpTo (target : Session.Target) (total : Nat) {last : Failure}
    (late : last.isEarly = false) (count : Nat) :
    IsWork id (Session.attemptUpTo id target total last count) := by
  induction count generalizing last with
  | zero => exact abandon target late
  | succ count induction =>
      refine (attemptOnce target).bind fun outcome => ?_
      cases outcome with
      | none => exact succeed target
      | some failure => exact (record _).bind fun _ => induction rfl

theorem attemptAll (target : Session.Target) : IsWork id (Session.attemptAll id target) := by
  unfold Session.attemptAll
  cases target.settings.retries with
  | whole retries => exact attemptUpTo target _ rfl _
  | real retries => exact throw rfl

theorem carryOut (session : Session) (target : Option Session.Target) :
    IsWork id (session.carryOut id target) := by
  cases target with
  | none => exact teardown.bind fun _ => clearSession
  | some target =>
      unfold Session.carryOut
      dsimp only
      split
      · exact (move _).bind fun _ => attemptAll target
      · exact attemptAll target

end IsWork

/-! ## What work keeps -/

/-- Terms that a session can work under: logging and changes of that session do not break
the guarantee, nor does what others may do meanwhile. -/
structure Terms.Allow (id : SessionId) (terms : Terms Host) : Prop where
  logged : ∀ host shown, terms.guarantee host → terms.guarantee (host.logged shown)
  changed : ∀ (host : Host) (change : Session → Session),
    (∀ session, (change session).isWriting = session.isWriting) → terms.guarantee host →
      terms.guarantee { host with sessions := host.sessions.modify id change }
  returned : ∀ host host', terms.guarantee host → terms.rely host host' → terms.guarantee host'

theorem IsWork.keeps {id : SessionId} {terms : Terms Host} (allow : terms.Allow id)
    {operation : HostOperation α} (work : IsWork id operation) {host : Host}
    (guaranteed : terms.guarantee host) :
    operation.Keeps terms host fun host' result => terms.guarantee host' ∧ FailsLate result := by
  induction work generalizing host with
  | ofResult late => exact ⟨guaranteed, late⟩
  | command words =>
      apply Operation.keeps_command guaranteed
      exact fun _ _ relied => ⟨allow.returned _ _ guaranteed relied, .ok _⟩
  | record shown => exact ⟨allow.logged host shown guaranteed, .ok _⟩
  | session =>
      apply Operation.keeps_get_bind.mpr
      cases host.sessions[id]? with
      | some session => exact ⟨guaranteed, .ok _⟩
      | none => exact ⟨guaranteed, .error rfl⟩
  | changeSession keeps => exact ⟨allow.changed host _ keeps guaranteed, .ok _⟩
  | timed _ induction => exact induction host.now guaranteed
  | andThen _ _ induction nextInduction =>
      apply (induction guaranteed).andThen
      rintro host' result ⟨guaranteed', late⟩
      exact nextInduction result late guaranteed'

theorem IsWork.keeps_loose {id : SessionId} {operation : HostOperation α}
    (work : IsWork id operation) (host : Host) :
    operation.Keeps .loose host fun _ result => FailsLate result := by
  have allow : Terms.loose.Allow id :=
    ⟨fun _ _ _ => trivial, fun _ _ _ _ => trivial, fun _ _ _ _ => trivial⟩
  exact Operation.Keeps.weaken (work.keeps allow trivial) fun _ _ ended => ended.2

end UplinkShaper
