import UplinkShaper.Proofs.Command.Issuing
import UplinkShaper.Proofs.Session.Observing
import UplinkShaper.Proofs.Session.Runs

/-!
What sessions issue. Requests change backends and ask nothing; checks ask for listings and change
nothing. All of them break off where they are interrupted.
-/

namespace UplinkShaper

open Operation

/-! ## Requests -/

namespace Operation.AsksNothing

theorem change {words : List String} (isChange : isQuestion words = false) :
    AsksNothing (Host.change words) :=
  Issues.change isChange

theorem discard {words : List String} (isChange : isQuestion words = false) :
    AsksNothing (Host.discard words) :=
  Issues.discard isChange

theorem unhookUpTo (marking : Marking) (count : Nat) :
    AsksNothing (marking.unhookUpTo count) := by
  induction count with
  | zero => exact .ofResult _
  | succ count induction =>
      refine (discard rfl).bind fun hasGone => ?_
      cases hasGone with
      | true => exact induction
      | false => exact .ofResult _

theorem take (backends : Backends) (step : PlanStep) : AsksNothing (backends.take step) := by
  cases step with
  | root capacity default =>
      exact (change rfl).bind fun _ => (Issues.ofResult _).bind fun _ => change rfl
  | shapingClass id parent curve => exact (Issues.ofResult _).bind fun _ => change rfl
  | leafQueue id kind limit => exact (Issues.ofResult _).bind fun _ => change rfl
  | clearMarks =>
      exact (discard rfl).bind fun _ => (change rfl).bind fun _ => unhookUpTo _ _
  | attachMarks => exact change rfl
  | mark rule => exact (Issues.ofResult _).bind fun _ => change rfl
  | logMarks => exact change rfl
  | markFilter filter => exact change rfl

theorem takeAll (backends : Backends) (total : Nat) (steps : List PlanStep) :
    AsksNothing (backends.takeAll total steps) := by
  induction steps with
  | nil => exact .ofResult _
  | cons step rest induction =>
      exact (Issues.record _).bind fun _ => (take backends step).bind fun _ => induction

theorem session (id : SessionId) : AsksNothing (Host.session id) :=
  .of_quiet (Host.isQuiet_session id)

theorem teardown (id : SessionId) : AsksNothing (Session.teardown id) := by
  refine (session id).bind fun session => ?_
  have clears : AsksNothing session.backends.shaper.clear :=
    (discard rfl).bind fun _ => (discard rfl).bind fun _ => .ofResult _
  exact clears.bind fun _ => (unhookUpTo _ _).bind fun _ =>
    (discard rfl).bind fun _ => (discard rfl).bind fun _ => .ofResult _

theorem attemptOnce (id : SessionId) (target : Session.Target) :
    AsksNothing (Session.attemptOnce id target) := by
  rw [Session.attemptOnce_eq]
  refine (teardown id).bind fun _ => Issues.andThen ?_ (fun result => .ofResult _)
    fun host interruption => ⟨host, interruption, rfl⟩
  exact (session id).bind fun session => takeAll _ _ _

theorem attemptUpTo (id : SessionId) (target : Session.Target) (total : Nat) (last : Failure)
    (count : Nat) : AsksNothing (Session.attemptUpTo id target total last count) := by
  induction count generalizing last with
  | zero =>
      exact (teardown id).bind fun _ => (Issues.modify _).bind fun _ =>
        (Issues.record _).bind fun _ => .ofResult _
  | succ count induction =>
      refine (attemptOnce id target).bind fun outcome => ?_
      cases outcome with
      | none =>
          exact (Issues.of_quiet isQuiet_get).bind fun _ => (Issues.modify _).bind fun _ => .record _
      | some failure => exact (Issues.record _).bind fun _ => induction _

theorem attemptAll (id : SessionId) (target : Session.Target) :
    AsksNothing (Session.attemptAll id target) := by
  unfold Session.attemptAll
  cases target.settings.retries with
  | whole retries => exact attemptUpTo id target _ _ _
  | real retries => exact .ofResult _

theorem move (id : SessionId) (settings : Settings) : AsksNothing (Session.move id settings) :=
  (teardown id).bind fun _ => (session id).bind fun _ => (Issues.modify _).bind fun _ => .record _

/-- What is done under locks may be anything that asks nothing. -/
theorem exclusively (id : SessionId) {body : HostOperation α} (asksNothing : AsksNothing body) :
    AsksNothing (Session.exclusively id body) := by
  refine (session id).bind fun session => ?_
  have locked : AsksNothing (do
      Host.changeSession id fun session => { session with isWriting := true }
      Operation.ensuring (do Session.takeLocks id session; body) (Session.releaseLocks id)) := by
    refine (Issues.modify _).bind fun _ => Issues.andThen ?_ (fun result => ?_) ?_
    · exact (Issues.of_quiet (Session.isQuiet_takeLocks id session)).bind fun _ => asksNothing
    · exact (Issues.modify _).bind fun _ => (Issues.modify _).bind fun _ => .ofResult _
    · exact fun host interruption => ⟨_, interruption, rfl⟩
  cases session.isWriting with
  | true => exact (Issues.ofResult _).bind fun _ => locked
  | false => exact locked

theorem reconfigure (id : SessionId) (settings : Settings) :
    AsksNothing (Session.reconfigure id settings) := by
  refine (Issues.of_quiet (Session.isQuiet_compileWith id settings)).bind fun compiled =>
    (session id).bind fun session => ?_
  have applies : AsksNothing (do
      Session.exclusively id do
        if settings.binding ≠ session.binding then Session.move id settings
        Session.attemptAll id { settings := settings, compiled := compiled }
      Session.persist id
      return compiled.tree : HostOperation ClassTree) := by
    refine (exclusively id ?_).bind fun _ =>
      (Issues.of_quiet (Session.isQuiet_persist id)).bind fun _ => .ofResult _
    split
    · exact (move id settings).bind fun _ => attemptAll id _
    · exact attemptAll id _
  dsimp only
  split
  · exact (Issues.ofResult _).bind fun _ => applies
  · exact applies

theorem reloadedSettings (id : SessionId) : AsksNothing (Session.reloadedSettings id) := by
  refine (session id).bind fun session => ?_
  dsimp only
  cases session.settings.source with
  | none => exact .ofResult _
  | some path => exact (Issues.of_quiet isQuiet_get).bind fun _ => .ofResult _

theorem perform (request : Request) (id : SessionId) : AsksNothing (request.perform id) := by
  cases request with
  | start =>
      exact ((session id).bind fun session => reconfigure id _).bind fun _ => .ofResult _
  | stop =>
      refine (exclusively id ((teardown id).bind fun _ => .modify _)).bind fun _ => ?_
      exact (session id).bind fun _ => .record _
  | reload given =>
      cases given with
      | some settings => exact (reconfigure id settings).bind fun _ => .ofResult _
      | none =>
          exact ((reloadedSettings id).bind fun _ => reconfigure id _).bind fun _ => .ofResult _

end Operation.AsksNothing

/-! ## Checks -/

/-- Whether a command asks for a listing or for counters. -/
def isListing (words : List String) : Bool :=
  isQuestion words && words[1]? != some "link"

theorem isListing_eq_false {words : List String} (asksNothing : isQuestion words = false) :
    isListing words = false := by
  rw [isListing, asksNothing, Bool.false_and]

theorem isQuestion_of_isListing {words : List String} (lists : isListing words = true) :
    isQuestion words = true :=
  (Bool.and_eq_true_iff.mp lists).1

namespace Operation.Issues

theorem read (id : SessionId) (what : String) :
    Issues (fun words => isListing words = true) (Session.read id what) := by
  have reads : Issues (fun words => isListing words = true) (do
      let session ← Host.session id
      if what = Session.marksListing then session.marking.readListing
      else session.shaper.readListing what) := by
    refine (of_quiet (Host.isQuiet_session id)).bind fun session => ?_
    split
    · exact list rfl
    · change Issues _ (liftM (session.shaper.listing what) >>= Host.list)
      unfold Shaper.listing
      split
      case isFalse => exact ofResult _
      case isTrue isKnown =>
        refine list ?_
        simp only [List.mem_cons, List.not_mem_nil, or_false] at isKnown
        rcases isKnown with rfl | rfl | rfl
        · rfl
        · rfl
        · rfl
  refine (of_quiet (Host.isQuiet_session id)).bind fun session => ?_
  refine (of_quiet (Observes.isQuiet_contentAt _)).bind fun content => ?_
  cases content with
  | ok _ => exact reads
  | error error => exact (record _).bind fun _ => reads

theorem performCheck (id : SessionId) (check : Session.Check) :
    Issues (fun words => isListing words = true) (Session.performCheck id check) := by
  refine (tryCatch ((read id _).bind fun _ => (record _).bind fun _ => ofResult _)
    (fun failure => ?_) fun host interruption => ⟨host, interruption, rfl⟩).bind fun found => ?_
  · cases failure with
    | listing failure => exact ofResult _
    | _ => exact ofResult _
  · cases found with
    | error result => exact ofResult _
    | ok result => exact ofResult _

theorem verify (id : SessionId) :
    Issues (fun words => isListing words = true) (Session.verify id) := by
  have compiles : Issues (fun words => isListing words = true) (Session.compile id) :=
    (of_quiet (Host.isQuiet_session id)).bind fun session =>
      of_quiet (Session.isQuiet_compileWith id session.settings)
  exact compiles.bind fun _ => mapM fun check _ => performCheck id check

end Operation.Issues

end UplinkShaper
