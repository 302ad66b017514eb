import UplinkShaper.Proofs.Command.Runners
import UplinkShaper.Proofs.Session.Attempts

/-!
Looking at a session. Whoever reads counters or listings, checks them, or describes and saves
what was applied, leaves the session as it was: at most it remembers another snapshot.
-/

namespace UplinkShaper

open Operation

/-- An operation that leaves a session as it was, but for the snapshot that was read last. -/
def Observes (id : SessionId) (operation : HostOperation α) : Prop :=
  ∀ (ρ : Type) (runner : Runner ρ) (memory : ρ) (exchanges : List Exchange) (host : Host)
    (session : Session), host.sessions[id]? = some session →
      operation.Ends (recording runner) (memory, exchanges) host fun _ host' _ =>
        ∃ latest, host'.sessions[id]? = some { session with latest := latest }

namespace Observes

variable {id : SessionId}

theorem of_quiet {operation : HostOperation α} (quiet : operation.IsQuiet) :
    Observes id operation := by
  intro ρ runner memory exchanges host session known
  apply (quiet _ (recording runner) (memory, exchanges) host).weaken
  rintro _ host' _ ⟨_, same⟩
  exact ⟨session.latest, same ▸ known⟩

theorem ofResult (result : Except Failure α) :
    Observes id (Operation.ofResult result : HostOperation α) :=
  of_quiet (isQuiet_ofResult result)

theorem andThen {first : HostOperation α} {next : Except Failure α → HostOperation β}
    (observes : Observes id first) (nextObserves : ∀ result, Observes id (next result)) :
    Observes id (first.andThen next) := by
  intro ρ runner memory exchanges host session known
  apply ends_andThen.mpr
  apply (observes ρ runner memory exchanges host session known).weaken
  rintro ⟨memory₁, exchanges₁⟩ host₁ result ⟨latest, known₁⟩
  apply (nextObserves result ρ runner memory₁ exchanges₁ host₁ _ known₁).weaken
  rintro _ host₂ _ ⟨latest', known₂⟩
  exact ⟨latest', known₂⟩

theorem bind {first : HostOperation α} {next : α → HostOperation β} (observes : Observes id first)
    (nextObserves : ∀ value, Observes id (next value)) : Observes id (first >>= next) := by
  refine observes.andThen fun result => ?_
  cases result with
  | ok value => exact nextObserves value
  | error failure => exact ofResult _

theorem tryCatch {body : HostOperation α} {handle : Failure → HostOperation α}
    (observes : Observes id body) (handleObserves : ∀ failure, Observes id (handle failure)) :
    Observes id (tryCatch body handle) := by
  refine observes.andThen fun result => ?_
  cases result with
  | ok value => exact ofResult _
  | error failure => exact handleObserves failure

theorem pure (value : α) : Observes id (Pure.pure value : HostOperation α) :=
  ofResult (.ok value)

theorem record (shown : LogRecord) : Observes id (Host.record shown) :=
  of_quiet (Host.isQuiet_record shown)

theorem command (words : List String) : Observes id (Operation.command words) :=
  fun _ _ _ _ _ session known => ⟨session.latest, known⟩

theorem changeLatest (snapshot : Snapshot) :
    Observes id (Host.changeSession id fun session => { session with latest := some snapshot }) :=
  fun _ _ _ _ _ _ known => ⟨some snapshot, Host.getElem?_modify known⟩

/-! ## Listings -/

theorem list (words : List String) : Observes id (Host.list words) := by
  have executes : Observes id (Host.execute words) :=
    ((record _).bind fun _ => command words).bind fun _ => ofResult _
  refine executes.bind fun completion => ?_
  cases completion.isSuccess with
  | true => exact ofResult _
  | false => exact ofResult _

theorem isQuiet_contentAt (path : Path) : (Host.contentAt path).IsQuiet :=
  (isQuiet_ofResult _).bind fun _ => isQuiet_get.bind fun _ => isQuiet_ofResult _

theorem whileShared {other : SessionId} {body : HostOperation α} (observes : Observes id body) :
    Observes id (Session.whileShared other body) := by
  refine (of_quiet (Host.isQuiet_session other)).bind fun session => ?_
  refine (of_quiet (isQuiet_contentAt _)).bind fun content => ?_
  cases content with
  | ok _ => exact observes
  | error error => exact (record _).bind fun _ => observes

theorem readListing (shaper : Shaper) (what : String) : Observes id (shaper.readListing what) :=
  (ofResult _).bind fun _ => list _

theorem read (what : String) : Observes id (Session.read id what) := by
  refine whileShared ((of_quiet (Host.isQuiet_session id)).bind fun session => ?_)
  split
  · exact list _
  · exact readListing _ _

/-! ## Counters -/

theorem snapshot : Observes id (Session.snapshot id) := by
  refine (whileShared ((of_quiet (Host.isQuiet_session id)).bind fun _ => list _)).bind
    fun listing => ?_
  refine (of_quiet (Host.isQuiet_session id)).bind fun session => ?_
  refine (of_quiet isQuiet_get).bind fun host => ?_
  exact (ofResult _).bind fun snapshot => (changeLatest snapshot).bind fun _ => ofResult _

theorem poll (interval : Number) : Observes id (Session.poll id interval) := by
  refine (tryCatch (snapshot.bind fun _ => ofResult _) fun failure => ?_).bind fun found => ?_
  · cases failure with
    | listing failure => exact (record _).bind fun _ => ofResult _
    | _ => exact ofResult _
  · cases found with
    | error snapshot => exact ofResult _
    | ok found => exact ofResult _

theorem watch (interval : Number) (polls : Nat) {consume : Snapshot → HostOperation Unit}
    (consumes : ∀ snapshot, Observes id (consume snapshot)) :
    Observes id (Session.watch id interval polls consume) := by
  have pollsOnce : Observes id (Session.pollUpTo id interval consume polls) := by
    induction polls with
    | zero => exact ofResult _
    | succ count induction =>
        refine (poll interval).bind fun found => ?_
        cases found with
        | none => exact induction
        | some snapshot =>
            exact (consumes snapshot).bind fun _ => induction.bind fun _ => ofResult _
  unfold Session.watch
  split
  · exact (ofResult _).bind fun _ => pollsOnce
  · exact pollsOnce

/-! ## Checks and saved states -/

theorem mapM {items : List α} {next : α → HostOperation β}
    (observes : ∀ item, Observes id (next item)) : Observes id (items.mapM next) := by
  induction items with
  | nil => exact ofResult _
  | cons item rest induction =>
      rw [List.mapM_cons]
      exact (observes item).bind fun _ => induction.bind fun _ => ofResult _

theorem performCheck (check : Session.Check) : Observes id (Session.performCheck id check) := by
  refine (tryCatch ((read _).bind fun _ => (record _).bind fun _ => ofResult _)
    fun failure => ?_).bind fun found => ?_
  · cases failure with
    | listing failure => exact ofResult _
    | _ => exact ofResult _
  · cases found with
    | error result => exact ofResult _
    | ok result => exact ofResult _

theorem compile : Observes id (Session.compile id) :=
  (of_quiet (Host.isQuiet_session id)).bind fun session =>
    of_quiet (Session.isQuiet_compileWith id session.settings)

theorem verify : Observes id (Session.verify id) :=
  compile.bind fun _ => mapM performCheck

theorem savedListing (what : String) : Observes id (Session.savedListing id what) := by
  refine (tryCatch ((read what).bind fun _ => ofResult _) fun failure => ?_).bind fun found => ?_
  · cases failure with
    | listing failure => exact (record _).bind fun _ => ofResult _
    | _ => exact ofResult _
  · cases found with
    | error shown => exact ofResult _
    | ok shown => exact ofResult _

theorem save (target : Option Path) (hasListings : Bool) :
    Observes id (Session.save id target hasListings) := by
  have saves (path : Path) (document : Value) : Observes id (do
      Session.writeDocument path document
      Host.record (.info s!"Saved shaping state to {path.text}")
      return path : HostOperation Path) :=
    (of_quiet (Session.isQuiet_writeDocument _ _)).bind fun _ =>
      (record _).bind fun _ => ofResult _
  refine (of_quiet (Session.isQuiet_describe id)).bind fun described => ?_
  refine (of_quiet isQuiet_get).bind fun host => ?_
  cases hasListings with
  | true =>
      refine (mapM savedListing).bind fun _ => (pure _).bind fun listings => ?_
      exact (of_quiet (Host.isQuiet_session id)).bind fun _ => saves _ _
  | false =>
      refine (pure _).bind fun listings => ?_
      exact (of_quiet (Host.isQuiet_session id)).bind fun _ => saves _ _

end Observes

end UplinkShaper
