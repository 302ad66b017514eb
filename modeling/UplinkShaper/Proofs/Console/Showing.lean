import UplinkShaper.Proofs.Console.Invocations
import UplinkShaper.Proofs.Console.Tables
import UplinkShaper.Proofs.Session.Polling
import UplinkShaper.Proofs.Session.Watching

/-!
What a status shows. It reads the counters, and then the listings of filters and marks; between
them are a summary of the settings, the tree that they compile to, and the counters. Listings that
are not there are left out, so that only numbers that cannot be written stand in the way.
-/

namespace UplinkShaper

open Operation Result

/-- All counts of bytes in a listing of counters have finite doubles. -/
def Exchange.HasDoubles (exchange : Exchange) : Prop :=
  ∀ listing, exchange.listed = .ok listing →
    ∀ record ∈ CounterRecord.ofText (some Snapshot.shapingKind) listing,
      ∀ reading, record.bytes = .ok reading → reading.HasDouble

/-- All counts of bytes in a snapshot have finite doubles. -/
def Snapshot.HasDoubles (snapshot : Snapshot) : Prop :=
  ∀ counters ∈ snapshot.classes, counters.bytes.HasDouble

theorem forall_mem_iff_of_forall₂ {related : α → β → Prop} {holds : α → Prop} {holdsToo : β → Prop}
    {items : List α} {others : List β} (pairs : List.Forall₂ related items others)
    (same : ∀ item other, related item other → (holds item ↔ holdsToo other)) :
    (∀ item ∈ items, holds item) ↔ ∀ other ∈ others, holdsToo other := by
  induction pairs with
  | nil => exact ⟨fun _ => List.forall_mem_nil _, fun _ => List.forall_mem_nil _⟩
  | cons first _ induction =>
      rw [List.forall_mem_cons, List.forall_mem_cons, same _ _ first, induction]

/-- A snapshot shows the counts of its listing. -/
theorem Snapshot.hasDoubles_iff {exchange : Exchange} {listing : String} {snapshot : Snapshot}
    (listed : exchange.listed = .ok listing)
    (counted : List.Forall₂ (fun record counters => record.bytes = .ok counters.bytes)
      (CounterRecord.ofText (some shapingKind) listing) snapshot.classes) :
    snapshot.HasDoubles ↔ exchange.HasDoubles := by
  have same : exchange.HasDoubles ↔
      ∀ record ∈ CounterRecord.ofText (some shapingKind) listing,
        ∀ reading, record.bytes = .ok reading → reading.HasDouble := by
    unfold Exchange.HasDoubles
    rw [listed]
    exact ⟨fun shows => shows listing rfl, fun shows _ isListing => by cases isListing; exact shows⟩
  rw [same]
  refine (forall_mem_iff_of_forall₂ counted fun record counters isBytes => ?_).symm
  rw [isBytes]
  exact ⟨fun shows => shows _ rfl, fun shows _ isReading => by cases isReading; exact shows⟩

/-! ## Snapshots -/

namespace Session

open Host

variable {host : Host} {id : SessionId} {session : Session} {settings : Settings}

/-- A snapshot asks for the counters, and is made of their listing. -/
theorem tells_snapshot (known : host.sessions[id]? = some session) (isFor : session.IsFor settings)
    (checked : session.readerLock.check = .ok ()) :
    (snapshot id).Tells host fun exchanges host' result => ∃ reply moment,
      exchanges = [⟨settings.shaper.counters, reply⟩] ∧
        (∃ latest, host'.sessions[id]? = some { session with latest := latest }) ∧
          result = (do
            let listing ← (⟨settings.shaper.counters, reply⟩ : Exchange).listed
            Snapshot.ofListing session.labels session.device moment listing) := by
  have isShaper : session.shaper = settings.shaper := congrArg Backends.shaper isFor.backends
  refine (tells_snapshot_of_read known).weaken ?_
  rintro exchanges host' _ ⟨middle, read, reads, rfl, remembers⟩
  rcases tells_readCounters known _ _ _ reads with ⟨_, ⟨reply, rfl, rfl⟩ | ⟨unchecked, _⟩⟩
  · rw [← isShaper]
    exact ⟨reply, host.now, rfl, ⟨_, remembers⟩, rfl⟩
  · exact absurd checked unchecked

end Session

namespace Console

open Host Session

variable {host : Host} {id : SessionId} {session : Session} {settings : Settings}

/-- What is made of a snapshot that was asked for. -/
def orNone : Except Failure Snapshot → HostOperation (Option Snapshot)
  | .ok snapshot => pure (some snapshot)
  | .error (.listing reason) => do
      record (.error ("Cannot read class counters: " ++ reason.listingMessage))
      return none
  | .error failure => throw failure

theorem snapshotOrError_eq (id : SessionId) :
    snapshotOrError id = (Session.snapshot id).andThen orNone := by
  refine andThen_three fun found => ?_
  cases found with
  | ok snapshot => rfl
  | error failure => cases failure <;> rfl

theorem orNone_cases (found : Except Failure Snapshot) (host : Host) :
    ∃ host' result, orNone found host = .done host' result ∧ host'.sessions = host.sessions ∧
      (∀ snapshot, found = .ok snapshot → result = .ok (some snapshot)) ∧
        ∀ reason, found = .error (.listing reason) → result = .ok none := by
  cases found with
  | ok snapshot =>
      exact ⟨host, _, rfl, rfl, fun _ same => congrArg (some <$> ·) same, nofun⟩
  | error failure =>
      cases failure with
      | listing reason => exact ⟨_, .ok none, rfl, logged_sessions .., nofun, fun _ _ => rfl⟩
      | _ => exact ⟨host, _, rfl, rfl, nofun, nofun⟩

/-- With a plain reply there is a snapshot of the counters, or none if they cannot be listed. -/
theorem tells_snapshotOrError (known : host.sessions[id]? = some session)
    (isFor : session.IsFor settings) (checked : session.readerLock.check = .ok ()) :
    (snapshotOrError id).Tells host fun exchanges host' result => ∃ reply,
      exchanges = [⟨settings.shaper.counters, reply⟩] ∧
        (∃ latest, host'.sessions[id]? = some { session with latest := latest }) ∧
          (reply.IsPlain → ∃ found, result = .ok found ∧
            ((∀ snapshot ∈ found, snapshot.HasDoubles) ↔
              (⟨settings.shaper.counters, reply⟩ : Exchange).HasDoubles)) := by
  rw [snapshotOrError_eq]
  refine tells_andThen.mpr ((tells_snapshot known isFor checked).weaken ?_)
  intro exchanges host₁ result told
  rcases told with ⟨reply, moment, rfl, ⟨latest, known₁⟩, isMade⟩
  rcases orNone_cases result host₁ with ⟨host₂, found, done, same, kept, left⟩
  refine (tells_of_done done).mpr
    ⟨reply, List.append_nil _, ⟨latest, same.symm ▸ known₁⟩, fun plain => ?_⟩
  cases listed : (⟨settings.shaper.counters, reply⟩ : Exchange).listed with
  | error failure =>
      rcases Exchange.listed_of_error plain.isHandled listed with ⟨reason, rfl⟩
      rw [listed] at isMade
      have hasDoubles : (⟨settings.shaper.counters, reply⟩ : Exchange).HasDoubles := by
        intro listing isListing
        rw [listed] at isListing
        cases isListing
      exact ⟨none, left reason isMade, iff_of_true nofun hasDoubles⟩
  | ok listing =>
      have legible : Text.IsLegible listing.toList := by
        rcases Exchange.listed_eq_ok_iff.mp listed with ⟨output, errors, rfl, rfl⟩
        cases output with
        | none => exact Text.isLegible_of_length_le (List.forall_mem_nil _) (Nat.zero_le _)
        | some output => exact plain.output 0 output errors rfl
      rcases Snapshot.exists_ofListing legible session.labels session.device moment with
        ⟨snapshot, made, counted⟩
      rw [listed, ok_bind, made] at isMade
      refine ⟨some snapshot, kept snapshot isMade, ?_⟩
      rw [← Snapshot.hasDoubles_iff listed counted]
      exact ⟨fun all => all snapshot rfl, fun shows _ same => by cases same; exact shows⟩

/-! ## Listings -/

/-- The lines of a listing, or why it cannot be read. -/
def linesOrReason : Except Failure String → Except Failure (List String)
  | .ok listing => .ok ((Text.lines listing.toList).map String.ofList)
  | .error (.listing reason) => .ok ["unavailable: " ++ reason.listingMessage]
  | .error failure => .error failure

/-- Show a listing that was asked for. -/
def showLines (title : String) (select : List String → List String)
    (found : Except Failure String) : HostOperation Unit := do
  let lines ← ofResult (linesOrReason found)
  Host.display (Display.ofLines title (select lines))

theorem showListing_eq (id : SessionId) (title what : String)
    (select : List String → List String) :
    showListing id title what select =
      (Session.read id what).andThen (showLines title select) := by
  refine andThen_three fun found => ?_
  cases found with
  | ok listing => rfl
  | error failure => cases failure <;> rfl

theorem showLines_eq_done (title : String) (select : List String → List String)
    (found : Except Failure String) (host : Host) :
    ∃ host', showLines title select found host =
      .done host' ((linesOrReason found).map fun _ => ()) ∧ host'.sessions = host.sessions := by
  unfold showLines
  cases linesOrReason found with
  | ok lines => exact ⟨_, rfl, rfl⟩
  | error failure => exact ⟨_, rfl, rfl⟩

theorem exists_linesOrReason {exchange : Exchange} (isHandled : exchange.reply.isHandled = true) :
    ∃ lines, linesOrReason exchange.listed = .ok lines := by
  cases listed : exchange.listed with
  | ok listing => exact ⟨_, rfl⟩
  | error failure =>
      rcases Exchange.listed_of_error isHandled listed with ⟨reason, rfl⟩
      exact ⟨_, rfl⟩

/-- A listing is asked for and shown, or it is shown why it cannot be. -/
theorem tells_showListing {title what : String} {select : List String → List String}
    {words : List String} (known : host.sessions[id]? = some session)
    (isFor : session.IsFor settings) (checked : session.readerLock.check = .ok ())
    (isWords : settings.listing what = .ok words) :
    (showListing id title what select).Tells host fun exchanges host' result => ∃ reply,
      exchanges = [⟨words, reply⟩] ∧ host'.sessions[id]? = some session ∧
        (reply.isHandled = true → result = .ok ()) := by
  rw [showListing_eq]
  have asked := (isFor.listing_eq what).trans isWords
  refine tells_andThen.mpr ((tells_read known checked asked).weaken ?_)
  intro exchanges host₁ result told
  rcases told with ⟨reply, rfl, ⟨log, rfl⟩, rfl⟩
  rcases showLines_eq_done title select (⟨words, reply⟩ : Exchange).listed
    { host with log := log } with ⟨host₂, done, same⟩
  refine (tells_of_done done).mpr ⟨reply, List.append_nil _, same.symm ▸ known, fun handled => ?_⟩
  rcases @exists_linesOrReason ⟨words, reply⟩ handled with ⟨lines, shown⟩
  rw [shown]
  rfl

/-! ## Tables -/

/-- Show everything that no command is needed for. -/
def showTables (id : SessionId) (snapshot : Option Snapshot) : HostOperation Unit := do
  Host.display (← Display.ofSettings (← Host.session id).settings)
  let tree ← currentTree id
  Host.display (.table (← Display.ofTree tree))
  tree.warnings.forM fun warning => Host.display (Display.ofWarning warning)
  if let some snapshot := snapshot then Host.display (.table (← Display.ofSnapshot snapshot))

theorem showStatus_eq (id : SessionId) (snapshot : Option Snapshot) :
    showStatus id snapshot = (do
      showTables id snapshot
      showListing id "Active filters" "filter" (·.take filterLines)
      showListing id "Mark rules" Session.marksListing fun lines => lines) := by
  unfold showStatus showTables
  cases snapshot with
  | none => simp only [bind_assoc, pure_bind]
  | some snapshot => simp only [bind_assoc]

/-- A summary can be shown where the rate of downloads can be written. -/
theorem ofSettings_cases (below : settings.capacity.rate < Double.bound) :
    (settings.download.isWritable = true ∧ ∃ shown, Display.ofSettings settings = .ok shown) ∨
      settings.download.isWritable = false ∧
        Display.ofSettings settings = .error (.invalid .unwritable) := by
  have positive := settings.capacity.positive
  have power : Double.bound < 10 ^ 309 := by decide +kernel
  have capacity : (Number.whole settings.capacity.rate).isWritable = true :=
    @Allocation.isWritable_of_lt _ 309 (by decide) (by omega)
  unfold Display.ofSettings
  rw [capacity, Bool.true_and]
  cases settings.download.isWritable with
  | true => exact .inl ⟨rfl, _, rfl⟩
  | false => exact .inr ⟨rfl, rfl⟩

/-- Everything that a status shows of settings and counters can be written. -/
structure CanShow (settings : Settings) (snapshot : Option Snapshot) : Prop where
  download : settings.download.isWritable = true
  counters : ∀ compiled, Compiled.ofSettings settings settings.roundTrip = .ok compiled →
    ∀ shown ∈ snapshot, shown.HasDoubles

theorem currentTree_eq_done (known : host.sessions[id]? = some session)
    (isFor : session.IsFor settings) (isIdle : session.applied = none) :
    ∃ log, currentTree id host = .done { host with log := log }
      ((Compiled.ofSettings settings settings.roundTrip).map (·.tree)) := by
  rcases compile_eq_done known isFor with ⟨log, done⟩
  refine ⟨log, ?_⟩
  unfold currentTree
  rw [session_bind_apply known, isIdle]
  change (Session.compile id >>= fun compiled => pure compiled.tree) host = _
  cases compiles : Compiled.ofSettings settings settings.roundTrip with
  | ok compiled =>
      rw [compiles] at done
      exact bind_of_ok done
  | error failure =>
      rw [compiles] at done
      exact bind_of_error done

theorem showCounters_cases (snapshot : Option Snapshot) (host : Host) :
    ∃ host' result, (do
      if let some snapshot := snapshot then
        Host.display (.table (← Display.ofSnapshot snapshot)) : HostOperation Unit) host =
          .done host' result ∧ host'.sessions = host.sessions ∧
            (IsOrderly result ↔ ∀ shown ∈ snapshot, shown.HasDoubles) := by
  cases snapshot with
  | none => exact ⟨host, .ok (), rfl, rfl, iff_of_true (isOrderly_ok ()) nofun⟩
  | some snapshot =>
      have single : (∀ shown ∈ some snapshot, shown.HasDoubles) ↔ snapshot.HasDoubles :=
        ⟨fun all => all snapshot rfl, fun shows _ same => by cases same; exact shows⟩
      rw [single]
      rcases Display.ofSnapshot_cases snapshot with ⟨all, table, made⟩ | ⟨lacks, overflows⟩
      · have isMade : (liftM (Display.ofSnapshot snapshot) : HostOperation Table) host =
            .done host (.ok table) := by rw [made]; rfl
        exact ⟨_, .ok (), (bind_of_ok isMade).trans rfl, rfl, iff_of_true (isOrderly_ok ()) all⟩
      · have fails : (liftM (Display.ofSnapshot snapshot) : HostOperation Table) host =
            .done host (.error .overflow) := by rw [overflows]; rfl
        exact ⟨host, _, bind_of_error fails, rfl,
          iff_of_false (not_isOrderly_error rfl nofun) lacks⟩

theorem showTables_cases
    (known : host.sessions[id]? = some session) (isFor : session.IsFor settings)
    (isIdle : session.applied = none) (below : settings.capacity.rate < Double.bound)
    (answers : IsAnswer (Compiled.ofSettings settings settings.roundTrip))
    (snapshot : Option Snapshot) :
    ∃ host' result, showTables id snapshot host = .done host' result ∧
      host'.sessions = host.sessions ∧ (IsOrderly result ↔ CanShow settings snapshot) := by
  unfold showTables
  rw [session_bind_apply known, isFor.own]
  rcases ofSettings_cases below with ⟨writable, shown, isShown⟩ | ⟨unwritable, fails⟩
  case inr =>
    rw [fails]
    refine ⟨host, _, rfl, rfl, iff_of_false (not_isOrderly_error rfl nofun) fun canShow => ?_⟩
    rw [canShow.download] at unwritable
    cases unwritable
  case inl =>
    have known₁ : ({ host with screen := host.screen ++ [shown] } : Host).sessions[id]? =
      some session := known
    rcases currentTree_eq_done known₁ isFor isIdle with ⟨log, isCurrent⟩
    rw [isShown, bind_of_ok rfl, bind_of_ok rfl]
    cases compiles : Compiled.ofSettings settings settings.roundTrip with
    | error failure =>
        rw [compiles] at isCurrent
        refine ⟨_, _, bind_of_error isCurrent, rfl, iff_of_true ?_ ⟨writable, fun _ same => ?_⟩⟩
        · exact isOrderly_error (answers failure compiles)
        · rw [compiles] at same
          cases same
    | ok compiled =>
        rw [compiles] at isCurrent
        rcases Display.exists_ofTree (Compiled.ofSettings_eq_ok_iff.mp compiles).1 with
          ⟨table, made⟩
        rw [bind_of_ok isCurrent, made, bind_of_ok rfl, bind_of_ok rfl]
        rcases exists_forM_display Display.ofWarning compiled.tree.warnings _ with
          ⟨host₂, warned, same⟩
        rw [bind_of_ok warned]
        rcases showCounters_cases snapshot host₂ with ⟨host₃, result, done, sameLater, orderly⟩
        refine ⟨host₃, result, done, sameLater.trans same, orderly.trans ⟨fun all => ?_, ?_⟩⟩
        · exact ⟨writable, fun _ _ => all⟩
        · exact fun canShow => canShow.counters compiled compiles

/-! ## The status -/

/-- A listing is not that of the counters. -/
theorem listing_ne_counters {what : String} {words : List String}
    (isWords : settings.listing what = .ok words) : words ≠ settings.shaper.counters := by
  intro same
  have second : words[1]? = some "-s" := congrArg (·[1]?) same
  unfold Settings.listing Shaper.listing at isWords
  split at isWords
  case isTrue =>
    cases isWords
    exact absurd (Option.some.inj second) (by decide)
  case isFalse =>
    split at isWords
    case isTrue isKnown =>
      cases isWords
      rw [Option.some.inj second] at isKnown
      exact absurd isKnown (by decide)
    case isFalse => cases isWords

/-- Two listings are shown, or why they cannot be. -/
theorem tells_showListings (known : host.sessions[id]? = some session)
    (isFor : session.IsFor settings) (checked : session.readerLock.check = .ok ()) :
    (do
      showListing id "Active filters" "filter" (·.take filterLines)
      showListing id "Mark rules" marksListing fun lines => lines : HostOperation Unit).Tells host
        fun exchanges _ result =>
          (∀ exchange ∈ exchanges, exchange.words ≠ settings.shaper.counters) ∧
            (AreHandled exchanges → result = .ok ()) := by
  have isFilters : settings.listing "filter" =
      .ok [settings.shaper.tool, "filter", "show", "dev", settings.shaper.device] := rfl
  have isMarks : settings.listing marksListing = .ok settings.marking.listing := rfl
  refine (tells_showListing known isFor checked isFilters).bind ?_ ?_
  · intro exchanges host₁ value told
    rcases told with ⟨reply, rfl, known₁, _⟩
    refine (tells_showListing known₁ isFor checked isMarks).weaken ?_
    intro later host₂ result toldToo
    rcases toldToo with ⟨replyToo, rfl, _, succeeds⟩
    constructor
    · refine List.forall_mem_cons.mpr ⟨listing_ne_counters isFilters, ?_⟩
      exact List.forall_mem_singleton.mpr (listing_ne_counters isMarks)
    · exact fun handled => succeeds (List.forall_mem_cons.mp (List.forall_mem_cons.mp handled).2).1
  · intro exchanges host₁ failure told
    rcases told with ⟨reply, rfl, _, succeeds⟩
    exact ⟨List.forall_mem_singleton.mpr (listing_ne_counters isFilters),
      fun handled => succeeds (handled _ (List.mem_singleton_self _))⟩

/-- Nothing asks for counters where the status shows what it has. -/
theorem tells_showStatus
    (known : host.sessions[id]? = some session) (isFor : session.IsFor settings)
    (isIdle : session.applied = none) (below : settings.capacity.rate < Double.bound)
    (answers : IsAnswer (Compiled.ofSettings settings settings.roundTrip))
    (checked : session.readerLock.check = .ok ()) (snapshot : Option Snapshot) :
    (showStatus id snapshot).Tells host fun exchanges _ result =>
      (∀ exchange ∈ exchanges, exchange.words ≠ settings.shaper.counters) ∧
        (AreHandled exchanges → (IsOrderly result ↔ CanShow settings snapshot)) := by
  rcases showTables_cases known isFor isIdle below answers snapshot with
    ⟨host₁, result, done, same, orderly⟩
  rw [showStatus_eq]
  cases result with
  | error failure =>
      exact (tells_of_done (bind_of_error done)).mpr ⟨List.forall_mem_nil _, fun _ => orderly⟩
  | ok value =>
      have canShow := orderly.mp (isOrderly_ok value)
      refine (tells_bind_of_ok done).mpr ?_
      refine (tells_showListings (same.symm ▸ known) isFor checked).weaken ?_
      intro exchanges host₂ result told
      refine ⟨told.1, fun handled => iff_of_true ?_ canShow⟩
      rw [told.2 handled]
      exact isOrderly_ok ()

/-- Everything that a status shows of settings and of the counters that were listed can be
written. -/
structure ShowsAll (settings : Settings) (exchanges : List Exchange) : Prop where
  download : settings.download.isWritable = true
  counters : ∀ compiled, Compiled.ofSettings settings settings.roundTrip = .ok compiled →
    ∀ exchange ∈ exchanges, exchange.words = settings.shaper.counters → exchange.HasDoubles

/-- An exit code of success or of a failure, in which a program does not break off. -/
def GivesCode (result : Except Failure Nat) : Prop :=
  ∃ code ≤ 1, endingOf result = .ok (.code code)

theorem isReported_iff {failure : Failure} :
    isReported failure = true ↔ IsRefusalOr (fun failure => failure.isOwn = true) failure := by
  cases failure <;> simp [isReported, IsRefusalOr, Failure.isOwn]

theorem givesCode_iff {result : Except Failure Nat} (small : ∀ code, result = .ok code → code ≤ 1) :
    GivesCode result ↔ IsOrderly result := by
  cases result with
  | ok code => exact iff_of_true ⟨code, small code rfl, rfl⟩ (isOrderly_ok code)
  | error failure =>
      have only : IsOrderly (.error failure : Except Failure Nat) ↔ isReported failure = true := by
        rw [isReported_iff]
        refine ⟨fun orderly => orderly failure rfl, fun isAllowed _ same => ?_⟩
        cases same
        exact isAllowed
      rw [only]
      cases reported : isReported failure with
      | true => exact iff_of_true ⟨1, le_refl 1, if_pos reported⟩ rfl
      | false =>
          have breaks : endingOf (.error failure) = .error failure :=
            if_neg (by rw [reported]; decide)
          refine iff_of_false (fun gives => ?_) nofun
          rcases gives with ⟨code, _, isCode⟩
          rw [breaks] at isCode
          cases isCode

theorem givesCode_error_iff {failure : Failure} :
    GivesCode (.error failure) ↔ IsOrderly (.error failure : Except Failure α) := by
  have same : GivesCode (.error failure) ↔ IsOrderly (.error failure : Except Failure Nat) := by
    refine givesCode_iff ?_
    exact nofun
  exact same.trans ⟨IsOrderly.error, IsOrderly.error⟩

theorem exitCode_le (isOk : Bool) : exitCode isOk ≤ 1 := by
  cases isOk <;> decide

/-- A snapshot without classes has nothing that could not be shown. -/
theorem forall_hasDoubles_filter (found : Option Snapshot) :
    (∀ shown ∈ found.filter fun snapshot => !snapshot.classes.isEmpty, shown.HasDoubles) ↔
      ∀ shown ∈ found, shown.HasDoubles := by
  constructor
  · intro all snapshot isFound counters among
    cases isFound
    have nonempty : (!snapshot.classes.isEmpty) = true := by
      cases classes : snapshot.classes with
      | nil =>
          rw [classes] at among
          cases among
      | cons first rest => rfl
    exact all snapshot (Option.filter_some_pos nonempty) counters among
  · exact fun all snapshot isFound => all snapshot (Option.filter_eq_some_iff.mp isFound).1

theorem showsAll_iff {reply : Reply} {later : List Exchange} {found : Option Snapshot}
    (others : ∀ exchange ∈ later, exchange.words ≠ settings.shaper.counters)
    (same : (∀ shown ∈ found, shown.HasDoubles) ↔
      (⟨settings.shaper.counters, reply⟩ : Exchange).HasDoubles) :
    ShowsAll settings (⟨settings.shaper.counters, reply⟩ :: later) ↔
      CanShow settings (found.filter fun snapshot => !snapshot.classes.isEmpty) := by
  constructor
  · intro shows
    refine ⟨shows.download, fun compiled compiles => ?_⟩
    rw [forall_hasDoubles_filter, same]
    exact shows.counters compiled compiles _ (List.mem_cons_self ..) rfl
  · intro canShow
    refine ⟨canShow.download, fun compiled compiles => ?_⟩
    have hasDoubles := canShow.counters compiled compiles
    rw [forall_hasDoubles_filter, same] at hasDoubles
    refine List.forall_mem_cons.mpr ⟨fun _ => hasDoubles, fun exchange among asks => ?_⟩
    exact (others exchange among asks).elim

/-- A status in tables ends with a code if everything can be shown, and breaks off otherwise. -/
theorem tells_status_tables (known : host.sessions[id]? = some session)
    (isFor : session.IsFor settings) (isIdle : session.applied = none)
    (below : settings.capacity.rate < Double.bound)
    (answers : IsAnswer (Compiled.ofSettings settings settings.roundTrip))
    (checked : session.readerLock.check = .ok ()) :
    (status id false).Tells host fun exchanges _ result => ArePlain exchanges →
      (GivesCode result ↔ ShowsAll settings exchanges) := by
  refine (tells_snapshotOrError known isFor checked).bind ?_ ?_
  · intro exchanges host₁ found told
    rcases told with ⟨reply, rfl, ⟨latest, known₁⟩, isFound⟩
    have shown := tells_showStatus known₁
      ⟨isFor.own, isFor.backends, isFor.binding, isFor.roundTrip⟩ isIdle below answers checked
      (found.filter fun snapshot => !snapshot.classes.isEmpty)
    -- Whether the code is told depends on what is shown before.
    have ends (later : List Exchange) (result : Except Failure Nat)
        (small : ∀ code, result = .ok code → code ≤ 1)
        (others : ∀ exchange ∈ later, exchange.words ≠ settings.shaper.counters)
        (orderly : AreHandled later → (IsOrderly result ↔
          CanShow settings (found.filter fun snapshot => !snapshot.classes.isEmpty)))
        (plain : ArePlain (⟨settings.shaper.counters, reply⟩ :: later)) :
        GivesCode result ↔ ShowsAll settings (⟨settings.shaper.counters, reply⟩ :: later) := by
      rcases List.forall_mem_cons.mp plain with ⟨first, rest⟩
      rcases isFound first with ⟨_, ⟨⟩, same⟩
      rw [showsAll_iff others same, givesCode_iff small]
      exact orderly (ArePlain.areHandled rest)
    refine shown.bind ?_ ?_
    · intro later host₂ value told
      refine (tells_of_done rfl).mpr ?_
      rw [List.append_nil]
      refine ends later _ (fun code same => by cases same; exact exitCode_le _) told.1
        fun handled => ?_
      exact iff_of_true (isOrderly_ok _) ((told.2 handled).mp (isOrderly_ok value))
    · intro later host₂ failure told
      refine ends later _ nofun told.1 fun handled => ?_
      rw [← told.2 handled]
      exact ⟨IsOrderly.error, IsOrderly.error⟩
  · intro exchanges host₁ failure told plain
    rcases told with ⟨reply, rfl, _, isFound⟩
    rcases isFound (plain _ (List.mem_singleton_self _)) with ⟨_, ⟨⟩, _⟩

/-- A status as a document ends with a code. -/
theorem tells_status_document (known : host.sessions[id]? = some session)
    (isFor : session.IsFor settings)
    (answers : IsAnswer (Compiled.ofSettings settings settings.roundTrip))
    (checked : session.readerLock.check = .ok ()) :
    (status id true).Tells host fun exchanges _ result =>
      ArePlain exchanges → GivesCode result := by
  have prints (snapshot : Option Snapshot) : Watches id settings (printStatus id snapshot) :=
    (Watches.describe answers).bind fun _ => .of_within (isQuiet_modify fun _ => rfl) (.modify _)
  refine (tells_snapshotOrError known isFor checked).bind ?_ ?_
  · intro exchanges host₁ found told
    rcases told with ⟨reply, rfl, left, _⟩
    have printed := @Watches.goesOn id settings Unit _ [⟨settings.shaper.counters, reply⟩] host₁
      session (prints (found.filter fun snapshot => !snapshot.classes.isEmpty)) isFor left
    refine printed.bind ?_ ?_
    · intro later host₂ value _
      refine (tells_of_done rfl).mpr fun _ => ?_
      exact ⟨_, exitCode_le _, rfl⟩
    · intro later host₂ failure ended plain
      exact givesCode_error_iff.mpr (ended plain).1
  · intro exchanges host₁ failure told plain
    rcases told with ⟨reply, rfl, _, isFound⟩
    rcases isFound (plain _ (List.mem_singleton_self _)) with ⟨_, ⟨⟩, _⟩

end Console

end UplinkShaper
