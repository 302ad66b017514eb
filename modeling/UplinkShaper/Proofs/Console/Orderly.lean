import UplinkShaper.Proofs.Console.Showing
import UplinkShaper.Proofs.Console.Station

/-!
Runs that end with an exit code. Whatever the tools reply, commands for regular settings report
what fails and end with zero or one, but for two of them: where the question for a link is
interrupted, and where a status would show a number that cannot be written, they break off.
-/

namespace UplinkShaper

open Operation Result

/-! ## Tests -/

namespace Watches

variable {id : SessionId} {settings : Settings}

/-- What runs no command and always succeeds. -/
theorem of_done {operation : HostOperation α}
    (succeeds : ∀ host, ∃ host' value, operation host = .done host' (.ok value) ∧
      host'.sessions = host.sessions) : Watches id settings operation := by
  intro host session known _
  rcases succeeds host with ⟨host', value, done, same⟩
  exact (tells_of_done done).mpr fun _ => ⟨isOrderly_ok value, session.latest, same.symm ▸ known⟩

theorem test (answers : IsAnswer (Compiled.ofSettings settings settings.roundTrip))
    (checked : settings.statePath.check = .ok ()) : Watches id settings (Console.test id) := by
  have shows (results : List Session.CheckResult) : Watches id settings
      (results.forM fun result => Host.display (Display.ofCheck result)) :=
    of_done fun host => by
      rcases Console.exists_forM_display Display.ofCheck results host with ⟨host', shown, same⟩
      exact ⟨host', ⟨⟩, shown, same⟩
  refine (verify answers checked).bind fun results => (shows results).bind fun _ => ?_
  dsimp only
  split
  · exact (record _).bind fun _ => pure _
  · exact (record _).bind fun _ => pure _

end Watches

namespace Console

open Session

/-- A command that comes to its end by itself, and is given no path. -/
def isBasic : ConsoleCommand → Bool
  | .monitor _ | .help | .save (some _) => false
  | _ => true

section Commands

variable {host : Host} {id : SessionId} {session : Session} {settings : Settings}
  {request : Request} {locations : Locations} {document : Value} {source : Option Path}

/-! ## Commands that apply settings -/

theorem givesCode_concluded {finish : Bool → HostOperation Nat} (tellsCode : TellsCode finish)
    (known : host.sessions[id]? = some session) (isFor : session.IsFor settings)
    (regular : settings.IsRegular)
    (answers : IsAnswer (Compiled.ofSettings settings settings.roundTrip))
    (asks : request.settings host session = .ok (some settings))
    (accepted : Settings.ofDocument locations document source = .ok settings) :
    (concluded request id finish).Tells host fun exchanges _ result =>
      ArePlain exchanges → GivesCode result := by
  refine ((Request.tells_perform known isFor asks accepted).and
    (Request.endsOrderly_perform known isFor regular answers asks accepted)).bind ?_ ?_
  · intro applying host₁ value told
    by_cases plain : ArePlain applying
    case neg =>
      exact fun reads _ _ _ plainToo => (plain (arePlain_append.mp plainToo).1).elim
    case pos =>
      rcases told.1 plain.areHandled with ⟨_, ⟨⟩⟩ | ⟨compiled, compiles, ⟨_, ⟨⟩⟩ | ⟨_, isApplied⟩⟩
      rcases isApplied.known with ⟨session', known', isFor'⟩
      have tests : Watches id settings (test id) := .test answers regular.checked
      refine (tests host₁ session' known' isFor').bind ?_ ?_
      · intro reads host₂ isPassed _
        rcases tellsCode isPassed host₂ with ⟨host₃, done⟩
        exact (tells_of_done done).mpr fun _ => ⟨_, exitCode_le isPassed, rfl⟩
      · intro reads host₂ failure ended plainToo
        exact givesCode_error_iff.mpr (ended (arePlain_append.mp plainToo).2).1
  · exact fun applying host₁ failure told plain => givesCode_error_iff.mpr (told.2 plain)

theorem givesCode_request {command : ConsoleCommand}
    (requests : requestOf command = some request) (polls : Nat)
    (known : host.sessions[id]? = some session) (isFor : session.IsFor settings)
    (regular : settings.IsRegular)
    (answers : IsAnswer (Compiled.ofSettings settings settings.roundTrip))
    (asks : request.settings host session = .ok (some settings))
    (accepted : Settings.ofDocument locations document source = .ok settings) :
    (perform polls command id).Tells host fun exchanges _ result =>
      ArePlain exchanges → GivesCode result := by
  rcases perform_eq requests polls known with ⟨log, finish, tellsCode, performs⟩
  have known₁ : ({ host with log := log } : Host).sessions[id]? = some session := known
  rw [← settings_of_log request host session log] at asks
  intro exchanges host' result told
  rw [performs] at told
  exact givesCode_concluded tellsCode known₁ isFor regular answers asks accepted _ _ _ told

theorem givesCode_restart (polls : Nat) (known : host.sessions[id]? = some session)
    (isFor : session.IsFor settings) (regular : settings.IsRegular)
    (answers : IsAnswer (Compiled.ofSettings settings settings.roundTrip))
    (accepted : Settings.ofDocument locations document source = .ok settings) :
    (perform polls .restart id).Tells host fun exchanges _ result =>
      ArePlain exchanges → GivesCode result := by
  refine ((Request.tells_stop known isFor).and
    (Request.endsOrderly_stop known (isFor.own ▸ regular.checked))).bind ?_ ?_
  · intro before host₁ value told exchanges host₂ result toldLater plain
    rcases arePlain_append.mp plain with ⟨plainFirst, plainLater⟩
    rcases told.1 plainFirst.areHandled with ⟨_, ⟨⟩⟩ | ⟨session', known', isFor'⟩
    have requests : requestOf .start = some .start := rfl
    have asks : Request.start.settings host₁ session' = .ok (some settings) :=
      congrArg (Except.ok ∘ some) isFor'.own
    exact givesCode_request requests polls known' isFor' regular answers asks accepted _ _ _
      toldLater plainLater
  · exact fun before host₁ failure told plain => givesCode_error_iff.mpr (told.2 plain)

/-! ## Other commands -/

theorem givesCode_stop (known : host.sessions[id]? = some session)
    (isFor : session.IsFor settings) (regular : settings.IsRegular) :
    (stop id).Tells host fun exchanges _ result => ArePlain exchanges → GivesCode result := by
  refine (Request.endsOrderly_stop known (isFor.own ▸ regular.checked)).bind ?_ ?_
  · exact fun _ _ _ _ => (tells_of_done rfl).mpr fun _ => ⟨0, Nat.zero_le 1, rfl⟩
  · exact fun _ _ _ ended plain => givesCode_error_iff.mpr (ended plain)

/-- Something is watched, and then the code is told. -/
theorem givesCode_watches {operation : HostOperation α} {next : α → HostOperation Nat}
    (watches : Watches id settings operation)
    (tells : ∀ value host, ∃ host', ∃ code ≤ 1, next value host = .done host' (.ok code))
    (known : host.sessions[id]? = some session) (isFor : session.IsFor settings) :
    (operation >>= next).Tells host fun exchanges _ result =>
      ArePlain exchanges → GivesCode result := by
  refine (watches host session known isFor).bind ?_ ?_
  · intro exchanges host₁ value _
    rcases tells value host₁ with ⟨host₂, code, isSmall, done⟩
    exact (tells_of_done done).mpr fun _ => ⟨code, isSmall, rfl⟩
  · exact fun _ _ _ ended plain => givesCode_error_iff.mpr (ended plain).1

/-- A basic command in the session of an invocation: it ends with a code, unless it is a status
with something that cannot be shown. -/
theorem tells_basic {command : ConsoleCommand} {labels : Labels}
    (basic : isBasic command = true) (polls : Nat)
    (known : host.sessions[id]? = some (fresh settings .made none labels))
    (regular : settings.IsRegular)
    (answers : IsAnswer (Compiled.ofSettings settings settings.roundTrip))
    (accepted : Settings.ofDocument locations document source = .ok settings)
    (stays : ∀ path ∈ settings.source,
      Settings.ofFile host.locations host.files path = .ok settings) :
    (perform polls command id).Tells host fun exchanges _ result => ArePlain exchanges →
      (GivesCode result ↔ (command = .status false → ShowsAll settings exchanges)) := by
  have isFor := isFor_fresh settings .made labels
  have checked : (fresh settings .made none labels).readerLock.check = .ok () :=
    check_readerLock regular.checked
  have always {other : ConsoleCommand} (isOther : other ≠ .status false)
      (gives : (perform polls other id).Tells host fun exchanges _ result =>
        ArePlain exchanges → GivesCode result) :
      (perform polls other id).Tells host fun exchanges _ result => ArePlain exchanges →
        (GivesCode result ↔ (other = .status false → ShowsAll settings exchanges)) :=
    gives.weaken fun _ _ _ ended plain =>
      iff_of_true (ended plain) fun isStatus => (isOther isStatus).elim
  cases command with
  | start =>
      have requests : requestOf .start = some .start := rfl
      exact always nofun (givesCode_request requests polls known isFor regular answers
        (settings_of_requestOf requests isFor stays) accepted)
  | stop => exact always nofun (givesCode_stop known isFor regular)
  | restart => exact always nofun (givesCode_restart polls known isFor regular answers accepted)
  | reload =>
      have requests : requestOf .reload = some (.reload none) := rfl
      exact always nofun (givesCode_request requests polls known isFor regular answers
        (settings_of_requestOf requests isFor stays) accepted)
  | status isJson =>
      cases isJson with
      | true => exact always nofun (tells_status_document known isFor answers checked)
      | false =>
          refine (tells_status_tables known isFor rfl regular.below answers checked).weaken ?_
          intro exchanges host' result ended plain
          rw [ended plain]
          exact ⟨fun shows _ => shows, fun shows => shows rfl⟩
  | test =>
      refine always nofun (givesCode_watches (.test answers regular.checked) ?_ known isFor)
      exact fun isPassed host => ⟨host, _, exitCode_le isPassed, rfl⟩
  | save path =>
      cases path with
      | none =>
          refine always nofun (givesCode_watches
            (.save answers regular.isNamed regular.checked) ?_ known isFor)
          exact fun path host => ⟨_, 0, Nat.zero_le 1, rfl⟩
      | some path => cases basic
  | monitor interval => cases basic
  | help => cases basic

end Commands

/-! ## Prerequisites -/

/-- No question for a link is interrupted. -/
def FindsOut (settings : Settings) (exchanges : List Exchange) : Prop :=
  ∀ exchange ∈ exchanges, AsksForLink settings exchange →
    ∀ interruption, exchange.reply ≠ .interrupted interruption

theorem not_givesCode_interrupted (interruption : Interruption) :
    ¬ GivesCode (.error (.interrupted interruption)) := by
  intro gives
  rcases gives with ⟨_, _, ⟨⟩⟩

section Prerequisites

variable {settings : Settings} {exchanges : List Exchange} {missing : List String}

theorem FindsLink.ne_interrupted {device : String} {exchange : Exchange}
    (finds : FindsLink settings device exchange) (interruption : Interruption) :
    exchange.reply ≠ .interrupted interruption := by
  rcases finds.2 with ⟨output, errors, replied⟩
  rw [replied]
  exact nofun

/-- What is found is not interrupted. -/
theorem IsChecked.findsOut (isChecked : IsChecked missing settings exchanges (.ok ())) :
    FindsOut settings exchanges := by
  cases isChecked with
  | met _ found =>
      intro exchange among _
      rcases forall_findsLink found exchange among with ⟨_, _, finds⟩
      exact finds.ne_interrupted

/-- Something that is missing is reported, unless the question for it was interrupted. -/
theorem IsChecked.givesCode_iff {failure : Failure}
    (isChecked : IsChecked missing settings exchanges (.error failure)) :
    GivesCode (.error failure) ↔ FindsOut settings exchanges := by
  cases isChecked with
  | tools _ => exact iff_of_true ⟨1, le_refl 1, rfl⟩ (List.forall_mem_nil _)
  | @link before device reply _ _ found member fails =>
      have early : ∀ exchange ∈ before, AsksForLink settings exchange →
          ∀ interruption, exchange.reply ≠ .interrupted interruption := by
        intro exchange among _
        rcases found exchange among with ⟨_, _, finds⟩
        exact finds.ne_interrupted
      have split : FindsOut settings (before ++ [⟨linkQuestion settings device, reply⟩]) ↔
          ∀ interruption, reply ≠ .interrupted interruption := by
        unfold FindsOut
        rw [List.forall_mem_append, List.forall_mem_singleton]
        exact ⟨fun both => both.2 ⟨device, member, rfl⟩, fun last => ⟨early, fun _ => last⟩⟩
      rw [split]
      cases reply with
      | finished code output errors =>
          by_cases isZero : code = 0
          · subst isZero
            cases fails
          · simp only [foundLink] at fails
            cases fails
            exact iff_of_true ⟨1, le_refl 1, rfl⟩ fun _ same => by cases same
      | refused text =>
          cases fails
          exact iff_of_true ⟨1, le_refl 1, rfl⟩ fun _ same => by cases same
      | interrupted interruption =>
          cases fails
          exact iff_of_false (not_givesCode_interrupted interruption) fun none => none _ rfl

end Prerequisites

/-! ## Runs -/

/-- A command is permitted, and has found what it needs. -/
structure IsReady (command : ConsoleCommand) (host : Host) (settings : Settings)
    (exchanges : List Exchange) : Prop where
  isPermitted : isPrivileged command = true → host.isPrivileged = true
  hasTools : isApplying command = true → missingTools host settings = []
  findsLinks : isApplying command = true → ∀ exchange ∈ exchanges,
    AsksForLink settings exchange → ∃ device, FindsLink settings device exchange

/-- Nothing makes a command break off: questions for links are answered before settings are
applied, the class tree of a command that is ready is made or refused, and a status in tables has
nothing that cannot be written. -/
structure CanEnd (command : ConsoleCommand) (host : Host) (settings : Settings)
    (exchanges : List Exchange) : Prop where
  links : isApplying command = true → FindsOut settings exchanges
  tree : IsReady command host settings exchanges →
    IsOrderly (settings.treeRequest.compile settings.roundTrip)
  shows : command = .status false → IsDecided settings → ShowsAll settings exchanges

theorem ne_status_of_isPrivileged {command : ConsoleCommand} (asks : isPrivileged command = true) :
    command ≠ .status false := by
  rintro rfl
  cases asks

section Runs

variable {host : Host} {invocation : Invocation} {settings : Settings} {polls : Nat}
  {exchanges : List Exchange} {result : Except Failure Nat}

/-- Nothing is missing where everything is found. -/
theorem FindsAll.isReady (allows : Allows invocation host settings)
    (finds : FindsAll invocation.command host settings exchanges) :
    IsReady invocation.command host settings exchanges where
  isPermitted := allows.isPermitted
  hasTools applies := by
    cases finds.isChecked applies with
    | met hasTools _ => exact hasTools
  findsLinks applies := by
    cases finds.isChecked applies with
    | met _ found =>
        intro exchange among _
        rcases forall_findsLink found exchange among with ⟨device, _, finds⟩
        exact ⟨device, finds⟩

/-- Something is missing where the prerequisites are not met. -/
theorem IsChecked.not_isReady {command : ConsoleCommand} {failure : Failure}
    (isChecked : IsChecked (missingTools host settings) settings exchanges (.error failure))
    (applies : isApplying command = true) : ¬ IsReady command host settings exchanges := by
  intro ready
  cases isChecked with
  | tools missing => exact missing (ready.hasTools applies)
  | @link _ device reply _ _ _ member fails =>
      rcases ready.findsLinks applies _
        (List.mem_append_right _ (List.mem_singleton_self _)) ⟨device, member, rfl⟩ with
        ⟨_, _, output, errors, replied⟩
      dsimp only at replied
      rw [replied] at fails
      cases fails

/-- What is found before a command, and what is asked for in it, has no part in what is shown. -/
theorem canEnd_iff {level : LogLevel} {log : List LogRecord} {labels : Labels} {host' : Host}
    {links later : List Exchange} (finds : FindsAll invocation.command host settings links)
    (decided : IsDecided settings)
    (told : (perform polls invocation.command host.sessions.length
      (made host settings level log labels)).Says later host' result) :
    CanEnd invocation.command host settings (links ++ later) ↔
      (invocation.command = .status false → ShowsAll settings later) := by
  have tree : IsReady invocation.command host settings (links ++ later) →
      IsOrderly (settings.treeRequest.compile settings.roundTrip) :=
    fun _ => decided.isAnswer.isOrderly
  cases applies : isApplying invocation.command with
  | true =>
      have notStatus := ne_status_of_isPrivileged (isPrivileged_of_isApplying applies)
      refine iff_of_true ⟨fun _ => ?_, tree, fun isStatus => (notStatus isStatus).elim⟩
        fun isStatus => (notStatus isStatus).elim
      refine List.forall_mem_append.mpr ⟨(finds.isChecked applies).findsOut, ?_⟩
      intro exchange among asks
      rcases asks with ⟨device, _, words⟩
      have asksNoLink := (issues_perform applies polls _ _).areAllowed told exchange among
      rw [words] at asksNoLink
      exact (not_asksNoLink settings device asksNoLink).elim
  | false =>
      rw [FindsAll, applies] at finds
      cases finds
      rw [List.nil_append] at tree ⊢
      refine ⟨fun canEnd isStatus => canEnd.shows isStatus decided,
        fun shows => ⟨fun isApplying => ?_, tree, fun isStatus _ => shows isStatus⟩⟩
      rw [applies] at isApplying
      cases isApplying

/-- An invocation with regular settings ends with a code exactly where it can. -/
theorem IsInvoked.givesCode_iff (basic : isBasic invocation.command = true)
    (loads : settingsOn invocation host = .ok settings) (regular : settings.IsRegular)
    (plain : ArePlain exchanges)
    (invoked : IsInvoked polls invocation host exchanges result) :
    GivesCode result ↔ CanEnd invocation.command host settings exchanges := by
  rcases Settings.of_load loads with ⟨⟨document, source, accepted⟩, stays⟩
  have only {other : Settings} (allows : Allows invocation host other) : other = settings := by
    have same := allows.loads
    rw [loads] at same
    cases same
    rfl
  cases invoked with
  | unread fails =>
      rw [loads] at fails
      cases fails
  | unprivileged _ asks lacks =>
      refine iff_of_true ⟨1, le_refl 1, rfl⟩ ⟨fun _ => List.forall_mem_nil _, fun ready => ?_,
        fun isStatus => (ne_status_of_isPrivileged asks isStatus).elim⟩
      rw [ready.isPermitted asks] at lacks
      cases lacks
  | unmet allows applies isChecked =>
      cases only allows
      have notStatus := ne_status_of_isPrivileged (isPrivileged_of_isApplying applies)
      rw [isChecked.givesCode_iff]
      exact ⟨fun finds => ⟨fun _ => finds,
        fun ready => (isChecked.not_isReady applies ready).elim,
        fun isStatus => (notStatus isStatus).elim⟩, fun canEnd => canEnd.links applies⟩
  | @unmade _ _ failure allows finds fails undecided =>
      cases only allows
      have same : GivesCode (.error failure) ↔
          IsOrderly (settings.treeRequest.compile settings.roundTrip) := by
        rw [fails]
        exact givesCode_error_iff
      rw [same]
      refine ⟨fun orderly => ⟨fun applies => (finds.isChecked applies).findsOut, fun _ => orderly,
        fun _ decided => (undecided decided).elim⟩, fun canEnd => ?_⟩
      exact canEnd.tree (finds.isReady allows)
  | performed allows finds decided told =>
      cases only allows
      rw [canEnd_iff finds decided told]
      exact tells_basic basic polls (getElem?_made ..) regular
        (Compiled.isAnswer_ofSettings decided.isAnswer) accepted stays _ _ _ told
        (arePlain_append.mp plain).2

end Runs

/-- A machine on which no tool finishes in time. -/
def stalling : Runner Unit := fun _ _ =>
  ((), .interrupted (.timeout "Command timed out after 10 seconds"))

theorem isPlain_stalling (memory : Unit) (words : List String) :
    (stalling memory words).2.IsPlain where
  isHandled := rfl
  output := nofun

end Console

theorem Settings.isRegular_of_isOrdinary {settings : Settings}
    (evaluated : (settings.isOrdinary && settings.isPlain) = true) :
    settings.IsRegular ∧ ∃ tree, settings.treeRequest.compile settings.roundTrip = .ok tree := by
  simp only [isOrdinary, Bool.and_eq_true, decide_eq_true_eq] at evaluated
  rcases evaluated with ⟨⟨_, small, inOrder, standard⟩, isPlain⟩
  rcases whole_of_isPlain isPlain with ⟨retries, parents⟩
  rcases exists_ofSettings_of_compilesInOrder inOrder with ⟨compiled, compiles⟩
  refine ⟨?_, compiled.tree, (Compiled.ofSettings_eq_ok_iff.mp compiles).1⟩
  exact {
    below := Session.rate_lt_bound small
    isWhole := ⟨retries, parents⟩
    isNamed := by rw [standard]; exact List.cons_ne_nil _ _
    checked := by rw [standard]; rfl }

namespace Console

end Console

end UplinkShaper
