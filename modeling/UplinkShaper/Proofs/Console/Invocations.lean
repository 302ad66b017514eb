import UplinkShaper.Console.Relay
import UplinkShaper.Proofs.Config.Loading
import UplinkShaper.Proofs.Console.Prerequisites

/-!
Invocations of the program. Settings are read first, then it is found out whether the command can
be performed, and then it is performed on a session of its own. What it fails with is reported, or
it ends the program.
-/

namespace UplinkShaper

open Operation

namespace Console

variable {host : Host} {invocation : Invocation} {words : List String} {polls : Nat}

/-- Whether a command line asks for a command. -/
def asksFor (words : List String) (command : ConsoleCommand) : Bool :=
  match Arguments.read words with
  | .ok invocation => invocation.command = command
  | .error _ => false

theorem exists_of_asksFor {command : ConsoleCommand} (asks : asksFor words command = true) :
    ∃ invocation, Arguments.read words = .ok invocation ∧ invocation.command = command := by
  unfold asksFor at asks
  split at asks
  case h_1 invocation isRead => exact ⟨invocation, isRead, of_decide_eq_true asks⟩
  case h_2 => cases asks

/-- The settings that an invocation finds on a host. -/
def settingsOn (invocation : Invocation) (host : Host) : Except Failure Settings :=
  Settings.load { locations := host.locations, files := host.files, named := host.named }
    invocation.settings

/-- Whether a command line asks for a command with settings that something holds of. -/
def findsSettings (words : List String) (command : ConsoleCommand) (host : Host)
    (holds : Settings → Bool) : Bool :=
  match Arguments.read words with
  | .ok invocation =>
      decide (invocation.command = command) &&
        match settingsOn invocation host with
        | .ok settings => holds settings
        | .error _ => false
  | .error _ => false

theorem exists_of_findsSettings {command : ConsoleCommand} {holds : Settings → Bool}
    (finds : findsSettings words command host holds = true) :
    ∃ invocation settings, Arguments.read words = .ok invocation ∧
      invocation.command = command ∧ settingsOn invocation host = .ok settings ∧
        holds settings = true := by
  unfold findsSettings at finds
  split at finds
  case h_2 => cases finds
  case h_1 invocation isRead =>
    rcases Bool.and_eq_true_iff.mp finds with ⟨isCommand, found⟩
    split at found
    case h_1 settings loads =>
      exact ⟨invocation, settings, isRead, of_decide_eq_true isCommand, loads, found⟩
    case h_2 => cases found

/-- How the program ends with what became of an invocation. -/
def endingOf : Except Failure Nat → Except Failure Ending
  | .ok code => .ok (.code code)
  | .error failure => if isReported failure then .ok (.code 1) else .error failure

theorem exitCode_endingOf_error (failure : Failure) :
    Relay.exitCode (endingOf (.error failure)) = 1 := by
  unfold endingOf
  dsimp only
  split
  · rfl
  · rfl

theorem runInvocation_eq (polls : Nat) (invocation : Invocation) :
    runInvocation polls invocation = (do
      modify fun host => { host with level := levelOf invocation }
      tryCatch (invoke polls invocation) fun failure =>
        if isReported failure then do
          Host.record (.error failure.message)
          return 1
        else throw failure) := by
  refine congrArg (modify _ >>= ·) (funext fun _ => funext fun host => ?_)
  change ((Procedure.andThen (invoke polls invocation host) _).andThen _).andThen _ =
    Procedure.andThen (invoke polls invocation host) _
  rw [Procedure.andThen_assoc, Procedure.andThen_assoc]
  apply congrArg
  funext state result
  cases result with
  | ok code => rfl
  | error failure =>
      dsimp only [ofResult]
      simp only [Procedure.done_andThen]
      cases isReported failure with
      | true => rfl
      | false => rfl

theorem run_eq (isRead : Arguments.read words = .ok invocation)
    (isOther : invocation.command ≠ .help) (polls : Nat) :
    run polls words = (do return .code (← runInvocation polls invocation)) := by
  unfold run
  rw [isRead]
  exact if_neg isOther

/-- What is told of an invocation is told of the run for it. -/
theorem tells_run {after : List Exchange → Except Failure Ending → Prop}
    (isRead : Arguments.read words = .ok invocation) (isOther : invocation.command ≠ .help)
    (tells : (invoke polls invocation).Tells { host with level := levelOf invocation }
      fun exchanges _ result => after exchanges (endingOf result)) :
    (run polls words).Tells host fun exchanges _ ending => after exchanges ending := by
  have reports : (runInvocation polls invocation).Tells host fun exchanges _ result =>
      after exchanges (Ending.code <$> result) := by
    rw [runInvocation_eq]
    refine (tells_bind_of_ok rfl).mpr (tells.tryCatch (fun _ _ _ ended => ended) ?_)
    intro exchanges host₁ failure ended
    unfold endingOf at ended
    dsimp only at ended ⊢
    split at ended
    case isTrue reported =>
      rw [if_pos reported]
      refine (tells_of_done rfl).mpr ?_
      rw [List.append_nil]
      exact ended
    case isFalse unreported =>
      rw [if_neg unreported]
      refine (tells_of_done rfl).mpr ?_
      rw [List.append_nil]
      exact ended
  rw [run_eq isRead isOther]
  refine reports.bind ?_ fun _ _ _ ended => ended
  intro exchanges host₁ code ended
  refine (tells_of_done rfl).mpr ?_
  rw [List.append_nil]
  exact ended

/-! ## Parts of an invocation -/

open Session

/-- An invocation has settings, and is permitted what it asks for. -/
structure Allows (invocation : Invocation) (host : Host) (settings : Settings) : Prop where
  loads : settingsOn invocation host = .ok settings
  isPermitted : isPrivileged invocation.command = true → host.isPrivileged = true

/-- What a command needs is found; most commands need nothing. -/
def FindsAll (command : ConsoleCommand) (host : Host) (settings : Settings)
    (links : List Exchange) : Prop :=
  if isApplying command then IsChecked (missingTools host settings) settings links (.ok ())
  else links = []

/-- What is found before a command that applies settings. -/
theorem FindsAll.isChecked {settings : Settings} {links : List Exchange}
    {command : ConsoleCommand} (finds : FindsAll command host settings links)
    (applies : isApplying command = true) :
    IsChecked (missingTools host settings) settings links (.ok ()) := by
  rw [FindsAll, applies] at finds
  exact finds

/-- A host with the session of an invocation. -/
def made (host : Host) (settings : Settings) (level : LogLevel) (log : List LogRecord)
    (labels : Labels) : Host :=
  { host with
    level := level
    log := log
    sessions := host.sessions ++ [fresh settings .made none labels] }

theorem getElem?_made (host : Host) (settings : Settings) (level : LogLevel)
    (log : List LogRecord) (labels : Labels) :
    (made host settings level log labels).sessions[host.sessions.length]? =
      some (fresh settings .made none labels) :=
  List.getElem?_concat_length

/-- How far an invocation comes, and what is told on the way. -/
inductive IsInvoked (polls : Nat) (invocation : Invocation) (host : Host) :
    List Exchange → Except Failure Nat → Prop
  | unread {failure : Failure} : settingsOn invocation host = .error failure →
      IsInvoked polls invocation host [] (.error failure)
  | unprivileged {settings : Settings} : settingsOn invocation host = .ok settings →
      isPrivileged invocation.command = true → host.isPrivileged = false →
      IsInvoked polls invocation host [] (.error (.precondition .privileges))
  | unmet {settings : Settings} {exchanges : List Exchange} {failure : Failure} :
      Allows invocation host settings → isApplying invocation.command = true →
      IsChecked (missingTools host settings) settings exchanges (.error failure) →
      IsInvoked polls invocation host exchanges (.error failure)
  | unmade {settings : Settings} {links : List Exchange} {failure : Failure} :
      Allows invocation host settings → FindsAll invocation.command host settings links →
      settings.treeRequest.compile settings.roundTrip = .error failure →
      ¬ IsDecided settings → IsInvoked polls invocation host links (.error failure)
  | performed {settings : Settings} {links exchanges : List Exchange} {level : LogLevel}
      {log : List LogRecord} {labels : Labels} {host' : Host} {result : Except Failure Nat} :
      Allows invocation host settings → FindsAll invocation.command host settings links →
      IsDecided settings →
      (perform polls invocation.command host.sessions.length
        (made host settings level log labels)).Says exchanges host' result →
      IsInvoked polls invocation host (links ++ exchanges) result

/-- How much is logged changes nothing. -/
theorem IsInvoked.of_level {level : LogLevel} {exchanges : List Exchange}
    {result : Except Failure Nat}
    (invoked : IsInvoked polls invocation { host with level := level } exchanges result) :
    IsInvoked polls invocation host exchanges result := by
  cases invoked with
  | unread fails => exact .unread fails
  | unprivileged loads asks lacks => exact .unprivileged loads asks lacks
  | unmet allows applies isChecked =>
      exact .unmet ⟨allows.loads, allows.isPermitted⟩ applies isChecked
  | unmade allows finds fails undecided =>
      exact .unmade ⟨allows.loads, allows.isPermitted⟩ finds fails undecided
  | performed allows finds decided told =>
      exact .performed ⟨allows.loads, allows.isPermitted⟩ finds decided told

/-- What is told once everything is found. -/
theorem tells_made {settings : Settings} {links : List Exchange}
    (allows : Allows invocation host settings)
    (finds : FindsAll invocation.command host settings links) (polls : Nat)
    (log : List LogRecord) :
    (do perform polls invocation.command (← Session.make settings .made none) :
      HostOperation Nat).Tells { host with log := log } fun exchanges _ result =>
        IsInvoked polls invocation host (links ++ exchanges) result := by
  rcases make_cases settings .made { host with log := log } with
    ⟨host₁, failure, fails, undecided, done⟩ | ⟨decided, later, labels, done⟩
  · refine (tells_of_done (bind_of_error done)).mpr ?_
    rw [List.append_nil]
    exact .unmade allows finds fails undecided
  · refine (tells_bind_of_ok done).mpr fun exchanges host₁ result told => ?_
    exact @IsInvoked.performed polls invocation host settings links exchanges host.level later
      labels host₁ result allows finds decided told

theorem tells_checked {settings : Settings} (allows : Allows invocation host settings)
    (polls : Nat) :
    (do
      if isApplying invocation.command then checkPrerequisites settings
      perform polls invocation.command (← Session.make settings .made none) :
        HostOperation Nat).Tells host
      fun exchanges _ result => IsInvoked polls invocation host exchanges result := by
  cases applies : isApplying invocation.command with
  | false =>
      have finds : FindsAll invocation.command host settings [] := by
        rw [FindsAll, applies]
        rfl
      exact tells_made allows finds polls host.log
  | true =>
      refine (tells_checkPrerequisites host settings).bind ?_ ?_
      · rintro links _ _ ⟨⟨log, rfl⟩, isChecked⟩
        have finds : FindsAll invocation.command host settings links := by
          rw [FindsAll, applies]
          exact isChecked
        exact tells_made allows finds polls log
      · rintro exchanges host₁ failure ⟨_, isChecked⟩
        exact .unmet allows applies isChecked

theorem tells_invoke (polls : Nat) (invocation : Invocation) (host : Host) :
    (invoke polls invocation).Tells host
      fun exchanges _ result => IsInvoked polls invocation host exchanges result := by
  have loaded : settingsOf invocation host = .done host (settingsOn invocation host) := rfl
  cases found : settingsOn invocation host with
  | error failure =>
      rw [found] at loaded
      exact (tells_of_done (bind_of_error loaded)).mpr (.unread found)
  | ok settings =>
      rw [found] at loaded
      refine (tells_bind_of_ok loaded).mpr ?_
      cases asks : isPrivileged invocation.command with
      | false =>
          have allows : Allows invocation host settings :=
            ⟨found, fun privileged => by rw [asks] at privileged; cases privileged⟩
          exact tells_checked allows polls
      | true =>
          cases privileged : host.isPrivileged with
          | false =>
              have refused : requirePrivileges host =
                  .done host (.error (.precondition .privileges)) := by
                rw [requirePrivileges, get_bind_apply, privileged]
                rfl
              exact (tells_of_done (bind_of_error refused)).mpr
                (.unprivileged found asks privileged)
          | true =>
              have permitted : requirePrivileges host = .done host (.ok ()) := by
                rw [requirePrivileges, get_bind_apply, privileged]
                rfl
              refine (tells_bind_of_ok permitted).mpr ?_
              exact tells_checked ⟨found, fun _ => privileged⟩ polls

theorem isPrivileged_of_isApplying {command : ConsoleCommand}
    (applies : isApplying command = true) : isPrivileged command = true := by
  cases command with
  | start => rfl
  | restart => rfl
  | reload => rfl
  | _ => cases applies

theorem isOther_of_isApplying {command : ConsoleCommand} (applies : isApplying command = true) :
    command ≠ .help := by
  rintro rfl
  cases applies

/-- Every run of the program is that of an invocation, in which the runner gave the replies. -/
theorem exists_isInvoked {ρ : Type} (isRead : Arguments.read words = .ok invocation)
    (isOther : invocation.command ≠ .help) (polls : Nat) (runner : Runner ρ) (memory : ρ)
    (host : Host) :
    let ending := (run polls words).run (recording runner) (memory, []) host
    ∃ result, ending.2.2 = endingOf result ∧
      IsInvoked polls invocation host ending.1.2 result ∧
        runner.Answers memory ending.1.2 ending.1.1 := by
  intro ending
  have tells : (run polls words).Tells host fun exchanges _ ending =>
      ∃ result, ending = endingOf result ∧ IsInvoked polls invocation host exchanges result := by
    refine tells_run isRead isOther ((tells_invoke polls invocation _).weaken ?_)
    exact fun _ _ result invoked => ⟨result, rfl, invoked.of_level⟩
  rcases Procedure.says_run (run polls words host) runner memory [] with
    ⟨exchanges, written, told, answers⟩
  rcases tells _ _ _ told with ⟨result, isResult, invoked⟩
  have same : ending.1.2 = exchanges := written
  rw [same]
  exact ⟨result, isResult, invoked, answers⟩

end Console

end UplinkShaper
