import UplinkShaper.Proofs.Console.Applying
import UplinkShaper.Proofs.Console.Invocations
import UplinkShaper.Proofs.Session.Succeeding

/-!
Runs of the program, one after another, on a machine that stays. Each run knows its own settings
and nothing of those before it: what another run has left for another device or chain stays there,
so moving the uplink from one file to the next leaves the old one shaped as well.
-/

namespace UplinkShaper

open Kernel Machine Operation

/-! ## Stations -/

/-- A machine at which somebody else answers the questions. -/
def station {ρ : Type} (script : FailureScript) (reader : Runner ρ) : Runner (Machine × ρ) :=
  fun (machine, memory) words =>
    if isQuestion words then ((machine, (reader memory words).1), (reader memory words).2)
    else (((replying script machine words).1, memory), (replying script machine words).2)

section Stations

variable {ρ : Type} {script : FailureScript} {reader : Runner ρ} {machine : Machine} {memory : ρ}
  {exchanges : List Exchange} {last : Machine × ρ}

/-- Questions change nothing. -/
theorem eq_of_questions
    (answers : (station script reader).Answers (machine, memory) exchanges last)
    (areQuestions : ∀ exchange ∈ exchanges, isQuestion exchange.words = true) :
    last.1 = machine := by
  induction exchanges generalizing memory with
  | nil =>
      cases answers
      rfl
  | cons exchange rest induction =>
      rcases List.forall_mem_cons.mp areQuestions with ⟨isFirst, others⟩
      have goesOn := answers.2
      simp only [station, isFirst, if_true] at goesOn
      exact induction goesOn others

/-- What is no question is answered by the machine. -/
theorem answers_of_changes
    (answers : (station script reader).Answers (machine, memory) exchanges last)
    (areChanges : ∀ exchange ∈ exchanges, isQuestion exchange.words = false) :
    (replying script).Answers machine exchanges last.1 := by
  induction exchanges generalizing machine with
  | nil =>
      cases answers
      rfl
  | cons exchange rest induction =>
      rcases List.forall_mem_cons.mp areChanges with ⟨isFirst, others⟩
      rcases answers with ⟨replied, goesOn⟩
      simp only [station, isFirst, Bool.false_eq_true, if_false] at replied goesOn
      exact ⟨replied, induction goesOn others⟩

end Stations

namespace Console

open Session

/-! ## Successful runs -/

/-- A request that was made with success, for settings that a host had in a file. -/
structure IsMade (request : Request) (settings : Settings) (host host' : Host) (id : SessionId)
    (exchanges : List Exchange) : Prop where
  known : ∃ session, host.sessions[id]? = some session ∧ session.IsFor settings ∧
    request.settings host session = .ok (some settings)
  accepted : ∃ locations document source,
    Settings.ofDocument locations document source = .ok settings
  told : (request.perform id host).Says exchanges host' (.ok ())

section Runs

variable {request : Request} {invocation : Invocation} {host : Host} {polls : Nat}
  {settings : Settings} {exchanges : List Exchange} {result : Except Failure Nat}

/-- A run that succeeds has made its request, and asked questions before and after it. -/
theorem exists_isMade (requests : requestOf invocation.command = some request)
    (loads : settingsOn invocation host = .ok settings)
    (invoked : IsInvoked polls invocation host exchanges result)
    (succeeded : Relay.exitCode (endingOf result) = 0) :
    ∃ links applying reads host₁ host₂ id, exchanges = links ++ applying ++ reads ∧
      (∀ exchange ∈ links, isQuestion exchange.words = true) ∧
      (∀ exchange ∈ reads, isQuestion exchange.words = true) ∧
      IsMade request settings host₁ host₂ id applying := by
  have applies := isApplying_of_requestOf requests
  cases result with
  | error failure =>
      rw [exitCode_endingOf_error] at succeeded
      cases succeeded
  | ok code =>
      cases invoked with
      | @performed other links exchanges level log labels host' _ allows finds _ told =>
          rw [allows.loads] at loads
          cases loads
          rcases Settings.of_load allows.loads with ⟨⟨document, source, accepted⟩, stays⟩
          have known := getElem?_made host settings level log labels
          have isFor := isFor_fresh settings .made labels
          have asks : request.settings (made host settings level log labels) _ =
              .ok (some settings) :=
            settings_of_requestOf requests isFor stays
          rcases perform_eq requests polls known with ⟨later, finish, tellsCode, performs⟩
          rw [performs] at told
          rcases Procedure.says_andThen.mp told with
            ⟨applying, reads, host₁, first, rfl, toldFirst, toldNext⟩
          cases first with
          | error failure => cases toldNext
          | ok value =>
              refine ⟨links, applying, reads, { made host settings level log labels with
                log := later }, host₁, _, (List.append_assoc ..).symm, ?_, ?_,
                ⟨_, known, isFor, ?_⟩, ⟨_, document, source, accepted⟩, toldFirst⟩
              · intro exchange among
                rcases (finds.isChecked applies).areLinks exchange among with ⟨device, _, words⟩
                rw [words]
                rfl
              · intro exchange among
                exact isQuestion_of_isListing
                  ((issues_test _ tellsCode _).areAllowed toldNext exchange among)
              · rw [settings_of_log, asks]

/-- The machine after a run that succeeds is as its request has left it. -/
theorem exists_isMade_of_run {ρ : Type} {words : List String} {script : FailureScript}
    {reader : Runner ρ} {machine : Machine} {memory : ρ}
    (isRead : Arguments.read words = .ok invocation)
    (requests : requestOf invocation.command = some request)
    (loads : settingsOn invocation host = .ok settings) :
    let ending := (run polls words).run (recording (station script reader))
      ((machine, memory), []) host
    Relay.exitCode ending.2.2 = 0 → ∃ applying host₁ host₂ id,
      IsMade request settings host₁ host₂ id applying ∧
        (replying script).Answers machine applying ending.1.1.1 := by
  intro ending succeeded
  have applies := isApplying_of_requestOf requests
  rcases exists_isInvoked isRead (isOther_of_isApplying applies) polls (station script reader)
    (machine, memory) host with ⟨result, isResult, invoked, answers⟩
  have isEnding : ending.2.2 = endingOf result := isResult
  rw [isEnding] at succeeded
  rcases exists_isMade requests loads invoked succeeded with
    ⟨links, applying, reads, host₁, host₂, id, parts, areLinks, areReads, isMade⟩
  refine ⟨applying, host₁, host₂, id, isMade, ?_⟩
  rw [parts] at answers
  rcases Runner.answers_append.mp answers with ⟨⟨machine₂, memory₂⟩, answersFirst, answersLast⟩
  rcases Runner.answers_append.mp answersFirst with ⟨⟨machine₁, memory₁⟩, asked, applied⟩
  have same : machine₁ = machine := eq_of_questions asked areLinks
  have sameLater : ending.1.1.1 = machine₂ := eq_of_questions answersLast areReads
  rw [sameLater, ← same]
  exact answers_of_changes applied
    ((AsksNothing.perform request id host₁).areAllowed isMade.told)

end Runs

/-! ## Moving -/

/-- Settings that are started, and others that replace them in their file and are reloaded: nothing
but what the later ones compile to is left exactly where both have the same device and chain.
Otherwise the hook of the first ones is still there. -/
theorem holdsOnly_iff_of_moves {ρ : Type} {started reloaded : List String}
    {first second : Invocation} {host meanwhile : Host} {before after : Settings}
    {script : FailureScript} {reader : Runner ρ} {machine : Machine} {memory : ρ} {polls : Nat}
    (isStart : Arguments.read started = .ok first) (starts : first.command = .start)
    (isReload : Arguments.read reloaded = .ok second) (reloads : second.command = .reload)
    (loads : settingsOn first host = .ok before)
    (loadsLater : settingsOn second meanwhile = .ok after)
    (free : machine.kernel.IsFree before.chain) (freeLater : machine.kernel.IsFree after.chain) :
    let ending := (run polls started).run (recording (station script reader))
      ((machine, memory), []) host
    let final := (run polls reloaded).run (recording (station script reader))
      (ending.1.1, []) meanwhile
    let isSame := before.device = after.device ∧ before.chain = after.chain
    Relay.exitCode ending.2.2 = 0 → Relay.exitCode final.2.2 = 0 →
      (HoldsOnly after machine.kernel final.1.1.1.kernel ↔ isSame) ∧
        (¬ isSame → (before.device, before.chain) ∈ final.1.1.1.kernel.hooks) := by
  intro ending final isSame succeeded succeededLater
  have requests : requestOf first.command = some .start := by rw [starts]; rfl
  have requestsLater : requestOf second.command = some (.reload none) := by rw [reloads]; rfl
  rcases exists_isMade_of_run isStart requests loads succeeded with
    ⟨applying, host₁, host₂, id, isMade, answers⟩
  rcases exists_isMade_of_run isReload requestsLater loadsLater succeededLater with
    ⟨applyingLater, host₃, host₄, idLater, isMadeLater, answersLater⟩
  rcases isMade.known with ⟨session, known, isFor, asks⟩
  rcases isMade.accepted with ⟨_, _, _, accepted⟩
  rcases isMadeLater.known with ⟨sessionLater, knownLater, isForLater, asksLater⟩
  rcases isMadeLater.accepted with ⟨_, _, _, acceptedLater⟩
  have holds : HoldsOnly before machine.kernel ending.1.1.1.kernel :=
    Request.holdsOnly_of_says known isFor asks accepted isMade.told answers free (.refl _)
      free.holding_self.symm
  have stays (differs : ¬ isSame) : (before.device, before.chain) ∈ final.1.1.1.kernel.hooks :=
    Request.mem_hooks_of_says knownLater isForLater asksLater acceptedLater isMadeLater.told
      answersLater differs holds.hooked
  refine ⟨⟨fun holdsLater => ?_, ?_⟩, stays⟩
  · by_contra differs
    exact differs (holdsLater.eq_of_hooked (free.unhooked _) (stays differs))
  · rintro ⟨sameDevice, sameChain⟩
    rcases holds with ⟨_, base, part, _, rest, _, isKernel⟩
    rw [sameDevice, sameChain] at isKernel
    exact Request.holdsOnly_of_says knownLater isForLater asksLater acceptedLater
      isMadeLater.told answersLater freeLater rest isKernel

/-! ### One file -/

/-- A host with a text in its settings file. -/
def hostWith (text : String) : Host :=
  { Relay.hostOf (.mapping []) with
    isPrivileged := true
    tools := ["tc", "iptables", "ip"]
    files := Relay.filesIn (.record [("files", .record [("uplink.yaml", .text text)])]) }

/-- Settings for one class, on the standard device. -/
def plainText : String := "{reserved: [], tiers: []}"

/-- The same, on another device. -/
def movedText : String := "{reserved: [], tiers: [], interfaces: {wan: eth1}}"

/-- Shows what the listings for one class should show. -/
def showing : Runner Unit := fun _ _ =>
  ((), .finished 0 (some "qdisc hfsc 1:\nclass hfsc\nclass hfsc\nMARK") none)

/-- A start on an untouched kernel, with the text that is in the settings file. -/
def startedWith (text : String) :=
  (run 0 ["-c", "uplink.yaml", "start"]).run (recording (station .none showing))
    ((⟨.untouched, 0, none⟩, ()), []) (hostWith text)

/-- A reload after a start, once there is another text in the file. -/
def reloadedWith (text other : String) :=
  (run 0 ["-c", "uplink.yaml", "reload"]).run (recording (station .none showing))
    ((startedWith text).1.1, []) (hostWith other)

theorem finds_started : findsSettings ["-c", "uplink.yaml", "start"] .start (hostWith plainText)
    (fun settings => decide (settings.device = "eth0" ∧ settings.chain = "QOS_MARK")) = true := by
  decide +kernel

theorem isFree_untouched_of_name {settings : Settings} (isName : settings.chain = "QOS_MARK") :
    Kernel.untouched.IsFree settings.chain :=
  isFree_untouched (by rw [isName]; decide)

/-- After a reload of the same file the kernel holds what it says. -/
theorem holdsOnly_of_same_file :
    ∃ settings, Relay.exitCode (startedWith plainText).2.2 = 0 ∧
      Relay.exitCode (reloadedWith plainText plainText).2.2 = 0 ∧
        HoldsOnly settings .untouched (reloadedWith plainText plainText).1.1.1.kernel := by
  have finds : findsSettings ["-c", "uplink.yaml", "reload"] .reload (hostWith plainText)
      (fun settings => decide (settings.device = "eth0" ∧ settings.chain = "QOS_MARK")) = true := by
    decide +kernel
  rcases exists_of_findsSettings finds_started with
    ⟨first, before, isStart, starts, loads, isBefore⟩
  rcases exists_of_findsSettings finds with ⟨second, after, isReload, reloads, loadsLater, isAfter⟩
  rw [decide_eq_true_eq] at isBefore isAfter
  have exits : Relay.exitCode (startedWith plainText).2.2 = 0 ∧
      Relay.exitCode (reloadedWith plainText plainText).2.2 = 0 := by
    decide +kernel
  have moves := @holdsOnly_iff_of_moves Unit _ _ _ _ _ _ _ _ .none showing ⟨.untouched, 0, none⟩
    () 0 isStart starts isReload reloads loads loadsLater (isFree_untouched_of_name isBefore.2)
    (isFree_untouched_of_name isAfter.2) exits.1 exits.2
  refine ⟨after, exits.1, exits.2, moves.1.mpr ⟨?_, ?_⟩⟩
  · rw [isBefore.1, isAfter.1]
  · rw [isBefore.2, isAfter.2]

/-- After a move to another device the tree and the hook of the old one are still there. -/
theorem exists_not_holdsOnly_of_moved_file :
    ∃ invocation settings, Arguments.read ["-c", "uplink.yaml", "reload"] = .ok invocation ∧
      settingsOn invocation (hostWith movedText) = .ok settings ∧
        Relay.exitCode (startedWith plainText).2.2 = 0 ∧
          Relay.exitCode (reloadedWith plainText movedText).2.2 = 0 ∧
            settings.device = "eth1" ∧
              ((reloadedWith plainText movedText).1.1.1.kernel.trees "eth0").isSome = true ∧
                ("eth0", "QOS_MARK") ∈ (reloadedWith plainText movedText).1.1.1.kernel.hooks ∧
                  ¬ HoldsOnly settings .untouched
                    (reloadedWith plainText movedText).1.1.1.kernel := by
  have finds : findsSettings ["-c", "uplink.yaml", "reload"] .reload (hostWith movedText)
      (fun settings => decide (settings.device = "eth1")) = true := by
    decide +kernel
  rcases exists_of_findsSettings finds with ⟨invocation, settings, isReload, _, loads, isDevice⟩
  rw [decide_eq_true_eq] at isDevice
  have evaluated : Relay.exitCode (startedWith plainText).2.2 = 0 ∧
      Relay.exitCode (reloadedWith plainText movedText).2.2 = 0 ∧
        ((reloadedWith plainText movedText).1.1.1.kernel.trees "eth0").isSome = true ∧
          ("eth0", "QOS_MARK") ∈ (reloadedWith plainText movedText).1.1.1.kernel.hooks := by
    decide +kernel
  rcases evaluated with ⟨started, reloaded, isShaped, hooked⟩
  refine ⟨invocation, settings, isReload, loads, started, reloaded, isDevice, isShaped, hooked, ?_⟩
  intro holds
  have same := (holds.eq_of_hooked List.not_mem_nil hooked).1
  rw [isDevice] at same
  exact absurd same (by decide)

end Console

end UplinkShaper
