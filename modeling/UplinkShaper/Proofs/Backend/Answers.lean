import UplinkShaper.Proofs.Backend.Parts
import UplinkShaper.Proofs.Command.Quiet

/-!
A machine that answers commands with what its kernel makes of them. A script may let any
change fail, for whatever reason; what removes something is never refused but where there
is nothing to remove.
-/

namespace UplinkShaper

open Kernel

/-- A reply that counts as the failure of a command. -/
def Reply.Fails (reply : Reply) : Prop :=
  ∀ words, ∃ completion, Completion.ofReply words reply = .ok completion ∧
    completion.isSuccess = false

/-- Which changes fail, by the number of the command, and the replies to them. -/
structure FailureScript where
  reply? : Nat → Option Reply
  fails : ∀ count, ∀ reply ∈ reply? count, reply.Fails

namespace FailureScript

/-- No change fails that could take effect. -/
def none : FailureScript where
  reply? _ := Option.none
  fails _ _ impossible := nomatch impossible

/-- Some change can fail that could take effect. -/
def MayFail (script : FailureScript) : Prop :=
  ∃ count, (script.reply? count).isSome

theorem not_mayFail_none : ¬ none.MayFail := by
  rintro ⟨_, impossible⟩
  cases impossible

end FailureScript

structure Machine where
  kernel : Kernel
  /-- How many commands were answered. -/
  count : Nat
  /-- What the last command asked. -/
  previous : Option Command

/-- Whether a command is a change and no removal. A chain is emptied in a change right
after its creation was tried, and when it is removed otherwise. -/
def Kernel.Command.isChange (previous : Option Command) : Command → Bool
  | .addRoot .. | .addClass .. | .addQueue .. | .addFilter .. | .append .. | .hook .. => true
  | .empty chain => previous = some (.create chain)
  | _ => false

namespace Machine

/-- The reply to a command that cannot take effect. -/
def refusal : Reply := .finished 1 (some "") (some "")

def success : Reply := .finished 0 (some "") (some "")

/-- The reply to a command, and the kernel after it. -/
def reply (script : FailureScript) (machine : Machine) (command : Command) : Kernel × Reply :=
  match (if command.isChange machine.previous then script.reply? machine.count else none),
      machine.kernel.after command with
  | some reply, _ => (machine.kernel, reply)
  | none, none => (machine.kernel, refusal)
  | none, some kernel => (kernel, success)

/-- What cannot be read is refused. -/
def answer (script : FailureScript) : Procedure.Responder Machine Host := fun machine host words =>
  let asked := Command.ofWords? words
  let replied := (asked.map (machine.reply script)).getD (machine.kernel, refusal)
  ({ kernel := replied.1, count := machine.count + 1, previous := asked }, host, replied.2)

variable {script : FailureScript} {machine : Machine} {host : Host}

theorem reply_of_after {command : Command} {next : Kernel}
    (effect : machine.kernel.after command = some next) :
    machine.reply script command = (next, success) ∨
      script.MayFail ∧
        ∃ failing, machine.reply script command = (machine.kernel, failing) ∧ failing.Fails := by
  simp only [reply]
  rw [effect]
  cases scripted : if command.isChange machine.previous then script.reply? machine.count
    else none with
  | none => exact .inl rfl
  | some failing =>
      have listed : script.reply? machine.count = some failing := by
        split at scripted
        · exact scripted
        · cases scripted
      exact .inr ⟨⟨machine.count, by rw [listed]; rfl⟩, failing, rfl,
        script.fails machine.count failing listed⟩

theorem reply_of_removal {command : Command}
    (removal : command.isChange machine.previous = false) :
    machine.reply script command =
      match machine.kernel.after command with
      | some next => (next, success)
      | none => (machine.kernel, refusal) := by
  simp only [reply]
  rw [removal]
  cases machine.kernel.after command with
  | none => rfl
  | some next => rfl

/-! ## Changes and removals -/

theorem ends_execute {responder : Procedure.Responder Machine Host} {words : List String}
    {after : Machine → Host → Except Failure Completion → Prop} :
    (Host.execute words).Ends responder machine host after ↔
      let answered := responder machine
        (host.logged (.debug ("Executing: " ++ shownWords words))) words
      after answered.1 answered.2.1 (Completion.ofReply words answered.2.2) :=
  Iff.rfl

theorem answer_of_asked {words : List String} {command : Command}
    (asked : Command.ofWords? words = some command) :
    answer script machine host words =
      ({ kernel := (machine.reply script command).1, count := machine.count + 1,
         previous := some command }, host, (machine.reply script command).2) := by
  simp [answer, asked]

/-- A command that was run: it succeeded with an effect or failed without one. -/
structure Ran (machine : Machine) (host : Host) (command : Command) (machine' : Machine)
    (host' : Host) (isSuccess : Bool) (next : Kernel) : Prop where
  sessions : host'.sessions = host.sessions
  previous : machine'.previous = some command
  kernel : machine'.kernel = if isSuccess then next else machine.kernel

theorem ends_execute_change {words : List String} {command : Command} {next : Kernel}
    (asked : Command.ofWords? words = some command)
    (effect : machine.kernel.after command = some next) :
    (Host.execute words).Ends (answer script) machine host fun machine' host' result =>
      ∃ completion, result = .ok completion ∧
        Ran machine host command machine' host' completion.isSuccess next ∧
          (completion.isSuccess = false → script.MayFail) := by
  rw [ends_execute, answer_of_asked asked]
  rcases reply_of_after effect with replied | ⟨mayFail, failing, replied, fails⟩
  · rw [replied]
    refine ⟨_, rfl, ⟨host.logged_sessions _, rfl, rfl⟩, ?_⟩
    intro impossible
    cases impossible
  · rw [replied]
    rcases fails words with ⟨completion, counted, failed⟩
    refine ⟨completion, counted, ⟨host.logged_sessions _, rfl, ?_⟩, fun _ => mayFail⟩
    rw [failed]
    rfl

theorem ends_execute_removal {words : List String} {command : Command}
    (asked : Command.ofWords? words = some command)
    (removal : command.isChange machine.previous = false) :
    (Host.execute words).Ends (answer script) machine host fun machine' host' result =>
      ∃ completion, result = .ok completion ∧
        completion.isSuccess = (machine.kernel.after command).isSome ∧
          Ran machine host command machine' host' true
            ((machine.kernel.after command).getD machine.kernel) := by
  rw [ends_execute, answer_of_asked asked, reply_of_removal removal]
  cases machine.kernel.after command with
  | none => exact ⟨_, rfl, rfl, host.logged_sessions _, rfl, rfl⟩
  | some next => exact ⟨_, rfl, rfl, host.logged_sessions _, rfl, rfl⟩

/-- A change that can take effect does so, or the script lets it fail and it changes
nothing. -/
theorem ends_change {words : List String} {command : Command} {next : Kernel}
    (asked : Command.ofWords? words = some command)
    (effect : machine.kernel.after command = some next) :
    (Host.change words).Ends (answer script) machine host fun machine' host' result =>
      ∃ isSuccess, Ran machine host command machine' host' isSuccess next ∧
        (isSuccess = true ∧ result = .ok () ∨
          isSuccess = false ∧ script.MayFail ∧ ∃ failure, result = .error (.apply failure)) := by
  apply (ends_execute_change asked effect).bind
  · rintro machine' host' completion ⟨_, ⟨⟩, ran, mayFail⟩
    cases succeeded : completion.isSuccess with
    | true =>
        rw [succeeded] at ran
        exact ⟨true, ran, .inl ⟨rfl, rfl⟩⟩
    | false =>
        rw [succeeded] at ran
        exact ⟨false, ran, .inr ⟨rfl, mayFail succeeded, _, rfl⟩⟩
  · rintro _ _ _ ⟨_, ⟨⟩, _⟩

/-- A removal takes effect if it can, and says whether it did. -/
theorem ends_discard {words : List String} {command : Command}
    (asked : Command.ofWords? words = some command)
    (removal : command.isChange machine.previous = false) :
    (Host.discard words).Ends (answer script) machine host fun machine' host' result =>
      Ran machine host command machine' host' true
          ((machine.kernel.after command).getD machine.kernel) ∧
        result = .ok (machine.kernel.after command).isSome := by
  apply (ends_execute_removal asked removal).bind
  · rintro machine' host' completion ⟨_, ⟨⟩, succeeded, ran⟩
    rw [← succeeded]
    cases completion.isSuccess with
    | true => exact ⟨ran, rfl⟩
    | false => exact ⟨⟨(host'.logged_sessions _).trans ran.sessions, ran.previous, ran.kernel⟩, rfl⟩
  · rintro _ _ _ ⟨_, ⟨⟩, _⟩

end Machine

end UplinkShaper
