import UplinkShaper.Proofs.Command.Guards
import UplinkShaper.Proofs.Command.Runners

/-!
Transcripts: everything a procedure told and hears, from its beginning to its end, while nobody
else is around. A run with a runner has a transcript in which the runner gives the replies, and
what holds of all transcripts holds of all runs.
-/

namespace UplinkShaper

open Procedure

/-! ## Transcripts of procedures -/

namespace Procedure

variable {σ α β : Type}

/-- The exchanges of a procedure, with the state and the result that it ends with. -/
inductive Says : Procedure σ α → List Exchange → σ → Except Failure α → Prop
  | done {state result} : Says (.done state result) [] state result
  | command {state words resume reply exchanges state' result} :
      Says (resume state reply) exchanges state' result →
        Says (.command state words resume) (⟨words, reply⟩ :: exchanges) state' result

variable {first procedure : Procedure σ α} {next : σ → Except Failure α → Procedure σ β}
  {exchanges : List Exchange} {state : σ} {result : Except Failure α}

/-- A transcript of one procedure after another is in two parts. -/
theorem says_andThen {last : σ} {outcome : Except Failure β} :
    (first.andThen next).Says exchanges last outcome ↔
      ∃ before later state result, exchanges = before ++ later ∧ first.Says before state result ∧
        (next state result).Says later last outcome := by
  constructor
  · intro told
    induction first generalizing exchanges with
    | done state result => exact ⟨[], exchanges, state, result, rfl, .done, told⟩
    | command state words resume induction =>
        cases told with
        | @command _ _ _ reply rest _ _ told =>
            rcases induction state reply told with ⟨before, later, _, _, rfl, toldFirst, toldNext⟩
            exact ⟨_ :: before, later, _, _, rfl, .command toldFirst, toldNext⟩
  · rintro ⟨before, later, state, result, rfl, toldFirst, toldNext⟩
    induction toldFirst with
    | done => exact toldNext
    | command _ induction => exact .command (induction toldNext)

/-- What is said and heard decides how a procedure ends. -/
theorem Says.unique {state' : σ} {result' : Except Failure α}
    (told : first.Says exchanges state result) (toldToo : first.Says exchanges state' result') :
    state' = state ∧ result' = result := by
  induction told with
  | done =>
      cases toldToo
      exact ⟨rfl, rfl⟩
  | command _ induction =>
      cases toldToo with
      | command toldToo => exact induction toldToo

end Procedure

/-! ## Replies of runners -/

namespace Runner

variable {ρ : Type} {runner : Runner ρ} {memory last : ρ} {before later : List Exchange}

/-- A runner gives the replies in a list of exchanges, and has another memory afterwards. -/
def Answers (runner : Runner ρ) (memory : ρ) : List Exchange → ρ → Prop
  | [], last => last = memory
  | exchange :: rest, last =>
      (runner memory exchange.words).2 = exchange.reply ∧
        runner.Answers (runner memory exchange.words).1 rest last

theorem answers_append : runner.Answers memory (before ++ later) last ↔
    ∃ middle, runner.Answers memory before middle ∧ runner.Answers middle later last := by
  induction before generalizing memory with
  | nil =>
      constructor
      · exact fun answers => ⟨memory, rfl, answers⟩
      · rintro ⟨_, rfl, answers⟩
        exact answers
  | cons exchange rest induction =>
      constructor
      · rintro ⟨replied, answers⟩
        rcases induction.mp answers with ⟨middle, before, later⟩
        exact ⟨middle, ⟨replied, before⟩, later⟩
      · rintro ⟨middle, ⟨replied, before⟩, later⟩
        exact ⟨replied, induction.mpr ⟨middle, before, later⟩⟩

/-- What holds of all replies of a runner holds in what it answers. -/
theorem Answers.forall {holds : Exchange → Prop}
    (each : ∀ memory words, holds ⟨words, (runner memory words).2⟩)
    (answers : runner.Answers memory later last) : ∀ exchange ∈ later, holds exchange := by
  induction later generalizing memory with
  | nil => exact List.forall_mem_nil _
  | cons exchange rest induction =>
      refine List.forall_mem_cons.mpr ⟨?_, induction answers.2⟩
      have held := each memory exchange.words
      rwa [answers.1] at held

/-- Gives replies that are known in advance, one after another. -/
def replaying : Runner (List Reply)
  | [], _ => ([], .refused "")
  | reply :: rest, _ => (rest, reply)

theorem mem_of_answers_replaying {replies rest : List Reply} {exchanges : List Exchange}
    (answers : replaying.Answers replies exchanges rest) :
    ∀ exchange ∈ exchanges, exchange.reply ∈ replies ∨ exchange.reply = .refused "" := by
  induction exchanges generalizing replies with
  | nil => exact List.forall_mem_nil _
  | cons exchange others induction =>
      rcases answers with ⟨replied, answers⟩
      cases replies with
      | nil => exact List.forall_mem_cons.mpr ⟨.inr replied.symm, induction answers⟩
      | cons reply later =>
          refine List.forall_mem_cons.mpr ⟨.inl (replied ▸ List.mem_cons_self ..), ?_⟩
          exact fun other member => (induction answers other member).imp_left
            (List.mem_cons_of_mem reply)

end Runner

/-! ## Transcripts of runs -/

namespace Procedure

variable {α : Type} {procedure : Procedure Host α} {ρ : Type} {memory last : ρ}
  {exchanges : List Exchange} {host : Host} {result : Except Failure α}

/-- A run with a runner has a transcript. -/
theorem says_run (procedure : Procedure Host α) (runner : Runner ρ) (memory : ρ)
    (recorded : List Exchange) :
    let ending := procedure.run (recording runner) (memory, recorded)
    ∃ exchanges, ending.1.2 = recorded ++ exchanges ∧
      procedure.Says exchanges ending.2.1 ending.2.2 ∧
        runner.Answers memory exchanges ending.1.1 := by
  induction procedure generalizing memory recorded with
  | done state result => exact ⟨[], (List.append_nil recorded).symm, .done, rfl⟩
  | command state words resume induction =>
      rcases induction state (runner memory words).2 (runner memory words).1
        (recorded ++ [⟨words, (runner memory words).2⟩]) with ⟨exchanges, written, told, answers⟩
      refine ⟨⟨words, (runner memory words).2⟩ :: exchanges, ?_, .command told, rfl, answers⟩
      exact written.trans (List.append_assoc ..)

/-- Whoever gives the replies of a transcript, it is that of the run. -/
theorem Says.run {runner : Runner ρ} (told : procedure.Says exchanges host result)
    (answers : runner.Answers memory exchanges last) (recorded : List Exchange) :
    procedure.run (recording runner) (memory, recorded) =
      ((last, recorded ++ exchanges), host, result) := by
  induction told generalizing memory recorded with
  | done =>
      cases answers
      rw [List.append_nil]
      rfl
  | @command state words resume reply rest _ _ _ induction =>
      rcases answers with ⟨replied, answers⟩
      have goesOn := induction answers (recorded ++ [⟨words, reply⟩])
      dsimp only at replied goesOn
      simp only [Procedure.run, recording]
      rw [replied, goesOn, List.append_assoc]
      rfl

theorem Says.run_undisturbed {runner : Runner ρ} (told : procedure.Says exchanges host result)
    (answers : runner.Answers memory exchanges last) :
    procedure.run (undisturbed runner) memory = (last, host, result) := by
  induction told generalizing memory with
  | done =>
      cases answers
      rfl
  | @command state words resume reply rest _ _ _ induction =>
      rcases answers with ⟨replied, answers⟩
      have goesOn := induction answers
      dsimp only at replied goesOn
      simp only [Procedure.run, undisturbed]
      rw [replied, goesOn]

end Procedure

/-- Exchanges at which a program goes on. -/
def AreHandled (exchanges : List Exchange) : Prop :=
  ∀ exchange ∈ exchanges, exchange.reply.isHandled = true

theorem areHandled_append {before later : List Exchange} :
    AreHandled (before ++ later) ↔ AreHandled before ∧ AreHandled later :=
  List.forall_mem_append

/-! ## Transcripts of operations -/

namespace Operation

variable {α β : Type} {host : Host}

/-- Something holds of all transcripts of an operation. -/
def Tells (host : Host) (operation : HostOperation α)
    (after : List Exchange → Host → Except Failure α → Prop) : Prop :=
  ∀ exchanges host' result, (operation host).Says exchanges host' result →
    after exchanges host' result

theorem Tells.weaken {operation : HostOperation α}
    {middle after : List Exchange → Host → Except Failure α → Prop}
    (tells : operation.Tells host middle)
    (weaker : ∀ exchanges host' result, middle exchanges host' result →
      after exchanges host' result) : operation.Tells host after :=
  fun exchanges host' result told => weaker _ _ _ (tells exchanges host' result told)

theorem Tells.and {operation : HostOperation α}
    {left right : List Exchange → Host → Except Failure α → Prop}
    (tells : operation.Tells host left) (tellsToo : operation.Tells host right) :
    operation.Tells host fun exchanges host' result =>
      left exchanges host' result ∧ right exchanges host' result :=
  fun _ _ _ told => ⟨tells _ _ _ told, tellsToo _ _ _ told⟩

theorem tells_andThen {first : HostOperation α} {next : Except Failure α → HostOperation β}
    {after : List Exchange → Host → Except Failure β → Prop} :
    (first.andThen next).Tells host after ↔
      first.Tells host fun exchanges host' result =>
        (next result).Tells host' fun more => after (exchanges ++ more) := by
  constructor
  · intro tells before host' result toldFirst later last outcome toldNext
    exact tells _ _ _ (says_andThen.mpr ⟨before, later, _, _, rfl, toldFirst, toldNext⟩)
  · intro tells exchanges last outcome told
    rcases says_andThen.mp told with ⟨before, later, _, _, rfl, toldFirst, toldNext⟩
    exact tells _ _ _ toldFirst _ _ _ toldNext

theorem tells_of_done {operation : HostOperation α} {host' : Host} {result : Except Failure α}
    {after : List Exchange → Host → Except Failure α → Prop}
    (done : operation host = .done host' result) :
    operation.Tells host after ↔ after [] host' result := by
  constructor
  · exact fun tells => tells _ _ _ (done ▸ .done)
  · intro holds exchanges _ _ told
    rw [done] at told
    cases told
    exact holds

theorem Tells.bind {first : HostOperation α} {next : α → HostOperation β}
    {middle : List Exchange → Host → Except Failure α → Prop}
    {after : List Exchange → Host → Except Failure β → Prop} (tells : first.Tells host middle)
    (goesOn : ∀ exchanges host' value, middle exchanges host' (.ok value) →
      (next value).Tells host' fun more => after (exchanges ++ more))
    (fails : ∀ exchanges host' failure, middle exchanges host' (.error failure) →
      after exchanges host' (.error failure)) : (first >>= next).Tells host after := by
  refine tells_andThen.mpr (tells.weaken fun exchanges host' result holds => ?_)
  cases result with
  | ok value => exact goesOn exchanges host' value holds
  | error failure =>
      refine (tells_of_done rfl).mpr ?_
      rw [List.append_nil]
      exact fails exchanges host' failure holds

theorem Tells.tryCatch {body : HostOperation α} {handle : Failure → HostOperation α}
    {middle after : List Exchange → Host → Except Failure α → Prop}
    (tells : body.Tells host middle)
    (succeeds : ∀ exchanges host' value, middle exchanges host' (.ok value) →
      after exchanges host' (.ok value))
    (fails : ∀ exchanges host' failure, middle exchanges host' (.error failure) →
      (handle failure).Tells host' fun more => after (exchanges ++ more)) :
    (tryCatch body handle).Tells host after := by
  refine tells_andThen.mpr (tells.weaken fun exchanges host' result holds => ?_)
  cases result with
  | ok value =>
      refine (tells_of_done rfl).mpr ?_
      rw [List.append_nil]
      exact succeeds exchanges host' value holds
  | error failure => exact fails exchanges host' failure holds

/-- What follows a part without commands. -/
theorem tells_bind_of_ok {first : HostOperation α} {next : α → HostOperation β} {host' : Host}
    {value : α} {after : List Exchange → Host → Except Failure β → Prop}
    (done : first host = .done host' (.ok value)) :
    (first >>= next).Tells host after ↔ (next value).Tells host' after := by
  simp only [Tells, bind_of_ok done]

theorem tells_command (words : List String) :
    (command words : HostOperation Reply).Tells host fun exchanges host' result =>
      ∃ reply, exchanges = [⟨words, reply⟩] ∧ host' = host ∧ result = .ok reply := by
  intro exchanges host' result told
  cases told with
  | @command _ _ _ reply _ _ _ told =>
      cases told
      exact ⟨reply, rfl, rfl, rfl⟩

/-- An operation without commands has an empty transcript. -/
theorem IsQuiet.tells {operation : HostOperation α} (quiet : operation.IsQuiet) :
    operation.Tells host fun exchanges host' _ =>
      exchanges = [] ∧ host'.sessions = host.sessions := by
  rcases quiet.exists_done host with ⟨host', result, done, same⟩
  exact (tells_of_done done).mpr ⟨rfl, same⟩

/-- What holds with every runner that interrupts nothing holds of transcripts without
interruptions. -/
theorem tells_of_ends {operation : HostOperation α}
    {after : List Exchange → Host → Except Failure α → Prop}
    (ends : ∀ (runner : Runner (List Reply)) memory, runner.IsHandled →
      operation.Ends (recording runner) (memory, []) host fun memory' host' result =>
        after memory'.2 host' result) :
    operation.Tells host fun exchanges host' result =>
      AreHandled exchanges → after exchanges host' result := by
  intro exchanges host' result told handled
  -- Replies that are not handled are never given, as the transcript has none.
  let runner : Runner (List Reply) := fun replies words =>
    let reply := (Runner.replaying replies words).2
    ((Runner.replaying replies words).1, if reply.isHandled then reply else .refused "")
  have isHandled : runner.IsHandled := by
    intro replies words
    dsimp only [runner]
    split
    case isTrue handled => exact handled
    case isFalse => rfl
  have answers : runner.Answers (exchanges.map (·.reply)) exchanges [] := by
    clear told
    induction exchanges with
    | nil => rfl
    | cons exchange rest induction =>
        rcases List.forall_mem_cons.mp handled with ⟨first, others⟩
        exact ⟨if_pos first, induction others⟩
  have ended := ends runner (exchanges.map (·.reply)) isHandled
  rwa [Ends, Operation.run, told.run answers []] at ended

end Operation

end UplinkShaper
