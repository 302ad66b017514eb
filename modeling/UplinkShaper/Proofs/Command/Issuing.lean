import UplinkShaper.Proofs.Command.Transcripts

/-!
What operations issue. Some commands only ask something; the others may change the kernel. At an
interruption that is not handled an operation breaks off, and hands the interruption on.
-/

namespace UplinkShaper

/-- Whether a command asks for a link, for counters or for a listing, and changes nothing. -/
def isQuestion : List String → Bool
  | _ :: "-t" :: _ :: option :: _ => option == "-L"
  | _ :: "-s" :: _ => true
  | _ :: _ :: "show" :: _ => true
  | _ => false

/-! ## Procedures -/

namespace Procedure

variable {σ α β : Type} {allowed : List String → Prop}

/-- A procedure only issues what is allowed, and breaks off where it is interrupted. -/
def Issues (allowed : List String → Prop) : Procedure σ α → Prop
  | .done _ _ => True
  | .command _ words resume => allowed words ∧ ∀ state reply,
      (reply.isHandled = true → (resume state reply).Issues allowed) ∧
        (reply.isHandled = false → ∃ last interruption,
          resume state reply = .done last (.error (.interrupted interruption)))

/-- What follows issues what is allowed too, and hands interruptions on. -/
theorem Issues.andThen {first : Procedure σ α} {next : σ → Except Failure α → Procedure σ β}
    (issues : first.Issues allowed) (goesOn : ∀ state result, (next state result).Issues allowed)
    (handsOn : ∀ state interruption, ∃ last later,
      next state (.error (.interrupted interruption)) = .done last (.error (.interrupted later))) :
    (first.andThen next).Issues allowed := by
  induction first with
  | done state result => exact goesOn state result
  | command state words resume induction =>
      refine ⟨issues.1, fun state' reply => ⟨fun handled => ?_, fun unhandled => ?_⟩⟩
      · exact induction state' reply ((issues.2 state' reply).1 handled)
      · rcases (issues.2 state' reply).2 unhandled with ⟨last, interruption, breaks⟩
        dsimp only
        rw [breaks, done_andThen]
        exact handsOn last interruption

theorem Issues.weaken {procedure : Procedure σ α} {more : List String → Prop}
    (issues : procedure.Issues allowed) (weaker : ∀ words, allowed words → more words) :
    procedure.Issues more := by
  induction procedure with
  | done => trivial
  | command state words resume induction =>
      refine ⟨weaker words issues.1, fun state' reply => ⟨fun handled => ?_, ?_⟩⟩
      · exact induction state' reply ((issues.2 state' reply).1 handled)
      · exact (issues.2 state' reply).2

variable {procedure : Procedure σ α} {exchanges : List Exchange} {state : σ}
  {result : Except Failure α}

theorem Issues.areAllowed (issues : procedure.Issues allowed)
    (told : procedure.Says exchanges state result) :
    ∀ exchange ∈ exchanges, allowed exchange.words := by
  induction told with
  | done => exact List.forall_mem_nil _
  | @command _ _ resume reply _ _ _ told induction =>
      refine List.forall_mem_cons.mpr ⟨issues.1, ?_⟩
      cases handled : reply.isHandled with
      | true => exact induction ((issues.2 _ reply).1 handled)
      | false =>
          rcases (issues.2 _ reply).2 handled with ⟨_, _, breaks⟩
          rw [breaks] at told
          cases told
          exact List.forall_mem_nil _

/-- Only an interruption ends a transcript in which something is not handled. -/
theorem Issues.areHandled_or (issues : procedure.Issues allowed)
    (told : procedure.Says exchanges state result) :
    AreHandled exchanges ∨ ∃ interruption, result = .error (.interrupted interruption) := by
  induction told with
  | done => exact .inl (List.forall_mem_nil _)
  | @command _ _ resume reply _ _ _ told induction =>
      cases handled : reply.isHandled with
      | true =>
          rcases induction ((issues.2 _ reply).1 handled) with areHandled | interrupted
          · exact .inl (List.forall_mem_cons.mpr ⟨handled, areHandled⟩)
          · exact .inr interrupted
      | false =>
          rcases (issues.2 _ reply).2 handled with ⟨_, interruption, breaks⟩
          rw [breaks] at told
          cases told
          exact .inr ⟨interruption, rfl⟩

end Procedure

/-! ## Operations -/

namespace Operation

def Issues (allowed : List String → Prop) (operation : HostOperation α) : Prop :=
  ∀ host, (operation host).Issues allowed

namespace Issues

variable {α β : Type} {allowed : List String → Prop}

theorem tells {operation : HostOperation α} (issues : Issues allowed operation) (host : Host) :
    operation.Tells host fun exchanges _ _ => ∀ exchange ∈ exchanges, allowed exchange.words :=
  fun _ _ _ told => (issues host).areAllowed told

theorem ofResult (result : Except Failure α) :
    Issues allowed (Operation.ofResult result : HostOperation α) :=
  fun _ => trivial

theorem of_quiet {operation : HostOperation α} (quiet : operation.IsQuiet) :
    Issues allowed operation := by
  intro host
  rcases quiet.exists_done host with ⟨_, _, done, _⟩
  rw [done]
  trivial

theorem modify (change : Host → Host) :
    Issues allowed (modify change : HostOperation Unit) :=
  fun _ => trivial

theorem andThen {first : HostOperation α} {next : Except Failure α → HostOperation β}
    (issues : Issues allowed first) (goesOn : ∀ result, Issues allowed (next result))
    (handsOn : ∀ host interruption, ∃ last later,
      next (.error (.interrupted interruption)) host = .done last (.error (.interrupted later))) :
    Issues allowed (first.andThen next) :=
  fun host => (issues host).andThen (fun state result => goesOn result state) handsOn

theorem bind {first : HostOperation α} {next : α → HostOperation β} (issues : Issues allowed first)
    (goesOn : ∀ value, Issues allowed (next value)) : Issues allowed (first >>= next) := by
  refine issues.andThen (fun result => ?_) fun host interruption => ⟨host, interruption, rfl⟩
  cases result with
  | ok value => exact goesOn value
  | error failure => exact ofResult _

/-- A handler of other failures hands interruptions on. -/
theorem tryCatch {body : HostOperation α} {handle : Failure → HostOperation α}
    (issues : Issues allowed body) (goesOn : ∀ failure, Issues allowed (handle failure))
    (handsOn : ∀ host interruption, ∃ last later, handle (.interrupted interruption) host =
      .done last (.error (.interrupted later))) :
    Issues allowed (tryCatch body handle) := by
  refine issues.andThen (fun result => ?_) handsOn
  cases result with
  | ok value => exact ofResult _
  | error failure => exact goesOn failure

theorem weaken {operation : HostOperation α} {more : List String → Prop}
    (issues : Issues allowed operation) (weaker : ∀ words, allowed words → more words) :
    Issues more operation :=
  fun host => (issues host).weaken weaker

theorem mapM {items : List α} {next : α → HostOperation β}
    (issues : ∀ item ∈ items, Issues allowed (next item)) : Issues allowed (items.mapM next) := by
  induction items with
  | nil => exact ofResult _
  | cons item rest induction =>
      rcases List.forall_mem_cons.mp issues with ⟨first, others⟩
      rw [List.mapM_cons]
      exact first.bind fun _ => (induction others).bind fun _ => ofResult _

/-! ### Commands of the backends -/

theorem record (shown : LogRecord) : Issues allowed (Host.record shown) :=
  of_quiet (Host.isQuiet_record shown)

theorem execute {words : List String} (isAllowed : allowed words) :
    Issues allowed (Host.execute words) := by
  refine fun host => ⟨isAllowed, fun state reply => ⟨fun _ => trivial, fun unhandled => ?_⟩⟩
  cases reply with
  | finished code output errors => cases unhandled
  | refused text => cases unhandled
  | interrupted interruption =>
      cases interruption with
      | subprocess text => cases unhandled
      | timeout text => cases unhandled
      | runtime text => exact ⟨state, _, rfl⟩
      | keyboard => exact ⟨state, _, rfl⟩

theorem change {words : List String} (isAllowed : allowed words) :
    Issues allowed (Host.change words) := by
  refine (execute isAllowed).bind fun completion => ?_
  cases completion.isSuccess with
  | true => exact ofResult _
  | false => exact ofResult _

theorem discard {words : List String} (isAllowed : allowed words) :
    Issues allowed (Host.discard words) := by
  refine (execute isAllowed).bind fun completion => ?_
  cases completion.isSuccess with
  | true => exact ofResult _
  | false => exact (record _).bind fun _ => ofResult _

theorem list {words : List String} (isAllowed : allowed words) :
    Issues allowed (Host.list words) := by
  refine (execute isAllowed).bind fun completion => ?_
  cases completion.isSuccess with
  | true => exact ofResult _
  | false => exact ofResult _

end Issues

/-- An operation that changes things and asks nothing. -/
abbrev AsksNothing (operation : HostOperation α) : Prop :=
  operation.Issues fun words => isQuestion words = false

end Operation

end UplinkShaper
