import UplinkShaper.Proofs.Backend.Steps
import UplinkShaper.Proofs.Command.Runners

/-!
What plans and teardowns order, command by command, and how orders are carried out. A
required command has to succeed; what is only tried may fail; copies of the hook are removed
until none is left. Orders are carried out one after another, up to the first that fails.
-/

namespace UplinkShaper

open Operation

inductive Order
  | required (words : List String)
  | tried (words : List String)
  | unhook (marking : Marking)
  /-- A command that has no words, and why. -/
  | unwritable (failure : Failure)

namespace Order

def ofWords : Except Failure (List String) → Order
  | .ok words => .required words
  | .error failure => .unwritable failure

def isWritable : Order → Bool
  | .unwritable _ => false
  | _ => true

/-- Whether nothing can go wrong with an order. -/
def isHarmless : Order → Bool
  | .tried _ | .unhook _ => true
  | _ => false

end Order

def PlanStep.orders (backends : Backends) : PlanStep → List Order
  | .root capacity default =>
      [.required (backends.shaper.rootQueue default),
        .ofWords (backends.shaper.rootClass <$> Words.rate (.whole capacity.rate))]
  | .shapingClass id parent curve =>
      [.ofWords (backends.shaper.shapingClass id parent <$> Words.curve curve)]
  | .leafQueue id kind limit =>
      [.ofWords (backends.shaper.leafQueue id <$> Shaper.queueWords kind limit)]
  | .clearMarks =>
      [.tried backends.marking.create, .required backends.marking.empty,
        .unhook backends.marking]
  | .attachMarks => [.required backends.marking.attach]
  | .mark rule =>
      [.ofWords ((backends.marking.mark · rule.mark) <$> Marking.ruleWords rule)]
  | .logMarks => [.required backends.marking.logMarks]
  | .markFilter filter => [.required (backends.shaper.markFilter filter)]

namespace Backends

def orders (backends : Backends) (plan : Plan) : List Order :=
  plan.steps.flatMap (·.orders backends)

/-- Both queues of the device go, then the hook and the chain. -/
def teardownOrders (backends : Backends) : List Order :=
  [.tried backends.shaper.dropRoot, .tried backends.shaper.dropIngress,
    .unhook backends.marking, .tried backends.marking.empty, .tried backends.marking.remove]

theorem teardownOrders_harmless (backends : Backends) :
    ∀ order ∈ backends.teardownOrders, order.isHarmless = true := by
  simp [teardownOrders, Order.isHarmless]

end Backends

/-! ## Carrying out orders -/

/-- Copies of a hook are removed, at most so many, until there is none. -/
inductive Unhooks (marking : Marking) : Nat → List Exchange → Prop
  | enough : Unhooks marking 0 []
  | absent {count reply} : (⟨marking.detach, reply⟩ : Exchange).failure?.isSome →
      Unhooks marking (count + 1) [⟨marking.detach, reply⟩]
  | removed {count reply rest} : (⟨marking.detach, reply⟩ : Exchange).failure? = none →
      Unhooks marking count rest → Unhooks marking (count + 1) (⟨marking.detach, reply⟩ :: rest)

/-- The exchanges of orders, and what comes out. -/
inductive Runs : List Order → List Exchange → Except Failure Unit → Prop
  | nil : Runs [] [] (.ok ())
  | required {words reply rest exchanges result} :
      (⟨words, reply⟩ : Exchange).failure? = none → Runs rest exchanges result →
        Runs (.required words :: rest) (⟨words, reply⟩ :: exchanges) result
  | failed {words reply rest failure} : (⟨words, reply⟩ : Exchange).failure? = some failure →
      Runs (.required words :: rest) [⟨words, reply⟩] (.error (.apply failure))
  | tried {words reply rest exchanges result} : Runs rest exchanges result →
      Runs (.tried words :: rest) (⟨words, reply⟩ :: exchanges) result
  | unhook {marking copies rest exchanges result} :
      Unhooks marking Marking.largestHookCount copies → Runs rest exchanges result →
        Runs (.unhook marking :: rest) (copies ++ exchanges) result
  | unwritable {failure rest} : Runs (.unwritable failure :: rest) [] (.error failure)

namespace Runs

variable {orders later : List Order} {exchanges more : List Exchange}
  {result : Except Failure Unit}

theorem append (runs : Runs orders exchanges (.ok ())) (runsLater : Runs later more result) :
    Runs (orders ++ later) (exchanges ++ more) result := by
  generalize succeeded : (Except.ok () : Except Failure Unit) = outcome at runs
  induction runs with
  | nil => exact runsLater
  | required noFailure _ induction => exact .required noFailure (induction succeeded)
  | failed _ => cases succeeded
  | tried _ induction => exact .tried (induction succeeded)
  | unhook unhooks _ induction =>
      rw [List.append_assoc]
      exact .unhook unhooks (induction succeeded)
  | unwritable => cases succeeded

/-- What comes after a failure is not begun. -/
theorem append_of_error {failure : Failure} (runs : Runs orders exchanges (.error failure))
    (later : List Order) : Runs (orders ++ later) exchanges (.error failure) := by
  generalize failed : (Except.error failure : Except Failure Unit) = outcome at runs
  induction runs with
  | nil => cases failed
  | required noFailure _ induction => exact .required noFailure (induction failed)
  | failed isFailure => exact .failed isFailure
  | tried _ induction => exact .tried (induction failed)
  | unhook unhooks _ induction => exact .unhook unhooks (induction failed)
  | unwritable => exact .unwritable

theorem eq_ok_of_harmless (runs : Runs orders exchanges result)
    (harmless : ∀ order ∈ orders, order.isHarmless = true) : result = .ok () := by
  induction runs with
  | nil => rfl
  | required _ _ _ => cases harmless _ (List.mem_cons_self ..)
  | failed _ => cases harmless _ (List.mem_cons_self ..)
  | tried _ induction =>
      exact induction fun order member => harmless order (List.mem_cons_of_mem _ member)
  | unhook _ _ induction =>
      exact induction fun order member => harmless order (List.mem_cons_of_mem _ member)
  | unwritable => cases harmless _ (List.mem_cons_self ..)

/-- Where every order has words, only a command can fail. -/
theorem result_of_writable (runs : Runs orders exchanges result)
    (writable : ∀ order ∈ orders, order.isWritable = true) :
    result = .ok () ∨ ∃ failure, result = .error (.apply failure) := by
  induction runs with
  | nil => exact .inl rfl
  | failed _ => exact .inr ⟨_, rfl⟩
  | unwritable => cases writable _ (List.mem_cons_self ..)
  | required _ _ induction =>
      exact induction fun order member => writable order (List.mem_cons_of_mem _ member)
  | tried _ induction =>
      exact induction fun order member => writable order (List.mem_cons_of_mem _ member)
  | unhook _ _ induction =>
      exact induction fun order member => writable order (List.mem_cons_of_mem _ member)

theorem eq_ok_of_writable (runs : Runs orders exchanges result)
    (writable : ∀ order ∈ orders, order.isWritable = true)
    (noFailure : ∀ exchange ∈ exchanges, exchange.failure? = none) : result = .ok () := by
  induction runs with
  | nil => rfl
  | failed isFailure =>
      rw [noFailure _ (List.mem_cons_self ..)] at isFailure
      cases isFailure
  | unwritable => cases writable _ (List.mem_cons_self ..)
  | required _ _ induction =>
      exact induction (fun order member => writable order (List.mem_cons_of_mem _ member))
        fun exchange member => noFailure exchange (List.mem_cons_of_mem _ member)
  | tried _ induction =>
      exact induction (fun order member => writable order (List.mem_cons_of_mem _ member))
        fun exchange member => noFailure exchange (List.mem_cons_of_mem _ member)
  | unhook _ _ induction =>
      exact induction (fun order member => writable order (List.mem_cons_of_mem _ member))
        fun exchange member => noFailure exchange (List.mem_append_right _ member)

/-- Orders that are carried out have words. -/
theorem areWritable_of_ok (runs : Runs orders exchanges (.ok ())) :
    ∀ order ∈ orders, order.isWritable = true := by
  generalize succeeded : (Except.ok () : Except Failure Unit) = outcome at runs
  induction runs with
  | nil => exact List.forall_mem_nil _
  | required _ _ induction => exact List.forall_mem_cons.mpr ⟨rfl, induction succeeded⟩
  | failed _ => cases succeeded
  | tried _ induction => exact List.forall_mem_cons.mpr ⟨rfl, induction succeeded⟩
  | unhook _ _ induction => exact List.forall_mem_cons.mpr ⟨rfl, induction succeeded⟩
  | unwritable => cases succeeded

/-- Where orders are carried out, what they require is among the commands and did not fail. -/
theorem exists_of_required (runs : Runs orders exchanges (.ok ())) {words : List String}
    (member : .required words ∈ orders) :
    ∃ exchange ∈ exchanges, exchange.words = words ∧ exchange.failure? = none := by
  generalize succeeded : (Except.ok () : Except Failure Unit) = outcome at runs
  induction runs with
  | nil => cases member
  | required noFailure _ induction =>
      rcases List.mem_cons.mp member with same | later
      · cases same
        exact ⟨_, List.mem_cons_self .., rfl, noFailure⟩
      · rcases induction later succeeded with ⟨exchange, among, isWords⟩
        exact ⟨exchange, List.mem_cons_of_mem _ among, isWords⟩
  | failed _ => cases succeeded
  | tried _ induction =>
      rcases List.mem_cons.mp member with same | later
      · cases same
      · rcases induction later succeeded with ⟨exchange, among, isWords⟩
        exact ⟨exchange, List.mem_cons_of_mem _ among, isWords⟩
  | unhook _ _ induction =>
      rcases List.mem_cons.mp member with same | later
      · cases same
      · rcases induction later succeeded with ⟨exchange, among, isWords⟩
        exact ⟨exchange, List.mem_append_right _ among, isWords⟩
  | unwritable => cases succeeded

/-- Where no command fails, an order without words does. -/
theorem result_of_unwritable {before after : List Order} {failure : Failure}
    (runs : Runs (before ++ .unwritable failure :: after) exchanges result)
    (writable : ∀ order ∈ before, order.isWritable = true)
    (noFailure : ∀ exchange ∈ exchanges, exchange.failure? = none) :
    result = .error failure := by
  induction before generalizing exchanges with
  | nil =>
      cases runs
      rfl
  | cons order rest induction =>
      have restWritable : ∀ other ∈ rest, other.isWritable = true :=
        fun other member => writable other (List.mem_cons_of_mem _ member)
      cases runs with
      | required _ runs =>
          exact induction runs restWritable fun exchange member =>
            noFailure exchange (List.mem_cons_of_mem _ member)
      | failed isFailure =>
          rw [noFailure _ (List.mem_cons_self ..)] at isFailure
          cases isFailure
      | tried runs =>
          exact induction runs restWritable fun exchange member =>
            noFailure exchange (List.mem_cons_of_mem _ member)
      | unhook _ runs =>
          exact induction runs restWritable fun exchange member =>
            noFailure exchange (List.mem_append_right _ member)
      | unwritable => cases writable _ (List.mem_cons_self ..)

end Runs

/-! ## Operations that carry out orders -/

/-- An operation carries out orders, whatever is answered, and changes no session. -/
def Performs (runner : Runner ρ) (host : Host) (orders : List Order)
    (operation : HostOperation Unit) : Prop :=
  ∀ memory exchanges, operation.Ends (recording runner) (memory, exchanges) host
    fun memory' host' result => host'.sessions = host.sessions ∧
      ∃ added, memory'.2 = exchanges ++ added ∧ Runs orders added result

namespace Performs

variable {ρ : Type} {runner : Runner ρ} {host : Host} {orders later : List Order}

theorem pure : Performs runner host [] (Pure.pure () : HostOperation Unit) :=
  fun _ exchanges => ⟨rfl, [], (List.append_nil exchanges).symm, .nil⟩

theorem bind {first : HostOperation Unit} {next : Unit → HostOperation Unit}
    (performs : Performs runner host orders first)
    (goesOn : ∀ host', host'.sessions = host.sessions →
      Performs runner host' later (next ())) :
    Performs runner host (orders ++ later) (first >>= next) := by
  intro memory exchanges
  apply (performs memory exchanges).bind
  · rintro ⟨memory₁, _⟩ host₁ _ ⟨sessions₁, added, rfl, runs⟩
    apply (goesOn host₁ sessions₁ memory₁ (exchanges ++ added)).weaken
    rintro _ host₂ result ⟨sessions₂, addedToo, recorded, runsLater⟩
    exact ⟨sessions₂.trans sessions₁, added ++ addedToo, by rw [recorded, List.append_assoc],
      runs.append runsLater⟩
  · rintro _ host₁ failure ⟨sessions₁, added, recorded, runs⟩
    exact ⟨sessions₁, added, recorded, runs.append_of_error later⟩

theorem ends_record_bind {shown : LogRecord} {next : Unit → HostOperation α}
    {responder : Procedure.Responder σ Host} {memory : σ}
    {after : σ → Host → Except Failure α → Prop} :
    (Host.record shown >>= next).Ends responder memory host after ↔
      (next ()).Ends responder memory (host.logged shown) after :=
  Iff.rfl

theorem record_bind {shown : LogRecord} {next : Unit → HostOperation Unit}
    (performs : ∀ host', host'.sessions = host.sessions → Performs runner host' orders (next ())) :
    Performs runner host orders (Host.record shown >>= next) := by
  intro memory exchanges
  apply ends_record_bind.mpr
  apply (performs (host.logged shown) (host.logged_sessions shown) memory exchanges).weaken
  rintro _ _ _ ⟨sessions, added⟩
  exact ⟨sessions.trans (host.logged_sessions shown), added⟩

/-! ### Commands -/

theorem ends_execute (isHandled : runner.IsHandled) (words : List String) (memory : ρ)
    (exchanges : List Exchange) :
    (Host.execute words).Ends (recording runner) (memory, exchanges) host
      fun memory' host' result => host'.sessions = host.sessions ∧
        ∃ reply completion, memory'.2 = exchanges ++ [⟨words, reply⟩] ∧
          result = .ok completion ∧ (⟨words, reply⟩ : Exchange).failure? =
            if completion.isSuccess then none else some completion.failure := by
  rcases Reply.exists_completion (isHandled memory words) words with
    ⟨completion, counts, isFailure⟩
  exact ⟨host.logged_sessions _, _, completion, rfl, counts, isFailure⟩

theorem change (isHandled : runner.IsHandled) (words : List String) :
    Performs runner host [.required words] (Host.change words) := by
  intro memory exchanges
  apply (ends_execute isHandled words memory exchanges).bind
  · rintro _ host₁ completion ⟨sessions₁, reply, _, recorded, ⟨⟩, isFailure⟩
    cases succeeded : completion.isSuccess with
    | true =>
        rw [succeeded, if_pos rfl] at isFailure
        exact ⟨sessions₁, _, recorded, .required isFailure .nil⟩
    | false =>
        rw [succeeded, if_neg Bool.false_ne_true] at isFailure
        exact ⟨sessions₁, _, recorded, .failed isFailure⟩
  · rintro _ _ _ ⟨_, _, _, _, ⟨⟩, _⟩

/-- A removal that is tried, and whether it succeeded. -/
theorem ends_discard (isHandled : runner.IsHandled) (words : List String) (memory : ρ)
    (exchanges : List Exchange) :
    (Host.discard words).Ends (recording runner) (memory, exchanges) host
      fun memory' host' result => host'.sessions = host.sessions ∧
        ∃ reply, memory'.2 = exchanges ++ [⟨words, reply⟩] ∧
          result = .ok (⟨words, reply⟩ : Exchange).failure?.isNone := by
  apply (ends_execute isHandled words memory exchanges).bind
  · rintro _ host₁ completion ⟨sessions₁, reply, _, recorded, ⟨⟩, isFailure⟩
    cases succeeded : completion.isSuccess with
    | true => exact ⟨sessions₁, reply, recorded, by rw [isFailure, succeeded]; rfl⟩
    | false =>
        exact ⟨(host₁.logged_sessions _).trans sessions₁, reply, recorded,
          by rw [isFailure, succeeded]; rfl⟩
  · rintro _ _ _ ⟨_, _, _, _, ⟨⟩, _⟩

theorem discard_bind (isHandled : runner.IsHandled) (words : List String)
    {next : Bool → HostOperation Unit}
    (performs : ∀ host' hasGone, host'.sessions = host.sessions →
      Performs runner host' orders (next hasGone)) :
    Performs runner host (.tried words :: orders) (Host.discard words >>= next) := by
  intro memory exchanges
  apply (ends_discard isHandled words memory exchanges).bind
  · rintro ⟨memory₁, _⟩ host₁ hasGone ⟨sessions₁, reply, rfl, _⟩
    apply (performs host₁ hasGone sessions₁ memory₁ _).weaken
    rintro _ host₂ result ⟨sessions₂, added, recorded, runs⟩
    refine ⟨sessions₂.trans sessions₁, ⟨words, reply⟩ :: added, ?_, .tried runs⟩
    rw [recorded, List.append_assoc]
    rfl
  · rintro _ _ _ ⟨_, _, _, ⟨⟩⟩

theorem ends_unhookUpTo (isHandled : runner.IsHandled) (marking : Marking) (count : Nat)
    (memory : ρ) (exchanges : List Exchange) :
    (marking.unhookUpTo count).Ends (recording runner) (memory, exchanges) host
      fun memory' host' result => host'.sessions = host.sessions ∧
        ∃ copies, memory'.2 = exchanges ++ copies ∧ result = .ok () ∧
          Unhooks marking count copies := by
  induction count generalizing memory exchanges host with
  | zero => exact ⟨rfl, [], (List.append_nil exchanges).symm, rfl, .enough⟩
  | succ count induction =>
      apply (ends_discard isHandled marking.detach memory exchanges).bind
      · rintro ⟨memory₁, _⟩ host₁ hasGone ⟨sessions₁, reply, rfl, isGone⟩
        cases failed : (⟨marking.detach, reply⟩ : Exchange).failure? with
        | some failure =>
            rw [failed] at isGone
            cases isGone
            exact ⟨sessions₁, _, rfl, rfl, .absent (by rw [failed]; rfl)⟩
        | none =>
            rw [failed] at isGone
            cases isGone
            apply (induction memory₁ _).weaken
            rintro _ host₂ _ ⟨sessions₂, copies, recorded, rfl, unhooks⟩
            refine ⟨sessions₂.trans sessions₁, _ :: copies, ?_, rfl, .removed failed unhooks⟩
            rw [recorded, List.append_assoc]
            rfl
      · rintro _ _ _ ⟨_, _, _, ⟨⟩⟩

theorem unhook (isHandled : runner.IsHandled) (marking : Marking) :
    Performs runner host [.unhook marking] marking.unhook := by
  intro memory exchanges
  apply (ends_unhookUpTo isHandled marking Marking.largestHookCount memory exchanges).weaken
  rintro _ _ _ ⟨sessions, copies, recorded, rfl, unhooks⟩
  refine ⟨sessions, copies, recorded, ?_⟩
  have runs := Runs.unhook unhooks .nil
  rw [List.append_nil] at runs
  exact runs

/-- A change whose words have to be found first. -/
theorem change_of_words (isHandled : runner.IsHandled) (words : Except Failure α)
    (command : α → List String) :
    Performs runner host [.ofWords (command <$> words)]
      (do Host.change (command (← words))) := by
  cases words with
  | ok found => exact change isHandled (command found)
  | error failure =>
      exact fun _ exchanges => ⟨rfl, [], (List.append_nil exchanges).symm, .unwritable⟩

/-! ### Plans and teardowns -/

theorem take (isHandled : runner.IsHandled) (backends : Backends) (step : PlanStep) :
    Performs runner host (step.orders backends) (backends.take step) := by
  cases step with
  | root capacity default =>
      exact (change isHandled _).bind fun _ _ => change_of_words isHandled _ _
  | shapingClass id parent curve => exact change_of_words isHandled _ _
  | leafQueue id kind limit => exact change_of_words isHandled _ _
  | clearMarks =>
      exact discard_bind isHandled _ fun _ _ _ =>
        (change isHandled _).bind fun _ _ => unhook isHandled _
  | attachMarks => exact change isHandled _
  | mark rule => exact change_of_words isHandled _ (backends.marking.mark · rule.mark)
  | logMarks => exact change isHandled _
  | markFilter filter => exact change isHandled _

theorem takeAll (isHandled : runner.IsHandled) (backends : Backends) (total : Nat)
    (steps : List PlanStep) :
    Performs runner host (steps.flatMap (·.orders backends)) (backends.takeAll total steps) := by
  induction steps generalizing host with
  | nil => exact pure
  | cons step rest induction =>
      exact record_bind fun _ _ => (take isHandled backends step).bind fun _ _ => induction

theorem teardown (isHandled : runner.IsHandled) (backends : Backends) :
    Performs runner host backends.teardownOrders backends.teardown := by
  have clears : Performs runner host [.tried backends.shaper.dropRoot,
      .tried backends.shaper.dropIngress] backends.shaper.clear :=
    discard_bind isHandled _ fun _ _ _ => discard_bind isHandled _ fun _ _ _ => pure
  exact clears.bind fun _ _ => (unhook isHandled _).bind fun _ _ =>
    discard_bind isHandled _ fun _ _ _ => discard_bind isHandled _ fun _ _ _ => pure

end Performs

end UplinkShaper
