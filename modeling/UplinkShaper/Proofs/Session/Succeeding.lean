import UplinkShaper.Proofs.Session.Applying
import UplinkShaper.Proofs.Session.Serving

/-!
What a success tells. A machine refuses what it cannot read, so settings that were applied on one
have whole numbers for parents and a capacity with a finite double; and where the kernel held
nothing but a part for their device and chain, it then holds exactly what they compile to.
-/

namespace UplinkShaper

open Kernel Machine Operation

/-! ## Handles that cannot be read -/

namespace Handle

theorem foldlM_digit?_eq_none {shown : List Char} {mark : Char} (member : mark ∈ shown)
    (isOther : digit? mark = none) (total : Nat) :
    shown.foldlM (fun total character => (digit? character).map (16 * total + ·)) total =
      none := by
  induction shown generalizing total with
  | nil => cases member
  | cons character rest induction =>
      rw [List.foldlM_cons]
      rcases List.mem_cons.mp member with rfl | later
      · rw [isOther]
        rfl
      · cases digit? character with
        | none => rfl
        | some digit => exact induction later _

/-- A handle with anything but digits in it denotes none. -/
theorem ofText?_classHandle_eq_none {minor : String} {mark : Char} (member : mark ∈ minor.toList)
    (isOther : digit? mark = none) : ofText? (classHandle minor) = none := by
  have shown : (classHandle minor).toList = ['1'] ++ ':' :: minor.toList := by
    rw [classHandle, String.toList_append]
    rfl
  rw [ofText?, shown, Text.parts_append (by decide)]
  cases parted : Text.parts ':' minor.toList with
  | nil => rfl
  | cons first others =>
      cases others with
      | cons second rest => rfl
      | nil =>
          have same := Text.eq_of_parts_eq_singleton parted
          dsimp only
          rw [same, number?, number?, foldlM_digit?_eq_none member isOther]
          rfl

/-- No class has the text of a double for its number. -/
theorem ofText?_classHandle_real (double : Double) :
    ofText? (classHandle (Number.real double).text) = none := by
  have exponents (exponent : Int) :
      ∃ mark ∈ ['.', 'n', '+', '-'], mark ∈ Decimal.exponentText exponent := by
    unfold Decimal.exponentText
    split
    · exact ⟨'-', by decide, by simp⟩
    · exact ⟨'+', by decide, by simp⟩
  rcases Double.exists_mark_among (by decide) (by decide) exponents double with
    ⟨mark, isMark, member⟩
  have others : ∀ mark ∈ ['.', 'n', '+', '-'], digit? mark = none := by
    simp only [List.forall_mem_cons]
    exact ⟨rfl, rfl, rfl, rfl, List.forall_mem_nil _⟩
  exact ofText?_classHandle_eq_none member (others mark isMark)

end Handle

theorem Shaper.ofWords?_shapingClass_real (shaper : Shaper) (id : Int) (double : Double)
    (curve : List String) : Command.ofWords? (shaper.shapingClass id (.real double) curve) = none := by
  change (do
    return Command.addClass shaper.device
      ⟨← Handle.ofText? (classHandle (toString id)),
        ← Handle.ofText? (classHandle (Number.real double).text), curve⟩) = _
  rw [Handle.ofText?_classHandle_real]
  cases Handle.ofText? (classHandle (toString id)) with
  | none => rfl
  | some handle => rfl

/-! ## Settings that were applied -/

namespace Session

variable {script : FailureScript} {machine machine' : Machine} {host : Host} {id : SessionId}
  {session : Session} {settings : Settings} {compiled : Compiled} {initial base : Kernel}
  {exchanges : List Exchange} {locations : Locations} {document : Value} {source : Option Path}

/-- Settings that were applied can be applied whole. -/
theorem IsApplied.isProper {host' : Host}
    (isApplied : IsApplied id settings compiled exchanges host')
    (answers : (replying script).Answers machine exchanges machine')
    (accepted : Settings.ofDocument locations document source = .ok settings)
    (compiles : Compiled.ofSettings settings settings.roundTrip = .ok compiled)
    (free : initial.IsFree settings.chain) :
    settings.IsProper initial ∧ settings.capacity.rate < Double.bound := by
  rcases isApplied.applies with ⟨before, attempt, rfl, runs⟩
  have below : settings.capacity.rate < Double.bound := by
    by_contra notBelow
    rcases Compiled.exists_orders_of_above compiles (not_lt.mp notBelow) settings.backends with
      ⟨words, after, orders⟩
    have member : Order.unwritable .overflow ∈ attemptOrders settings.backends
        { settings := settings, compiled := compiled } := by
      rw [attemptOrders, orders]
      exact List.mem_append_right _ (List.mem_cons_of_mem _ (List.mem_cons_self ..))
    cases runs.areWritable_of_ok _ member
  refine ⟨⟨⟨_, _, _, accepted⟩, fun spec member => ?_, isApplied.retries, free⟩, below⟩
  cases isParent : spec.parent with
  | whole parent => exact ⟨parent, rfl⟩
  | real double =>
      rcases @exists_required_of_spec { settings := settings, compiled := compiled } locations
        document source _ spec accepted compiles below settings.backends member with
        ⟨number, words, isRequired⟩
      rcases runs.exists_of_required isRequired with ⟨exchange, among, isWords, succeeded⟩
      have isSome := isSome_ofWords?_of_answers answers (List.mem_append_right _ among) succeeded
      rw [isWords, isParent, Shaper.ofWords?_shapingClass_real] at isSome
      cases isSome

/-- The kernel holds what settings compile to, and nothing else that was not there initially. -/
def HoldsOnly (settings : Settings) (initial kernel : Kernel) : Prop :=
  ∃ (compiled : Compiled) (base : Kernel) (part : Part),
    Compiled.ofSettings settings settings.roundTrip = .ok compiled ∧ base.IsRestOf initial ∧
      compiled.IsHeld settings part ∧ kernel = base.holding settings.device settings.chain part

namespace HoldsOnly

variable {kernel : Kernel} {device chain : String}

theorem hooked (holds : HoldsOnly settings initial kernel) :
    (settings.device, settings.chain) ∈ kernel.hooks := by
  rcases holds with ⟨_, base, part, _, _, ⟨tree, rules, rfl, _, _⟩, rfl⟩
  exact List.mem_append_right _ (List.mem_singleton_self _)

/-- There is no other hook but those that there were. -/
theorem eq_of_hooked (holds : HoldsOnly settings initial kernel)
    (unhooked : (device, chain) ∉ initial.hooks) (hooked : (device, chain) ∈ kernel.hooks) :
    device = settings.device ∧ chain = settings.chain := by
  rcases holds with ⟨_, base, part, _, rest, ⟨tree, rules, rfl, _, _⟩, rfl⟩
  rcases List.mem_append.mp hooked with before | own
  · rw [rest.hooks] at before
    exact absurd before unhooked
  · cases List.mem_singleton.mp own
    exact ⟨rfl, rfl⟩

end HoldsOnly

/-- Attempts to apply settings where nothing but a part is held leave nothing but theirs. -/
theorem ends_carryOut_holding {part : Part}
    (known : host.sessions[id]? = some { session with isWriting := true })
    (isFor : session.IsFor settings) (proper : settings.IsProper initial)
    (below : settings.capacity.rate < Double.bound)
    (compiles : Compiled.ofSettings settings settings.roundTrip = .ok compiled)
    (rest : base.IsRestOf initial)
    (holds : machine.kernel = base.holding settings.device settings.chain part) :
    (session.carryOut id (some { settings := settings, compiled := compiled })).Ends
      (answer script) machine host fun machine' _ result =>
        result = .ok () → HoldsOnly settings initial machine'.kernel := by
  have stays : settings.binding = session.binding := isFor.binding.symm
  rcases proper.exists_buildAll below compiles with ⟨last, held, builds⟩
  rcases proper.retries with ⟨retries, isWhole⟩
  have backends : { session with isWriting := true }.backends = settings.backends := isFor.backends
  rw [carryOut_of_binding stays, attemptAll, isWhole]
  apply (ends_attemptUpTo known backends (rest.isFree proper.free) builds _ _ _ holds).weaken
  intro machine' host' result ended succeeded
  cases ended with
  | built moment _ holds' _ => exact ⟨compiled, base, last, compiles, rest, held, holds'⟩
  | cleared failure _ _ failed =>
      rw [failed] at succeeded
      cases succeeded

end Session

namespace Request

open Session

variable {script : FailureScript} {machine : Machine} {host : Host} {id : SessionId}
  {session : Session} {settings : Settings} {request : Request} {initial base : Kernel}

/-- A request that succeeds where nothing but a part is held leaves nothing but its settings. -/
theorem ends_perform_holding {part : Part} (known : host.sessions[id]? = some session)
    (isFor : session.IsFor settings)
    (asks : request.settings host session = .ok (some settings))
    (proper : settings.IsProper initial) (below : settings.capacity.rate < Double.bound)
    (rest : base.IsRestOf initial)
    (holds : machine.kernel = base.holding settings.device settings.chain part) :
    (request.perform id).Ends (answer script) machine host fun machine' _ result =>
      result = .ok () → HoldsOnly settings initial machine'.kernel := by
  have isPrepared := prepared_eq asks
  cases found : session.targetFor settings with
  | error failure =>
      rw [found] at isPrepared
      rcases perform_eq_of_error known isPrepared with ⟨log, done⟩
      unfold Ends run
      rw [done]
      exact nofun
  | ok target =>
      rw [found] at isPrepared
      rcases targetFor_eq_ok found with ⟨compiled, compiles, rfl⟩
      rw [isFor.roundTripFor] at compiles
      rcases perform_eq_of_ok known isPrepared with ⟨log, proceeds⟩
      have known₁ : ({ host with log := log } : Host).sessions[id]? = some session := known
      rcases proceed_cases (some { settings := settings, compiled := compiled }) known₁ with
        ⟨host₁, failure, done, _⟩ | ⟨_, host₁, _, same, goesOn⟩
      · unfold Ends run
        rw [proceeds, done]
        exact nofun
      · have occupied : host₁.sessions[id]? = some { session with isWriting := true } :=
          same ▸ getElem?_occupied known₁
        have left : (releasing id
            (session.carryOut id (some { settings := settings, compiled := compiled }))).Ends
              (answer script) machine host₁ fun machine' _ result =>
                result = .ok () → HoldsOnly settings initial machine'.kernel :=
          ends_andThen.mpr ((ends_carryOut_holding occupied isFor proper below compiles rest
            holds).weaken fun _ _ _ held => held)
        have concluded : (do
            releasing id (session.carryOut id (some { settings := settings, compiled := compiled }))
            conclude id (some { settings := settings, compiled := compiled }) :
              HostOperation Unit).Ends (answer script) machine host₁ fun machine' _ result =>
                result = .ok () → HoldsOnly settings initial machine'.kernel := by
          refine left.bind (fun machine₁ host₂ _ held => ?_) fun _ _ _ _ => nofun
          apply (isQuiet_conclude id _ _ (answer script) machine₁ host₂).weaken
          rintro _ _ _ ⟨rfl, _⟩ _
          exact held rfl
        unfold Ends run at concluded ⊢
        rw [proceeds, goesOn]
        exact concluded

section Success

variable {machine' : Machine} {host' : Host} {exchanges : List Exchange} {locations : Locations}
  {document : Value} {source : Option Path}

/-- A request that succeeds has applied what settings compile to. -/
theorem exists_isApplied_of_says (known : host.sessions[id]? = some session)
    (isFor : session.IsFor settings)
    (asks : request.settings host session = .ok (some settings))
    (accepted : Settings.ofDocument locations document source = .ok settings)
    (told : (request.perform id host).Says exchanges host' (.ok ())) :
    ∃ compiled, Compiled.ofSettings settings settings.roundTrip = .ok compiled ∧
      IsApplied id settings compiled exchanges host' := by
  have handled : AreHandled exchanges := by
    rcases (AsksNothing.perform request id host).areHandled_or told with handled | ⟨_, ⟨⟩⟩
    exact handled
  rcases tells_perform known isFor asks accepted _ _ _ told handled with
    ⟨_, ⟨⟩⟩ | ⟨compiled, compiles, ⟨_, ⟨⟩⟩ | ⟨_, isApplied⟩⟩
  exact ⟨compiled, compiles, isApplied⟩

/-- Where the kernel holds nothing but a part for their device and chain, it holds nothing but what
settings compile to once they were applied. -/
theorem holdsOnly_of_says {part : Part} (known : host.sessions[id]? = some session)
    (isFor : session.IsFor settings)
    (asks : request.settings host session = .ok (some settings))
    (accepted : Settings.ofDocument locations document source = .ok settings)
    (told : (request.perform id host).Says exchanges host' (.ok ()))
    (answers : (replying script).Answers machine exchanges machine')
    (free : initial.IsFree settings.chain) (rest : base.IsRestOf initial)
    (holds : machine.kernel = base.holding settings.device settings.chain part) :
    HoldsOnly settings initial machine'.kernel := by
  rcases exists_isApplied_of_says known isFor asks accepted told with
    ⟨compiled, compiles, isApplied⟩
  rcases isApplied.isProper answers accepted compiles free with ⟨proper, below⟩
  have ended : (request.perform id).Ends (answer script) machine host fun machine' _ result =>
      result = .ok () → HoldsOnly settings initial machine'.kernel :=
    ends_perform_holding known isFor asks proper below rest holds
  unfold Ends Operation.run at ended
  rw [answer_eq, told.run_undisturbed answers] at ended
  exact ended rfl

/-- Hooks for another device or chain stay where they are. -/
theorem mem_hooks_of_says {device chain : String} (known : host.sessions[id]? = some session)
    (isFor : session.IsFor settings)
    (asks : request.settings host session = .ok (some settings))
    (accepted : Settings.ofDocument locations document source = .ok settings)
    (told : (request.perform id host).Says exchanges host' (.ok ()))
    (answers : (replying script).Answers machine exchanges machine')
    (different : ¬ (device = settings.device ∧ chain = settings.chain))
    (hooked : (device, chain) ∈ machine.kernel.hooks) :
    (device, chain) ∈ machine'.kernel.hooks := by
  rcases exists_isApplied_of_says known isFor asks accepted told with ⟨compiled, _, isApplied⟩
  refine mem_hooks_of_answers answers (fun exchange among => ?_) hooked
  rcases isApplied.asked exchange among with ⟨order, member, asksFor⟩
  exact Backends.ofWords?_ne_unhook different member asksFor

end Success

end Request

end UplinkShaper
