import UplinkShaper.Proofs.Session.Attempts

/-!
Requests to a session. Each leaves a session in step with the kernel, whether it succeeds,
is turned away, or fails in the middle; a request that succeeds has had its effect.
-/

namespace UplinkShaper

open Kernel Machine

namespace Session

variable {script : FailureScript} {machine : Machine} {host : Host} {id : SessionId}
  {session : Session} {requested : Settings → Prop} {initial : Kernel}

/-- Settings that may be requested: proper ones, whose capacity has a finite double. -/
def Admits (requested : Settings → Prop) (initial : Kernel) : Prop :=
  ∀ settings, requested settings →
    settings.IsProper initial ∧ settings.capacity.rate < Double.bound

/-! ## Exclusion -/

theorem ends_releaseLocks {holds : Session → Prop} {machine : Machine} {host : Host}
    (ready : LeavesReady requested initial id machine host holds)
    (ignores : ∀ session, holds session → holds { session with isWriting := false }) :
    (releaseLocks id).Ends (answer script) machine host fun machine' host' result =>
      result = .ok () ∧ LeavesReady requested initial id machine' host' holds := by
  rcases ready with ⟨session, known, ready, isHeld⟩
  refine ⟨rfl, { session with isWriting := false }, ?_, ready.writing false, ignores _ isHeld⟩
  exact Host.getElem?_modify known

/-- A host on which a session is about to change something. -/
def occupied (host : Host) (id : SessionId) : Host :=
  { host with
    sessions := host.sessions.modify id fun session => { session with isWriting := true } }

theorem getElem?_occupied (known : host.sessions[id]? = some session) :
    (occupied host id).sessions[id]? = some { session with isWriting := true } :=
  Host.getElem?_modify known

/-- What is done exclusively is done or turned away. -/
theorem ends_exclusively {body : HostOperation α} {holds : Except Failure α → Session → Prop}
    (known : host.sessions[id]? = some session)
    (ready : session.IsReady requested initial machine.kernel)
    (fails : ∀ failure session, holds (.error failure) session)
    (ignores : ∀ result session, holds result session →
      holds result { session with isWriting := false })
    (ends : ∀ host', host'.sessions[id]? = some { session with isWriting := true } →
      body.Ends (answer script) machine host' fun machine' host' result =>
        LeavesReady requested initial id machine' host' (holds result)) :
    (exclusively id body).Ends (answer script) machine host fun machine' host' result =>
      LeavesReady requested initial id machine' host' (holds result) := by
  have changed : (do takeLocks id session; body).Ends (answer script) machine (occupied host id)
      fun machine' host' result =>
        LeavesReady requested initial id machine' host' (holds result) := by
    apply (isQuiet_takeLocks id session _ (answer script) machine (occupied host id)).bind
    · intro machine₁ host₁ _ same
      rw [same.1]
      exact ends host₁ (by rw [same.2, getElem?_occupied known])
    · intro machine₁ host₁ failure same
      rw [same.1]
      exact ⟨_, by rw [same.2, getElem?_occupied known], ready.writing true, fails failure _⟩
  apply (Host.ends_session_bind known).mpr
  cases session.isWriting with
  | true => exact ⟨session, known, ready, fails _ _⟩
  | false =>
      apply Host.ends_changeSession_bind.mpr
      exact changed.ensuring fun _ _ result left => ends_releaseLocks left (ignores result)

/-! ## Moving -/

theorem ends_move {settings : Settings} (known : host.sessions[id]? = some session)
    (ready : session.IsReady requested initial machine.kernel)
    (admits : Admits requested initial) :
    (move id settings).Ends (answer script) machine host fun machine' host' result =>
      result = .ok () ∧ machine'.kernel.IsRestOf initial ∧
        host'.sessions[id]? = some (session.moved settings) := by
  rcases ready.bound.backends with ⟨old, isRequested, backends, _⟩
  have free := (admits old isRequested).1.free
  rcases ready.exists_holding backends free with ⟨base, part, rest, holds⟩
  apply Leaves.bind (ends_teardown known backends (rest.isFree free) holds)
  intro machine₁ host₁ sessions₁ holds₁
  have known₁ : host₁.sessions[id]? = some session := by rw [sessions₁, known]
  have left : machine₁.kernel.IsRestOf initial := holds₁ ▸ rest.holding_nothing free _
  apply (Host.ends_session_bind known₁).mpr
  apply Host.ends_changeSession_bind.mpr
  exact ⟨rfl, left, Host.getElem?_logged (Host.getElem?_modify known₁) _⟩

/-! ## Requests -/

theorem ends_clear (known : host.sessions[id]? = some session)
    (ready : session.IsReady requested initial machine.kernel)
    (admits : Admits requested initial) :
    (do teardown id; Host.changeSession id cleared : HostOperation Unit).Ends (answer script)
      machine host fun machine' host' _ =>
        LeavesReady requested initial id machine' host' fun session' =>
          session'.applied = none := by
  rcases ready.bound.backends with ⟨settings, isRequested, backends, _⟩
  have free := (admits settings isRequested).1.free
  rcases ready.exists_holding backends free with ⟨base, part, rest, holds⟩
  apply Leaves.bind (ends_teardown known backends (rest.isFree free) holds)
  intro machine₁ host₁ sessions₁ holds₁
  have isReady := ready.bound.isReady_cleared backends free rest
  rw [← holds₁] at isReady
  exact ⟨session.cleared, Host.getElem?_modify (sessions₁ ▸ known), isReady, rfl⟩

theorem ends_stop (known : host.sessions[id]? = some session)
    (ready : session.IsReady requested initial machine.kernel)
    (admits : Admits requested initial) :
    (stop id).Ends (answer script) machine host fun machine' host' result =>
      LeavesReady requested initial id machine' host' fun session' =>
        result = .ok () → session'.applied = none := by
  have excluded : (exclusively id do teardown id; Host.changeSession id cleared).Ends
      (answer script) machine host fun machine' host' result =>
        LeavesReady requested initial id machine' host' fun session' =>
          result = .ok () → session'.applied = none := by
    apply ends_exclusively known ready
    · intro _ _ impossible
      cases impossible
    · exact fun _ _ isHeld => isHeld
    · intro host₁ known₁
      apply (ends_clear known₁ (ready.writing true) admits).weaken
      intro _ _ _ left
      exact left.of_quiet ⟨rfl, rfl⟩ fun _ isHeld _ => isHeld
  apply excluded.bind
  · intro machine₁ host₁ _ left
    have quiet : (do
        Host.record (.info s!"Shaping removed from {(← Host.session id).settings.device}") :
          HostOperation Unit).IsQuiet :=
      (Host.isQuiet_session id).bind fun _ => Host.isQuiet_record _
    apply (quiet _ (answer script) machine₁ host₁).weaken
    intro _ _ _ same
    exact left.of_quiet same fun _ isHeld _ => isHeld rfl
  · intro _ _ _ left
    exact left.of_quiet ⟨rfl, rfl⟩ fun _ _ impossible => nomatch impossible

/-- Settings are applied by backends that are theirs already. -/
theorem ends_attemptAll_of_binding {target : Target} (known : host.sessions[id]? = some session)
    (ready : session.IsReady requested initial machine.kernel)
    (admits : Admits requested initial) (isRequested : requested target.settings)
    (same : target.settings.binding = session.binding)
    (compiles : Compiled.ofSettings target.settings (session.roundTripFor target.settings) =
      .ok target.compiled) :
    (attemptAll id target).Ends (answer script) machine host fun machine' host' result =>
      LeavesReady requested initial id machine' host' fun session' =>
        result = .ok () → session'.HasApplied target.settings := by
  have backends := ready.bound.backends_eq same
  rcases admits target.settings isRequested with ⟨proper, below⟩
  rcases ready.exists_holding backends proper.free with ⟨base, part, rest, holds⟩
  exact ends_attemptAll known ready.bound isRequested backends same.symm proper below compiles
    rest holds

/-- Settings are applied by backends that are made for them. -/
theorem ends_attemptAll_of_move {target : Target} (known : host.sessions[id]? = some session)
    (ready : session.IsReady requested initial machine.kernel)
    (admits : Admits requested initial) (isRequested : requested target.settings)
    (compiles : Compiled.ofSettings target.settings (session.roundTripFor target.settings) =
      .ok target.compiled) :
    (do move id target.settings; attemptAll id target : HostOperation Unit).Ends (answer script)
      machine host fun machine' host' result =>
        LeavesReady requested initial id machine' host' fun session' =>
          result = .ok () → session'.HasApplied target.settings := by
  rcases admits target.settings isRequested with ⟨proper, below⟩
  apply (ends_move known ready admits).bind
  · intro machine₁ host₁ _ moved
    rcases moved with ⟨_, rest, known₁⟩
    have bound : (session.moved target.settings).IsBound requested :=
      ⟨ready.bound.movable, ready.bound.settings, target.settings, isRequested, rfl, rfl⟩
    exact ends_attemptAll known₁ bound isRequested rfl rfl proper below compiles rest
      (rest.isFree proper.free).holding_self.symm
  · intro _ _ _ moved
    cases moved.1

/-- Settings are applied by backends that are theirs or that are made for them. -/
theorem ends_apply {target : Target} (known : host.sessions[id]? = some session)
    (ready : session.IsReady requested initial machine.kernel)
    (admits : Admits requested initial) (isRequested : requested target.settings)
    (compiles : Compiled.ofSettings target.settings (session.roundTripFor target.settings) =
      .ok target.compiled) :
    (if target.settings.binding ≠ session.binding then do
        move id target.settings
        attemptAll id target
      else attemptAll id target : HostOperation Unit).Ends (answer script) machine host
        fun machine' host' result =>
          LeavesReady requested initial id machine' host' fun session' =>
            result = .ok () → session'.HasApplied target.settings := by
  by_cases same : target.settings.binding = session.binding
  · rw [if_neg (not_not.mpr same)]
    exact ends_attemptAll_of_binding known ready admits isRequested same compiles
  · rw [if_pos same]
    exact ends_attemptAll_of_move known ready admits isRequested compiles

theorem ends_compileWith {settings : Settings} (known : host.sessions[id]? = some session) :
    (compileWith id settings).Ends (answer script) machine host fun machine' host' result =>
      machine' = machine ∧ (∃ log, host' = { host with log := log }) ∧
        result = Compiled.ofSettings settings (session.roundTripFor settings) :=
  (Host.ends_session_bind known).mpr ⟨rfl, Host.exists_foldl_logged _ host, rfl⟩

theorem ends_reconfigure {settings : Settings} (known : host.sessions[id]? = some session)
    (ready : session.IsReady requested initial machine.kernel)
    (admits : Admits requested initial) (isRequested : requested settings) :
    (reconfigure id settings).Ends (answer script) machine host fun machine' host' result =>
      LeavesReady requested initial id machine' host' fun session' =>
        ∀ tree, result = .ok tree → session'.HasApplied settings := by
  apply (ends_compileWith known).bind
  · intro machine₁ host₁ compiled ended
    rcases ended with ⟨rfl, ⟨log, same⟩, compiles⟩
    have known₁ : host₁.sessions[id]? = some session := by rw [same, known]
    let target : Target := { settings := settings, compiled := compiled }
    have applied : (exclusively id do
        if target.settings.binding ≠ session.binding then move id target.settings
        attemptAll id target).Ends (answer script) machine₁ host₁ fun machine' host' result =>
          LeavesReady requested initial id machine' host' fun session' =>
            result = .ok () → session'.HasApplied settings := by
      apply ends_exclusively known₁ ready
      · intro _ _ impossible
        cases impossible
      · exact fun _ _ isHeld => isHeld
      · intro host₂ known₂
        exact @ends_apply _ _ _ _ { session with isWriting := true } _ _ target known₂
          (ready.writing true) admits isRequested compiles.symm
    apply (Host.ends_session_bind known₁).mpr
    dsimp only
    rw [if_neg (by simp [ready.bound.movable])]
    apply applied.bind
    · intro machine₂ host₂ _ left
      have quiet : (do persist id; pure compiled.tree : HostOperation ClassTree).IsQuiet :=
        (isQuiet_persist id).bind fun _ => Operation.isQuiet_ofResult (.ok compiled.tree)
      apply (quiet _ (answer script) machine₂ host₂).weaken
      intro _ _ _ same
      exact left.of_quiet same fun _ isHeld _ _ => isHeld rfl
    · intro _ _ _ left
      exact left.of_quiet ⟨rfl, rfl⟩ fun _ _ _ impossible => nomatch impossible
  · intro machine₁ host₁ failure ended
    rcases ended with ⟨rfl, ⟨log, rfl⟩, _⟩
    exact ⟨session, known, ready, fun _ impossible => nomatch impossible⟩

end Session

end UplinkShaper
