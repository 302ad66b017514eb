import UplinkShaper.Proofs.Session.Checking

/-!
What is found out before a command changes anything: that the tools and the links are there. The
only commands for it ask for the links.
-/

namespace UplinkShaper

open Operation

namespace Console

variable {host : Host} {settings : Settings} {device : String} {exchange : Exchange}

/-! ## Links -/

/-- The command that asks for the link of a device. -/
def linkQuestion (settings : Settings) (device : String) : List String :=
  [settings.tools.link, "link", "show", device]

/-- The devices whose links have to be there. -/
def devicesOf (settings : Settings) : List String :=
  [settings.device, settings.localDevice]

/-- The link of a device is asked for, and found. -/
def FindsLink (settings : Settings) (device : String) (exchange : Exchange) : Prop :=
  exchange.words = linkQuestion settings device ∧
    ∃ output errors, exchange.reply = .finished 0 output errors

theorem areHandled_links {settings : Settings} {devices : List String}
    {exchanges : List Exchange} (found : List.Forall₂ (FindsLink settings) devices exchanges) :
    AreHandled exchanges := by
  induction found with
  | nil => exact List.forall_mem_nil _
  | cons first _ induction =>
      rcases first with ⟨_, output, errors, replied⟩
      exact List.forall_mem_cons.mpr ⟨by rw [replied]; rfl, induction⟩

/-- All that was found are links of the devices. -/
theorem forall_findsLink {settings : Settings} {devices : List String} {exchanges : List Exchange}
    (found : List.Forall₂ (FindsLink settings) devices exchanges) :
    ∀ exchange ∈ exchanges, ∃ device ∈ devices, FindsLink settings device exchange := by
  induction found with
  | nil => exact List.forall_mem_nil _
  | cons first _ induction =>
      refine List.forall_mem_cons.mpr ⟨⟨_, List.mem_cons_self .., first⟩, fun exchange among => ?_⟩
      rcases induction exchange among with ⟨device, member, finds⟩
      exact ⟨device, List.mem_cons_of_mem _ member, finds⟩

/-- One of the links of settings is asked for. -/
def AsksForLink (settings : Settings) (exchange : Exchange) : Prop :=
  ∃ device ∈ devicesOf settings, exchange.words = linkQuestion settings device

/-- What becomes of a device, by the reply to the question for its link. -/
def foundLink (device : String) : Reply → Except Failure Unit
  | .finished 0 _ _ => .ok ()
  | .finished _ _ _ => .error (.precondition (.device device))
  | .refused text => .error (.system (.command text))
  | .interrupted interruption => .error (.interrupted interruption)

theorem foundLink_eq_ok_iff {reply : Reply} :
    foundLink device reply = .ok () ↔ ∃ output errors, reply = .finished 0 output errors := by
  cases reply with
  | finished code output errors =>
      by_cases isZero : code = 0
      · subst isZero
        simp [foundLink]
      · simp [foundLink, isZero]
  | refused text => simp [foundLink]
  | interrupted interruption => simp [foundLink]

theorem requireDevice_eq (settings : Settings) (device : String) :
    requireDevice settings device = (do
      let reply ← Host.issue (linkQuestion settings device)
      Operation.ofResult (foundLink device reply)) := by
  refine congrArg (Host.issue (linkQuestion settings device) >>= ·) ?_
  funext reply
  cases reply with
  | finished code output errors =>
      by_cases isZero : code = 0
      · subst isZero
        rfl
      · simp only [foundLink]
        rfl
  | refused text => rfl
  | interrupted interruption => rfl

theorem tells_requireDevice (host : Host) (settings : Settings) (device : String) :
    (requireDevice settings device).Tells host fun exchanges host' result =>
      ∃ reply, exchanges = [⟨linkQuestion settings device, reply⟩] ∧ host.IsLike host' ∧
        result = foundLink device reply := by
  rw [requireDevice_eq]
  refine (Host.tells_issue _).bind ?_ ?_
  · rintro _ host' reply ⟨_, rfl, isLike, ⟨⟩⟩
    exact (tells_of_done rfl).mpr ⟨reply, rfl, isLike, rfl⟩
  · rintro _ _ _ ⟨_, _, _, ⟨⟩⟩

/-! ## All prerequisites -/

/-- How the prerequisites of settings are found: a tool is missing, or a link is the first that is
not found, or there is nothing to find fault with. -/
inductive IsChecked (missing : List String) (settings : Settings) :
    List Exchange → Except Failure Unit → Prop
  | tools : missing ≠ [] →
      IsChecked missing settings [] (.error (.precondition (.tools missing)))
  | link {before device reply failure} : missing = [] →
      (∀ exchange ∈ before, ∃ device ∈ devicesOf settings, FindsLink settings device exchange) →
      device ∈ devicesOf settings → foundLink device reply = .error failure →
      IsChecked missing settings (before ++ [⟨linkQuestion settings device, reply⟩])
        (.error failure)
  | met {exchanges} : missing = [] →
      List.Forall₂ (FindsLink settings) (devicesOf settings) exchanges →
      IsChecked missing settings exchanges (.ok ())

theorem tells_checkPrerequisites (host : Host) (settings : Settings) :
    (checkPrerequisites settings).Tells host fun exchanges host' result =>
      host.IsLike host' ∧ IsChecked (missingTools host settings) settings exchanges result := by
  refine (tells_bind_of_ok rfl).mpr ?_
  cases missing : missingTools host settings with
  | cons tool others =>
      exact (tells_of_done rfl).mpr ⟨.refl host, .tools (List.cons_ne_nil tool others)⟩
  | nil =>
      have found {device : String} {reply : Reply} (isFound : foundLink device reply = .ok ()) :
          FindsLink settings device ⟨linkQuestion settings device, reply⟩ :=
        ⟨rfl, foundLink_eq_ok_iff.mp isFound⟩
      refine (tells_requireDevice _ _ _).bind ?_ ?_
      · rintro _ host₁ _ ⟨reply, rfl, isLike, isFirst⟩
        have first := found isFirst.symm
        refine (tells_requireDevice _ _ _).bind ?_ ?_
        · rintro _ host₂ _ ⟨replyToo, rfl, isLikeToo, isSecond⟩
          have both := List.Forall₂.cons first (.cons (found isSecond.symm) .nil)
          exact (tells_of_done rfl).mpr
            ⟨(isLike.trans isLikeToo).trans (host₂.isLike_logged _), .met rfl both⟩
        · rintro _ host₂ failure ⟨replyToo, rfl, isLikeToo, fails⟩
          refine ⟨isLike.trans isLikeToo, .link rfl ?_ ?_ fails.symm⟩
          · exact List.forall_mem_singleton.mpr ⟨_, List.mem_cons_self .., first⟩
          · exact List.mem_cons_of_mem _ (List.mem_singleton_self _)
      · rintro _ host₁ failure ⟨reply, rfl, isLike, fails⟩
        have none : ∀ exchange ∈ ([] : List Exchange), ∃ device ∈ devicesOf settings,
            FindsLink settings device exchange := List.forall_mem_nil _
        exact ⟨isLike, .link rfl none (List.mem_cons_self ..) fails.symm⟩

namespace IsChecked

variable {missing : List String} {exchanges : List Exchange} {result : Except Failure Unit}

/-- Nothing but links is asked for. -/
theorem areLinks (isChecked : IsChecked missing settings exchanges result) :
    ∀ exchange ∈ exchanges, AsksForLink settings exchange := by
  have asked {found : List Exchange}
      (finds : ∀ exchange ∈ found,
        ∃ device ∈ devicesOf settings, FindsLink settings device exchange) :
      ∀ exchange ∈ found, AsksForLink settings exchange := by
    intro exchange among
    rcases finds exchange among with ⟨device, member, asks, _⟩
    exact ⟨device, member, asks⟩
  cases isChecked with
  | tools _ => exact List.forall_mem_nil _
  | link _ before member _ =>
      exact List.forall_mem_append.mpr
        ⟨asked before, List.forall_mem_singleton.mpr ⟨_, member, rfl⟩⟩
  | met _ found => exact asked (forall_findsLink found)

/-- At a link that is not found the check is over, and this is its result. -/
theorem result_eq (isChecked : IsChecked missing settings exchanges result) {device : String}
    {reply : Reply} {failure : Failure} (fails : foundLink device reply = .error failure)
    (among : ⟨linkQuestion settings device, reply⟩ ∈ exchanges) : result = .error failure := by
  have notFound {other : String}
      (finds : FindsLink settings other ⟨linkQuestion settings device, reply⟩) : False := by
    rw [foundLink_eq_ok_iff.mpr finds.2] at fails
    cases fails
  cases isChecked with
  | tools _ => cases among
  | @link _ _ replyToo failureToo _ before _ failsToo =>
      rcases List.mem_append.mp among with early | last
      · rcases before _ early with ⟨other, _, finds⟩
        exact (notFound finds).elim
      · cases List.mem_singleton.mp last
        rw [← fails, failsToo]
  | met _ found =>
      rcases forall_findsLink found _ among with ⟨other, _, finds⟩
      exact (notFound finds).elim

end IsChecked

end Console

end UplinkShaper
