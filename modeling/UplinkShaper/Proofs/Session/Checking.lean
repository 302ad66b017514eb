import UplinkShaper.Console.Commands
import UplinkShaper.Proofs.Session.Applying

/-!
What is said and heard in checks. Each check asks for one listing; all of them are passed if every
fatal check finds in its listing what should be there. The others are warnings and no more.
-/

namespace UplinkShaper

open Operation

/-- What becomes of a listing, by the reply to the command for it. -/
def Exchange.listed (exchange : Exchange) : Except Failure String := do
  let completion ← Completion.ofReply exchange.words exchange.reply
  if completion.isSuccess then return completion.output.getD ""
  else throw (.listing completion.failure)

namespace Exchange

variable {exchange : Exchange}

theorem listed_eq_ok_iff {listing : String} :
    exchange.listed = .ok listing ↔
      ∃ output errors, exchange.reply = .finished 0 output errors ∧ output.getD "" = listing := by
  rcases exchange with ⟨words, reply⟩
  cases reply with
  | finished code output errors =>
      by_cases isZero : code = 0
      · subst isZero
        simp [listed, Completion.ofReply, Completion.isSuccess, pure, Except.pure]
      · simp [listed, Completion.ofReply, Completion.isSuccess, isZero]
  | refused text => simp [listed, Completion.ofReply, Completion.isSuccess, notRun]
  | interrupted interruption =>
      cases interruption <;>
        simp [listed, Completion.ofReply, Completion.isSuccess, notRun, bind, Except.bind]

/-- A listing that is not there is the failure of its command. -/
theorem listed_of_error {failure : Failure} (isHandled : exchange.reply.isHandled = true)
    (fails : exchange.listed = .error failure) : ∃ reason, failure = .listing reason := by
  rcases exchange.reply.exists_completion isHandled exchange.words with ⟨completion, counts, _⟩
  unfold listed at fails
  rw [counts, Result.ok_bind] at fails
  split at fails
  · cases fails
  · cases fails
    exact ⟨_, rfl⟩

end Exchange

namespace Host

variable {host : Host}

/-! ## Single commands -/

theorem tells_issue (words : List String) :
    (issue words).Tells host fun exchanges host' result =>
      ∃ reply, exchanges = [⟨words, reply⟩] ∧ host.IsLike host' ∧ result = .ok reply := by
  refine (tells_bind_of_ok rfl).mpr ((tells_command words).weaken ?_)
  rintro _ _ _ ⟨reply, rfl, rfl, rfl⟩
  exact ⟨reply, rfl, host.isLike_logged _, rfl⟩

theorem tells_execute (words : List String) :
    (execute words).Tells host fun exchanges host' result =>
      ∃ reply, exchanges = [⟨words, reply⟩] ∧ host.IsLike host' ∧
        result = Completion.ofReply words reply := by
  refine (tells_issue words).bind ?_ ?_
  · rintro _ host' reply ⟨_, rfl, isLike, ⟨⟩⟩
    exact (tells_of_done rfl).mpr ⟨reply, rfl, isLike, rfl⟩
  · rintro _ _ _ ⟨_, _, _, ⟨⟩⟩

theorem tells_list (words : List String) :
    (list words).Tells host fun exchanges host' result =>
      ∃ reply, exchanges = [⟨words, reply⟩] ∧ host.IsLike host' ∧
        result = (⟨words, reply⟩ : Exchange).listed := by
  refine (tells_execute words).bind ?_ ?_
  · rintro _ host' completion ⟨reply, rfl, isLike, counts⟩
    have listed : (⟨words, reply⟩ : Exchange).listed =
        if completion.isSuccess then .ok (completion.output.getD "")
        else .error (.listing completion.failure) := by
      rw [Exchange.listed, ← counts]
      rfl
    split
    case isTrue succeeded =>
      exact (tells_of_done rfl).mpr ⟨reply, rfl, isLike, by rw [listed, if_pos succeeded]⟩
    case isFalse failed =>
      exact (tells_of_done rfl).mpr ⟨reply, rfl, isLike, by rw [listed, if_neg failed]⟩
  · rintro _ host' failure ⟨reply, rfl, isLike, fails⟩
    refine ⟨reply, rfl, isLike, ?_⟩
    rw [Exchange.listed, ← fails]
    rfl

end Host

/-! ## Listings -/

/-- The command for a listing of what backends hold. -/
def Backends.listing (backends : Backends) (what : String) : Except Failure (List String) :=
  if what = Session.marksListing then .ok backends.marking.listing
  else backends.shaper.listing what

/-- The command for a listing of what settings apply. -/
def Settings.listing (settings : Settings) (what : String) : Except Failure (List String) :=
  if what = Session.marksListing then .ok settings.marking.listing
  else settings.shaper.listing what

theorem Session.IsFor.listing_eq {session : Session} {settings : Settings}
    (isFor : session.IsFor settings) (what : String) :
    session.backends.listing what = settings.listing what := by
  rw [isFor.backends]
  rfl

namespace Session

open Host

variable {host : Host} {id : SessionId} {session : Session} {settings : Settings}
  {words : List String} {what : String}

theorem contentAt_eq_done {path : Path} (checked : path.check = .ok ()) (host : Host) :
    contentAt path host = .done host (.ok (host.files.read path)) := by
  rw [contentAt, checked]
  rfl

theorem contentAt_eq_error {path : Path} {failure : Failure} (fails : path.check = .error failure)
    (host : Host) : contentAt path host = .done host (.error failure) := by
  rw [contentAt, fails]
  rfl

/-- What is told by itself is told under the reader lock, whether or not there is a file for it. -/
theorem tells_whileShared {body : HostOperation α}
    {after : List Exchange → Host → Except Failure α → Prop}
    (known : host.sessions[id]? = some session) (checked : session.readerLock.check = .ok ())
    (tells : ∀ host₁, host.IsLike host₁ → body.Tells host₁ after) :
    (whileShared id body).Tells host after := by
  refine (tells_bind_of_ok (session_eq_done known)).mpr ?_
  refine (tells_bind_of_ok (contentAt_eq_done checked host)).mpr ?_
  cases host.files.read session.readerLock with
  | ok content => exact tells host (.refl host)
  | error error => exact (tells_bind_of_ok rfl).mpr (tells _ (host.isLike_logged _))

/-- One listing is asked for. -/
theorem tells_read (known : host.sessions[id]? = some session)
    (checked : session.readerLock.check = .ok ())
    (isWords : session.backends.listing what = .ok words) :
    (read id what).Tells host fun exchanges host' result =>
      ∃ reply, exchanges = [⟨words, reply⟩] ∧ host.IsLike host' ∧
        result = (⟨words, reply⟩ : Exchange).listed := by
  refine tells_whileShared known checked fun host₁ isLike => ?_
  have known₁ := isLike.getElem?_sessions known
  have listed : (list words).Tells host₁ fun exchanges host' result =>
      ∃ reply, exchanges = [⟨words, reply⟩] ∧ host.IsLike host' ∧
        result = (⟨words, reply⟩ : Exchange).listed := by
    refine (tells_list words).weaken ?_
    rintro _ _ _ ⟨reply, rfl, isLikeToo, isListed⟩
    exact ⟨reply, rfl, isLike.trans isLikeToo, isListed⟩
  refine (tells_bind_of_ok (session_eq_done known₁)).mpr ?_
  unfold Backends.listing at isWords
  split at isWords
  case isTrue isMarks =>
    cases isWords
    rw [if_pos isMarks]
    exact listed
  case isFalse isOther =>
    have asked : session.shaper.listing what = .ok words := isWords
    rw [if_neg isOther, Shaper.readListing, asked]
    exact listed

theorem read_eq_error {failure : Failure} (known : host.sessions[id]? = some session)
    (fails : session.readerLock.check = .error failure) (what : String) :
    read id what host = .done host (.error failure) := by
  refine (session_bind_apply known).trans (bind_of_error ?_)
  exact contentAt_eq_error fails host

/-! ## Checks -/

namespace Check

variable {check : Check}

/-- What should be in the listing for a check is there. -/
def IsSatisfied (check : Check) (exchange : Exchange) : Prop :=
  ∃ output errors, exchange.reply = .finished 0 output errors ∧
    check.holds (output.getD "").toList = true

/-- A check that is fatal has to be satisfied. -/
def IsPassed (check : Check) (exchange : Exchange) : Prop :=
  check.isFatal = true → check.IsSatisfied exchange

/-- A check asks for its listing. -/
def AsksFor (settings : Settings) (check : Check) (exchange : Exchange) : Prop :=
  settings.listing check.listing = .ok exchange.words

/-- What a check makes of its listing. -/
def verdict (check : Check) : Except Failure String → Except Failure CheckResult
  | .ok listing =>
      .ok { name := check.name, isOk := check.holds listing.toList,
            detail := "expected " ++ check.expected, isFatal := check.isFatal }
  | .error (.listing failure) =>
      .ok { name := check.name, isOk := false, detail := failure.listingMessage,
            isFatal := check.isFatal }
  | .error failure => .error failure

/-- Whether a check fails in a way that counts. -/
def isFailed (result : CheckResult) : Bool :=
  !result.isOk && result.isFatal

theorem exists_verdict {exchange : Exchange} (isHandled : exchange.reply.isHandled = true) :
    ∃ result, check.verdict exchange.listed = .ok result ∧
      (isFailed result = false ↔ check.IsPassed exchange) := by
  cases found : exchange.listed with
  | ok listing =>
      rcases Exchange.listed_eq_ok_iff.mp found with ⟨output, errors, replied, rfl⟩
      refine ⟨_, rfl, ?_⟩
      have satisfied : check.IsSatisfied exchange ↔ check.holds (output.getD "").toList = true := by
        simp [IsSatisfied, replied]
      simp only [IsPassed, satisfied, isFailed]
      cases check.holds (output.getD "").toList <;> cases check.isFatal <;> decide
  | error failure =>
      rcases Exchange.listed_of_error isHandled found with ⟨reason, rfl⟩
      refine ⟨_, rfl, ?_⟩
      have unsatisfied : ¬ check.IsSatisfied exchange := by
        rintro ⟨output, errors, replied, _⟩
        rw [Exchange.listed_eq_ok_iff.mpr ⟨output, errors, replied, rfl⟩] at found
        cases found
      simp [isFailed, IsPassed, unsatisfied]

end Check

theorem performCheck_eq (id : SessionId) (check : Check) :
    performCheck id check = (read id check.listing).andThen fun found host =>
      .done (match found with
        | .ok listing => host.logged (.debug (s!"Check {check.name}: " ++
            if check.holds listing.toList then "ok" else "failed"))
        | .error _ => host) (check.verdict found) := by
  refine andThen_three fun found => ?_
  cases found with
  | ok listing => rfl
  | error failure => cases failure <;> rfl

/-- A check asks for one listing, and nothing changes but what was logged. -/
theorem tells_performCheck {check : Check} {words : List String}
    (known : host.sessions[id]? = some session) (checked : session.readerLock.check = .ok ())
    (isWords : session.backends.listing check.listing = .ok words) :
    (performCheck id check).Tells host fun exchanges host' result => ∃ reply,
      exchanges = [⟨words, reply⟩] ∧ host.IsLike host' ∧
        result = check.verdict (⟨words, reply⟩ : Exchange).listed := by
  rw [performCheck_eq]
  refine tells_andThen.mpr ((tells_read known checked isWords).weaken ?_)
  rintro _ host₁ _ ⟨reply, rfl, isLike, rfl⟩
  refine (tells_of_done rfl).mpr ⟨reply, List.append_nil _, ?_, rfl⟩
  split
  · exact isLike.trans (host₁.isLike_logged _)
  · exact isLike

/-- Checks are made in a row, each by what is heard when its listing is asked for. -/
inductive AreMade (backends : Backends) :
    List Check → List Exchange → List CheckResult → Prop
  | nil : AreMade backends [] [] []
  | cons {check : Check} {exchange : Exchange} {result : CheckResult} {checks exchanges results} :
      backends.listing check.listing = .ok exchange.words →
        check.verdict exchange.listed = .ok result → AreMade backends checks exchanges results →
          AreMade backends (check :: checks) (exchange :: exchanges) (result :: results)

namespace AreMade

variable {backends : Backends} {checks : List Check} {exchanges : List Exchange}
  {results : List CheckResult}

theorem asksFor (made : AreMade settings.backends checks exchanges results) :
    List.Forall₂ (Check.AsksFor settings) checks exchanges := by
  induction made with
  | nil => exact .nil
  | cons asks _ _ induction => exact .cons asks induction

theorem countP_eq_zero_iff (made : AreMade backends checks exchanges results)
    (handled : AreHandled exchanges) :
    results.countP Check.isFailed = 0 ↔ List.Forall₂ Check.IsPassed checks exchanges := by
  induction made with
  | nil => exact iff_of_true rfl .nil
  | @cons check exchange result _ _ _ _ isVerdict _ induction =>
      rcases List.forall_mem_cons.mp handled with ⟨first, others⟩
      rcases check.exists_verdict first with ⟨_, isResult, isFailed⟩
      rw [isVerdict] at isResult
      cases isResult
      rw [List.forall₂_cons, ← isFailed, ← induction others, List.countP_cons]
      cases Check.isFailed result <;> simp

end AreMade

/-- Checks in a row are made, unless they are interrupted. -/
theorem tells_mapM_performCheck {checks : List Check} (known : host.sessions[id]? = some session)
    (checked : session.readerLock.check = .ok ())
    (haveWords : ∀ check ∈ checks, ∃ words, session.backends.listing check.listing = .ok words) :
    (checks.mapM (performCheck id)).Tells host fun exchanges host' result =>
      (∃ results, result = .ok results ∧ host.IsLike host' ∧
        AreMade session.backends checks exchanges results) ∨
        (¬ AreHandled exchanges ∧ ∃ failure, result = .error failure) := by
  induction checks generalizing host with
  | nil => exact (tells_of_done rfl).mpr (.inl ⟨[], rfl, .refl host, .nil⟩)
  | cons check rest induction =>
      rcases List.forall_mem_cons.mp haveWords with ⟨⟨words, isWords⟩, others⟩
      rw [List.mapM_cons]
      refine (tells_performCheck known checked isWords).bind ?_ ?_
      · rintro _ host₁ result ⟨reply, rfl, isLike, isVerdict⟩
        refine (induction (isLike.getElem?_sessions known) others).bind ?_ ?_
        · intro exchanges host₂ results ended
          refine (tells_of_done rfl).mpr ?_
          rw [List.append_nil]
          rcases ended with ⟨_, ⟨⟩, isLikeToo, made⟩ | ⟨_, _, ⟨⟩⟩
          exact .inl ⟨_, rfl, isLike.trans isLikeToo, .cons isWords isVerdict.symm made⟩
        · intro exchanges host₂ failure ended
          rcases ended with ⟨_, ⟨⟩, _⟩ | ⟨unhandled, _⟩
          exact .inr ⟨fun handled => unhandled (List.forall_mem_cons.mp handled).2, failure, rfl⟩
      · rintro _ host₁ failure ⟨reply, rfl, isLike, fails⟩
        refine .inr ⟨fun handled => ?_, failure, rfl⟩
        rcases @Check.exists_verdict check ⟨words, reply⟩
          (handled _ (List.mem_cons_self ..)) with ⟨_, isResult, _⟩
        rw [← fails] at isResult
        cases isResult

theorem exists_listing_of_mem_checksOf (backends : Backends) {tree : ClassTree} {rules : RuleSet}
    {check : Check} (member : check ∈ checksOf tree rules) :
    ∃ words, backends.listing check.listing = .ok words := by
  unfold checksOf at member
  rcases List.mem_append.mp member with fatal | warning
  · simp only [List.mem_cons, List.not_mem_nil, or_false] at fatal
    rcases fatal with rfl | rfl | rfl | rfl
    · exact ⟨_, rfl⟩
    · exact ⟨_, rfl⟩
    · exact ⟨_, rfl⟩
    · exact ⟨_, rfl⟩
  · split at warning
    · cases List.mem_singleton.mp warning
      exact ⟨_, rfl⟩
    · cases warning

/-- Whatever is listed, its command asks for a listing. -/
theorem isListing_of_listing (isWords : settings.listing what = .ok words) :
    isListing words = true := by
  unfold Settings.listing at isWords
  split at isWords
  case isTrue =>
    cases isWords
    rfl
  case isFalse =>
    unfold Shaper.listing at isWords
    split at isWords
    case isFalse => cases isWords
    case isTrue isKnown =>
      cases isWords
      simp only [List.mem_cons, List.not_mem_nil, or_false] at isKnown
      rcases isKnown with rfl | rfl | rfl
      · rfl
      · rfl
      · rfl

/-- A session compiles its settings, and logs what it finds. -/
theorem compile_eq (known : host.sessions[id]? = some session) :
    ∃ log, compile id host = .done { host with log := log }
      (Compiled.ofSettings session.settings (session.roundTripFor session.settings)) := by
  rcases compileWith_eq_done session.settings known with ⟨log, done⟩
  exact ⟨log, (session_bind_apply known).trans done⟩

theorem compile_eq_done (known : host.sessions[id]? = some session)
    (isFor : session.IsFor settings) :
    ∃ log, compile id host =
      .done { host with log := log } (Compiled.ofSettings settings settings.roundTrip) := by
  have done := compile_eq known
  rwa [isFor.own, isFor.roundTripFor] at done

/-- All checks are made, unless they are interrupted. -/
theorem tells_verify_of_ok {compiled : Compiled} (known : host.sessions[id]? = some session)
    (checked : session.readerLock.check = .ok ())
    (compiles : Compiled.ofSettings session.settings (session.roundTripFor session.settings) =
      .ok compiled) :
    (verify id).Tells host fun exchanges _ result =>
      (∃ results, result = .ok results ∧ AreMade session.backends
        (checksOf compiled.tree compiled.rules) exchanges results) ∨
        (¬ AreHandled exchanges ∧ ∃ failure, result = .error failure) := by
  rcases compile_eq known with ⟨log, done⟩
  rw [compiles] at done
  refine (tells_bind_of_ok done).mpr ?_
  have known₁ : ({ host with log := log } : Host).sessions[id]? = some session := known
  refine (tells_mapM_performCheck known₁ checked
    fun _ => exists_listing_of_mem_checksOf session.backends).weaken ?_
  rintro exchanges host₁ result (⟨results, succeeded, _, made⟩ | interrupted)
  · exact .inl ⟨results, succeeded, made⟩
  · exact .inr interrupted

/-- No check is made where the lock must not be looked for. -/
theorem verify_eq_error {compiled : Compiled} {failure : Failure}
    (known : host.sessions[id]? = some session)
    (fails : session.readerLock.check = .error failure)
    (compiles : Compiled.ofSettings session.settings (session.roundTripFor session.settings) =
      .ok compiled) :
    ∃ host', verify id host = .done host' (.error failure) := by
  rcases compile_eq known with ⟨log, done⟩
  rw [compiles] at done
  have known₁ : ({ host with log := log } : Host).sessions[id]? = some session := known
  have isOther : queueCheck.verdict (.error failure) = .error failure := by
    unfold Path.check at fails
    split at fails
    · cases fails
      rfl
    · cases fails
  have breaks : performCheck id queueCheck { host with log := log } =
      .done { host with log := log } (.error failure) := by
    rw [performCheck_eq]
    change Procedure.andThen (read id queueCheck.listing _) _ = _
    rw [read_eq_error known₁ fails, Procedure.done_andThen]
    dsimp only
    rw [isOther]
  have first : checksOf compiled.tree compiled.rules = queueCheck ::
      (checksOf compiled.tree compiled.rules).tail := rfl
  have fallsThrough : (checksOf compiled.tree compiled.rules).mapM (performCheck id)
      { host with log := log } = .done { host with log := log } (.error failure) := by
    rw [first, List.mapM_cons]
    exact bind_of_error breaks
  exact ⟨_, (bind_of_ok done).trans fallsThrough⟩

/-- A verification makes all checks, or none where it must not look for its lock. -/
theorem tells_verify {compiled : Compiled} (known : host.sessions[id]? = some session)
    (isFor : session.IsFor settings)
    (compiles : Compiled.ofSettings settings settings.roundTrip = .ok compiled) :
    (verify id).Tells host fun exchanges _ result => AreHandled exchanges →
      (exchanges = [] ∧ ∃ failure, session.readerLock.check = .error failure ∧
        result = .error failure) ∨
        ∃ results, result = .ok results ∧
          List.Forall₂ (Check.AsksFor settings) (checksOf compiled.tree compiled.rules)
            exchanges ∧
            (results.countP Check.isFailed = 0 ↔
              List.Forall₂ Check.IsPassed (checksOf compiled.tree compiled.rules) exchanges) := by
  have compilesToo : Compiled.ofSettings session.settings
      (session.roundTripFor session.settings) = .ok compiled := by
    rwa [isFor.own, isFor.roundTripFor]
  cases checked : session.readerLock.check with
  | ok value =>
      refine (tells_verify_of_ok known checked compilesToo).weaken ?_
      rintro exchanges host₁ result (⟨results, succeeded, made⟩ | ⟨unhandled, _⟩) handled
      · rw [isFor.backends] at made
        exact .inr ⟨results, succeeded, made.asksFor, made.countP_eq_zero_iff handled⟩
      · exact absurd handled unhandled
  | error failure =>
      rcases verify_eq_error known checked compilesToo with ⟨host', done⟩
      exact (tells_of_done done).mpr fun _ => .inl ⟨rfl, failure, rfl, rfl⟩

end Session

/-! ## The test of the console -/

namespace Console

open Host Session

variable {host : Host} {id : SessionId} {session : Session} {settings : Settings}

/-- Items are shown one after another, and nothing else changes. -/
theorem exists_forM_display (shown : α → Display) (items : List α) (host : Host) :
    ∃ host', (items.forM fun item => display (shown item)) host = .done host' (.ok ⟨⟩) ∧
      host'.sessions = host.sessions := by
  induction items generalizing host with
  | nil => exact ⟨host, rfl, rfl⟩
  | cons item rest induction =>
      rcases induction { host with screen := host.screen ++ [shown item] } with ⟨host', done, same⟩
      exact ⟨host', (bind_of_ok rfl).trans done, same⟩

/-- The test is passed if every fatal check is, or it cannot be made. -/
theorem tells_test {compiled : Compiled} (known : host.sessions[id]? = some session)
    (isFor : session.IsFor settings)
    (compiles : Compiled.ofSettings settings settings.roundTrip = .ok compiled) :
    (test id).Tells host fun exchanges _ result => AreHandled exchanges →
      (exchanges = [] ∧ ∃ failure, session.readerLock.check = .error failure ∧
        result = .error failure) ∨
        ∃ isPassed, result = .ok isPassed ∧
          List.Forall₂ (Check.AsksFor settings) (checksOf compiled.tree compiled.rules)
            exchanges ∧
            (isPassed = true ↔
              List.Forall₂ Check.IsPassed (checksOf compiled.tree compiled.rules) exchanges) := by
  refine (tells_verify known isFor compiles).bind ?_ ?_
  · intro exchanges host₁ results ended
    rcases exists_forM_display Display.ofCheck results host₁ with ⟨host₂, shown, _⟩
    refine (tells_bind_of_ok shown).mpr ?_
    have told : ∃ host₃, (do
        if results.countP Check.isFailed = 0 then record (.info "All tests passed")
        else record (.error s!"{results.countP Check.isFailed} test(s) failed")
        return results.countP Check.isFailed = 0 : HostOperation Bool) host₂ =
          .done host₃ (.ok (decide (results.countP Check.isFailed = 0))) := by
      split
      · exact ⟨_, rfl⟩
      · exact ⟨_, rfl⟩
    rcases told with ⟨host₃, done⟩
    refine (tells_of_done done).mpr fun handled => ?_
    rw [List.append_nil] at handled ⊢
    rcases ended handled with ⟨_, _, _, ⟨⟩⟩ | ⟨_, ⟨⟩, asked, passed⟩
    exact .inr ⟨_, rfl, asked, by rw [decide_eq_true_eq, passed]⟩
  · intro exchanges host₁ failure ended handled
    rcases ended handled with ⟨rfl, _, checked, ⟨⟩⟩ | ⟨_, ⟨⟩, _⟩
    exact .inl ⟨rfl, failure, checked, rfl⟩

end Console

end UplinkShaper
