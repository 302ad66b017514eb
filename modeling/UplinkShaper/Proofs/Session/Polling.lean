import UplinkShaper.Proofs.Counter.Legible
import UplinkShaper.Proofs.Session.Checking

/-!
Polls. A poll reads the counters once, while no backend is changed, and what it reads decides
everything else: the listing becomes a snapshot, which the session remembers, or there is no
listing and no snapshot.
-/

namespace UplinkShaper

open Operation Procedure Result

namespace Session

open Host

variable {host host' : Host} {id : SessionId} {session : Session} {interval : Number}

/-! ## Counters -/

/-- Read the listing of the counters. -/
def readCounters (id : SessionId) : HostOperation String :=
  whileShared id do (← Host.session id).shaper.readCounters

/-- The command for the counters is run once. Only where the lock must not be looked for it is not,
and that is no failure of a listing. -/
theorem tells_readCounters (known : host.sessions[id]? = some session) :
    (readCounters id).Tells host fun exchanges host' read => host.IsLike host' ∧
      ((∃ reply, exchanges = [⟨session.shaper.counters, reply⟩] ∧
          read = (⟨session.shaper.counters, reply⟩ : Exchange).listed) ∨
        (session.readerLock.check ≠ .ok () ∧ ∃ value, read = .error (.invalid value))) := by
  cases checked : session.readerLock.check with
  | ok value =>
      refine tells_whileShared known checked fun host₁ isLike => ?_
      have known₁ := isLike.getElem?_sessions known
      refine (tells_bind_of_ok (session_eq_done known₁)).mpr ?_
      refine (tells_list session.shaper.counters).weaken fun _ _ _ listed => ?_
      rcases listed with ⟨reply, rfl, isLikeToo, isListed⟩
      exact ⟨isLike.trans isLikeToo, .inl ⟨reply, rfl, isListed⟩⟩
  | error failure =>
      have isInvalid : ∃ value, failure = .invalid value := by
        unfold Path.check at checked
        split at checked
        · cases checked
          exact ⟨_, rfl⟩
        · cases checked
      have done : readCounters id host = .done host (.error failure) :=
        (bind_of_ok (session_eq_done known)).trans (bind_of_error (contentAt_eq_error checked host))
      refine (tells_of_done done).mpr ⟨.refl host, .inr ⟨nofun, ?_⟩⟩
      rcases isInvalid with ⟨value, rfl⟩
      exact ⟨value, rfl⟩

/-! ## Snapshots -/

/-- Make a snapshot of a listing, and remember it. -/
def remember (id : SessionId) (listing : String) : HostOperation Snapshot := do
  let session ← Host.session id
  let snapshot ← Snapshot.ofListing session.labels session.device (← get).now listing
  changeSession id fun session => { session with latest := some snapshot }
  return snapshot

theorem snapshot_eq (id : SessionId) : snapshot id = readCounters id >>= remember id := rfl

/-- What a session makes of what is read at some moment. -/
def made (session : Session) (now : Moment) (read : Except Failure String) :
    Except Failure Snapshot :=
  read >>= Snapshot.ofListing session.labels session.device now

/-- A session that remembers what was made, if that is a snapshot. -/
def remembering (session : Session) (made : Except Failure Snapshot) : Session :=
  { session with latest := made.toOption.or session.latest }

theorem exists_remember_eq_done (known : host.sessions[id]? = some session) (listing : String) :
    ∃ host', remember id listing host = .done host' (session.made host.now (.ok listing)) ∧
      host'.sessions[id]? = some (session.remembering (session.made host.now (.ok listing))) := by
  have found : remember id listing host = _ :=
    (bind_of_ok (session_eq_done known)).trans (bind_of_ok rfl)
  cases isMade : session.made host.now (.ok listing) with
  | error failure =>
      have fails : (Operation.ofResult (session.made host.now (.ok listing)) :
          HostOperation Snapshot) host = .done host (.error failure) := by
        rw [isMade]
        rfl
      exact ⟨host, found.trans (bind_of_error fails), known⟩
  | ok snapshot =>
      have succeeds : (Operation.ofResult (session.made host.now (.ok listing)) :
          HostOperation Snapshot) host = .done host (.ok snapshot) := by
        rw [isMade]
        rfl
      exact ⟨_, (found.trans (bind_of_ok succeeds)).trans (bind_of_ok rfl), getElem?_modify known⟩

/-- A snapshot is made of what is read, and read are the counters. -/
theorem tells_snapshot_of_read (known : host.sessions[id]? = some session) :
    (snapshot id).Tells host fun exchanges host' result => ∃ middle read,
      (readCounters id host).Says exchanges middle read ∧ result = session.made host.now read ∧
        host'.sessions[id]? = some (session.remembering result) := by
  rw [snapshot_eq]
  have reads : (readCounters id).Tells host fun exchanges host' read =>
      (readCounters id host).Says exchanges host' read ∧ host.IsLike host' :=
    fun _ _ _ told => ⟨told, (tells_readCounters known _ _ _ told).1⟩
  refine reads.bind ?_ ?_
  · rintro exchanges host₁ listing ⟨told, log, rfl⟩
    have knownStill : ({ host with log := log } : Host).sessions[id]? = some session := known
    rcases exists_remember_eq_done knownStill listing with ⟨host', done, remembers⟩
    refine (tells_of_done done).mpr ⟨{ host with log := log }, .ok listing, ?_, rfl, remembers⟩
    rw [List.append_nil]
    exact told
  · rintro exchanges host₁ failure ⟨told, log, rfl⟩
    exact ⟨_, .error failure, told, rfl, known⟩

/-! ## Polls -/

/-- What a poll makes of a snapshot that was asked for. -/
def orRetry (interval : Number) : Except Failure Snapshot → HostOperation (Option Snapshot)
  | .ok snapshot => pure (some snapshot)
  | .error (.listing failure) => do
      record (.warning (s!"Counter poll failed, retrying in {interval.text}s: " ++
        failure.listingMessage))
      return none
  | .error failure => throw failure

theorem poll_eq (id : SessionId) (interval : Number) :
    poll id interval = (snapshot id).andThen (orRetry interval) := by
  refine andThen_three fun found => ?_
  cases found with
  | ok snapshot => rfl
  | error failure => cases failure <;> rfl

/-- What comes of a poll: a snapshot, none where there is no listing, or another failure. -/
def polled : Except Failure Snapshot → Except Failure (Option Snapshot)
  | .ok snapshot => .ok (some snapshot)
  | .error (.listing _) => .ok none
  | .error failure => .error failure

theorem toOption_of_polled {made : Except Failure Snapshot} {found : Option Snapshot}
    (isFound : polled made = .ok found) : made.toOption = found := by
  cases made with
  | ok snapshot => exact Except.ok.inj isFound
  | error failure =>
      cases failure with
      | listing failure => exact Except.ok.inj isFound
      | _ => cases isFound

theorem exists_orRetry_eq_done (interval : Number) (made : Except Failure Snapshot) (host : Host) :
    ∃ host', orRetry interval made host = .done host' (polled made) ∧
      host'.sessions = host.sessions := by
  cases made with
  | ok snapshot => exact ⟨host, rfl, rfl⟩
  | error failure =>
      cases failure with
      | listing failure => exact ⟨_, rfl, logged_sessions ..⟩
      | _ => exact ⟨host, rfl, rfl⟩

/-- What a poll reads decides what comes of it and what the session remembers. -/
theorem tells_poll (known : host.sessions[id]? = some session) :
    (poll id interval).Tells host fun exchanges host' result => ∃ middle read,
      (readCounters id host).Says exchanges middle read ∧
        result = polled (session.made host.now read) ∧
          host'.sessions[id]? = some (session.remembering (session.made host.now read)) := by
  rw [poll_eq]
  refine tells_andThen.mpr ((tells_snapshot_of_read known).weaken ?_)
  rintro exchanges host₁ made ⟨middle, read, told, rfl, remembers⟩
  rcases exists_orRetry_eq_done interval (session.made host.now read) host₁ with
    ⟨host₂, done, same⟩
  refine (tells_of_done done).mpr ⟨middle, read, ?_, rfl, same ▸ remembers⟩
  rw [List.append_nil]
  exact told

/-! ## Polls in a row -/

/-- One more poll in a row, of which nothing is made but the list of snapshots. -/
theorem says_pollUpTo_succ {count : Nat} {exchanges : List Exchange} {shown : List Snapshot} :
    (pollUpTo id interval (fun _ => return) (count + 1) host).Says exchanges host'
        (.ok shown) ↔
      ∃ sooner later host₁ found others, exchanges = sooner ++ later ∧
        (poll id interval host).Says sooner host₁ (.ok found) ∧
          (pollUpTo id interval (fun _ => return) count host₁).Says later host'
            (.ok others) ∧ shown = found.toList ++ others := by
  constructor
  · intro told
    rcases says_andThen.mp told with ⟨sooner, later, host₁, found, rfl, polls, rest⟩
    rcases found with failure | snapshot | snapshot
    · cases rest
    · exact ⟨sooner, later, host₁, none, shown, rfl, polls, rest, rfl⟩
    · change (Procedure.andThen (pollUpTo id interval (fun _ => return) count host₁) _).Says
        _ _ _ at rest
      rcases says_andThen.mp rest with ⟨later, _, _, others, rfl, goesOn, last⟩
      cases others with
      | error failure => cases last
      | ok others =>
          cases last
          exact ⟨sooner, _, host₁, some snapshot, others, rfl, polls,
            (List.append_nil later).symm ▸ goesOn, rfl⟩
  · rintro ⟨sooner, later, host₁, found, others, rfl, polls, rest, rfl⟩
    refine says_andThen.mpr ⟨sooner, later, host₁, .ok found, rfl, polls, ?_⟩
    cases found with
    | none => exact rest
    | some snapshot =>
        change (Procedure.andThen (pollUpTo id interval (fun _ => return) count host₁) _).Says
          _ _ _
        exact says_andThen.mpr
          ⟨later, [], host', .ok others, (List.append_nil later).symm, rest, .done⟩

/-- A watch at a positive interval is a row of polls. -/
theorem watch_eq (positive : interval.le 0 = false) (count : Nat)
    (consume : Snapshot → HostOperation Unit) :
    watch id interval count consume = pollUpTo id interval consume count := by
  unfold watch
  rw [positive]
  rfl

end Session

/-! ## Polls seen from outside -/

/-- A poll seen from outside: of which session it is and when it is made, what is said and heard,
and what is read. -/
structure Poll where
  session : Session
  now : Moment
  exchanges : List Exchange
  read : Except Failure String

namespace Poll

variable {poll : Poll} {id : SessionId} {interval : Number} {host host' : Host} {session : Session}
  {result : Except Failure (Option Snapshot)}

/-- What is made of what is read. -/
def made (poll : Poll) : Except Failure Snapshot :=
  poll.session.made poll.now poll.read

def snapshot? (poll : Poll) : Option Snapshot :=
  poll.made.toOption

/-- A poll that gets a listing of legible counters, or hears that there is none. -/
inductive IsAnswered (poll : Poll) : Prop
  | listed {snapshot : Snapshot} : poll.made = .ok snapshot → IsAnswered poll
  | unlisted {failure : CommandFailure} : poll.read = .error (.listing failure) → IsAnswered poll

/-- An answer is no failure of the poll. -/
theorem IsAnswered.exists_polled (answered : poll.IsAnswered) :
    ∃ found, Session.polled poll.made = .ok found := by
  cases answered with
  | listed isMade => exact ⟨_, congrArg Session.polled isMade⟩
  | unlisted unlisted =>
      rw [made, unlisted]
      exact ⟨none, rfl⟩

/-- A poll of a session finds one host and leaves another one. -/
structure Leaves (poll : Poll) (id : SessionId) (interval : Number) (host host' : Host)
    (result : Except Failure (Option Snapshot)) : Prop where
  found : host.sessions[id]? = some poll.session
  timed : host.now = poll.now
  reads : ∃ middle, (Session.readCounters id host).Says poll.exchanges middle poll.read
  tells : (Session.poll id interval host).Says poll.exchanges host' result

namespace Leaves

theorem spec (leaves : poll.Leaves id interval host host' result) :
    result = Session.polled poll.made ∧
      host'.sessions[id]? = some (poll.session.remembering poll.made) := by
  rcases leaves.reads with ⟨_, reads⟩
  rcases Session.tells_poll leaves.found _ _ _ leaves.tells with
    ⟨_, read, readsToo, isResult, remembers⟩
  rcases reads.unique readsToo with ⟨_, rfl⟩
  rw [leaves.timed] at isResult remembers
  exact ⟨isResult, remembers⟩

/-- An answer is what is heard at the only command. -/
theorem asks (leaves : poll.Leaves id interval host host' result) (answered : poll.IsAnswered) :
    ∃ reply, poll.exchanges = [⟨poll.session.shaper.counters, reply⟩] ∧
      poll.read = (⟨poll.session.shaper.counters, reply⟩ : Exchange).listed := by
  rcases leaves.reads with ⟨_, reads⟩
  rcases Session.tells_readCounters leaves.found _ _ _ reads with ⟨_, asked | ⟨_, value, fails⟩⟩
  · exact asked
  · cases answered with
    | listed isMade =>
        rw [made, fails] at isMade
        cases isMade
    | unlisted unlisted =>
        rw [fails] at unlisted
        cases unlisted

end Leaves

/-- Whatever is said and heard by a poll, it is seen from outside. -/
theorem exists_of_says {exchanges : List Exchange} (known : host.sessions[id]? = some session)
    (told : (Session.poll id interval host).Says exchanges host' result) :
    ∃ poll : Poll, poll.Leaves id interval host host' result ∧ poll.session = session ∧
      poll.exchanges = exchanges := by
  rcases Session.tells_poll known _ _ _ told with ⟨middle, read, reads, _, _⟩
  exact ⟨⟨session, host.now, exchanges, read⟩, ⟨known, rfl, ⟨middle, reads⟩, told⟩, rfl, rfl⟩

/-- Whatever is replied, a poll can be made. -/
theorem exists_leaves (known : host.sessions[id]? = some session) (interval : Number)
    (reply : Reply) :
    ∃ (poll : Poll) (host' : Host) (result : Except Failure (Option Snapshot)),
      poll.Leaves id interval host host' result ∧ poll.session = session ∧
        (session.readerLock.check = .ok () →
          poll.read = (⟨session.shaper.counters, reply⟩ : Exchange).listed) := by
  let runner : Runner Unit := fun memory _ => (memory, reply)
  rcases says_run (Session.poll id interval host) runner () [] with
    ⟨exchanges, _, told, answers⟩
  rcases exists_of_says known told with ⟨poll, leaves, rfl, rfl⟩
  refine ⟨poll, _, _, leaves, rfl, fun checked => ?_⟩
  rcases leaves.reads with ⟨_, reads⟩
  rcases Session.tells_readCounters known _ _ _ reads with
    ⟨_, ⟨heard, asked, isRead⟩ | ⟨unchecked, _⟩⟩
  · rw [asked] at answers
    have isReply : reply = heard := answers.1
    exact isReply ▸ isRead
  · exact absurd checked unchecked

/-- A poll can fail, and leaves the session as it was. -/
theorem exists_unlisted (known : host.sessions[id]? = some session) (interval : Number)
    (checked : session.readerLock.check = .ok ()) :
    ∃ (poll : Poll) (host' : Host), poll.Leaves id interval host host' (.ok none) ∧
      poll.IsAnswered ∧ poll.snapshot? = none ∧ host'.sessions[id]? = some session := by
  rcases exists_leaves known interval (.refused "") with
    ⟨poll, host', result, leaves, rfl, reads⟩
  have unlisted : ∃ reason, poll.read = .error (.listing reason) := ⟨_, reads checked⟩
  rcases unlisted with ⟨reason, unlisted⟩
  have isMade : poll.made = .error (.listing reason) := by
    rw [made, unlisted]
    rfl
  rcases leaves.spec with ⟨isResult, remembers⟩
  rw [isMade] at isResult remembers
  subst isResult
  exact ⟨poll, host', leaves, .unlisted unlisted, congrArg Except.toOption isMade, remembers⟩

/-- A poll can succeed, with any listing that is legible. -/
theorem exists_listed (known : host.sessions[id]? = some session) (interval : Number)
    (checked : session.readerLock.check = .ok ()) {listing : String}
    (legible : Text.IsLegible listing.toList) :
    ∃ (poll : Poll) (host' : Host) (snapshot : Snapshot),
      poll.Leaves id interval host host' (.ok (some snapshot)) ∧ poll.IsAnswered ∧
        poll.snapshot? = some snapshot := by
  rcases exists_leaves known interval (.finished 0 (some listing) none) with
    ⟨poll, host', result, leaves, rfl, reads⟩
  rcases Snapshot.exists_ofListing legible poll.session.labels poll.session.device poll.now with
    ⟨snapshot, isMade, _⟩
  have isMade : poll.made = .ok snapshot := by
    rw [made, reads checked]
    exact isMade
  have isResult := leaves.spec.1
  rw [isMade] at isResult
  subst isResult
  exact ⟨poll, host', snapshot, leaves, .listed isMade, congrArg Except.toOption isMade⟩

end Poll

end UplinkShaper
