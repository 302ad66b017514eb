import UplinkShaper.Proofs.Session.Orderly
import UplinkShaper.Proofs.Session.Overflow
import UplinkShaper.Proofs.Session.Polling

/-!
A watch turn by turn. In each turn it polls once, shows the snapshot if there is one, and waits
until its interval is over. Whoever is shown a snapshot may stop the watch before asking for the
next one; others may do so at any other time, and may change the host in between.
-/

namespace UplinkShaper

open Operation Procedure Result

/-! ## Watches -/

namespace Watch

/-- Where a watch stands between two moves. -/
inductive Stand
  | starting
  | checking
  | showing (snapshot : Snapshot)
  | waiting
  | ended
  | failed (failure : Failure)

namespace Stand

/-- Where a watch stands after a poll. -/
def ofResult : Except Failure (Option Snapshot) → Stand
  | .ok (some snapshot) => .showing snapshot
  | .ok none => .waiting
  | .error failure => .failed failure

def snapshot? : Stand → Option Snapshot
  | .showing snapshot => some snapshot
  | _ => none

/-- How many turns are under way. -/
def turns : Stand → Nat
  | .showing _ | .waiting | .failed _ => 1
  | _ => 0

def isOver : Stand → Bool
  | .ended | .failed _ => true
  | _ => false

/-- How many moves a stopped watch still makes. -/
def distance : Stand → Nat
  | .starting | .showing _ => 2
  | .checking | .waiting => 1
  | .ended | .failed _ => 0

theorem distance_le (stand : Stand) : stand.distance ≤ 2 := by
  cases stand <;> simp [distance]

end Stand

end Watch

structure Watch where
  host : Host
  isStopped : Bool
  /-- The snapshots that were shown so far. -/
  shown : List Snapshot
  stand : Watch.Stand

namespace Watch

inductive Move
  /-- Begin, if the interval is positive. -/
  | start
  /-- Find that the watch is stopped. -/
  | leave
  /-- Find that the watch is not stopped, and poll. -/
  | poll (poll : Poll)
  /-- The next snapshot is asked for. -/
  | resume
  /-- The watch is stopped, or its interval is over. -/
  | wake
  /-- The interval is too long to wait for. -/
  | overflow
  /-- Someone stops the watch. -/
  | stop
  /-- Others change the host, but not what the session remembers. -/
  | meanwhile
  /-- Others read the counters of the session. -/
  | disturb

namespace Move

def poll? : Move → Option Poll
  | .poll made => some made
  | _ => none

def isWake : Move → Bool
  | .wake => true
  | _ => false

/-- A move of the watch itself. -/
def isOwn : Move → Bool
  | .stop | .meanwhile | .disturb => false
  | _ => true

/-- A move that others make with the host. -/
def isForeign : Move → Bool
  | .meanwhile | .disturb => true
  | _ => false

end Move

/-- A watch before its first move. -/
def ofHost (host : Host) : Watch where
  host := host
  isStopped := false
  shown := []
  stand := .starting

/-- What a watch of a session does next. It looks whether it is stopped before a poll and after a
wait, so a stop in the middle of a turn is like one after the poll; and it cannot wait for more
than the longest time. -/
inductive Step (id : SessionId) (interval longest : Number) : Watch → Move → Watch → Prop
  | start {host isStopped shown} :
      Step id interval longest ⟨host, isStopped, shown, .starting⟩ .start
        ⟨host, isStopped, shown,
          if interval.le 0 then .failed (.invalid .interval) else .checking⟩
  | leave {host shown} :
      Step id interval longest ⟨host, true, shown, .checking⟩ .leave ⟨host, true, shown, .ended⟩
  | poll {host host' shown result} {poll : Poll} :
      poll.Leaves id interval host host' result →
        Step id interval longest ⟨host, false, shown, .checking⟩ (.poll poll)
          ⟨host', false, shown ++ (Stand.ofResult result).snapshot?.toList, .ofResult result⟩
  | resume {host isStopped shown snapshot} :
      Step id interval longest ⟨host, isStopped, shown, .showing snapshot⟩ .resume
        ⟨host, isStopped, shown, .waiting⟩
  | wake {host isStopped shown} : isStopped = true ∨ longest.lt interval = false →
      Step id interval longest ⟨host, isStopped, shown, .waiting⟩ .wake
        ⟨host, isStopped, shown, if isStopped then .ended else .checking⟩
  | overflow {host shown} : longest.lt interval = true →
      Step id interval longest ⟨host, false, shown, .waiting⟩ .overflow
        ⟨host, false, shown, .failed .overflow⟩
  | stop {host isStopped shown stand} :
      Step id interval longest ⟨host, isStopped, shown, stand⟩ .stop ⟨host, true, shown, stand⟩
  | meanwhile {host host' isStopped shown stand} {session session' : Session} :
      host.sessions[id]? = some session → host'.sessions[id]? = some session' →
        session'.latest = session.latest →
          Step id interval longest ⟨host, isStopped, shown, stand⟩ .meanwhile
            ⟨host', isStopped, shown, stand⟩
  | disturb {host host' isStopped shown stand} {session : Session} :
      host'.sessions[id]? = some session →
        Step id interval longest ⟨host, isStopped, shown, stand⟩ .disturb
          ⟨host', isStopped, shown, stand⟩

inductive Runs (id : SessionId) (interval longest : Number) : Watch → List Move → Watch → Prop
  | nil {watch} : Runs id interval longest watch [] watch
  | cons {first move middle moves last} : Step id interval longest first move middle →
      Runs id interval longest middle moves last →
        Runs id interval longest first (move :: moves) last

/-- The polls among some moves. -/
def polls (moves : List Move) : List Poll :=
  moves.filterMap Move.poll?

theorem polls_cons (move : Move) (moves : List Move) :
    polls (move :: moves) = move.poll?.toList ++ polls moves := by
  cases found : move.poll? with
  | none => exact List.filterMap_cons_none found
  | some poll => exact List.filterMap_cons_some found

/-- The session has a snapshot, which is the last one that was shown, or an earlier one while there
was none. -/
def Remembers (id : SessionId) (earlier : Option Snapshot) (watch : Watch) : Prop :=
  ∃ session, watch.host.sessions[id]? = some session ∧
    session.latest = watch.shown.getLast?.or earlier

/-- A watch that ended was stopped, and one that failed could not wait so long. -/
structure EndsWell (interval longest : Number) (watch : Watch) : Prop where
  stopped : watch.stand = .ended → watch.isStopped = true
  overflows : ∀ failure, watch.stand = .failed failure →
    failure = .overflow ∧ longest.lt interval = true

variable {id : SessionId} {interval longest : Number} {first middle last watch next : Watch}
  {move : Move} {moves before after : List Move} {host host' : Host} {session : Session}
  {earlier : Option Snapshot}

/-! ## Single moves -/

namespace Step

/-- A snapshot is shown if and only if it is made of what a poll reads. -/
theorem shown (step : Step id interval longest watch move next) :
    next.shown = watch.shown ++ (move.poll?.bind Poll.snapshot?).toList := by
  cases step with
  | poll leaves =>
      rename_i poll
      rw [leaves.spec.1]
      change _ = _ ++ poll.made.toOption.toList
      cases poll.made with
      | ok snapshot => rfl
      | error failure => cases failure <;> rfl
  | _ => exact (List.append_nil _).symm

/-- A poll finds the host before it, and leaves another one. -/
theorem exists_leaves {poll : Poll} (step : Step id interval longest watch move next)
    (polls : move.poll? = some poll) :
    ∃ host' result, poll.Leaves id interval watch.host host' result := by
  cases step with
  | poll leaves =>
      cases polls
      exact ⟨_, _, leaves⟩
  | _ => cases polls

theorem turns (positive : interval.le 0 = false) (step : Step id interval longest watch move next) :
    move.poll?.toList.length + watch.stand.turns =
      (if move.isWake then 1 else 0) + next.stand.turns := by
  cases step with
  | start =>
      rw [positive]
      rfl
  | @poll _ _ _ result _ _ =>
      change 1 + 0 = 0 + (Stand.ofResult result).turns
      rcases result with failure | snapshot | snapshot <;> rfl
  | @wake _ isStopped => cases isStopped <;> rfl
  | _ => rfl

/-- A watch that is stopped makes no polls, and each of its moves takes it closer to its end. -/
theorem closer (positive : interval.le 0 = false) (step : Step id interval longest watch move next)
    (isStopped : watch.isStopped = true) :
    next.isStopped = true ∧ move.poll? = none ∧
      (if move.isOwn then 1 else 0) + next.stand.distance = watch.stand.distance := by
  cases step with
  | start =>
      refine ⟨isStopped, rfl, ?_⟩
      rw [positive]
      rfl
  | leave => exact ⟨rfl, rfl, rfl⟩
  | resume => exact ⟨isStopped, rfl, rfl⟩
  | wake =>
      cases isStopped
      exact ⟨rfl, rfl, rfl⟩
  | stop => exact ⟨rfl, rfl, Nat.zero_add _⟩
  | meanwhile => exact ⟨isStopped, rfl, Nat.zero_add _⟩
  | disturb => exact ⟨isStopped, rfl, Nat.zero_add _⟩
  | poll => cases isStopped
  | overflow => cases isStopped

theorem isStopped_of_stop (step : Step id interval longest watch .stop next) :
    next.isStopped = true := by
  cases step
  rfl

/-- The host keeps the session. -/
theorem known (step : Step id interval longest watch move next)
    (known : ∃ session, watch.host.sessions[id]? = some session) :
    ∃ session, next.host.sessions[id]? = some session := by
  cases step with
  | poll leaves => exact ⟨_, leaves.spec.2⟩
  | meanwhile _ knownStill _ => exact ⟨_, knownStill⟩
  | disturb knownStill => exact ⟨_, knownStill⟩
  | _ => exact known

/-- As long as polls are answered, a watch only ends when it is stopped, and only fails where it
cannot wait. -/
theorem endsWell (positive : interval.le 0 = false)
    (step : Step id interval longest watch move next)
    (answered : ∀ poll ∈ move.poll?, poll.IsAnswered) (well : watch.EndsWell interval longest) :
    next.EndsWell interval longest := by
  cases step with
  | start =>
      rw [positive]
      exact ⟨nofun, nofun⟩
  | leave => exact ⟨fun _ => rfl, nofun⟩
  | poll leaves =>
      rcases (answered _ rfl).exists_polled with ⟨found, isFound⟩
      rw [leaves.spec.1, isFound]
      cases found with
      | none => exact ⟨nofun, nofun⟩
      | some snapshot => exact ⟨nofun, nofun⟩
  | resume => exact ⟨nofun, nofun⟩
  | @wake _ isStopped =>
      cases isStopped with
      | false => exact ⟨nofun, nofun⟩
      | true => exact ⟨fun _ => rfl, nofun⟩
  | overflow tooLong => exact ⟨nofun, fun _ failed => ⟨(Stand.failed.inj failed).symm, tooLong⟩⟩
  | stop => exact ⟨fun _ => rfl, well.overflows⟩
  | meanwhile => exact ⟨well.stopped, well.overflows⟩
  | disturb => exact ⟨well.stopped, well.overflows⟩

/-- A poll makes the session remember what it shows, and only others make it forget that. -/
theorem remembers (step : Step id interval longest watch move next)
    (undisturbed : move ≠ .disturb) (remembers : watch.Remembers id earlier) :
    next.Remembers id earlier := by
  have shows := step.shown
  rcases remembers with ⟨session, known, isLatest⟩
  cases step with
  | @poll _ _ _ _ poll leaves =>
      have same : session = poll.session := Option.some.inj (known.symm.trans leaves.found)
      refine ⟨_, leaves.spec.2, ?_⟩
      rw [shows, List.getLast?_append, Option.or_assoc, ← isLatest, same]
      change poll.made.toOption.or _ = poll.made.toOption.toList.getLast?.or _
      cases poll.made.toOption <;> rfl
  | meanwhile knownBefore knownStill sameLatest =>
      have same := Option.some.inj (known.symm.trans knownBefore)
      exact ⟨_, knownStill, sameLatest.trans (same ▸ isLatest)⟩
  | disturb => exact absurd rfl undisturbed
  | _ => exact ⟨session, known, isLatest⟩

/-- Unless it is over, a watch can always move on. -/
theorem exists_own (known : host.sessions[id]? = some session) (knows : watch.host = host)
    (goesOn : watch.stand.isOver = false) :
    ∃ move next, move.isOwn = true ∧ Step id interval longest watch move next := by
  rcases watch with ⟨_, isStopped, shown, stand⟩
  cases knows
  cases stand with
  | starting => exact ⟨.start, _, rfl, .start⟩
  | checking =>
      cases isStopped with
      | true => exact ⟨.leave, _, rfl, .leave⟩
      | false =>
          rcases Poll.exists_leaves known interval (.refused "") with ⟨poll, _, _, leaves, _⟩
          exact ⟨.poll poll, _, rfl, .poll leaves⟩
  | showing snapshot => exact ⟨.resume, _, rfl, .resume⟩
  | waiting =>
      cases isStopped with
      | true => exact ⟨.wake, _, rfl, .wake (.inl rfl)⟩
      | false =>
          cases tooLong : longest.lt interval with
          | true => exact ⟨.overflow, _, rfl, .overflow tooLong⟩
          | false => exact ⟨.wake, _, rfl, .wake (.inr tooLong)⟩
  | ended => cases goesOn
  | failed => cases goesOn

end Step

/-! ## Runs -/

namespace Runs

theorem of_append (runs : Runs id interval longest first (before ++ after) last) :
    ∃ middle, Runs id interval longest first before middle ∧
      Runs id interval longest middle after last := by
  induction before generalizing first with
  | nil => exact ⟨first, .nil, runs⟩
  | cons move rest induction =>
      cases runs with
      | cons step runs =>
          rcases induction runs with ⟨middle, sooner, later⟩
          exact ⟨middle, .cons step sooner, later⟩

theorem shown (runs : Runs id interval longest first moves last) :
    last.shown = first.shown ++ (polls moves).filterMap Poll.snapshot? := by
  induction runs with
  | nil => exact (List.append_nil _).symm
  | @cons _ move _ _ _ step _ induction =>
      rw [induction, step.shown, List.append_assoc, polls_cons, List.filterMap_append]
      cases found : move.poll? with
      | none => rfl
      | some poll => cases made : poll.snapshot? <;> simp [made]

theorem turns (positive : interval.le 0 = false)
    (runs : Runs id interval longest first moves last) :
    (polls moves).length + first.stand.turns = moves.countP Move.isWake + last.stand.turns := by
  induction runs with
  | nil => exact rfl
  | cons step _ induction =>
      have turn := step.turns positive
      rw [polls_cons, List.length_append, List.countP_cons]
      omega

/-- Each poll of a run finds some host, and leaves another one. -/
theorem exists_leaves {poll : Poll} (runs : Runs id interval longest first moves last)
    (among : poll ∈ polls moves) :
    ∃ host host' result, poll.Leaves id interval host host' result := by
  induction runs with
  | nil => cases among
  | cons step _ induction =>
      rw [polls_cons] at among
      rcases List.mem_append.mp among with isFirst | isLater
      · exact ⟨_, step.exists_leaves (Option.mem_toList.mp isFirst)⟩
      · exact induction isLater

theorem known (runs : Runs id interval longest first moves last)
    (known : ∃ session, first.host.sessions[id]? = some session) :
    ∃ session, last.host.sessions[id]? = some session := by
  induction runs with
  | nil => exact known
  | cons step _ induction => exact induction (step.known known)

theorem endsWell (positive : interval.le 0 = false)
    (runs : Runs id interval longest first moves last)
    (answered : ∀ poll ∈ polls moves, poll.IsAnswered) (well : first.EndsWell interval longest) :
    last.EndsWell interval longest := by
  induction runs with
  | nil => exact well
  | cons step _ induction =>
      rw [polls_cons, List.forall_mem_append] at answered
      rcases answered with ⟨isFirst, others⟩
      exact induction others (step.endsWell positive
        (fun poll among => isFirst poll (Option.mem_toList.mpr among)) well)

theorem remembers (runs : Runs id interval longest first moves last)
    (undisturbed : ∀ move ∈ moves, move ≠ .disturb) (remembers : first.Remembers id earlier) :
    last.Remembers id earlier := by
  induction runs with
  | nil => exact remembers
  | cons step _ induction =>
      rcases List.forall_mem_cons.mp undisturbed with ⟨isFirst, others⟩
      exact induction others (step.remembers isFirst remembers)

/-- After a stop there are no polls, and few moves. -/
theorem closer (positive : interval.le 0 = false)
    (runs : Runs id interval longest first moves last) (isStopped : first.isStopped = true) :
    polls moves = [] ∧ moves.countP Move.isOwn + last.stand.distance = first.stand.distance := by
  induction runs with
  | nil => exact ⟨rfl, Nat.zero_add _⟩
  | @cons _ move _ rest _ step _ induction =>
      rcases step.closer positive isStopped with ⟨stillStopped, noPoll, closer⟩
      rcases induction stillStopped with ⟨noPolls, closerStill⟩
      refine ⟨by rw [polls_cons, noPoll, noPolls]; rfl, ?_⟩
      rw [List.countP_cons]
      omega

end Runs

/-! ## Polls in a row -/

/-- Polls in a row are turns of a watch that is stopped after the last one. -/
theorem exists_runs_of_says_pollUpTo {count : Nat} {exchanges : List Exchange}
    {others : List Snapshot} (known : host.sessions[id]? = some session)
    (canWait : longest.lt interval = false) (shown : List Snapshot)
    (told : (Session.pollUpTo id interval (fun _ => return) count host).Says exchanges host'
      (.ok others)) :
    ∃ moves, Runs id interval longest ⟨host, false, shown, .checking⟩ moves
        ⟨host', true, shown ++ others, .ended⟩ ∧
      (∀ move ∈ moves, move.isForeign = false) ∧ (polls moves).length = count ∧
        (polls moves).flatMap (·.exchanges) = exchanges := by
  -- The watch stands before its look at the stop, and whatever was shown so far is kept.
  induction count generalizing host session exchanges others shown with
  | zero =>
      cases told
      rw [List.append_nil]
      exact ⟨[.stop, .leave], .cons .stop (.cons .leave .nil), by decide, rfl, rfl⟩
  | succ count induction =>
      rcases Session.says_pollUpTo_succ.mp told with
        ⟨sooner, later, host₁, found, others, rfl, polled, rest, rfl⟩
      rcases Poll.exists_of_says known polled with ⟨poll, leaves, rfl, rfl⟩
      rcases induction leaves.spec.2 (shown ++ found.toList) rest with
        ⟨moves, runs, alone, sameCount, sameExchanges⟩
      rw [List.append_assoc] at runs
      have waits : Runs id interval longest ⟨host₁, false, shown ++ found.toList, .waiting⟩
          (.wake :: moves) ⟨host', true, shown ++ (found.toList ++ others), .ended⟩ :=
        .cons (.wake (.inr canWait)) runs
      cases found with
      | none =>
          refine ⟨.poll poll :: .wake :: moves, .cons (.poll leaves) waits, ?_, ?_, ?_⟩
          · exact List.forall_mem_cons.mpr ⟨rfl, List.forall_mem_cons.mpr ⟨rfl, alone⟩⟩
          · exact congrArg (· + 1) sameCount
          · exact congrArg (poll.exchanges ++ ·) sameExchanges
      | some snapshot =>
          refine ⟨.poll poll :: .resume :: .wake :: moves,
            .cons (.poll leaves) (.cons .resume waits), ?_, ?_, ?_⟩
          · exact List.forall_mem_cons.mpr ⟨rfl, List.forall_mem_cons.mpr ⟨rfl,
              List.forall_mem_cons.mpr ⟨rfl, alone⟩⟩⟩
          · exact congrArg (· + 1) sameCount
          · exact congrArg (poll.exchanges ++ ·) sameExchanges

namespace Runs

/-- Nothing follows a failure of the watch. -/
theorem failed {failure : Failure} (runs : Runs id interval longest first moves last)
    (failed : first.stand = .failed failure) : last.stand = .failed failure := by
  induction runs with
  | nil => exact failed
  | cons step _ induction =>
      refine induction ?_
      cases step with
      | stop => exact failed
      | meanwhile => exact failed
      | disturb => exact failed
      | _ => cases failed

/-- A run that nobody interferes with polls in a row. -/
theorem says_pollUpTo (runs : Runs id interval longest first moves last)
    (alone : ∀ move ∈ moves, move.isForeign = false) (ended : last.stand = .ended) :
    (Session.pollUpTo id interval (fun _ => return) (polls moves).length first.host).Says
      ((polls moves).flatMap (·.exchanges)) last.host
        (.ok ((polls moves).filterMap Poll.snapshot?)) := by
  induction runs with
  | nil => exact .done
  | cons step runs induction =>
      rcases List.forall_mem_cons.mp alone with ⟨isOwn, alone⟩
      have goesOn := induction alone ended
      cases step with
      | @poll host host' shown result poll leaves =>
          cases result with
          | error failure =>
              -- A watch that failed does not come to its end.
              have fails := runs.failed rfl
              rw [ended] at fails
              cases fails
          | ok found =>
              have isShown : poll.snapshot? = found :=
                Session.toOption_of_polled leaves.spec.1.symm
              refine Session.says_pollUpTo_succ.mpr
                ⟨poll.exchanges, _, host', found, _, rfl, leaves.tells, goesOn, ?_⟩
              rw [polls_cons, List.filterMap_append, ← isShown]
              cases made : poll.snapshot? <;> simp [Move.poll?, made]
      | meanwhile => cases isOwn
      | disturb => cases isOwn
      | _ => exact goesOn

end Runs

/-- The watches that end without interference are those that the session makes. -/
theorem says_watch_iff {count : Nat} {exchanges : List Exchange} {shown : List Snapshot}
    (positive : interval.le 0 = false) (canWait : longest.lt interval = false)
    (known : host.sessions[id]? = some session) :
    (Session.watch id interval count (fun _ => return) host).Says exchanges host' (.ok shown) ↔
      ∃ moves, Runs id interval longest (.ofHost host) moves ⟨host', true, shown, .ended⟩ ∧
        (∀ move ∈ moves, move.isForeign = false) ∧ (polls moves).length = count ∧
          (polls moves).flatMap (·.exchanges) = exchanges := by
  rw [Session.watch_eq positive]
  constructor
  · intro told
    rcases exists_runs_of_says_pollUpTo known canWait [] told with
      ⟨moves, runs, alone, sameCount, sameExchanges⟩
    have begins : Step id interval longest (.ofHost host) .start ⟨host, false, [], .checking⟩ := by
      have start := @Step.start id interval longest host false []
      rwa [positive] at start
    exact ⟨.start :: moves, .cons begins runs, List.forall_mem_cons.mpr ⟨rfl, alone⟩, sameCount,
      sameExchanges⟩
  · rintro ⟨moves, runs, alone, rfl, rfl⟩
    have isShown : shown = [] ++ (polls moves).filterMap Poll.snapshot? := runs.shown
    rw [isShown]
    exact runs.says_pollUpTo alone rfl

/-! ## Reliable watches -/

/-- How a watch is going after some moves, where the session remembered a snapshot, or none, before
the first of them. -/
structure IsReliable (id : SessionId) (interval longest : Number) (earlier : Option Snapshot)
    (moves : List Move) (last : Watch) : Prop where
  /-- What was shown is what polls made of what they read. -/
  shown : last.shown = (polls moves).filterMap Poll.snapshot?
  /-- A poll runs the command for the counters once, and reads what is replied. -/
  asks : ∀ poll ∈ polls moves, ∃ reply,
    poll.exchanges = [⟨poll.session.shaper.counters, reply⟩] ∧
      poll.read = (⟨poll.session.shaper.counters, reply⟩ : Exchange).listed
  /-- There is one poll in each turn. -/
  turns : (polls moves).length = moves.countP Move.isWake + last.stand.turns
  /-- No poll ends it, not even one that gets no listing. -/
  endsWell : last.EndsWell interval longest
  /-- It never hangs. -/
  goesOn : last.stand.isOver = false →
    ∃ move next, move.isOwn = true ∧ Step id interval longest last move next
  /-- Once it is stopped, it does not poll, and comes to its end. -/
  stops : ∀ before after, moves = before ++ .stop :: after →
    polls after = [] ∧ after.countP Move.isOwn + last.stand.distance ≤ 2
  /-- Unless others read the counters, the session remembers what was shown last. -/
  remembers : (∀ move ∈ moves, move ≠ .disturb) → last.Remembers id earlier

theorem Runs.isReliable (positive : interval.le 0 = false)
    (known : host.sessions[id]? = some session)
    (runs : Runs id interval longest (.ofHost host) moves last)
    (answered : ∀ poll ∈ polls moves, poll.IsAnswered) :
    IsReliable id interval longest session.latest moves last where
  shown := runs.shown
  asks poll among := by
    rcases runs.exists_leaves among with ⟨_, _, _, leaves⟩
    exact leaves.asks (answered poll among)
  turns := runs.turns positive
  endsWell := runs.endsWell positive answered ⟨nofun, nofun⟩
  goesOn goesOn := by
    rcases runs.known ⟨session, known⟩ with ⟨_, knownStill⟩
    exact Step.exists_own knownStill rfl goesOn
  stops before after parts := by
    subst parts
    rcases runs.of_append with ⟨middle, _, later⟩
    cases later with
    | cons step later =>
        rcases later.closer positive step.isStopped_of_stop with ⟨noPolls, closer⟩
        exact ⟨noPolls, closer.trans_le (Stand.distance_le _)⟩
  remembers undisturbed := runs.remembers undisturbed ⟨session, known, rfl⟩

end Watch

end UplinkShaper
