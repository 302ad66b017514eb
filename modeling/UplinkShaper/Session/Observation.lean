import UplinkShaper.Backend.Execution
import UplinkShaper.Session.Compiled
import UplinkShaper.Session.Lock

/-!
Looking at what the backends hold: counters, listings, and checks of the listings
against what the settings compile to.
-/

namespace UplinkShaper

namespace Session

open Host

/-! ## Counters -/

/-- Read the counters. The snapshot becomes the latest one of the session. -/
def snapshot (id : SessionId) : HostOperation Snapshot := do
  let listing ← whileShared id do (← session id).shaper.readCounters
  let session ← session id
  let snapshot ← Snapshot.ofListing session.labels session.device (← get).now listing
  changeSession id fun session => { session with latest := some snapshot }
  return snapshot

/-- Read the counters, unless they cannot be listed. -/
def poll (id : SessionId) (interval : Number) : HostOperation (Option Snapshot) := do
  try
    return some (← snapshot id)
  catch
    | .listing failure =>
        record (.warning (s!"Counter poll failed, retrying in {interval.text}s: " ++
          failure.listingMessage))
        return none
    | failure => throw failure

/-- Poll so many times, and show each snapshot as soon as it is there. -/
def pollUpTo (id : SessionId) (interval : Number) (consume : Snapshot → HostOperation Unit) :
    Nat → HostOperation (List Snapshot)
  | 0 => return []
  | count + 1 => do
      match ← poll id interval with
      | none => pollUpTo id interval consume count
      | some snapshot => do
          consume snapshot
          return snapshot :: (← pollUpTo id interval consume count)

/-- Poll at an interval that is positive, until so many polls are made. The snapshots are
those of the polls that succeed. -/
def watch (id : SessionId) (interval : Number) (polls : Nat)
    (consume : Snapshot → HostOperation Unit) : HostOperation (List Snapshot) := do
  if interval.le 0 then throw (.invalid .interval)
  pollUpTo id interval consume polls

/-! ## Listings -/

def marksListing : String := "marks"

/-- A listing of queues, classes, filters or marks. -/
def read (id : SessionId) (what : String) : HostOperation String :=
  whileShared id do
    let session ← session id
    if what = marksListing then session.marking.readListing else session.shaper.readListing what

/-! ## Checks -/

/-- What a check found. A failed check that is not fatal is a warning. -/
structure CheckResult where
  name : String
  isOk : Bool
  detail : String
  isFatal : Bool
deriving DecidableEq, Repr

/-- What a listing should show. -/
structure Check where
  name : String
  listing : String
  holds : List Char → Bool
  expected : String
  isFatal : Bool

/-- Whether a line of the marking side counts packets of the control message protocol. -/
def isCountedMark (line : List Char) : Bool :=
  match (Text.words line).map String.ofList with
  | packets :: _ :: target :: protocol :: _ =>
      target = "MARK" && (protocol = "icmp" || protocol = "1") && packets != "0"
  | _ => false

def isMarkFilter (line : List Char) : Bool :=
  Text.occursIn " fw".toList line && Text.occursIn "handle".toList line

/-- The number of classes that a class tree makes, the root among them. -/
def classCount (tree : ClassTree) : Nat :=
  tree.tiers.length + 1

def queueCheck : Check where
  name := "qdisc"
  listing := "qdisc"
  holds := Text.occursIn "qdisc hfsc 1:".toList
  expected := "HFSC root qdisc"
  isFatal := true

def classesCheck (tree : ClassTree) : Check where
  name := "classes"
  listing := "class"
  holds listing := classCount tree ≤ Text.occurrences "class hfsc".toList listing
  expected := s!"{classCount tree} classes"
  isFatal := true

def filtersCheck (rules : RuleSet) : Check where
  name := "filters"
  listing := "filter"
  holds listing := rules.filters.length ≤ (Text.lines listing).countP isMarkFilter
  expected := s!"{rules.filters.length} fw filters"
  isFatal := true

def marksCheck : Check where
  name := "marks"
  listing := marksListing
  holds := Text.occursIn "MARK".toList
  expected := "MARK rules"
  isFatal := true

/-- A counter that stays at zero may only mean that nothing was sent. -/
def controlMarksCheck : Check where
  name := "icmp_marks"
  listing := marksListing
  holds listing := (Text.lines listing).any isCountedMark
  expected := "ICMP packets counted by a MARK rule"
  isFatal := false

def checksOf (tree : ClassTree) (rules : RuleSet) : List Check :=
  [queueCheck, classesCheck tree, filtersCheck rules, marksCheck] ++
    if rules.rules.any fun rule => rule.spec.protocol == some "icmp" then [controlMarksCheck]
    else []

/-- Make a check. One whose listing cannot be read fails. -/
def performCheck (id : SessionId) (check : Check) : HostOperation CheckResult := do
  try
    let isOk := check.holds (← read id check.listing).toList
    record (.debug (s!"Check {check.name}: " ++ if isOk then "ok" else "failed"))
    return {
      name := check.name, isOk := isOk, detail := "expected " ++ check.expected,
      isFatal := check.isFatal }
  catch
    | .listing failure =>
        return {
          name := check.name, isOk := false, detail := failure.listingMessage,
          isFatal := check.isFatal }
    | failure => throw failure

/-- Check that the backends hold what the settings compile to. -/
def verify (id : SessionId) : HostOperation (List CheckResult) := do
  let compiled ← compile id
  (checksOf compiled.tree compiled.rules).mapM (performCheck id)

end Session

end UplinkShaper
