import UplinkShaper.Host

/-!
Running the commands of the backends. A command that cannot be run counts as one that
failed; only an interruption of the program itself goes through. Commands differ in
what their failure means: a change that fails is a failure, a listing that fails too,
and a removal that fails had nothing to remove.
-/

namespace UplinkShaper

/-- The code of a command that could not be run. -/
def notRun : Int := 127

/-- A command that was run, or that counts as run. -/
structure Completion where
  words : List String
  code : Int
  output : Option String
  errors : Option String
deriving DecidableEq, Repr

namespace Completion

def isSuccess (completion : Completion) : Bool :=
  completion.code = 0

def failure (completion : Completion) : CommandFailure where
  words := completion.words
  code := completion.code
  errors := completion.errors.getD ""

def ofReply (words : List String) : Reply → Except Failure Completion
  | .finished code output errors =>
      .ok { words := words, code := code, output := output, errors := errors }
  | .refused text | .interrupted (.subprocess text) | .interrupted (.timeout text) =>
      .ok { words := words, code := notRun, output := some "", errors := some text }
  | .interrupted interruption => .error (.interrupted interruption)

/-- What is logged of a removal that fails. -/
def ignoredRecord (completion : Completion) : LogRecord :=
  .debug (s!"Ignored failure of {shownWords completion.words}: " ++
    Text.stripped (completion.errors.getD ""))

end Completion

namespace Host

/-- Log a command and run it. -/
def issue (words : List String) : HostOperation Reply := do
  record (.debug ("Executing: " ++ shownWords words))
  Operation.command words

def execute (words : List String) : HostOperation Completion := do
  Completion.ofReply words (← issue words)

/-- Run a command that changes a backend. -/
def change (words : List String) : HostOperation Unit := do
  let completion ← execute words
  if !completion.isSuccess then throw (.apply completion.failure)

/-- Run a command that removes something, which may not be there. -/
def discard (words : List String) : HostOperation Bool := do
  let completion ← execute words
  if !completion.isSuccess then record completion.ignoredRecord
  return completion.isSuccess

/-- Run a command that lists something. -/
def list (words : List String) : HostOperation String := do
  let completion ← execute words
  if completion.isSuccess then return completion.output.getD ""
  else throw (.listing completion.failure)

end Host

/-! ## The shaper -/

namespace Shaper

open Host

def applyRoot (shaper : Shaper) (capacity : LinkCapacity) (default : Int) :
    HostOperation Unit := do
  change (shaper.rootQueue default)
  change (shaper.rootClass (← Words.rate (.whole capacity.rate)))

def applyClass (shaper : Shaper) (id : Int) (parent : Number) (curve : ServiceCurve) :
    HostOperation Unit := do
  change (shaper.shapingClass id parent (← Words.curve curve))

def applyLeafQueue (shaper : Shaper) (id : Int) (kind : String) (limit : Int) :
    HostOperation Unit := do
  change (shaper.leafQueue id (← queueWords kind limit))

def applyFilter (shaper : Shaper) (filter : MarkFilter) : HostOperation Unit :=
  change (shaper.markFilter filter)

def clear (shaper : Shaper) : HostOperation Unit := do
  let _ ← discard shaper.dropRoot
  let _ ← discard shaper.dropIngress

def readCounters (shaper : Shaper) : HostOperation String :=
  list shaper.counters

def readListing (shaper : Shaper) (what : String) : HostOperation String := do
  list (← shaper.listing what)

end Shaper

/-! ## The marking side -/

namespace Marking

open Host

/-- How many copies of the hook are looked for. -/
def largestHookCount : Nat := 8

/-- Remove copies of the hook until none is left, at most so many. -/
def unhookUpTo (marking : Marking) : Nat → HostOperation Unit
  | 0 => return
  | count + 1 => do
      if ← discard marking.detach then marking.unhookUpTo count

/-- Remove all copies of the hook, stale ones too. -/
def unhook (marking : Marking) : HostOperation Unit :=
  marking.unhookUpTo largestHookCount

/-- Leave an empty chain that nothing leads to. -/
def clear (marking : Marking) : HostOperation Unit := do
  let _ ← discard marking.create
  change marking.empty
  marking.unhook

def applyHook (marking : Marking) : HostOperation Unit :=
  change marking.attach

def applyMark (marking : Marking) (rule : ClassificationRule) : HostOperation Unit := do
  change (marking.mark (← ruleWords rule) rule.mark)

def applyLog (marking : Marking) : HostOperation Unit :=
  change marking.logMarks

def removeChain (marking : Marking) : HostOperation Unit := do
  marking.unhook
  let _ ← discard marking.empty
  let _ ← discard marking.remove

def readListing (marking : Marking) : HostOperation String :=
  list marking.listing

end Marking

/-! ## Plans -/

structure Backends where
  shaper : Shaper
  marking : Marking
deriving DecidableEq, Repr

namespace Backends

def take (backends : Backends) : PlanStep → HostOperation Unit
  | .root capacity default => backends.shaper.applyRoot capacity default
  | .shapingClass id parent curve => backends.shaper.applyClass id parent curve
  | .leafQueue id kind limit => backends.shaper.applyLeafQueue id kind limit
  | .clearMarks => backends.marking.clear
  | .attachMarks => backends.marking.applyHook
  | .mark rule => backends.marking.applyMark rule
  | .logMarks => backends.marking.applyLog
  | .markFilter filter => backends.shaper.applyFilter filter

/-- Take steps, which are the last ones of so many. -/
def takeAll (backends : Backends) (total : Nat) : List PlanStep → HostOperation Unit
  | [] => return
  | step :: rest => do
      Host.record (.debug s!"[{total - rest.length}/{total}] {step.describe}")
      backends.take step
      backends.takeAll total rest

def execute (backends : Backends) (plan : Plan) : HostOperation Unit :=
  backends.takeAll plan.steps.length plan.steps

/-- Remove everything that a plan could have built. -/
def teardown (backends : Backends) : HostOperation Unit := do
  backends.shaper.clear
  backends.marking.removeChain

end Backends

end UplinkShaper
