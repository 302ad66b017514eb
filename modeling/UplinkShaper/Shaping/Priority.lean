import UplinkShaper.Failure
import UplinkShaper.Text.Lowercase

/-!
Priority classes: how a tier is scheduled, from the one that tolerates the least
delay to the one that tolerates the most.
-/

namespace UplinkShaper

inductive Priority
  | realtimeStrict
  | realtimeBurstable
  | shared
  | bulk
deriving DecidableEq, Repr, Inhabited

namespace Priority

def name : Priority → String
  | .realtimeStrict => "realtime_strict"
  | .realtimeBurstable => "realtime_burstable"
  | .shared => "shared"
  | .bulk => "bulk"

/-- The place in the order of scheduling, from zero. -/
def rank : Priority → Nat
  | .realtimeStrict => 0
  | .realtimeBurstable => 1
  | .shared => 2
  | .bulk => 3

def isRealtime : Priority → Bool
  | .realtimeStrict | .realtimeBurstable => true
  | .shared | .bulk => false

/-- The class with a name; some classes have an older name too. -/
def ofName? : String → Option Priority
  | "realtime_strict" | "realtime" => some .realtimeStrict
  | "realtime_burstable" | "interactive" => some .realtimeBurstable
  | "shared" | "normal" => some .shared
  | "bulk" => some .bulk
  | _ => none

theorem ofName?_name (priority : Priority) : ofName? priority.name = some priority := by
  cases priority <;> rfl

/-- The form in which names are compared: without blanks at the ends, in lower
case, and with underscores for hyphens. -/
def normalized (text : String) : String :=
  (Text.lowercase (Text.stripped text)).map fun character =>
    if character = '-' then '_' else character

def ofValue? (value : Value) : Option Priority :=
  ofName? (normalized value.plain)

def read (value : Value) : Except Failure Priority :=
  match ofValue? value with
  | some priority => .ok priority
  | none => .error (.invalid (.priority value))

end Priority

end UplinkShaper
