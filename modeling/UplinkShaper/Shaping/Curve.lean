import UplinkShaper.Shaping.Priority

/-!
Service curves. A realtime tier gets a concave curve of two segments, a short
burst above the sustained rate and then the sustained rate; the other tiers get a
rate for sharing the link only.
-/

namespace UplinkShaper

/-- The first segment of a two-segment curve. -/
structure Burst where
  /-- Kilobits per second. -/
  rate : Number
  /-- Milliseconds; a burst that is given by hand may leave them open. -/
  duration : Option Int
deriving DecidableEq, Repr

structure ServiceCurve where
  /-- Kilobits per second. -/
  sustained : Number
  burst : Option Burst
deriving DecidableEq, Repr

/-- How far and how long the bursts of a priority class reach. -/
structure BurstProfile where
  multiplier : Double
  duration : Int
deriving DecidableEq, Repr

def Priority.burstProfile? : Priority → Option BurstProfile
  | .realtimeStrict => some { multiplier := .finite 2, duration := 10 }
  | .realtimeBurstable => some { multiplier := .finite (3 / 2), duration := 20 }
  | .shared | .bulk => none

theorem Priority.burstProfile?_isSome (priority : Priority) :
    priority.burstProfile?.isSome = priority.isRealtime := by
  cases priority <;> rfl

namespace ServiceCurve

def ofRate (rate : Number) (priority : Priority) : Except Failure ServiceCurve :=
  match priority.burstProfile? with
  | none => .ok { sustained := rate, burst := none }
  | some profile => do
      let reached ← arithmetic (rate.mul (.real profile.multiplier))
      return {
        sustained := rate
        burst := some { rate := reached.simplify, duration := some profile.duration } }

/-- The curve for a rate and the name of a priority class. The rate is looked at
first. -/
def build (rate : Option Number) (priority : Value) (tier : Value) :
    Except Failure ServiceCurve :=
  match rate with
  | none => .error (.curve { tier := tier, value := .null })
  | some sustained =>
      if sustained.le 0 then .error (.curve { tier := tier, value := .number sustained })
      else do ofRate sustained (← Priority.read priority)

def toValue (curve : ServiceCurve) : Value :=
  .record <|
    ("sustained_kbps", .number curve.sustained) ::
      match curve.burst with
      | none => []
      | some burst =>
          [("burst_kbps", .number burst.rate), ("burst_ms", .ofOption .whole burst.duration)]

/-- The text that plans show for a curve. -/
def literal (curve : ServiceCurve) : String :=
  let burst := curve.burst.map (·.rate)
  let duration := curve.burst.bind (·.duration)
  s!"ServiceCurve(sustained_rate_kbps={curve.sustained.text}, " ++
    "burst_rate_kbps=" ++ (Value.ofOption .number burst).literal ++ ", " ++
    "burst_duration_ms=" ++ (Value.ofOption .whole duration).literal ++ ")"

end ServiceCurve

end UplinkShaper
