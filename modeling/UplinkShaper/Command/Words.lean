import UplinkShaper.Classify.Rules
import UplinkShaper.Shaping.Curve

/-!
The words of commands for rates, curves and matches. A rate is written in kilobits,
as a whole number where it is one and with up to three places elsewhere.
-/

namespace UplinkShaper

namespace Words

/-- Up to three places, without zeros at their end. The point stays. -/
def threePlaces (value : Double) : String :=
  String.ofList (Decimal.dropTrailingZeros (value.fixed 3).toList)

def double (value : Double) : String :=
  match (Number.real value).toInt? with
  | some whole => toString whole
  | none => threePlaces value

/-- A rate in kilobits per second. -/
def rate (value : Number) : Except Failure String := do
  return double (← arithmetic value.toDouble) ++ "kbit"

/-- The realtime curve, if there is one, and the rate for sharing the link. -/
def curve (curve : ServiceCurve) : Except Failure (List String) := do
  let realtime ←
    match curve.burst with
    | none => pure []
    | some burst => do
        let duration := (Value.ofOption .whole burst.duration).literal ++ "ms"
        pure ["rt", "m1", ← rate burst.rate, "d", duration, "m2", ← rate curve.sustained]
  return realtime ++ ["ls", "rate", ← rate curve.sustained]

/-- What a rule looks for. A word that is absent stays absent. -/
def matching (spec : MatchSpec) : List (Option String) :=
  match spec.kind with
  | .address =>
      [some (if spec.side = some .source then "-s" else "-d"), spec.address]
  | .port =>
      [some "-p", spec.protocol, some ("--" ++ MatchSpec.shown spec.sideName), spec.portRange]
  | _ => [some "-p", spec.protocol]

end Words

end UplinkShaper
