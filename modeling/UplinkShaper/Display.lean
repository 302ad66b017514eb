import UplinkShaper.Counter.Snapshot
import UplinkShaper.Shaping.Tier

/-!
What a console shows: lines with markup, tables, and panels around either.
-/

namespace UplinkShaper

structure Table where
  title : Option String
  columns : List String
  rows : List (List String)
deriving DecidableEq, Repr

inductive PanelBody
  | text (text : String)
  | table (table : Table)
deriving DecidableEq, Repr

structure Panel where
  title : Option String
  body : PanelBody
deriving DecidableEq, Repr

inductive Display
  | line (text : String)
  | table (table : Table)
  | panel (panel : Panel)
  /-- A panel that is redrawn so many times a second. -/
  | live (panel : Panel) (refresh : Double)
deriving DecidableEq, Repr

namespace Display

/-! ## Cells -/

/-- What stands for something unknown or absent. -/
def absent : String := "-"

/-- A number and its unit; doubles in six significant digits. -/
def quantity (unit : String) : Number → String
  | .whole value => toString value ++ unit
  | .real value => value.general ++ unit

def optionalQuantity (unit : String) : Option Number → String
  | some value => quantity unit value
  | none => absent

/-- Larger units, each of 1024 of the one before it. -/
def scaled (size : Double) : List String → String
  | [] => size.fixed 1
  | [last] => size.fixed 1 ++ " " ++ last
  | unit :: larger =>
      if size.compare? (.finite 1024) = some .lt then size.fixed 1 ++ " " ++ unit
      else scaled (size.div (.finite 1024)) larger

/-- A count of bytes in the unit that suits its size. -/
def byteSize (count : Number) : Except Failure String := do
  let size ← arithmetic count.toDouble
  if size.compare? (.finite 1024) = some .lt then
    return toString (← arithmetic size.wholePart) ++ " B"
  else return scaled (size.div (.finite 1024)) ["KB", "MB", "GB", "TB"]

def byteReading : Reading Nat → Except Failure String
  | .unknown => .ok absent
  | .known count => byteSize (.whole count)

def countCell : Reading Nat → String
  | .unknown => absent
  | .known count => toString count

def rateCell : Reading Double → String
  | .unknown => absent
  | .known rate => quantity "kbit" (.real rate)

/-- Lost packets are shown in red. -/
def droppedCell : Reading Nat → String
  | .unknown => absent
  | .known 0 => "0"
  | .known count => s!"[red]{count}[/red]"

/-! ## Tables -/

def countersRow (counters : ClassCounters) : Except Failure (List String) := do
  return [
    counters.handle,
    counters.label,
    countCell counters.packets,
    ← byteReading counters.bytes,
    rateCell counters.rate,
    droppedCell counters.dropped]

def ofSnapshot (snapshot : Snapshot) : Except Failure Table := do
  return {
    title := some s!"{snapshot.device}  {snapshot.capturedAt.clockText}"
    columns := ["Class", "Label", "Packets", "Bytes", "Rate", "Dropped"]
    rows := ← snapshot.classes.mapM countersRow }

def curveCell (curve : ServiceCurve) : String :=
  match curve.burst with
  | none => "ls only"
  | some burst =>
      let duration := (Value.ofOption .whole burst.duration).literal
      quantity "kbit" burst.rate ++ s!"/{duration}ms -> " ++ quantity "kbit" curve.sustained

def tierRow (tier : Tier) : Except Failure (List String) := do
  return [
    tier.handle,
    tier.label,
    tier.priority.name,
    s!"{tier.rate}kbit",
    curveCell tier.curve,
    ← byteSize (.whole tier.buffer)]

def ofTree (tree : ClassTree) : Except Failure Table := do
  return {
    title := some s!"HFSC classes ({tree.capacity.direction.name} {tree.capacity.rate}kbit)"
    columns := ["Class", "Label", "Priority", "Rate", "Curve", "Buffer"]
    rows := ← tree.tiers.mapM tierRow }

end Display

end UplinkShaper
