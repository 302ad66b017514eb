import UplinkShaper.Shaping.Buffer
import UplinkShaper.Shaping.Curve
import UplinkShaper.Shaping.Link

/-!
Tiers, before and after their rates are known, and the class tree that the known
ones form. The root class has the id 1; every tier names its parent by id.
-/

namespace UplinkShaper

def rootId : Int := 1

/-- The id of the default tier, where nothing else is said. -/
def defaultTierId : Int := 999

inductive TierKind
  /-- A rate is set aside for the tier. -/
  | reserved
  /-- The tier gets a share of its parent's rate. -/
  | percentage
deriving DecidableEq, Repr, Inhabited

namespace TierKind

def name : TierKind → String
  | .reserved => "reserved"
  | .percentage => "percentage"

def read : Value → Except Failure TierKind
  | .text "reserved" => .ok .reserved
  | .text "percentage" => .ok .percentage
  | value => .error (.invalid (.tierKind value))

end TierKind

structure TierSpec where
  id : Value
  label : String
  kind : TierKind
  priority : Priority
  share : Option Number
  rate : Option Number
  ratePercent : Option Number
  parent : Number
deriving Repr

namespace TierSpec

/-- The default tier: bulk traffic, with what its siblings leave over unless it has
a share of its own. -/
def standard (share : Option Number) : TierSpec where
  id := .whole defaultTierId
  label := "Default"
  kind := .percentage
  priority := .bulk
  share := share
  rate := none
  ratePercent := none
  parent := .whole rootId

def toValue (spec : TierSpec) : Value :=
  .record [
    ("id", spec.id),
    ("kind", .text spec.kind.name),
    ("label", .text spec.label),
    ("parent", .number spec.parent),
    ("priority", .text spec.priority.name),
    ("rate_kbps", .ofOption .number spec.rate),
    ("rate_percent", .ofOption .number spec.ratePercent),
    ("share", .ofOption .number spec.share)]

end TierSpec

/-- A tier with its rate, curve and queue limit. -/
structure Tier where
  id : Int
  label : String
  parent : Number
  kind : TierKind
  priority : Priority
  /-- Kilobits per second. -/
  rate : Int
  curve : ServiceCurve
  /-- The queue limit in bytes. -/
  buffer : Int
  share : Option Number
  isDefault : Bool
deriving DecidableEq, Repr

namespace Tier

def handle (tier : Tier) : String :=
  classHandle (toString tier.id)

def isChildOf (id : Int) (tier : Tier) : Bool :=
  tier.parent.eq (.whole id)

def toValue (tier : Tier) : Value :=
  .record [
    ("id", .whole tier.id),
    ("classid", .text tier.handle),
    ("label", .text tier.label),
    ("parent", .text (classHandle tier.parent.text)),
    ("kind", .text tier.kind.name),
    ("priority", .text tier.priority.name),
    ("share_percent", .ofOption .number tier.share),
    ("rate_kbps", .whole tier.rate),
    ("curve", tier.curve.toValue),
    ("buffer_bytes", .whole tier.buffer),
    ("default", .boolean tier.isDefault)]

end Tier

/-- What the compiler of class trees points out without refusing. -/
inductive AllocationWarning
  /-- The shares under a parent leave some of its rate to no one. -/
  | idle (parent : Number) (total : Double)
  /-- The guaranteed rates add up to more than the link has. -/
  | oversubscribed (nominal capacity : Int)
deriving DecidableEq, Repr

def AllocationWarning.message : AllocationWarning → String
  | .idle parent total =>
      let rest := (Double.finite 100).sub total
      s!"shares under {classHandle parent.text} sum to {total.general}%; " ++
        s!"{rest.general}% left idle"
  | .oversubscribed nominal capacity =>
      s!"guaranteed rates total {nominal}kbit, above the {capacity}kbit link; " ++
        "link-sharing will arbitrate"

/-- The shaping hierarchy. A parent stands before its children. -/
structure ClassTree where
  capacity : LinkCapacity
  tiers : List Tier
  warnings : List AllocationWarning
deriving DecidableEq, Repr

namespace ClassTree

def find? (tree : ClassTree) (id : Int) : Option Tier :=
  tree.tiers.find? fun tier => tier.id == id

def default? (tree : ClassTree) : Option Tier :=
  tree.tiers.find? (·.isDefault)

def children (tree : ClassTree) (id : Int) : List Tier :=
  tree.tiers.filter (·.isChildOf id)

def isInner (tree : ClassTree) (tier : Tier) : Bool :=
  tree.tiers.any (·.isChildOf tier.id)

/-- The labels of the classes by handle, the root first. -/
def labels (tree : ClassTree) : List (String × String) :=
  (classHandle "1", "ROOT") :: tree.tiers.map fun tier => (tier.handle, tier.label)

def toValue (tree : ClassTree) : Value :=
  .record [
    ("capacity", tree.capacity.toValue),
    ("tiers", .list (tree.tiers.map (·.toValue))),
    ("warnings", .list (tree.warnings.map fun warning => .text warning.message))]

end ClassTree

end UplinkShaper
