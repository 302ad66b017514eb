import UplinkShaper.Failure

/-!
The link that is shaped: a direction of traffic and a positive rate.
-/

namespace UplinkShaper

inductive Direction
  | upload
  | download
deriving DecidableEq, Repr, Inhabited

namespace Direction

def name : Direction → String
  | .upload => "upload"
  | .download => "download"

def read : Value → Except Failure Direction
  | .text "upload" => .ok .upload
  | .text "download" => .ok .download
  | value => .error (.invalid (.direction value))

/-- The text that plans show for a direction. -/
def literal : Direction → String
  | .upload => "<Direction.UPLOAD: 'upload'>"
  | .download => "<Direction.DOWNLOAD: 'download'>"

end Direction

structure LinkCapacity where
  direction : Direction
  /-- Kilobits per second. -/
  rate : Int
  positive : 0 < rate
deriving DecidableEq, Repr

namespace LinkCapacity

def refusal (value : Value) : Failure :=
  .ofAllocation { cause := .capacityNotPositive, tier := .null, value := value }

/-- The capacity that a value denotes, which has to be a positive whole number. -/
def read (direction : Direction) (value : Value) : Except Failure LinkCapacity :=
  match value with
  | .number (.whole rate) =>
      if positive : 0 < rate then .ok ⟨direction, rate, positive⟩ else .error (refusal value)
  | _ => .error (refusal value)

def toValue (capacity : LinkCapacity) : Value :=
  .record [("direction", .text capacity.direction.name), ("rate_kbps", .whole capacity.rate)]

/-- The text that plans show for a capacity. -/
def literal (capacity : LinkCapacity) : String :=
  s!"LinkCapacity(direction={capacity.direction.literal}, rate_kbps={capacity.rate})"

end LinkCapacity

end UplinkShaper
