import UplinkShaper.Address
import UplinkShaper.Failure

/-!
Match specifications: what a classification rule looks for in a packet. A rule is
about ports of a protocol, about every packet of a protocol, or about addresses.
-/

namespace UplinkShaper

inductive MatchKind
  | port
  | protocol
  | address
  /-- Any other name is kept; such a rule compares ports. -/
  | other (name : String)
deriving DecidableEq, Repr

namespace MatchKind

def name : MatchKind → String
  | .port => "port"
  | .protocol => "protocol"
  | .address => "address"
  | .other name => name

def ofName : String → MatchKind
  | "port" => .port
  | "protocol" => .protocol
  | "address" => .address
  | name => .other name

theorem name_ofName (text : String) : (ofName text).name = text := by
  unfold ofName; split <;> rfl

end MatchKind

/-- The side of a packet that a rule looks at. -/
inductive MatchSide
  | destinationPort
  | sourcePort
  | source
  | destination
  | other (name : String)
deriving DecidableEq, Repr

namespace MatchSide

def name : MatchSide → String
  | .destinationPort => "dport"
  | .sourcePort => "sport"
  | .source => "src"
  | .destination => "dst"
  | .other name => name

def ofName : String → MatchSide
  | "dport" => .destinationPort
  | "sport" => .sourcePort
  | "src" => .source
  | "dst" => .destination
  | name => .other name

theorem name_ofName (text : String) : (ofName text).name = text := by
  unfold ofName; split <;> rfl

end MatchSide

structure MatchSpec where
  kind : MatchKind
  protocol : Option String
  portStart : Option Int
  portEnd : Option Int
  side : Option MatchSide
  address : Option String
deriving DecidableEq, Repr

namespace MatchSpec

def ofPorts (protocol : String) (start : Int) (last : Option Int) (side : MatchSide) : MatchSpec where
  kind := .port
  protocol := some protocol
  portStart := some start
  portEnd := last
  side := some side
  address := none

def ofProtocol (protocol : String) : MatchSpec where
  kind := .protocol
  protocol := some protocol
  portStart := none
  portEnd := none
  side := none
  address := none

/-- A specification for an address. Without one it expands to nothing. -/
def ofAddress (address : Option String) (side : Option MatchSide) : MatchSpec where
  kind := .address
  protocol := none
  portStart := none
  portEnd := none
  side := side
  address := address

def portRange (spec : MatchSpec) : Option String :=
  match spec.portStart, spec.portEnd with
  | none, _ => none
  | some start, none => some (toString start)
  | some start, some last =>
      if last = start then some (toString start) else some s!"{start}:{last}"

/-- What descriptions show for something absent. -/
def shown (text : Option String) : String :=
  text.getD "None"

def sideName (spec : MatchSpec) : Option String :=
  spec.side.map (·.name)

def describe (spec : MatchSpec) : String :=
  match spec.kind with
  | .port => s!"{shown spec.protocol} {shown spec.sideName} {shown spec.portRange}"
  | .protocol => shown spec.protocol
  | _ => s!"{shown spec.sideName} {shown spec.address}"

def fields (spec : MatchSpec) : List (String × Value) :=
  [("kind", .text spec.kind.name),
    ("protocol", .ofOption .text spec.protocol),
    ("port_start", .ofOption .whole spec.portStart),
    ("port_end", .ofOption .whole spec.portEnd),
    ("side", .ofOption .text spec.sideName),
    ("address", .ofOption .text spec.address)]

def toValue (spec : MatchSpec) : Value :=
  .record spec.fields

/-! ## Address lists -/

/-- The items of a list of hosts and subnets: a text with commas or blanks between
them, or a list. -/
def addressItems : Value → Except Failure (List String)
  | .text text =>
      .ok ((Text.pieces (fun character => character == ',' || Text.isBlank character)
        text.toList).map String.ofList)
  | .list items =>
      .ok ((items.map fun item => Text.stripped item.plain).filter (!·.isEmpty))
  | .mapping entries =>
      .ok ((entries.map fun entry => Text.stripped entry.1.plain).filter (!·.isEmpty))
  | _ => .error .mismatch

def checkAddress (item : String) : Except Failure Unit :=
  match Network.read? item with
  | some _ => .ok ()
  | none => .error (.configuration (.address item))

/-- Split a list of hosts and subnets, each of which has to be valid. -/
def splitAddresses (value : Value) : Except Failure (List String) := do
  let items ← addressItems value
  items.forM checkAddress
  return items

def hasSide (spec : MatchSpec) : Bool :=
  spec.side.any fun side => !side.name.isEmpty

/-- The sides that an address is looked for on: the named one, else both. -/
def addressSides (spec : MatchSpec) : List MatchSide :=
  match spec.side with
  | some side => if side.name.isEmpty then [.source, .destination] else [side]
  | none => [.source, .destination]

/-- One specification for each address and side. -/
def expand (spec : MatchSpec) : Except Failure (List MatchSpec) :=
  match spec.kind with
  | .address => do
      let addresses ← splitAddresses (.text (spec.address.getD ""))
      return addresses.flatMap fun address =>
        spec.addressSides.map fun side => ofAddress (some address) (some side)
  | _ => .ok [spec]

end MatchSpec

end UplinkShaper
