import UplinkShaper.Classify.Match
import UplinkShaper.Shaping.Tier

/-!
Entries of a configuration: ports and port ranges, match entries, and tiers with
the match specifications that lead to them.
-/

namespace UplinkShaper

/-! ## Ports -/

structure PortRange where
  start : Int
  last : Option Int
deriving DecidableEq, Repr

namespace PortRange

def dropBlanks (text : List Char) : List Char :=
  text.dropWhile Text.isBlank

/-- The digits of one bound, and what follows them and the blanks around them. -/
def readBound? (text : List Char) : Option (List Char × List Char) :=
  let text := dropBlanks text
  match text.takeWhile Text.isDecimal with
  | [] => none
  | shown => some (shown, dropBlanks (text.dropWhile Text.isDecimal))

/-- The digits of both bounds: one number, or two with a colon or a hyphen between
them. Blanks may stand around each number. -/
def bounds? (text : List Char) : Option (List Char × Option (List Char)) := do
  let (start, rest) ← readBound? text
  match rest with
  | [] => some (start, none)
  | mark :: rest =>
      if mark = ':' ∨ mark = '-' then
        let (last, rest) ← readBound? rest
        if rest.isEmpty then some (start, some last) else none
      else none

def readNumber (shown : List Char) : Except Failure Int :=
  match Text.readNatural shown with
  | .ok value => .ok value
  | .error error => .error (.ofNumeral error)

/-- The numbers that a value denotes as ports, whatever they are. -/
def ofValue (value : Value) : Except Failure PortRange :=
  match value with
  | .number (.whole port) => .ok { start := port, last := none }
  | .boolean flag => .ok { start := if flag then 1 else 0, last := none }
  | _ =>
      match bounds? value.plain.toList with
      | none => .error (.ofConfiguration (.portForm value))
      | some (start, last) => do
          let start ← readNumber start
          let last ← last.mapM readNumber
          return { start := start, last := last }

def isPort (port : Int) : Bool :=
  0 < port && port ≤ 65535

def read (value : Value) : Except Failure PortRange := do
  let range ← ofValue value
  if !isPort range.start || range.last.any (!isPort ·) then
    .error (.ofConfiguration (.portRange value))
  else if range.last.any (· < range.start) then
    .error (.ofConfiguration (.portsReversed value))
  else return range

/-- The bounds for a value, where a truth value stays as it is written. -/
def shownFor (value : Value) (range : PortRange) : Value :=
  let start :=
    match value with
    | .boolean _ => value
    | _ => .whole range.start
  .list [start, .ofOption .whole range.last]

end PortRange

/-! ## Match entries -/

namespace MatchSpec

/-- The sides that an entry may name, in the order in which they are looked for. -/
def entrySides : List String := ["dport", "sport", "src", "dst"]

def portProtocols : List String := ["tcp", "udp", "sctp", "udplite"]

/-- A text, where nothing else is meant. -/
def textOf : Value → Except Failure String
  | .text text => .ok text
  | _ => .error .mismatch

def textOrNone : Value → Except Failure (Option String)
  | .null => .ok none
  | value => some <$> textOf value

/-- The specification that an entry writes down: one side at most, and a protocol
unless the side is an address. -/
def ofEntry (entry : Value) : Except Failure MatchSpec :=
  match entrySides.filter fun name => (entry.field? name).isSome with
  | [] => do
      let protocol ← protocolOf entry
      return .ofProtocol (← textOf protocol)
  | [side] =>
      let written := (entry.field? side).getD .null
      if side = "src" ∨ side = "dst" then do
        return .ofAddress (← textOrNone written) (some (.ofName side))
      else do
        let protocol ← protocolOf entry
        match protocol with
        | .text name =>
            if name ∈ portProtocols then
              let range ← PortRange.read written
              return .ofPorts name range.start range.last (.ofName side)
            else .error (.configuration (.noPorts protocol))
        | _ => .error (.configuration (.noPorts protocol))
  | sides => .error (.configuration (.mixedSides sides))
where
  protocolOf (entry : Value) : Except Failure Value :=
    let protocol := (entry.field? "protocol").getD .null
    if protocol.isTruthy then .ok protocol
    else .error (.ofConfiguration (.protocolMissing entry))

end MatchSpec

/-! ## Tiers -/

namespace TierSpec

def number? : Value → Option Number
  | .number value => some value
  | _ => none

def items : Value → List Value
  | .list values => values
  | _ => []

/-- The priority that an entry names, else the given one. -/
def priorityOf (entry : Value) (default : Priority) : Except Failure Priority :=
  match entry.field? "priority" with
  | none => .ok default
  | some written =>
      match Priority.ofValue? written with
      | some priority => .ok priority
      | none =>
          .error (.ofConfiguration (.priority ((entry.field? "id").getD .null) written))

def addressesOf (entry : Value) : Option String :=
  match entry.field? "addresses" with
  | some (.text text) => if text.isEmpty then none else some text
  | some (.list []) => none
  | some (.list values) => some (String.intercalate "," (values.map (·.plain)))
  | _ => none

def ofEntry (kind : TierKind) (default : Priority) (entry : Value) :
    Except Failure TierSpec := do
  let priority ← priorityOf entry default
  let numberAt (name : String) : Option Number := (entry.field? name).bind number?
  return {
    id := (entry.field? "id").getD .null
    label := ((entry.field? "label").getD .null).plain
    kind := kind
    priority := priority
    share := if kind = .percentage then numberAt "share" else none
    rate := numberAt "rate_kbps"
    ratePercent := numberAt "rate_percent"
    parent := (numberAt "parent").getD (.whole rootId) }

/-- The match specifications of an entry: those it lists, and its addresses. -/
def matchesOf (entry : Value) : Except Failure (List MatchSpec) := do
  let listed ← (items ((entry.field? "matches").getD .null)).mapM MatchSpec.ofEntry
  return listed ++ ((addressesOf entry).map fun text => MatchSpec.ofAddress (some text) none).toList

end TierSpec

end UplinkShaper
