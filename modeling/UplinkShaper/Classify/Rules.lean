import UplinkShaper.Classify.Match
import UplinkShaper.Log
import UplinkShaper.Shaping.Tier

/-!
Classification rules. Rules are ordered by the priority of the tier they lead to,
then by declaration, and numbered from one: the first rule that matches a packet
decides, as in the chain of a packet filter.
-/

namespace UplinkShaper

/-- What a packet shows to classification. -/
structure Flow where
  protocol : String
  source : String
  destination : String
  sourcePort : Option Int
  destinationPort : Option Int
deriving DecidableEq, Repr

structure ClassificationRule where
  spec : MatchSpec
  mark : Int
  precedence : Int
deriving DecidableEq, Repr

structure MarkFilter where
  mark : Int
  handle : String
  precedence : Int
deriving DecidableEq, Repr

structure RuleSet where
  rules : List ClassificationRule
  filters : List MarkFilter
deriving DecidableEq, Repr

/-! ## Matching -/

namespace MatchSpec

/-- Whether an address lies in a network, both as text. -/
def addressMatches (address : String) (network : Option String) : Except Failure Bool :=
  match Address.read? address, network.bind Network.read? with
  | none, _ => .error (.invalid (.address (.text address)))
  | some _, none => .error (.invalid (.network (.ofOption .text network)))
  | some address, some network => .ok (network.contains address)

/-- Whether a port lies in the range of a specification. -/
def portMatches (spec : MatchSpec) (port : Int) : Except Failure Bool :=
  match spec.portStart with
  | none => .error .mismatch
  | some start => .ok (decide (start ≤ port ∧ port ≤ spec.portEnd.getD start))

def matchesFlow (spec : MatchSpec) (flow : Flow) : Except Failure Bool :=
  match spec.kind with
  | .address =>
      let address := if spec.side = some .source then flow.source else flow.destination
      addressMatches address spec.address
  | kind =>
      if spec.protocol ≠ some (Text.lowercase flow.protocol) then .ok false
      else if kind = .protocol then .ok true
      else
        let port :=
          if spec.side = some .destinationPort then flow.destinationPort else flow.sourcePort
        match port with
        | none => .ok false
        | some port => spec.portMatches port

end MatchSpec

namespace ClassificationRule

def describe (rule : ClassificationRule) : String :=
  let shown := toString rule.precedence
  let margin := String.ofList (List.replicate (3 - shown.length) ' ')
  s!"{margin}{shown} {rule.spec.describe} -> mark {rule.mark}"

def toValue (rule : ClassificationRule) : Value :=
  .record [
    ("precedence", .whole rule.precedence),
    ("mark", .whole rule.mark),
    ("match", rule.spec.toValue)]

end ClassificationRule

namespace MarkFilter

def toValue (filter : MarkFilter) : Value :=
  .record [
    ("mark", .whole filter.mark),
    ("classid", .text filter.handle),
    ("prio", .whole filter.precedence)]

/-- The text that plans show for a filter. -/
def literal (filter : MarkFilter) : String :=
  s!"FwFilter(mark={filter.mark}, classid={Text.quoted filter.handle}, prio={filter.precedence})"

end MarkFilter

namespace RuleSet

def forMark (rules : RuleSet) (mark : Int) : List ClassificationRule :=
  rules.rules.filter fun rule => rule.mark == mark

def toValue (rules : RuleSet) : Value :=
  .record [
    ("rules", .list (rules.rules.map (·.toValue))),
    ("filters", .list (rules.filters.map (·.toValue)))]

/-- The mark of the first rule in a list that matches a flow. -/
def firstMark (flow : Flow) (default : Option Int) :
    List ClassificationRule → Except Failure (Option Int)
  | [] => .ok default
  | rule :: rest => do
      if ← rule.spec.matchesFlow flow then return some rule.mark
      else firstMark flow default rest

/-- The mark that a rule set gives a flow: the first match wins. -/
def classify (rules : RuleSet) (flow : Flow) (default : Option Int) :
    Except Failure (Option Int) :=
  firstMark flow default
    (rules.rules.mergeSort fun left right => left.precedence ≤ right.precedence)

/-! ## Building -/

/-- Match specifications by tier id. -/
abbrev MatchTable := List (Number × List MatchSpec)

def matchesOf (table : MatchTable) (id : Int) : List MatchSpec :=
  ((table.find? fun (key, _) => key.eq (.whole id)).map (·.2)).getD []

/-- The default tier comes last, the others by priority. -/
def comesBefore (left right : Tier) : Bool :=
  if left.isDefault = right.isDefault then left.priority.rank ≤ right.priority.rank
  else right.isDefault

/-- Tiers in the order of their rules; declaration order decides ties. -/
def inRuleOrder (tree : ClassTree) : List Tier :=
  tree.tiers.mergeSort comesBefore

def unknownIds (tree : ClassTree) (table : MatchTable) : List Number :=
  ((table.map (·.1)).filter fun key => !tree.tiers.any fun tier => key.eq (.whole tier.id)).mergeSort
    Number.le

/-- What leads to a tier that has no children. -/
structure Entry where
  tier : Tier
  specs : List MatchSpec

/-- The expanded specifications of one tier. An inner class receives no traffic. -/
def entryOf (tree : ClassTree) (table : MatchTable) (tier : Tier) :
    Except Failure (Option Entry) :=
  let specs := matchesOf table tier.id
  if tree.isInner tier then
    if specs.isEmpty then .ok none else .error (.configuration (.innerTraffic tier.id))
  else do
    let expanded ← specs.mapM (·.expand)
    return some { tier := tier, specs := expanded.flatten }

def numbered (entries : List Entry) : List ClassificationRule :=
  (entries.flatMap fun entry => entry.specs.map fun spec => (entry.tier.id, spec)).mapIdx
    fun index (mark, spec) => { spec := spec, mark := mark, precedence := index + 1 }

/-- One filter for each tier that has no children, except the default tier. -/
def filtersOf (entries : List Entry) : List MarkFilter :=
  (entries.filter fun entry => !entry.tier.isDefault).mapIdx fun index entry =>
    { mark := entry.tier.id, handle := entry.tier.handle, precedence := index + 1 }

/-- The rules and filters for a class tree and match specifications by tier. -/
def build (tree : ClassTree) (table : MatchTable) : Except Failure RuleSet := do
  match unknownIds tree table with
  | [] =>
      let entries ← (inRuleOrder tree).mapM (entryOf tree table)
      let entries := entries.filterMap id
      return { rules := numbered entries, filters := filtersOf entries }
  | unknown => .error (.configuration (.unknownTiers unknown))

def builtRecord (rules : RuleSet) : LogRecord :=
  .debug s!"Built {rules.rules.length} mark rules and {rules.filters.length} filters"

end RuleSet

end UplinkShaper
