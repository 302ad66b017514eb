import UplinkShaper.Classify.Rules
import UplinkShaper.Config.Defaults
import UplinkShaper.Config.Entry
import UplinkShaper.Config.Merge
import UplinkShaper.FileSystem.Path
import UplinkShaper.Shaping.Allocation

/-!
Settings: a configuration document that was merged over the built-in one, checked
against the schema, and read.
-/

namespace UplinkShaper

structure Tools where
  shaper : String
  marking : String
  link : String
deriving DecidableEq, Repr

structure Settings where
  /-- The network device towards the link. -/
  device : String
  localDevice : String
  capacity : LinkCapacity
  download : Number
  /-- Milliseconds. -/
  roundTrip : Number
  leafQueue : String
  reserved : List TierSpec
  tiers : List TierSpec
  default : TierSpec
  table : RuleSet.MatchTable
  tools : Tools
  chain : String
  logMarks : Bool
  statePath : Path
  retries : Number
  /-- The file that the settings were read from. -/
  source : Option Path
  document : Value
deriving Repr

namespace Settings

/-! ## Reading a document -/

def field (document : Value) (names : List String) : Value :=
  names.foldl (fun value name => (value.field? name).getD .null) document

def textAt (document : Value) (names : List String) : String :=
  (field document names).plain

def numberAt (document : Value) (names : List String) : Number :=
  (TierSpec.number? (field document names)).getD 0

/-- Enter the match specifications of a tier, if it has any, in place of those of an
earlier tier with the same id. -/
def enter (table : RuleSet.MatchTable) (id : Number) (specs : List MatchSpec) :
    RuleSet.MatchTable :=
  match table with
  | [] => [(id, specs)]
  | (other, old) :: rest =>
      if other.eq id then (other, specs) :: rest else (other, old) :: enter rest id specs

/-- Tiers in the order read, and match specifications by tier. -/
structure Collected where
  specs : List TierSpec
  table : RuleSet.MatchTable

def collectOne (kind : TierKind) (priority : Priority) (collected : Collected)
    (entry : Value) : Except Failure Collected := do
  let spec ← TierSpec.ofEntry kind priority entry
  let specs ← TierSpec.matchesOf entry
  let table :=
    if specs.isEmpty then collected.table
    else enter collected.table ((TierSpec.number? spec.id).getD 0) specs
  return { specs := collected.specs ++ [spec], table := table }

def collect (kind : TierKind) (priority : Priority) (table : RuleSet.MatchTable)
    (entries : List Value) : Except Failure Collected :=
  entries.foldlM (collectOne kind priority) { specs := [], table := table }

/-- Read a complete document that has the form of the schema. -/
def ofComplete (document : Value) (source : Option Path) : Except Failure Settings := do
  let listAt (name : String) : List Value := TierSpec.items (field document [name])
  let reserved ← collect .reserved .realtimeStrict [] (listAt "reserved")
  let tiers ← collect .percentage .shared reserved.table (listAt "tiers")
  let last ← collectOne .percentage .bulk { specs := [], table := tiers.table }
    (field document ["default"])
  let capacity ← LinkCapacity.read .upload (field document ["bandwidth", "upload_kbps"])
  let toolAt (name : String) : String :=
    match (field document ["commands"]).field? name with
    | some tool => tool.plain
    | none => name
  return {
    device := textAt document ["interfaces", "wan"]
    localDevice := textAt document ["interfaces", "lan"]
    capacity := capacity
    download := numberAt document ["bandwidth", "download_kbps"]
    roundTrip := numberAt document ["rtt_ms"]
    leafQueue := textAt document ["leaf_qdisc"]
    reserved := reserved.specs
    tiers := tiers.specs
    default := last.specs.head?.getD (.standard none)
    table := last.table
    tools := { shaper := toolAt "tc", marking := toolAt "iptables", link := toolAt "ip" }
    chain := textAt document ["marking", "chain"]
    logMarks := (field document ["marking", "log_marks"]).isTruthy
    statePath := Path.ofText (textAt document ["state_path"])
    retries := numberAt document ["apply_retries"]
    source := source
    document := document }

/-- The settings that a document makes, merged over the built-in one. -/
def ofDocument (locations : Locations) (document : Value) (source : Option Path) :
    Except Failure Settings := do
  let complete := Value.merge (Configuration.builtIn locations) document
  Configuration.schema.check complete
  ofComplete complete source

def treeRequest (settings : Settings) : TreeRequest where
  capacity := settings.capacity
  reserved := settings.reserved
  tiers := settings.tiers
  default := some settings.default

/-- The value under a key of the merged document. -/
def find? (settings : Settings) (key : String) : Option Value :=
  settings.document.field? key

end Settings

end UplinkShaper
