import UplinkShaper.Command.Words

/-!
The commands of the two backends, as words. The shaper builds the class tree of one
device; the marking side keeps a chain of its own, which the last chain of outgoing
packets leads to.
-/

namespace UplinkShaper

/-- The queueing side of one device. -/
structure Shaper where
  tool : String
  device : String
deriving DecidableEq, Repr

structure Marking where
  tool : String
  device : String
  chain : String
  table : String
deriving DecidableEq, Repr

def rootHandle : String := classHandle ""

namespace Shaper

/-- The default is the class of packets that no filter leads elsewhere. -/
def rootQueue (shaper : Shaper) (default : Int) : List String :=
  [shaper.tool, "qdisc", "add", "dev", shaper.device, "root", "handle", rootHandle,
    "hfsc", "default", toString default]

/-- The rate caps the whole tree. -/
def rootClass (shaper : Shaper) (rate : String) : List String :=
  [shaper.tool, "class", "add", "dev", shaper.device, "parent", rootHandle,
    "classid", classHandle (toString rootId), "hfsc", "sc", "rate", rate, "ul", "rate", rate]

def shapingClass (shaper : Shaper) (id : Int) (parent : Number) (curve : List String) :
    List String :=
  [shaper.tool, "class", "add", "dev", shaper.device, "parent", classHandle parent.text,
    "classid", classHandle (toString id), "hfsc"] ++ curve

def queueWords (kind : String) (limit : Int) : Except Failure (List String) :=
  match kind with
  | "sfq" => .ok ["sfq", "perturb", "10", "limit", toString limit]
  | "bfifo" => .ok ["bfifo", "limit", toString limit]
  | kind => .error (.invalid (.leafQueue kind))

def leafQueue (shaper : Shaper) (id : Int) (queue : List String) : List String :=
  [shaper.tool, "qdisc", "add", "dev", shaper.device, "parent", classHandle (toString id),
    "handle", toString id ++ ":"] ++ queue

def markFilter (shaper : Shaper) (filter : MarkFilter) : List String :=
  [shaper.tool, "filter", "add", "dev", shaper.device, "parent", rootHandle,
    "protocol", "ip", "prio", toString filter.precedence,
    "handle", toString filter.mark, "fw", "classid", filter.handle]

/-- The root queue takes every class and filter below it along. -/
def dropRoot (shaper : Shaper) : List String :=
  [shaper.tool, "qdisc", "del", "dev", shaper.device, "root"]

def dropIngress (shaper : Shaper) : List String :=
  [shaper.tool, "qdisc", "del", "dev", shaper.device, "ingress"]

def counters (shaper : Shaper) : List String :=
  [shaper.tool, "-s", "class", "show", "dev", shaper.device]

/-- The commands that list queues, classes or filters. -/
def listing (shaper : Shaper) (what : String) : Except Failure (List String) :=
  if what ∈ ["qdisc", "class", "filter"] then
    .ok [shaper.tool, what, "show", "dev", shaper.device]
  else .error (.invalid (.listing what))

end Shaper

namespace Marking

def standardTable : String := "mangle"

/-- The words that every command starts with. -/
def inTable (marking : Marking) (words : List String) : List String :=
  [marking.tool, "-t", marking.table] ++ words

/-- The rule that leads outgoing packets of the device to the chain. -/
def hook (marking : Marking) : List String :=
  ["POSTROUTING", "-o", marking.device, "-j", marking.chain]

def attach (marking : Marking) : List String :=
  marking.inTable ("-A" :: marking.hook)

def detach (marking : Marking) : List String :=
  marking.inTable ("-D" :: marking.hook)

def create (marking : Marking) : List String :=
  marking.inTable ["-N", marking.chain]

def empty (marking : Marking) : List String :=
  marking.inTable ["-F", marking.chain]

def remove (marking : Marking) : List String :=
  marking.inTable ["-X", marking.chain]

/-- The words of a rule, none of which may be absent. -/
def ruleWords (rule : ClassificationRule) : Except Failure (List String) :=
  (Words.matching rule.spec).mapM fun
    | some word => .ok word
    | none => .error .mismatch

def mark (marking : Marking) (matching : List String) (mark : Int) : List String :=
  marking.inTable (["-A", marking.chain] ++ matching ++
    ["-j", "MARK", "--set-mark", toString mark])

def logMarks (marking : Marking) : List String :=
  marking.inTable ["-A", marking.chain, "-j", "LOG", "--log-prefix", "QOS-MARK: ",
    "--log-level", "debug"]

def listing (marking : Marking) : List String :=
  marking.inTable ["-L", marking.chain, "-n", "-v"]

end Marking

end UplinkShaper
