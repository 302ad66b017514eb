import UplinkShaper.Config.Schema

/-!
The built-in configuration, which every document is merged over, and the schema of
the merged document.
-/

namespace UplinkShaper

/-- Where things are kept, unless a configuration says otherwise. -/
structure Locations where
  state : String
  configuration : String
deriving DecidableEq, Repr

namespace Locations

def system : Locations where
  state := "/var/lib/hfsc-qos/last_applied.json"
  configuration := "/etc/hfsc-qos/qos.yaml"

end Locations

namespace Configuration

/-! ## The built-in document -/

def portEntry (protocol side : String) (port : Value) : Value :=
  .record [("protocol", .text protocol), (side, port)]

def interactive : Value :=
  .record [
    ("id", .whole 10),
    ("label", .text "Interactive"),
    ("priority", .text "realtime_strict"),
    ("rate_percent", .whole 10),
    ("matches", .list [
      portEntry "tcp" "dport" (.whole 22),
      portEntry "tcp" "sport" (.whole 22),
      portEntry "udp" "dport" (.whole 53),
      portEntry "tcp" "dport" (.whole 53),
      .record [("protocol", .text "icmp")],
      portEntry "udp" "dport" (.whole 123)])]

def telephony : Value :=
  .record [
    ("id", .whole 20),
    ("label", .text "VoIP"),
    ("priority", .text "realtime_strict"),
    ("rate_percent", .whole 20),
    ("matches", .list [
      portEntry "udp" "dport" (.text "5060:5061"),
      portEntry "udp" "dport" (.text "10000:20000"),
      portEntry "udp" "dport" (.text "3478:3481")])]

def hostTier (id : Int) (label : String) (share : Int) (priority addresses : String) : Value :=
  .record [
    ("id", .whole id),
    ("label", .text label),
    ("share", .whole share),
    ("priority", .text priority),
    ("addresses", .text addresses)]

def builtIn (locations : Locations) : Value :=
  .record [
    ("interfaces", .record [("wan", .text "eth0"), ("lan", .text "br-lan")]),
    ("bandwidth", .record [("upload_kbps", .whole 1000), ("download_kbps", .whole 10000)]),
    ("rtt_ms", .whole 50),
    ("leaf_qdisc", .text "sfq"),
    ("reserved", .list [interactive, telephony]),
    ("tiers", .list [
      hostTier 100 "High" 50 "realtime_burstable" "192.168.99.3/32",
      hostTier 200 "Medium" 25 "shared" "192.168.99.4/32",
      hostTier 300 "Low" 12 "bulk" "192.168.99.5/32"]),
    ("default", .record [
      ("id", .whole 999), ("label", .text "Default"), ("priority", .text "bulk")]),
    ("commands", .record [
      ("tc", .text "tc"), ("iptables", .text "iptables"), ("ip", .text "ip")]),
    ("marking", .record [("chain", .text "QOS_MARK"), ("log_marks", .boolean false)]),
    ("state_path", .text locations.state),
    ("apply_retries", .whole 1)]

/-! ## The schema -/

def textSchema : Schema := .scalar [.text] []

def integerSchema : Schema := .scalar [.integer] []

def numberSchema : Schema := .scalar [.number] []

def protocols : List String := ["tcp", "udp", "icmp", "sctp", "udplite"]

def leafQueues : List String := ["sfq", "bfifo", "none"]

def matchSchema : Schema :=
  .record [] [
    ("protocol", .scalar [.text] [.oneOf protocols]),
    ("dport", .scalar [.integer, .text] []),
    ("sport", .scalar [.integer, .text] []),
    ("src", textSchema),
    ("dst", textSchema)] true

def tierSchema : Schema :=
  .record ["id", "label"] [
    ("id", integerSchema),
    ("label", .scalar [.text] [.nonEmpty]),
    ("priority", textSchema),
    ("share", numberSchema),
    ("rate_kbps", integerSchema),
    ("rate_percent", numberSchema),
    ("parent", integerSchema),
    ("matches", .items [.array] matchSchema),
    ("addresses", .items [.text, .array] textSchema)] true

def positiveSchema : Schema := .scalar [.integer] [.atLeast 1]

def schema : Schema :=
  .record [] [
    ("interfaces", .record [] [("wan", textSchema), ("lan", textSchema)] false),
    ("bandwidth", .record [] [
      ("upload_kbps", positiveSchema), ("download_kbps", positiveSchema)] false),
    ("rtt_ms", positiveSchema),
    ("leaf_qdisc", .scalar [.text] [.oneOf leafQueues]),
    ("reserved", .items [.array] tierSchema),
    ("tiers", .items [.array] tierSchema),
    ("default", tierSchema),
    ("commands", .table textSchema),
    ("marking", .record [] [
      ("chain", textSchema), ("log_marks", .scalar [.boolean] [])] false),
    ("state_path", textSchema),
    ("apply_retries", .scalar [.integer] [.atLeast 0])] true

end Configuration

end UplinkShaper
