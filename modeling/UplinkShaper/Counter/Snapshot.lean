import UplinkShaper.Counter.Record

/-!
Snapshots: the counters of every shaping class from a single listing. Counters of
other listings never enter.
-/

namespace UplinkShaper

structure ClassCounters where
  handle : String
  label : String
  packets : Reading Nat
  bytes : Reading Nat
  dropped : Reading Nat
  /-- Kilobits per second. -/
  rate : Reading Double
deriving DecidableEq, Repr

structure Snapshot where
  capturedAt : Moment
  device : String
  classes : List ClassCounters
deriving DecidableEq, Repr

abbrev Labels := List (String × String)

namespace ClassCounters

/-- What a class without a label is called. -/
def unlabeled : String := "UNKNOWN"

def labelOf (labels : Labels) (handle : String) : String :=
  ((labels.find? fun (known, _) => known == handle).map (·.2)).getD unlabeled

def ofRecord (labels : Labels) (record : CounterRecord) : Except Failure ClassCounters := do
  return {
    handle := record.handle
    label := labelOf labels record.handle
    packets := ← record.packets
    bytes := ← record.bytes
    dropped := ← record.dropped
    rate := record.rate }

def count (reading : Reading Nat) : Value :=
  reading.toValue fun value => .whole (Int.ofNat value)

def toValue (capturedAt : Moment) (counters : ClassCounters) : Value :=
  .record [
    ("classid", .text counters.handle),
    ("label", .text counters.label),
    ("packets", count counters.packets),
    ("bytes", count counters.bytes),
    ("dropped", count counters.dropped),
    ("rate_kbps", counters.rate.toValue fun value => .number (.real value)),
    ("captured_at", .text capturedAt.text)]

end ClassCounters

namespace Snapshot

/-- The kind of the classes that shape traffic. -/
def shapingKind : String := "hfsc"

def ofListing (labels : Labels) (device : String) (capturedAt : Moment) (listing : String) :
    Except Failure Snapshot := do
  let records := CounterRecord.ofText (some shapingKind) listing
  return {
    capturedAt := capturedAt
    device := device
    classes := ← records.mapM (ClassCounters.ofRecord labels) }

def find? (snapshot : Snapshot) (handle : String) : Option ClassCounters :=
  snapshot.classes.find? (·.handle == handle)

def findLabel? (snapshot : Snapshot) (label : String) : Option ClassCounters :=
  snapshot.classes.find? (·.label == label)

/-- The classes by handle; of two with one handle the later counts. -/
def classesValue (snapshot : Snapshot) : List (Value × Value) :=
  snapshot.classes.foldl (fun entries counters =>
    Value.put (.text counters.handle) (counters.toValue snapshot.capturedAt) entries) []

def toValue (snapshot : Snapshot) : Value :=
  .record [
    ("captured_at", .text snapshot.capturedAt.text),
    ("interface", .text snapshot.device),
    ("classes", .mapping snapshot.classesValue)]

end Snapshot

end UplinkShaper
