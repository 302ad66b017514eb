import UplinkShaper.Counter.Snapshot
import UplinkShaper.Proofs.Counter.Numerals
import UplinkShaper.Proofs.Text.Words

/-!
How a class listing is laid out: lines before the first class, then one record after the
other. A record is the line that names its class and the lines after it. The record of a
shaping class shows its counters on two of these lines, each of which may leave counters
out; among its other lines none names a counter. Records of other classes show anything.
-/

namespace UplinkShaper

/-- What is known of a counter that may be left out. -/
def Reading.ofOption : Option α → Reading α
  | none => .unknown
  | some value => .known value

namespace Listing

/-- The words next to which the counters of a class are found. -/
def counterWords : List (List Char) :=
  ["Sent".toList, "pkt".toList, "dropped".toList, "rate".toList]

/-! ## Lines -/

section Characters

variable (property : Char → Prop) [DecidablePred property]

/-- What holds of a text is found by looking at the text, not at every character there is. -/
scoped instance (priority := high) decidableForallMem (text : List Char) :
    Decidable (∀ character ∈ text, property character) :=
  List.decidableBAll property text

scoped instance (priority := high) decidableForallMemOption (character? : Option Char) :
    Decidable (∀ character ∈ character?, property character) :=
  decidable_of_iff (∀ character ∈ character?.toList, property character) (by simp)

end Characters

def IsOneLine (text : String) : Prop :=
  ∀ character ∈ text.toList, Text.isLineEnd character = false

def NamesNoClass (text : String) : Prop :=
  classOf? (Text.strip text.toList) = none

def NamesNoCounter (text : String) : Prop :=
  ∀ word ∈ tokens text.toList, word ∉ counterWords

instance (text : String) : Decidable (IsOneLine text) :=
  inferInstanceAs (Decidable (∀ character ∈ text.toList, Text.isLineEnd character = false))

instance (text : String) : Decidable (NamesNoClass text) :=
  inferInstanceAs (Decidable (classOf? (Text.strip text.toList) = none))

instance (text : String) : Decidable (NamesNoCounter text) :=
  inferInstanceAs (Decidable (∀ word ∈ tokens text.toList, word ∉ counterWords))

/-- A line that names no class. -/
structure Detail where
  text : String
  isOneLine : IsOneLine text
  namesNoClass : NamesNoClass text

/-- What a line shows besides counters. -/
structure Filler where
  text : String
  isOneLine : IsOneLine text
  namesNoCounter : NamesNoCounter text

/-- A whole line without counters. -/
structure Remark extends Filler where
  namesNoClass : NamesNoClass text

def Remark.detail (remark : Remark) : Detail :=
  ⟨remark.text, remark.isOneLine, remark.namesNoClass⟩

/-- A natural number that is short enough to be read. -/
abbrev Count := { count : Nat // (Nat.toDigits 10 count).length ≤ Text.digitLimit }

/-- Kilobits per second that a double holds exactly. -/
abbrev Kilobits := Fin (2 ^ 53)

/-- A counter between what stands before and after it; nothing of them if it is left out. -/
def item (label : String) (counter : Option Nat) (unit after : String) : String :=
  counter.elim "" fun count => s!"{label}{count}{unit}{after}"

/-- The line with the counts of a class. -/
structure CountsLine where
  bytes : Option Count
  packets : Option Count
  dropped : Option Count
  overlimits : Filler

namespace CountsLine

def bytesText (line : CountsLine) : String :=
  item "Sent " (line.bytes.map (·.val)) "" " bytes "

def packetsText (line : CountsLine) : String :=
  item "" (line.packets.map (·.val)) "" " pkt "

def droppedText (line : CountsLine) : String :=
  item "dropped " (line.dropped.map (·.val)) "" ", "

def text (line : CountsLine) : String :=
  s!" {line.bytesText}{line.packetsText}({line.droppedText}overlimits {line.overlimits.text})"

end CountsLine

/-- The line with the rate of a class. -/
structure RateLine where
  rate : Option Kilobits
  /-- Packets per second, which are not collected. -/
  pace : Nat
  backlog : Filler

namespace RateLine

def rateText (line : RateLine) : String :=
  item "rate " (line.rate.map (·.val)) "Kbit" " "

def text (line : RateLine) : String :=
  s!" {line.rateText}{line.pace}pps backlog {line.backlog.text}"

end RateLine

/-! ## Records -/

/-- The line that names a class, by its kind and its handle. -/
structure Heading where
  kind : String
  major : String
  minor : String
  /-- The further words, with the blank before them. -/
  further : String
  hasKind : kind ≠ ""
  kindIsWord : ∀ character ∈ kind.toList, Text.isBlank character = false
  hasMajor : major ≠ ""
  isHexadecimal : ∀ character ∈ (major ++ minor).toList, isHexadecimalDigit character
  isApart : ∀ character ∈ further.toList.head?, Text.isBlank character
  isOneLine : IsOneLine further

namespace Heading

def handle (heading : Heading) : String :=
  s!"{heading.major}:{heading.minor}"

def text (heading : Heading) : String :=
  s!"class {heading.kind} {heading.handle}{heading.further}"

end Heading

/-- The record of a shaping class. -/
structure ShapingRecord where
  heading : Heading
  isShaping : heading.kind = Snapshot.shapingKind
  before : List Remark
  counts : Option CountsLine
  between : List Remark
  rate : Option RateLine
  after : List Remark

namespace ShapingRecord

def lines (record : ShapingRecord) : List String :=
  record.heading.text ::
    (record.before.map (·.text) ++ record.counts.toList.map (·.text) ++
      record.between.map (·.text) ++ record.rate.toList.map (·.text) ++
      record.after.map (·.text))

def bytes? (record : ShapingRecord) : Option Count :=
  record.counts.bind (·.bytes)

def packets? (record : ShapingRecord) : Option Count :=
  record.counts.bind (·.packets)

def dropped? (record : ShapingRecord) : Option Count :=
  record.counts.bind (·.dropped)

def rate? (record : ShapingRecord) : Option Kilobits :=
  record.rate.bind (·.rate)

/-- The counters that the record shows; those that it leaves out are unknown. -/
def counters (labels : Labels) (record : ShapingRecord) : ClassCounters where
  handle := record.heading.handle
  label := ClassCounters.labelOf labels record.heading.handle
  packets := .ofOption (record.packets?.map (·.val))
  bytes := .ofOption (record.bytes?.map (·.val))
  dropped := .ofOption (record.dropped?.map (·.val))
  rate := .ofOption (record.rate?.map fun rate => .finite rate.val)

end ShapingRecord

/-- The record of a class of another kind. -/
structure OtherRecord where
  heading : Heading
  isOther : heading.kind ≠ Snapshot.shapingKind
  details : List Detail

def OtherRecord.lines (record : OtherRecord) : List String :=
  record.heading.text :: record.details.map (·.text)

inductive Record
  | shaping (record : ShapingRecord)
  | other (record : OtherRecord)

namespace Record

def lines : Record → List String
  | .shaping record => record.lines
  | .other record => record.lines

def shaping? : Record → Option ShapingRecord
  | .shaping record => some record
  | .other _ => none

end Record

end Listing

/-- A class listing. -/
structure Listing where
  preamble : List Listing.Detail
  records : List Listing.Record

namespace Listing

def lines (listing : Listing) : List String :=
  listing.preamble.map (·.text) ++ listing.records.flatMap (·.lines)

def text (listing : Listing) : String :=
  String.join (listing.lines.map (· ++ "\n"))

def shapingRecords (listing : Listing) : List ShapingRecord :=
  listing.records.filterMap (·.shaping?)

/-- A class whose packets are left out, before a flow bucket that shows its own. -/
example :
    let shaping : Listing.Heading := {
      kind := "hfsc", major := "1", minor := "10", further := " parent 1:1", hasKind := by decide
      kindIsWord := by decide, hasMajor := by decide, isHexadecimal := by decide
      isApart := by decide, isOneLine := by decide }
    let bucket : Listing.Heading := {
      kind := "sfq", major := "10", minor := "2e5", further := "", hasKind := by decide
      kindIsWord := by decide, hasMajor := by decide, isHexadecimal := by decide
      isApart := by decide, isOneLine := by decide }
    let counts : Listing.CountsLine := {
      bytes := some ⟨123456, by decide⟩, packets := none, dropped := some ⟨3, by decide⟩
      overlimits := ⟨"0 requeues 0", by decide, by decide⟩ }
    let rate : Listing.RateLine := ⟨some 96, 12, ⟨"0b 0p", by decide, by decide⟩⟩
    let period : Listing.Remark := ⟨⟨" period 8 level 0", by decide, by decide⟩, by decide⟩
    let listing : Listing := {
      preamble := [⟨" Sent 99 bytes 9 pkt", by decide, by decide⟩]
      records := [
        .shaping ⟨shaping, by decide, [], some counts, [], some rate, [period]⟩,
        .other ⟨bucket, by decide, [⟨" Sent 1514 bytes 1 pkt", by decide, by decide⟩]⟩] }
    listing.lines = [
      " Sent 99 bytes 9 pkt",
      "class hfsc 1:10 parent 1:1",
      " Sent 123456 bytes (dropped 3, overlimits 0 requeues 0)",
      " rate 96Kbit 12pps backlog 0b 0p",
      " period 8 level 0",
      "class sfq 10:2e5",
      " Sent 1514 bytes 1 pkt"] := by
  decide

end Listing

end UplinkShaper
