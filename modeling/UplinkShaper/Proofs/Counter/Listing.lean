import UplinkShaper.Proofs.Counter.Lines
import UplinkShaper.Proofs.Results

/-!
What is read of a listing. The records of the shaping classes are found in their order, and
each owns its lines up to the next class, of whatever kind. In these lines the word next to
which a counter is found stands with this counter or nowhere, so what is read is what was
written.
-/

namespace UplinkShaper

/-! ## Finding a counter -/

namespace CounterRecord

variable {record : CounterRecord} {name value : List Char} {left right : List (List Char)}

theorem after_eq_some (words : record.tokens = left ++ name :: value :: right)
    (absent : name ∉ left) : record.after name = some value := by
  have skipped : ∀ word ∈ left, (word != name) = true := by
    intro word member
    refine bne_iff_ne.mpr ?_
    rintro rfl
    exact absent member
  have found : record.tokens.dropWhile (· != name) = name :: value :: right := by
    rw [words, List.dropWhile_append_of_pos skipped, List.dropWhile_cons_of_neg (by simp)]
  rw [after, found]

theorem after_eq_none (absent : name ∉ record.tokens) : record.after name = none := by
  have skipped : record.tokens.dropWhile (· != name) = [] := by
    rw [List.dropWhile_eq_nil_iff]
    intro word member
    refine bne_iff_ne.mpr ?_
    rintro rfl
    exact absent member
  rw [after, skipped]

theorem before_eq_some (words : record.tokens = left ++ value :: name :: right)
    (absent : name ∉ left) (differs : value ≠ name) : record.before name = some value := by
  have skipped : ∀ word ∈ left ++ [value], (word != name) = true := by
    intro word member
    refine bne_iff_ne.mpr ?_
    rintro rfl
    rcases List.mem_append.mp member with inLeft | isValue
    · exact absent inLeft
    · exact differs (List.mem_singleton.mp isValue).symm
  have found : record.tokens.takeWhile (· != name) = left ++ [value] := by
    rw [words, List.append_cons, List.takeWhile_append_of_pos skipped,
      List.takeWhile_cons_of_neg (by simp), List.append_nil]
  rw [before, if_pos (by simp [words]), found, List.getLast?_concat]

theorem before_eq_none (absent : name ∉ record.tokens) : record.before name = none :=
  if_neg absent

end CounterRecord

namespace Listing

/-- A word that no counter is found next to. -/
theorem numeral_not_mem_counterWords (count : Nat) (unit : List Char) :
    Nat.toDigits 10 count ++ unit ∉ counterWords := by
  intro member
  obtain ⟨first, rest, digits⟩ := List.exists_cons_of_ne_nil (@Nat.toDigits_ne_nil count 10)
  have isDigit := Text.isDigit_of_mem_toDigits first (digits ▸ List.mem_cons_self)
  rw [digits] at member
  simp only [counterWords, List.mem_cons, List.not_mem_nil, or_false] at member
  rcases member with same | same | same | same
  all_goals
    obtain rfl := (List.cons.inj same).1
    cases isDigit

/-- Words of which none names a counter. -/
def AreFillers (words : List (List Char)) : Prop :=
  ∀ word ∈ words, word ∉ counterWords

variable {name : List Char} {label unit after : String} {counter : Option Nat}
  {record : CounterRecord} {left right : List (List Char)}

theorem AreFillers.not_mem {words : List (List Char)} (fillers : AreFillers words)
    (isCounter : name ∈ counterWords) : name ∉ words :=
  fun member => fillers name member isCounter

theorem areFillers_nil : AreFillers [] :=
  List.forall_mem_nil _

theorem AreFillers.append (first : AreFillers left) (second : AreFillers right) :
    AreFillers (left ++ right) :=
  fun word member => (List.mem_append.mp member).elim (first word) (second word)

theorem not_mem_itemWords (isCounter : name ∈ counterWords)
    (notLabel : name ∉ tokens label.toList) (notAfter : name ∉ tokens after.toList) :
    name ∉ itemWords label counter unit after := by
  cases counter with
  | none => exact List.not_mem_nil
  | some count =>
      have notNumeral : name ≠ Nat.toDigits 10 count ++ unit.toList := by
        rintro rfl
        exact numeral_not_mem_counterWords _ _ isCounter
      simp [itemWords, notLabel, notNumeral, notAfter]

/-- A counter whose name stands before it. -/
theorem after_item (words : record.tokens = left ++ (itemWords label counter unit after ++ right))
    (isLabel : tokens label.toList = [name]) (absentLeft : name ∉ left)
    (absentRight : name ∉ right) :
    record.after name = counter.map (Nat.toDigits 10 · ++ unit.toList) := by
  cases counter with
  | none =>
      refine CounterRecord.after_eq_none ?_
      simp [words, itemWords, absentLeft, absentRight]
  | some count =>
      have found : record.tokens = left ++ name ::
          (Nat.toDigits 10 count ++ unit.toList) :: (tokens after.toList ++ right) := by
        rw [words, itemWords, Option.elim_some, isLabel]
        rfl
      exact CounterRecord.after_eq_some found absentLeft

/-- A counter whose name stands after it. -/
theorem before_item
    (words : record.tokens = left ++ (itemWords "" counter unit after ++ right))
    (isAfter : tokens after.toList = [name]) (isCounter : name ∈ counterWords)
    (absentLeft : name ∉ left) (absentRight : name ∉ right) :
    record.before name = counter.map (Nat.toDigits 10 · ++ unit.toList) := by
  have noLabel : tokens "".toList = [] := by decide
  cases counter with
  | none =>
      refine CounterRecord.before_eq_none ?_
      simp [words, itemWords, absentLeft, absentRight]
  | some count =>
      have found : record.tokens =
          left ++ (Nat.toDigits 10 count ++ unit.toList) :: name :: right := by
        rw [words, itemWords, Option.elim_some, isAfter, noLabel]
        rfl
      refine CounterRecord.before_eq_some found absentLeft ?_
      rintro rfl
      exact numeral_not_mem_counterWords _ _ isCounter

theorem readCount_count (counter : Option Count) :
    Counter.readCount ((counter.map (·.val)).map (Nat.toDigits 10 · ++ "".toList)) =
      .ok (.ofOption (counter.map (·.val))) := by
  cases counter with
  | none => rfl
  | some count =>
      have unit : Nat.toDigits 10 count.val ++ "".toList = Nat.toDigits 10 count.val :=
        List.append_nil _
      rw [Option.map_some, Option.map_some, unit, Counter.readCount_toDigits count.property]
      rfl

theorem readRate_kilobits (rate : Option Kilobits) :
    Counter.readRate ((rate.map (·.val)).map (Nat.toDigits 10 · ++ "Kbit".toList)) =
      .ofOption (rate.map fun rate => .finite rate.val) := by
  cases rate with
  | none => rfl
  | some count => exact Counter.readRate_kilobitsText count.isLt

/-! ## The counters of a class -/

namespace ShapingRecord

variable (shaping : ShapingRecord)

/-- The lines after the first, as details. -/
def details : List Detail :=
  shaping.before.map (·.detail) ++ shaping.counts.toList.map (·.detail) ++
    shaping.between.map (·.detail) ++ shaping.rate.toList.map (·.detail) ++
    shaping.after.map (·.detail)

theorem lines_eq : shaping.lines = shaping.heading.text :: shaping.details.map (·.text) := by
  simp only [lines, details, List.map_append, List.map_map]
  rfl

end ShapingRecord

def wordsOf (details : List Detail) : List (List Char) :=
  details.flatMap fun detail => tokens detail.text.toList

theorem areFillers_remarks (remarks : List Remark) :
    AreFillers (wordsOf (remarks.map (·.detail))) := by
  intro word member
  obtain ⟨detail, isDetail, inLine⟩ := List.mem_flatMap.mp member
  obtain ⟨remark, _, rfl⟩ := List.mem_map.mp isDetail
  exact remark.namesNoCounter word inLine

theorem wordsOf_append (first second : List Detail) :
    wordsOf (first ++ second) = wordsOf first ++ wordsOf second :=
  List.flatMap_append

namespace ShapingRecord

variable (shaping : ShapingRecord)

def bytesWords : List (List Char) :=
  itemWords "Sent " (shaping.bytes?.map (·.val)) "" " bytes "

def packetsWords : List (List Char) :=
  itemWords "" (shaping.packets?.map (·.val)) "" " pkt "

def droppedWords : List (List Char) :=
  itemWords "dropped " (shaping.dropped?.map (·.val)) "" ", "

def rateWords : List (List Char) :=
  itemWords "rate " (shaping.rate?.map (·.val)) "Kbit" " "

theorem exists_wordsOf_counts : ∃ fillers, AreFillers fillers ∧
    wordsOf (shaping.counts.toList.map (·.detail)) =
      shaping.bytesWords ++ (shaping.packetsWords ++ (shaping.droppedWords ++ fillers)) := by
  cases shows : shaping.counts with
  | none =>
      refine ⟨[], areFillers_nil, ?_⟩
      simp [wordsOf, bytesWords, packetsWords, droppedWords, bytes?, packets?, dropped?, shows,
        itemWords]
  | some line =>
      refine ⟨"overlimits".toList :: tokens line.overlimits.text.toList, ?_, ?_⟩
      · exact List.forall_mem_cons.mpr ⟨by decide, line.overlimits.namesNoCounter⟩
      · rw [bytesWords, packetsWords, droppedWords, bytes?, packets?, dropped?, shows]
        exact (List.append_nil _).trans line.tokens_text

theorem exists_wordsOf_rate : ∃ fillers, AreFillers fillers ∧
    wordsOf (shaping.rate.toList.map (·.detail)) = shaping.rateWords ++ fillers := by
  cases shows : shaping.rate with
  | none =>
      refine ⟨[], areFillers_nil, ?_⟩
      simp [wordsOf, rateWords, rate?, shows, itemWords]
  | some line =>
      refine ⟨(Nat.toDigits 10 line.pace ++ "pps".toList) :: "backlog".toList ::
        tokens line.backlog.text.toList, ?_, ?_⟩
      · refine List.forall_mem_cons.mpr ⟨numeral_not_mem_counterWords _ _, ?_⟩
        exact List.forall_mem_cons.mpr ⟨by decide, line.backlog.namesNoCounter⟩
      · rw [rateWords, rate?, shows]
        exact (List.append_nil _).trans line.tokens_text

/-- Besides the counters there are only fillers. -/
theorem exists_wordsOf_details : ∃ first second third, AreFillers first ∧ AreFillers second ∧
    AreFillers third ∧ wordsOf shaping.details = first ++ (shaping.bytesWords ++
      (shaping.packetsWords ++ (shaping.droppedWords ++
        (second ++ (shaping.rateWords ++ third))))) := by
  obtain ⟨afterCounts, countsFillers, counts⟩ := shaping.exists_wordsOf_counts
  obtain ⟨afterRate, rateFillers, rate⟩ := shaping.exists_wordsOf_rate
  refine ⟨_, _, _, areFillers_remarks shaping.before,
    countsFillers.append (areFillers_remarks shaping.between),
    rateFillers.append (areFillers_remarks shaping.after), ?_⟩
  simp only [details, wordsOf_append, counts, rate, List.append_assoc]

/-! Every counter is found between words that do not name it. -/

section Counters

variable {shaping} {record : CounterRecord} {first second third : List (List Char)}
  (fillFirst : AreFillers first) (fillSecond : AreFillers second) (fillThird : AreFillers third)
  (words : record.tokens = first ++ (shaping.bytesWords ++ (shaping.packetsWords ++
    (shaping.droppedWords ++ (second ++ (shaping.rateWords ++ third))))))

include fillFirst fillSecond fillThird words

theorem bytes_eq_ok : record.bytes = .ok (.ofOption (shaping.bytes?.map (·.val))) := by
  have isCounter : "Sent".toList ∈ counterWords := by decide
  rw [CounterRecord.bytes, after_item words (by decide) (fillFirst.not_mem isCounter),
    readCount_count]
  simp only [List.mem_append, not_or]
  exact ⟨not_mem_itemWords isCounter (by decide) (by decide),
    not_mem_itemWords isCounter (by decide) (by decide), fillSecond.not_mem isCounter,
    not_mem_itemWords isCounter (by decide) (by decide), fillThird.not_mem isCounter⟩

theorem packets_eq_ok : record.packets = .ok (.ofOption (shaping.packets?.map (·.val))) := by
  have isCounter : "pkt".toList ∈ counterWords := by decide
  rw [← List.append_assoc] at words
  rw [CounterRecord.packets, before_item words (by decide) isCounter, readCount_count]
  all_goals simp only [List.mem_append, not_or]
  · exact ⟨fillFirst.not_mem isCounter, not_mem_itemWords isCounter (by decide) (by decide)⟩
  · exact ⟨not_mem_itemWords isCounter (by decide) (by decide), fillSecond.not_mem isCounter,
      not_mem_itemWords isCounter (by decide) (by decide), fillThird.not_mem isCounter⟩

theorem dropped_eq_ok : record.dropped = .ok (.ofOption (shaping.dropped?.map (·.val))) := by
  have isCounter : "dropped".toList ∈ counterWords := by decide
  rw [← List.append_assoc, ← List.append_assoc] at words
  rw [CounterRecord.dropped, after_item words (by decide), readCount_count]
  all_goals simp only [List.mem_append, not_or]
  · exact ⟨⟨fillFirst.not_mem isCounter, not_mem_itemWords isCounter (by decide) (by decide)⟩,
      not_mem_itemWords isCounter (by decide) (by decide)⟩
  · exact ⟨fillSecond.not_mem isCounter, not_mem_itemWords isCounter (by decide) (by decide),
      fillThird.not_mem isCounter⟩

theorem rate_eq : record.rate = .ofOption (shaping.rate?.map fun rate => .finite rate.val) := by
  have isCounter : "rate".toList ∈ counterWords := by decide
  rw [← List.append_assoc, ← List.append_assoc, ← List.append_assoc, ← List.append_assoc] at words
  rw [CounterRecord.rate, after_item words (by decide) _ (fillThird.not_mem isCounter),
    readRate_kilobits]
  simp only [List.mem_append, not_or]
  exact ⟨⟨⟨⟨fillFirst.not_mem isCounter, not_mem_itemWords isCounter (by decide) (by decide)⟩,
    not_mem_itemWords isCounter (by decide) (by decide)⟩,
    not_mem_itemWords isCounter (by decide) (by decide)⟩, fillSecond.not_mem isCounter⟩

end Counters

/-- What is read of a record with the words of a shaping class is what the class shows. -/
theorem ofRecord_eq_ok (labels : Labels) {record : CounterRecord}
    (handle : record.handle = shaping.heading.handle)
    (words : record.tokens = wordsOf shaping.details) :
    ClassCounters.ofRecord labels record = .ok (shaping.counters labels) := by
  obtain ⟨first, second, third, fillFirst, fillSecond, fillThird, split⟩ :=
    shaping.exists_wordsOf_details
  rw [split] at words
  rw [ClassCounters.ofRecord, packets_eq_ok fillFirst fillSecond fillThird words,
    bytes_eq_ok fillFirst fillSecond fillThird words,
    dropped_eq_ok fillFirst fillSecond fillThird words,
    rate_eq fillFirst fillSecond fillThird words, handle]
  rfl

end ShapingRecord

/-! ## Records -/

/-- The lines of a listing, as they are read. -/
def readLines (lines : List String) : List ListingLine :=
  (lines.map (·.toList)).filterMap listingLine?

theorem readLines_append (first second : List String) :
    readLines (first ++ second) = readLines first ++ readLines second := by
  rw [readLines, List.map_append, List.filterMap_append]
  rfl

/-- A detail is read as its words, unless it is blank. -/
theorem readLines_detail (detail : Detail) :
    (readLines [detail.text] = [] ∧ tokens detail.text.toList = []) ∨
      readLines [detail.text] = [.detail (tokens detail.text.toList)] := by
  rcases listingLine?_of_unnamed detail.namesNoClass with ⟨skipped, empty⟩ | read
  · exact .inl ⟨List.filterMap_cons_none skipped, empty⟩
  · exact .inr (List.filterMap_cons_some read)

variable (details : List Detail) (rest : List ListingLine)

theorem ownTokens_details_append :
    CounterRecord.ownTokens (readLines (details.map (·.text)) ++ rest) =
      wordsOf details ++ CounterRecord.ownTokens rest := by
  induction details with
  | nil => rfl
  | cons detail others induction =>
      rw [List.map_cons, ← List.singleton_append, readLines_append, wordsOf, List.flatMap_cons]
      rcases readLines_detail detail with ⟨skipped, empty⟩ | read
      · rw [skipped, empty]
        exact induction
      · rw [read, List.singleton_append, List.cons_append, CounterRecord.ownTokens, induction,
          List.append_assoc]
        rfl

theorem ofLines_details_append (wanted : Option String) :
    CounterRecord.ofLines wanted (readLines (details.map (·.text)) ++ rest) =
      CounterRecord.ofLines wanted rest := by
  induction details with
  | nil => rfl
  | cons detail others induction =>
      rw [List.map_cons, ← List.singleton_append, readLines_append]
      rcases readLines_detail detail with ⟨skipped, _⟩ | read
      · rw [skipped]
        exact induction
      · rw [read, List.singleton_append, List.cons_append, CounterRecord.ofLines, induction]

theorem exists_readLines_heading (heading : Heading) (lines : List String) :
    ∃ header, readLines (heading.text :: lines) =
      .opening heading.kind heading.handle header :: readLines lines := by
  obtain ⟨header, read⟩ := heading.listingLine?_text
  exact ⟨header, List.filterMap_cons_some read⟩

/-- No line before the first class is a record's own. -/
theorem ownTokens_records (records : List Record) :
    CounterRecord.ownTokens (readLines (records.flatMap (·.lines))) = [] := by
  cases records with
  | nil => rfl
  | cons first others =>
      have opens (heading : Heading) (lines : List String) :
          CounterRecord.ownTokens (readLines (heading.text :: lines)) = [] := by
        obtain ⟨header, read⟩ := exists_readLines_heading heading lines
        rw [read]
        rfl
      cases first with
      | shaping shaping => exact opens shaping.heading _
      | other other => exact opens other.heading _

variable (records : List Record)

/-- The record of a shaping class is found first, with its own words. -/
theorem exists_ofLines_shaping (shaping : ShapingRecord) : ∃ record : CounterRecord,
    record.handle = shaping.heading.handle ∧ record.tokens = wordsOf shaping.details ∧
      CounterRecord.ofLines (some Snapshot.shapingKind)
          (readLines (shaping.lines ++ records.flatMap (·.lines))) =
        record :: CounterRecord.ofLines (some Snapshot.shapingKind)
          (readLines (records.flatMap (·.lines))) := by
  obtain ⟨header, opening⟩ := exists_readLines_heading shaping.heading
    (shaping.details.map (·.text) ++ records.flatMap (·.lines))
  refine ⟨⟨shaping.heading.kind, shaping.heading.handle, header, wordsOf shaping.details⟩, rfl,
    rfl, ?_⟩
  have isWanted : (some Snapshot.shapingKind).all (· == shaping.heading.kind) = true := by
    rw [shaping.isShaping]
    rfl
  rw [shaping.lines_eq, List.cons_append, opening, CounterRecord.ofLines, if_pos isWanted,
    readLines_append, ownTokens_details_append, ownTokens_records, List.append_nil,
    ofLines_details_append]

/-- A record of another kind is passed over. -/
theorem ofLines_other (other : OtherRecord) :
    CounterRecord.ofLines (some Snapshot.shapingKind)
        (readLines (other.lines ++ records.flatMap (·.lines))) =
      CounterRecord.ofLines (some Snapshot.shapingKind)
        (readLines (records.flatMap (·.lines))) := by
  obtain ⟨header, opening⟩ := exists_readLines_heading other.heading
    (other.details.map (·.text) ++ records.flatMap (·.lines))
  have notWanted : ¬ (some Snapshot.shapingKind).all (· == other.heading.kind) = true := by
    simpa using other.isOther.symm
  rw [OtherRecord.lines, List.cons_append, opening, CounterRecord.ofLines, if_neg notWanted,
    readLines_append, ofLines_details_append]

theorem mapM_ofRecord_records (labels : Labels) :
    (CounterRecord.ofLines (some Snapshot.shapingKind)
        (readLines (records.flatMap (·.lines)))).mapM (ClassCounters.ofRecord labels) =
      .ok ((records.filterMap (·.shaping?)).map (·.counters labels)) := by
  induction records with
  | nil => rfl
  | cons first others induction =>
      cases first with
      | shaping shaping =>
          obtain ⟨record, handle, words, found⟩ := exists_ofLines_shaping others shaping
          rw [List.flatMap_cons, Record.lines, found, List.mapM_cons,
            shaping.ofRecord_eq_ok labels handle words, induction]
          rfl
      | other other =>
          rw [List.flatMap_cons, Record.lines, ofLines_other others other, induction]
          rfl

/-! ## Whole listings -/

variable (listing : Listing)

theorem isOneLine_of_mem_records {line : String}
    (member : line ∈ records.flatMap (·.lines)) : IsOneLine line := by
  have each (heading : Heading) (details : List Detail)
      (inRecord : line ∈ heading.text :: details.map (·.text)) : IsOneLine line := by
    rcases List.mem_cons.mp inRecord with rfl | inDetails
    · exact heading.isOneLine_text
    · obtain ⟨detail, _, rfl⟩ := List.mem_map.mp inDetails
      exact detail.isOneLine
  obtain ⟨record, _, inRecord⟩ := List.mem_flatMap.mp member
  cases record with
  | shaping shaping => exact each shaping.heading shaping.details (shaping.lines_eq ▸ inRecord)
  | other other => exact each other.heading other.details inRecord

theorem lines_text : Text.lines listing.text.toList = listing.lines.map (·.toList) := by
  have written : listing.text.toList =
      (listing.lines.map (·.toList)).flatMap (· ++ ['\n']) := by
    rw [text, String.toList_join, List.flatMap_map, List.flatMap_map]
    exact congrArg (List.flatMap · listing.lines) (funext fun line => String.toList_append)
  rw [written]
  refine Text.lines_flatMap fun line member => ?_
  obtain ⟨shown, isLine, rfl⟩ := List.mem_map.mp member
  rcases List.mem_append.mp isLine with inPreamble | inRecords
  · obtain ⟨detail, _, rfl⟩ := List.mem_map.mp inPreamble
    exact detail.isOneLine
  · exact isOneLine_of_mem_records listing.records inRecords

theorem ofText_text : CounterRecord.ofText (some Snapshot.shapingKind) listing.text =
    CounterRecord.ofLines (some Snapshot.shapingKind)
      (readLines (listing.records.flatMap (·.lines))) := by
  rw [CounterRecord.ofText, listingLines, lines_text]
  change CounterRecord.ofLines _ (readLines listing.lines) = _
  rw [lines, readLines_append, ofLines_details_append]

end Listing

/-- A snapshot of a listing has exactly its shaping classes, in their order, with the counters
that each of them shows; a counter that is left out is unknown. -/
theorem Snapshot.ofListing_text (labels : Labels) (device : String) (capturedAt : Moment)
    (listing : Listing) :
    Snapshot.ofListing labels device capturedAt listing.text = .ok {
      capturedAt := capturedAt
      device := device
      classes := listing.shapingRecords.map (·.counters labels) } := by
  rw [ofListing, listing.ofText_text, Listing.mapM_ofRecord_records]
  rfl

end UplinkShaper
