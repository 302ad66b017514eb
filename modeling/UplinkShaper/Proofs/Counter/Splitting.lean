import UplinkShaper.Proofs.Counter.Legible
import UplinkShaper.Proofs.Counter.Lines

/-!
How a text is split into records. The records of one kind are those among all records that have
it, and texts one after the other have the records of the one and then those of the other, if the
second starts with a class. A record holds the words of its own lines: of those from the line that
names its class to the next line about a class, unless a class line right after them cannot be
read, which is then taken for a line of the record.
-/

namespace UplinkShaper

/-! ## Texts one after the other -/

namespace Text

theorem lines_ne_nil {text : List Char} (nonempty : text ≠ []) : lines text ≠ [] := by
  cases text with
  | nil => exact absurd rfl nonempty
  | cons first rest =>
      unfold lines
      split
      case h_1 impossible => cases impossible
      case h_2 => exact List.cons_ne_nil _ _
      case h_3 =>
        split
        · exact List.cons_ne_nil _ _
        · cases lines _ with
          | nil => exact List.cons_ne_nil _ _
          | cons => exact List.cons_ne_nil _ _

/-- A text with a character that is no separator has pieces. -/
theorem pieces_ne_nil {isSeparator : Char → Bool} {text : List Char} {character : Char}
    (member : character ∈ text) (kept : isSeparator character = false) :
    pieces isSeparator text ≠ [] := by
  rw [← List.flatten_splitBy (fun left right => isSeparator left == isSeparator right) text]
    at member
  rcases List.mem_flatten.mp member with ⟨piece, isPiece, within⟩
  have chained : piece.IsChain fun left right => isSeparator left = isSeparator right :=
    (List.isChain_of_mem_splitBy isPiece).imp fun _ _ same => beq_iff_eq.mp same
  have : IsTrans Char fun left right => isSeparator left = isSeparator right :=
    ⟨fun _ _ _ first second => first.trans second⟩
  have : Std.Symm fun left right => isSeparator left = isSeparator right :=
    ⟨fun _ _ same => same.symm⟩
  have alike := List.Pairwise.forall_of_forall
    (R := fun left right => isSeparator left = isSeparator right) (fun _ _ => rfl)
    (List.isChain_iff_pairwise.mp chained)
  have isKept : (!piece.any isSeparator) = true := by
    rw [Bool.not_eq_true', List.any_eq_false]
    intro other isOther
    rw [alike isOther within, kept]
    exact Bool.false_ne_true
  exact List.ne_nil_of_mem (List.mem_filter.mpr ⟨isPiece, isKept⟩)

theorem extendFirst_append (character : Char) {before : List (List Char)} (present : before ≠ [])
    (after : List (List Char)) :
    extendFirst character (before ++ after) = extendFirst character before ++ after := by
  cases before with
  | nil => exact absurd rfl present
  | cons => rfl

/-- A line feed between two texts keeps their lines apart, and may add an empty one. -/
theorem lines_append_lineFeed_append (first second : List Char) :
    lines (first ++ '\n' :: second) = lines first ++ lines second ∨
      lines (first ++ '\n' :: second) = lines first ++ [] :: lines second := by
  induction first using lines.induct with
  | case1 => exact .inr rfl
  | case2 rest induction =>
      have both (text : List Char) : lines ('\r' :: '\n' :: text) = [] :: lines text := by rw [lines]
      rw [List.cons_append, List.cons_append, both, both]
      rcases induction with same | apart
      · exact .inl (congrArg ([] :: ·) same)
      · exact .inr (congrArg ([] :: ·) apart)
  | case3 character rest notBoth isEnd induction =>
      have alone : lines (character :: rest) = [] :: lines rest := by
        rw [lines, if_pos isEnd]
        exact notBoth
      rw [alone, List.cons_append]
      by_cases joins : character = '\r' ∧ rest = []
      · -- The line feed belongs to the line end before it.
        rcases joins with ⟨rfl, rfl⟩
        refine .inl ?_
        rw [List.nil_append, lines]
        rfl
      · have apart : lines (character :: (rest ++ '\n' :: second)) =
            [] :: lines (rest ++ '\n' :: second) := by
          rw [lines, if_pos isEnd]
          intro others isReturn starts
          cases rest with
          | nil => exact joins ⟨isReturn, rfl⟩
          | cons next later =>
              obtain rfl := (List.cons.inj starts).1
              exact notBoth later isReturn rfl
        rw [apart]
        rcases induction with same | more
        · exact .inl (congrArg ([] :: ·) same)
        · exact .inr (congrArg ([] :: ·) more)
  | case4 character rest notBoth notEnd induction =>
      have inside := Bool.eq_false_iff.mpr notEnd
      rw [List.cons_append, lines_cons inside, lines_cons inside]
      rcases List.eq_nil_or_concat rest with rfl | ⟨others, last, rfl⟩
      · exact .inl rfl
      · have present : lines (others.concat last) ≠ [] := lines_ne_nil (by simp)
        rcases induction with same | more
        · rw [same, extendFirst_append character present]
          exact .inl rfl
        · rw [more, extendFirst_append character present]
          exact .inr rfl

end Text

theorem listingLines_append (first second : String) :
    listingLines (first ++ "\n" ++ second) = listingLines first ++ listingLines second := by
  have blank : listingLine? [] = none := rfl
  have text : (first ++ "\n" ++ second).toList = first.toList ++ '\n' :: second.toList := by simp
  unfold listingLines
  rw [text]
  rcases Text.lines_append_lineFeed_append first.toList second.toList with same | more
  · rw [same, List.filterMap_append]
  · rw [more, List.filterMap_append, List.filterMap_cons_none blank]

namespace CounterRecord

/-- What stands before a class does not change what comes after it. -/
theorem ofLines_append (wanted : Option String) (first : List ListingLine)
    {second : List ListingLine} (apart : ownTokens second = []) :
    ownTokens (first ++ second) = ownTokens first ∧
      ofLines wanted (first ++ second) = ofLines wanted first ++ ofLines wanted second := by
  induction first with
  | nil => exact ⟨apart, rfl⟩
  | cons line rest induction =>
      rcases induction with ⟨own, records⟩
      cases line with
      | detail shown => exact ⟨congrArg (shown ++ ·) own, records⟩
      | opening kind handle header =>
          refine ⟨rfl, ?_⟩
          rw [List.cons_append, ofLines, ofLines, own, records]
          split
          · rfl
          · rfl

theorem ofLines_some (kind : String) (listed : List ListingLine) :
    ofLines (some kind) listed = (ofLines none listed).filter (·.kind == kind) := by
  induction listed with
  | nil => rfl
  | cons line rest induction =>
      cases line with
      | detail shown => exact induction
      | opening found handle header =>
          have all : (none : Option String).all (· == found) = true := rfl
          rw [ofLines, ofLines, if_pos all, List.filter_cons, induction]
          have sameTest : (some kind).all (· == found) = (found == kind) := BEq.comm
          rw [sameTest]

/-- The first line that is not blank names a class. -/
def StartsWithClass (text : String) : Prop :=
  ∃ line ∈ (Text.lines text.toList).find? (Text.strip · ≠ []),
    (classOf? (Text.strip line)).isSome = true

instance (text : String) : Decidable (StartsWithClass text) :=
  inferInstanceAs (Decidable (∃ line ∈ (Text.lines text.toList).find? (Text.strip · ≠ []), _))

theorem StartsWithClass.ownTokens_eq_nil {text : String} (starts : StartsWithClass text) :
    ownTokens (listingLines text) = [] := by
  rcases starts with ⟨line, isFirst, isNamed⟩
  rw [listingLines]
  generalize Text.lines text.toList = lines at isFirst
  induction lines with
  | nil => cases isFirst
  | cons other rest induction =>
      by_cases shown : Text.strip other = []
      · have blank : listingLine? other = none := by rw [listingLine?, shown]
        rw [List.filterMap_cons_none blank]
        refine induction ?_
        rwa [List.find?_cons_of_neg (by simpa using shown)] at isFirst
      · rw [List.find?_cons_of_pos (by simpa using shown)] at isFirst
        cases isFirst
        rcases Option.isSome_iff_exists.mp isNamed with ⟨⟨kind, handle⟩, named⟩
        rw [List.filterMap_cons_some (listingLine?_of_named named)]
        rfl

/-- The records of one kind are those among all records that have it, and the records of two texts
one after the other, the second of which starts with a class, are those of the one and then those
of the other. -/
theorem ofText_composes :
    (∀ (kind text : String),
      ofText (some kind) text = (ofText none text).filter (·.kind == kind)) ∧
    ∀ (wanted : Option String) (first second : String), StartsWithClass second →
      ofText wanted (first ++ "\n" ++ second) = ofText wanted first ++ ofText wanted second := by
  refine ⟨fun kind text => ofLines_some kind _, fun wanted first second starts => ?_⟩
  rw [ofText, listingLines_append]
  exact (ofLines_append wanted _ starts.ownTokens_eq_nil).2

/-- The first text ends in the middle of a record, and the second starts with a blank line. -/
theorem ofText_composes_at_blank_line :
    StartsWithClass " \nclass hfsc 1:10 parent 1:1\n Sent 7 bytes 1 pkt" ∧
      ofText (some "hfsc") ("class hfsc 1:1 root\n Sent 9 bytes" ++ "\n" ++
          " \nclass hfsc 1:10 parent 1:1\n Sent 7 bytes 1 pkt") =
        ofText (some "hfsc") "class hfsc 1:1 root\n Sent 9 bytes" ++
          ofText (some "hfsc") " \nclass hfsc 1:10 parent 1:1\n Sent 7 bytes 1 pkt" :=
  have starts : StartsWithClass " \nclass hfsc 1:10 parent 1:1\n Sent 7 bytes 1 pkt" := by decide
  ⟨starts, ofText_composes.2 (some "hfsc") _ _ starts⟩

end CounterRecord

/-! ## Lines about one class -/

/-- A line about a class, with the lines before the next such line. -/
structure ClassBlock where
  heading : List Char
  details : List (List Char)
deriving DecidableEq, Repr

namespace ClassBlock

/-- Whether a line is about a class, as its first word says. -/
def isHeading (line : List Char) : Bool :=
  (Text.words line).head? == some "class".toList

def ofLines : List (List Char) → List ClassBlock
  | [] => []
  | line :: rest =>
      if isHeading line then ⟨line, rest.takeWhile (!isHeading ·)⟩ :: ofLines rest
      else ofLines rest

def ofText (text : String) : List ClassBlock :=
  ofLines (Text.lines text.toList)

/-- The kind and the handle of the class, if its heading names them. -/
def class? (block : ClassBlock) : Option (List Char × List Char) :=
  classOf? (Text.strip block.heading)

/-- The record of a block, with the words of its own lines and no others. -/
def record? (wanted : Option String) (block : ClassBlock) : Option CounterRecord :=
  match block.class? with
  | none => none
  | some (kind, handle) =>
      if wanted.all (· == String.ofList kind) then
        some { kind := String.ofList kind, handle := String.ofList handle,
               header := tokens block.heading, tokens := block.details.flatMap tokens }
      else none

/-! ### Headings -/

theorem isHeading_of_named {line kind handle : List Char}
    (named : classOf? (Text.strip line) = some (kind, handle)) : isHeading line = true := by
  have words : Text.words line = Text.words (Text.strip line) :=
    (Text.pieces_strip (fun _ blank => blank) line).symm
  rw [isHeading, words]
  generalize Text.strip line = shown at named
  unfold classOf? at named
  by_cases starts : "class".toList.isPrefixOf shown = true
  case neg =>
    rw [if_neg starts] at named
    cases named
  case pos =>
    rcases List.isPrefixOf_iff_prefix.mp starts with ⟨rest, rfl⟩
    have dropped : ("class".toList ++ rest).drop 5 = rest := rfl
    rw [if_pos starts, dropped] at named
    cases rest with
    | nil => cases named
    | cons first others =>
        by_cases blank : Text.isBlank first = true
        case neg =>
          have nothing : skipBlanks? (first :: others) = none := if_neg blank
          simp only [Option.bind_eq_bind, Option.bind_some, nothing, Option.bind_none] at named
          cases named
        case pos =>
          have word : Text.pieces Text.isBlank "class".toList = ["class".toList] := by decide
          rw [Text.words, Text.pieces_append_cons blank, word]
          rfl

/-- The first word of a heading is not empty for any reader of words. -/
theorem tokens_heading_ne_nil {line : List Char} (heads : isHeading line = true) :
    tokens line ≠ [] := by
  have isWord : "class".toList ∈ Text.words line := List.mem_of_mem_head? (beq_iff_eq.mp heads)
  have isLetter : 'c' ∈ line := (Text.infix_of_mem_pieces isWord).subset (by decide)
  exact Text.pieces_ne_nil isLetter (by decide)

/-! ### What a record holds -/

variable (wanted : Option String) (lines : List (List Char))

/-- The words that are taken for those of the class before some lines. -/
theorem ownTokens_eq : CounterRecord.ownTokens (lines.filterMap listingLine?) =
    (lines.takeWhile fun line => (classOf? (Text.strip line)).isNone).flatMap tokens := by
  induction lines with
  | nil => rfl
  | cons line rest induction =>
      cases found : classOf? (Text.strip line) with
      | some named =>
          rw [List.filterMap_cons_some (listingLine?_of_named found),
            List.takeWhile_cons_of_neg (by simp [found])]
          rfl
      | none =>
          rw [List.takeWhile_cons_of_pos (by simp [found]), List.flatMap_cons, ← induction]
          rcases listingLine?_of_unnamed found with ⟨skipped, empty⟩ | read
          · rw [List.filterMap_cons_none skipped, empty]
            rfl
          · rw [List.filterMap_cons_some read]
            rfl

/-- Only the words of the block are taken, unless the next block does not name its class. -/
theorem ownTokens_eq_iff : CounterRecord.ownTokens (lines.filterMap listingLine?) =
      (lines.takeWhile (!isHeading ·)).flatMap tokens ↔
    ∀ next ∈ (ofLines lines).head?, next.class?.isSome = true := by
  rw [ownTokens_eq]
  induction lines with
  | nil => exact iff_of_true rfl nofun
  | cons line rest induction =>
      cases heads : isHeading line with
      | false =>
          have unnamed : classOf? (Text.strip line) = none := by
            rw [Option.eq_none_iff_forall_ne_some]
            rintro ⟨kind, handle⟩ named
            rw [isHeading_of_named named] at heads
            cases heads
          rw [List.takeWhile_cons_of_pos (by simp [unnamed]),
            List.takeWhile_cons_of_pos (by simp [heads]), List.flatMap_cons, List.flatMap_cons,
            List.append_cancel_left_eq, induction, ofLines, if_neg (by simp [heads])]
      | true =>
          rw [List.takeWhile_cons_of_neg (p := (!isHeading ·)) (by simp [heads]), ofLines,
            if_pos heads, List.flatMap_nil, List.head?_cons]
          simp only [Option.mem_some_iff, forall_eq', class?]
          cases found : classOf? (Text.strip line) with
          | some named =>
              rw [List.takeWhile_cons_of_neg (by simp [found])]
              exact iff_of_true rfl rfl
          | none =>
              rw [List.takeWhile_cons_of_pos (by simp [found]), List.flatMap_cons]
              refine iff_of_false ?_ (by simp)
              exact List.append_ne_nil_of_left_ne_nil (tokens_heading_ne_nil heads) _

theorem ofLines_eq_iff :
    CounterRecord.ofLines wanted (lines.filterMap listingLine?) =
        (ofLines lines).filterMap (record? wanted) ↔
      (ofLines lines).IsChain fun block next =>
        (block.record? wanted).isSome = true → next.class?.isSome = true := by
  induction lines with
  | nil => exact iff_of_true rfl .nil
  | cons line rest induction =>
      cases found : classOf? (Text.strip line) with
      | some named =>
          rcases named with ⟨kind, handle⟩
          rw [ofLines, if_pos (isHeading_of_named found), List.isChain_cons, ← induction,
            List.filterMap_cons_some (listingLine?_of_named found), CounterRecord.ofLines]
          by_cases isWanted : wanted.all (· == String.ofList kind) = true
          case pos =>
            have recorded : record? wanted ⟨line, rest.takeWhile (!isHeading ·)⟩ = some {
                kind := String.ofList kind, handle := String.ofList handle
                header := tokens line
                tokens := (rest.takeWhile (!isHeading ·)).flatMap tokens } := by
              simp only [record?, class?, found, isWanted, if_true]
            rw [if_pos isWanted, List.filterMap_cons_some recorded, List.cons.injEq,
              CounterRecord.mk.injEq, recorded]
            simp only [true_and, Option.isSome_some, forall_const]
            rw [ownTokens_eq_iff]
          case neg =>
            have unrecorded : record? wanted ⟨line, rest.takeWhile (!isHeading ·)⟩ = none := by
              simp only [record?, class?, found]
              exact if_neg isWanted
            rw [if_neg isWanted, List.filterMap_cons_none unrecorded, unrecorded]
            simp
      | none =>
          -- The line only adds words to a record before it.
          have records : CounterRecord.ofLines wanted ((line :: rest).filterMap listingLine?) =
              CounterRecord.ofLines wanted (rest.filterMap listingLine?) := by
            rcases listingLine?_of_unnamed found with ⟨skipped, _⟩ | read
            · rw [List.filterMap_cons_none skipped]
            · rw [List.filterMap_cons_some read]
              rfl
          rw [records, ofLines]
          split
          case isFalse => exact induction
          case isTrue =>
            have unrecorded : record? wanted ⟨line, rest.takeWhile (!isHeading ·)⟩ = none := by
              simp only [record?, class?, found]
            rw [List.filterMap_cons_none unrecorded, induction, List.isChain_cons, unrecorded]
            simp

end ClassBlock

/-- Every record holds the words of the lines about its class and no others. -/
def KeepsToBlocks (wanted : Option String) (text : String) : Prop :=
  CounterRecord.ofText wanted text =
    (ClassBlock.ofText text).filterMap (ClassBlock.record? wanted)

instance (wanted : Option String) (text : String) : Decidable (KeepsToBlocks wanted text) :=
  inferInstanceAs (Decidable (_ = _))

/-- The records hold the words of the lines about their classes and no others, if and only if the
lines about a class that has a record are not followed by a class line without a legible handle. -/
theorem keepsToBlocks_iff (wanted : Option String) (text : String) :
    KeepsToBlocks wanted text ↔ (ClassBlock.ofText text).IsChain fun block next =>
      (block.record? wanted).isSome = true → next.class?.isSome = true :=
  ClassBlock.ofLines_eq_iff wanted (Text.lines text.toList)

/-- A flow bucket whose handle has no major number: its counters are credited to the class that is
listed before it. -/
theorem not_keepsToBlocks_at_bucket :
    ¬ KeepsToBlocks (some "hfsc")
      "class hfsc 1:10 parent 1:1\nclass fq_codel :1 parent none\n Sent 99 bytes 9 pkt\n" ∧
    ∃ record, CounterRecord.ofText (some "hfsc")
        "class hfsc 1:10 parent 1:1\nclass fq_codel :1 parent none\n Sent 99 bytes 9 pkt\n" =
          [record] ∧ record.handle = "1:10" ∧ record.bytes = .ok (.known 99) := by
  constructor
  · decide
  · refine ⟨⟨"hfsc", "1:10", tokens "class hfsc 1:10 parent 1:1".toList,
      tokens "class fq_codel :1 parent none Sent 99 bytes 9 pkt".toList⟩, ?_, rfl, rfl⟩
    decide

end UplinkShaper
