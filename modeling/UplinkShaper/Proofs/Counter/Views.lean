import UplinkShaper.Proofs.Config.Sections
import UplinkShaper.Proofs.Counter.Readings
import UplinkShaper.Proofs.Keys

/-!
The views of a snapshot. Its classes are listed one by one, found by handle or by label, and shown
in a mapping from handles. Of several classes with one handle the first one is found by it, and
the last one is shown under it; so the views agree if and only if no handle is listed twice.
-/

namespace UplinkShaper

/-- A text is put in the place that it has, or else at the end. -/
theorem Value.length_put_text (name : String) (value : Value) (entries : List (Value × Value)) :
    (put (.text name) value entries).length =
      if (find? (.text name) entries).isSome then entries.length else entries.length + 1 := by
  induction entries with
  | nil => rfl
  | cons entry rest induction =>
      rw [put, find?]
      split
      case isTrue => rfl
      case isFalse =>
        rw [List.length_cons, List.length_cons, induction]
        split
        · rfl
        · rfl

namespace Snapshot

/-! ## The mapping from handles -/

theorem classesValue_concat (snapshot : Snapshot) (counters : ClassCounters) :
    { snapshot with classes := snapshot.classes ++ [counters] }.classesValue =
      Value.put (.text counters.handle) (counters.toValue snapshot.capturedAt)
        snapshot.classesValue := by
  simp only [classesValue, List.foldl_append, List.foldl_cons, List.foldl_nil]

/-- Of several classes with one handle the mapping holds the last one. -/
theorem find?_classesValue (snapshot : Snapshot) (handle : String) :
    Value.find? (.text handle) snapshot.classesValue =
      (snapshot.classes.reverse.find? (·.handle == handle)).map
        (·.toValue snapshot.capturedAt) := by
  rcases snapshot with ⟨capturedAt, device, classes⟩
  induction classes using List.reverseRecOn with
  | nil => rfl
  | append_singleton before last induction =>
      rw [classesValue_concat ⟨capturedAt, device, before⟩, Value.find?_put, induction,
        List.reverse_concat, List.find?_cons]
      by_cases same : last.handle = handle
      · rw [if_pos same, beq_iff_eq.mpr same]
        rfl
      · rw [if_neg same, beq_eq_false_iff_ne.mpr same]

theorem isSome_find?_classesValue (snapshot : Snapshot) (handle : String) :
    (Value.find? (.text handle) snapshot.classesValue).isSome = true ↔
      handle ∈ snapshot.classes.map (·.handle) := by
  simp [find?_classesValue]

theorem length_classesValue_le (snapshot : Snapshot) :
    snapshot.classesValue.length ≤ snapshot.classes.length := by
  rcases snapshot with ⟨capturedAt, device, classes⟩
  induction classes using List.reverseRecOn with
  | nil => exact le_rfl
  | append_singleton before last induction =>
      rw [classesValue_concat ⟨capturedAt, device, before⟩, Value.length_put_text,
        List.length_append, List.length_singleton]
      dsimp only at induction
      split
      · omega
      · omega

/-- The mapping has an entry for each class if and only if no handle comes twice. -/
theorem length_classesValue_eq_iff (snapshot : Snapshot) :
    snapshot.classesValue.length = snapshot.classes.length ↔
      (snapshot.classes.map (·.handle)).Nodup := by
  rcases snapshot with ⟨capturedAt, device, classes⟩
  induction classes using List.reverseRecOn with
  | nil => exact iff_of_true rfl List.nodup_nil
  | append_singleton before last induction =>
      have atMost := length_classesValue_le ⟨capturedAt, device, before⟩
      have isKnown := isSome_find?_classesValue ⟨capturedAt, device, before⟩ last.handle
      rw [classesValue_concat ⟨capturedAt, device, before⟩, Value.length_put_text,
        List.length_append, List.length_singleton, List.map_append, List.map_singleton,
        ← List.concat_eq_append, List.nodup_concat]
      dsimp only at induction atMost isKnown ⊢
      rw [← induction, ← isKnown]
      split
      case isTrue present => exact iff_of_false (by omega) fun new => new.1 present
      case isFalse absent => exact ⟨fun same => ⟨absent, by omega⟩, fun new => by omega⟩

/-! ## When the views agree -/

/-- All views of a snapshot show the same classes. -/
structure ViewsAgree (snapshot : Snapshot) : Prop where
  /-- A class that is listed is found by its handle. -/
  find : ∀ counters ∈ snapshot.classes, snapshot.find? counters.handle = some counters
  /-- What is found by a handle is shown under it, and nothing is shown under other handles. -/
  entry (handle : String) : snapshot.toValue.at? ["classes", handle] =
    (snapshot.find? handle).map (·.toValue snapshot.capturedAt)
  /-- As many classes are shown as are listed. -/
  count : ∃ entries, snapshot.toValue.field? "classes" = some (.mapping entries) ∧
    entries.length = snapshot.classes.length
  /-- A class that is found by its label is found by its handle. -/
  label (label : String) (counters : ClassCounters) :
    snapshot.findLabel? label = some counters → snapshot.find? counters.handle = some counters

theorem field?_toValue (snapshot : Snapshot) :
    snapshot.toValue.field? "classes" = some (.mapping snapshot.classesValue) := rfl

theorem viewsAgree_iff_handles (snapshot : Snapshot) :
    snapshot.ViewsAgree ↔ (snapshot.classes.map (·.handle)).Nodup := by
  constructor
  · intro agree
    rcases agree.count with ⟨entries, isMapping, count⟩
    cases isMapping
    exact snapshot.length_classesValue_eq_iff.mp count
  · intro distinct
    have finds : ∀ counters ∈ snapshot.classes, snapshot.find? counters.handle = some counters :=
      fun counters member => find?_key_eq_some distinct member
    exact {
      find := finds
      entry handle := by
        rw [Value.at?_pair snapshot.field?_toValue]
        change Value.find? (.text handle) snapshot.classesValue = _
        rw [find?_classesValue, find?_reverse_key distinct]
        rfl
      count := ⟨_, snapshot.field?_toValue, snapshot.length_classesValue_eq_iff.mpr distinct⟩
      label _ counters found := finds counters (List.mem_of_find?_eq_some found) }

/-- A snapshot has the handles of the records that it is made of. -/
theorem handles_of_ofListing {labels : Labels} {device : String} {capturedAt : Moment}
    {listing : String} {snapshot : Snapshot}
    (made : ofListing labels device capturedAt listing = .ok snapshot) :
    snapshot.classes.map (·.handle) =
      (CounterRecord.ofText (some shapingKind) listing).map (·.handle) := by
  rcases Result.bind_eq_ok.mp made with ⟨classes, read, isMade⟩
  cases isMade
  have told := (Result.mapM_eq_ok_iff.mp read).imp fun _ _ isRead =>
    (CounterRecord.tells_of_ofRecord isRead).handle
  exact List.forall₂_eq_eq_eq ▸
    List.forall₂_map_left_iff.mpr (List.forall₂_map_right_iff.mpr told.flip)

/-- The views of a snapshot agree if and only if the listing that it is made of has no two shaping
classes with one handle. -/
theorem viewsAgree_iff {labels : Labels} {device : String} {capturedAt : Moment}
    {listing : String} {snapshot : Snapshot}
    (made : ofListing labels device capturedAt listing = .ok snapshot) :
    snapshot.ViewsAgree ↔
      ((CounterRecord.ofText (some shapingKind) listing).map (·.handle)).Nodup := by
  rw [viewsAgree_iff_handles, handles_of_ofListing made]

/-- A class of another kind may have the handle of a shaping class. -/
theorem viewsAgree_beside_bucket :
    let listing := "class hfsc 1:1 root\n Sent 30 bytes 3 pkt\nclass hfsc 1:10 parent 1:1\n" ++
      " Sent 20 bytes 2 pkt\nclass sfq 1:10 parent 1:\n Sent 9 bytes 1 pkt\n"
    ∃ snapshot, ofListing [("1:10", "Web")] "eth0" default listing = .ok snapshot ∧
      snapshot.classes.map (·.handle) = ["1:1", "1:10"] ∧ snapshot.ViewsAgree := by
  intro listing
  have records : CounterRecord.ofText (some shapingKind) listing =
      [⟨"hfsc", "1:1", tokens "class hfsc 1:1 root".toList, tokens "Sent 30 bytes 3 pkt".toList⟩,
        ⟨"hfsc", "1:10", tokens "class hfsc 1:10 parent 1:1".toList,
          tokens "Sent 20 bytes 2 pkt".toList⟩] := by
    decide +kernel
  have made : ∃ snapshot, ofListing [("1:10", "Web")] "eth0" default listing = .ok snapshot := by
    rw [ofListing, records]
    exact ⟨_, rfl⟩
  rcases made with ⟨snapshot, made⟩
  have handles := handles_of_ofListing made
  rw [records] at handles
  refine ⟨snapshot, made, handles, (viewsAgree_iff made).mpr ?_⟩
  rw [records]
  decide

/-- A class that is listed twice is found with its first counters and shown with its last ones. -/
theorem not_viewsAgree_of_repeated :
    ∃ snapshot, ofListing [] "eth0" default
        ("class hfsc 1:10 parent 1:1\n Sent 1 bytes 2 pkt\n" ++
          "class hfsc 1:10 parent 1:1\n Sent 3 bytes 4 pkt\n") = .ok snapshot ∧
      snapshot.classes.length = 2 ∧ snapshot.classesValue.length = 1 ∧
        (snapshot.find? "1:10").map (·.bytes) = some (.known 1) ∧
          ((snapshot.toValue.at? ["classes", "1:10"]).bind (·.field? "bytes")) = some (.whole 3) ∧
            ¬ snapshot.ViewsAgree := by
  have records : CounterRecord.ofText (some shapingKind)
      ("class hfsc 1:10 parent 1:1\n Sent 1 bytes 2 pkt\n" ++
        "class hfsc 1:10 parent 1:1\n Sent 3 bytes 4 pkt\n") =
      [⟨"hfsc", "1:10", tokens "class hfsc 1:10 parent 1:1".toList,
          tokens "Sent 1 bytes 2 pkt".toList⟩,
        ⟨"hfsc", "1:10", tokens "class hfsc 1:10 parent 1:1".toList,
          tokens "Sent 3 bytes 4 pkt".toList⟩] := by
    decide
  have made : ofListing [] "eth0" default
      ("class hfsc 1:10 parent 1:1\n Sent 1 bytes 2 pkt\n" ++
        "class hfsc 1:10 parent 1:1\n Sent 3 bytes 4 pkt\n") =
      .ok { capturedAt := default, device := "eth0",
            classes := [⟨"1:10", "UNKNOWN", .known 2, .known 1, .unknown, .unknown⟩,
              ⟨"1:10", "UNKNOWN", .known 4, .known 3, .unknown, .unknown⟩] } := by
    rw [ofListing, records]
    rfl
  refine ⟨_, made, rfl, rfl, rfl, rfl, fun agree => ?_⟩
  have distinct := (viewsAgree_iff_handles _).mp agree
  exact absurd distinct (by decide)

end Snapshot

end UplinkShaper
