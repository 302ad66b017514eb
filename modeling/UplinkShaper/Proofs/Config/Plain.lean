import UplinkShaper.Proofs.Config.Merge

/-!
Plain documents: their keys are texts, and their numbers and the ports in them are short
enough to be written and read. The parts of a plain document are plain, and so is what is
merged of two.
-/

namespace UplinkShaper

namespace Value

def isText : Value → Bool
  | .text _ => true
  | _ => false

/-- Whether the digits of a port that is written as a text can be read. -/
def isShortUnder (key value : Value) : Bool :=
  match key, value with
  | .text name, .text shown =>
      name ∉ ["dport", "sport"] || shown.toList.countP Text.isDecimal ≤ Text.digitLimit
  | _, _ => true

mutual

def isPlain : Value → Bool
  | .number value => value.isWritable
  | .list items | .set items => arePlain items
  | .mapping entries => entriesArePlain entries
  | .pair first second => first.isPlain && second.isPlain
  | _ => true

def arePlain : List Value → Bool
  | [] => true
  | item :: rest => item.isPlain && arePlain rest

def entriesArePlain : List (Value × Value) → Bool
  | [] => true
  | (key, value) :: rest =>
      key.isText && isShortUnder key value && value.isPlain && entriesArePlain rest

end

theorem exists_text_of_isText {value : Value} (isText : value.isText = true) :
    ∃ name, value = .text name := by
  cases value with
  | text name => exact ⟨name, rfl⟩
  | _ => cases isText

/-! ## Parts -/

theorem arePlain_iff {items : List Value} :
    arePlain items = true ↔ ∀ item ∈ items, item.isPlain = true := by
  induction items with
  | nil => simp [arePlain]
  | cons item rest induction => simp [arePlain, induction]

theorem entriesArePlain_iff {entries : List (Value × Value)} :
    entriesArePlain entries = true ↔ ∀ entry ∈ entries,
      entry.1.isText = true ∧ isShortUnder entry.1 entry.2 = true ∧ entry.2.isPlain = true := by
  induction entries with
  | nil => simp [entriesArePlain]
  | cons entry rest induction =>
      rcases entry with ⟨key, value⟩
      simp [entriesArePlain, induction, and_assoc]

mutual

theorem isWritable_of_isPlain : ∀ value : Value, value.isPlain = true → value.isWritable = true
  | .number _, plain => plain
  | .list items, plain => areWritable_of_arePlain items plain
  | .set items, plain => areWritable_of_arePlain items plain
  | .mapping entries, plain => entriesAreWritable_of_entriesArePlain entries plain
  | .pair first second, plain => by
      rw [isPlain, Bool.and_eq_true] at plain
      rw [isWritable, isWritable_of_isPlain first plain.1, isWritable_of_isPlain second plain.2]
      rfl
  | .null, _ | .boolean _, _ | .text _, _ | .date _, _ | .moment _, _ | .bytes _, _ => rfl

theorem areWritable_of_arePlain :
    ∀ items : List Value, arePlain items = true → areWritable items = true
  | [], _ => rfl
  | item :: rest, plain => by
      rw [arePlain, Bool.and_eq_true] at plain
      rw [areWritable, isWritable_of_isPlain item plain.1, areWritable_of_arePlain rest plain.2]
      rfl

theorem entriesAreWritable_of_entriesArePlain : ∀ entries : List (Value × Value),
    entriesArePlain entries = true → entriesAreWritable entries = true
  | [], _ => rfl
  | (key, value) :: rest, plain => by
      simp only [entriesArePlain, Bool.and_eq_true] at plain
      rcases exists_text_of_isText plain.1.1.1 with ⟨name, rfl⟩
      rw [entriesAreWritable, isWritable_of_isPlain value plain.1.2,
        entriesAreWritable_of_entriesArePlain rest plain.2]
      rfl

end

theorem areWritable_iff {items : List Value} :
    areWritable items = true ↔ ∀ item ∈ items, item.isWritable = true := by
  induction items with
  | nil => simp [areWritable]
  | cons item rest induction => simp [areWritable, induction]

theorem sameKey_text_iff {key : Value} {name : String} :
    key.sameKey (.text name) = true ↔ key = .text name := by
  cases key with
  | text other => simp [sameKey, keyNumber?]
  | _ => simp [sameKey, keyNumber?]

theorem mem_of_find? {entries : List (Value × Value)} {name : String} {element : Value}
    (found : find? (.text name) entries = some element) : (.text name, element) ∈ entries := by
  induction entries with
  | nil => cases found
  | cons entry rest induction =>
      rcases entry with ⟨key, value⟩
      rw [find?] at found
      split at found
      case isTrue same =>
        cases sameKey_text_iff.mp same
        cases found
        exact List.mem_cons_self ..
      case isFalse => exact List.mem_cons_of_mem _ (induction found)

/-- What stands under a name in a plain value. -/
theorem isPlain_of_field? {value element : Value} {name : String} (plain : value.isPlain = true)
    (found : value.field? name = some element) :
    isShortUnder (.text name) element = true ∧ element.isPlain = true := by
  cases value with
  | mapping entries => exact (entriesArePlain_iff.mp plain _ (mem_of_find? found)).2
  | _ => cases found

/-! ## Merging -/

theorem mem_put {key value : Value} {entries : List (Value × Value)} {entry : Value × Value}
    (member : entry ∈ put key value entries) :
    entry ∈ entries ∨ entry.2 = value ∧ (entry.1 = key ∨ entry.1.sameKey key = true) := by
  induction entries with
  | nil =>
      cases List.mem_singleton.mp member
      exact .inr ⟨rfl, .inl rfl⟩
  | cons head rest induction =>
      rcases head with ⟨other, old⟩
      rw [put] at member
      split at member
      case isTrue same =>
        rcases List.mem_cons.mp member with rfl | later
        · exact .inr ⟨rfl, .inr same⟩
        · exact .inl (List.mem_cons_of_mem _ later)
      case isFalse =>
        rcases List.mem_cons.mp member with rfl | later
        · exact .inl (List.mem_cons_self ..)
        · rcases induction later with old | new
          · exact .inl (List.mem_cons_of_mem _ old)
          · exact .inr new

theorem entriesArePlain_put {name : String} {value : Value} {entries : List (Value × Value)}
    (plain : entriesArePlain entries = true)
    (short : isShortUnder (.text name) value = true) (isPlain : value.isPlain = true) :
    entriesArePlain (put (.text name) value entries) = true := by
  refine entriesArePlain_iff.mpr fun entry member => ?_
  rcases mem_put member with old | ⟨isValue, isKey⟩
  · exact entriesArePlain_iff.mp plain entry old
  · have key : entry.1 = .text name := isKey.elim id sameKey_text_iff.mp
    rw [key, isValue]
    exact ⟨rfl, short, isPlain⟩

theorem exists_laidOver_mapping (old : Option Value) (entries : List (Value × Value)) :
    ∃ merged, laidOver old (.mapping entries) = .mapping merged := by
  unfold laidOver
  split
  · exact ⟨_, rfl⟩
  · exact ⟨_, rfl⟩

/-- Laying a value over another makes no text of it. -/
theorem isShortUnder_laidOver {key value : Value} (short : isShortUnder key value = true)
    (old : Option Value) : isShortUnder key (laidOver old value) = true := by
  cases value with
  | mapping entries =>
      rcases exists_laidOver_mapping old entries with ⟨merged, isMerged⟩
      rw [isMerged]
      cases key <;> rfl
  | _ => exact short

mutual

theorem isPlain_laidOver : ∀ (value : Value) {old : Option Value},
    (∀ former ∈ old, former.isPlain = true) → value.isPlain = true →
      (laidOver old value).isPlain = true
  | .mapping entries, old, oldPlain, plain => by
      unfold laidOver
      split
      case h_1 base => exact entriesArePlain_mergeEntries entries (oldPlain _ rfl) plain
      case h_2 => exact plain
  | .null, _, _, plain | .boolean _, _, _, plain | .number _, _, _, plain
  | .text _, _, _, plain | .list _, _, _, plain | .date _, _, _, plain
  | .moment _, _, _, plain | .bytes _, _, _, plain | .set _, _, _, plain
  | .pair _ _, _, _, plain => plain

theorem entriesArePlain_mergeEntries : ∀ (entries : List (Value × Value))
    {base : List (Value × Value)}, entriesArePlain base = true → entriesArePlain entries = true →
      entriesArePlain (mergeEntries base entries) = true
  | [], _, basePlain, _ => basePlain
  | (key, value) :: rest, base, basePlain, plain => by
      simp only [entriesArePlain, Bool.and_eq_true] at plain
      rcases exists_text_of_isText plain.1.1.1 with ⟨name, rfl⟩
      rw [mergeEntries]
      apply entriesArePlain_mergeEntries rest _ plain.2
      refine entriesArePlain_put basePlain (isShortUnder_laidOver plain.1.1.2 _) ?_
      refine isPlain_laidOver value (fun former isFormer => ?_) plain.1.2
      exact (entriesArePlain_iff.mp basePlain _ (mem_of_find? isFormer)).2.2

end

theorem isPlain_merge {base document : Value} (basePlain : base.isPlain = true)
    (plain : document.isPlain = true) : (merge base document).isPlain = true :=
  isPlain_laidOver document (fun _ isBase => Option.mem_some.mp isBase ▸ basePlain) plain

end Value

end UplinkShaper
