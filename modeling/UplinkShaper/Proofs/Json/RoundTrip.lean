import UplinkShaper.Proofs.Json.Numbers
import UplinkShaper.Proofs.Json.Texts

/-!
Values in JSON texts. What JSON has a form for, with texts that come once for the keys of its
mappings, is read back from its indented text, also after it was kept in a file.
-/

namespace UplinkShaper

/-- What JSON has a form for. The keys of its mappings are texts, none of which comes twice. -/
inductive Value.IsDocument : Value → Prop
  | null : IsDocument .null
  | boolean (value : Bool) : IsDocument (.boolean value)
  | number {value : Number} (isDouble : value.IsDouble) : IsDocument (.number value)
  | text (value : String) : IsDocument (.text value)
  | list {items : List Value} (each : ∀ item ∈ items, IsDocument item) : IsDocument (.list items)
  | record {fields : List (String × Value)} (distinct : (fields.map Prod.fst).Nodup)
      (each : ∀ field ∈ fields, IsDocument field.2) : IsDocument (.record fields)

theorem Text.unifyLineEnds_of_not_mem {text : List Char} (absent : '\r' ∉ text) :
    Text.unifyLineEnds text = text := by
  induction text with
  | nil => rfl
  | cons first others induction =>
      rw [List.mem_cons, not_or] at absent
      unfold Text.unifyLineEnds
      split
      case h_1 starts => cases starts
      case h_2 starts =>
        cases starts
        exact absurd rfl absent.1
      case h_3 starts =>
        cases starts
        rw [if_neg (Ne.symm absent.1), induction absent.2]

namespace Json

open Value (IsDocument)

variable {value : Value} {rest : List Char}

/-! ## Shown values -/

/-- The text of a value at some depth. -/
def shown (depth : Nat) (value : Value) : List Char :=
  (render .indented depth value).toList

/-- A line end with the blanks in front of the next line. -/
def lineStart (depth : Nat) : List Char :=
  '\n' :: List.replicate (2 * depth) ' '

theorem toList_newLine (depth : Nat) : (newLine depth).toList = lineStart depth := by
  simp [newLine, lineStart]

/-- Shown parts, each on a line of its own. -/
def joined (depth : Nat) (parts : List (List Char)) : List Char :=
  List.intercalate (',' :: lineStart (depth + 1)) parts

theorem toList_bracketed (depth : Nat) (opening last : Char) {parts : List String}
    (present : parts ≠ []) :
    (bracketed .indented depth (String.singleton opening) (String.singleton last) parts).toList =
      opening :: (lineStart (depth + 1) ++ (joined depth (parts.map String.toList) ++
        (lineStart depth ++ [last]))) := by
  cases parts with
  | nil => exact absurd rfl present
  | cons part others =>
      simp only [bracketed, Layout.indented, String.toList_append, toList_newLine,
        String.toList_intercalate, String.toList_singleton, joined, List.append_assoc]
      rfl

theorem renderItems_eq_map (depth : Nat) (items : List Value) :
    renderItems .indented depth items = items.map (render .indented depth) := by
  induction items with
  | nil => rfl
  | cons item others induction => rw [renderItems, induction, List.map_cons]

theorem shown_list (depth : Nat) {items : List Value} (present : items ≠ []) :
    shown depth (.list items) = '[' :: (lineStart (depth + 1) ++
      (joined depth (items.map (shown (depth + 1))) ++ (lineStart depth ++ [']']))) := by
  have parts : items.map (render .indented (depth + 1)) ≠ [] := by simpa using present
  rw [shown, render, renderItems_eq_map]
  refine (toList_bracketed depth '[' ']' parts).trans ?_
  rw [List.map_map]
  rfl

/-- The text of an entry at some depth, after the opening quote of its key. -/
def shownEntry (depth : Nat) (field : String × Value) : List Char :=
  closing field.1 ++ ':' :: ' ' :: shown depth field.2

def quotedEntry (depth : Nat) (field : String × Value) : List Char :=
  '\x22' :: shownEntry depth field

theorem renderEntries_eq_map (depth : Nat) (fields : List (String × Value)) :
    (renderEntries .indented depth
      (fields.map fun field => (.text field.1, field.2))).map String.toList =
        fields.map (quotedEntry depth) := by
  induction fields with
  | nil => rfl
  | cons field others induction =>
      have entry : (keyText (.text field.1) ++ Layout.indented.keySeparator ++
          render .indented depth field.2).toList = quotedEntry depth field := by
        simp only [String.toList_append, keyText, toList_quoted, Layout.indented, quotedEntry,
          shownEntry, shown, List.cons_append, List.append_assoc]
        rfl
      simp only [List.map_cons, renderEntries, entry, induction]

theorem shown_record (depth : Nat) {fields : List (String × Value)} (present : fields ≠ []) :
    shown depth (.record fields) = '\x7b' :: (lineStart (depth + 1) ++
      (joined depth (fields.map (quotedEntry (depth + 1))) ++ (lineStart depth ++ ['\x7d']))) := by
  have parts : renderEntries .indented (depth + 1)
      (fields.map fun field => (.text field.1, field.2)) ≠ [] := by
    cases fields with
    | nil => exact absurd rfl present
    | cons field others => exact List.cons_ne_nil _ _
  rw [shown, Value.record, render]
  refine (toList_bracketed depth '\x7b' '\x7d' parts).trans ?_
  rw [renderEntries_eq_map]

/-! ## How values begin -/

/-- What can come first in the text of a value. -/
def IsStart (first : Char) : Prop :=
  first.isDigit = true ∨ first ∈ ['-', 'I', 'N', 'n', 't', 'f', '\x22', '[', '\x7b']

instance (first : Char) : Decidable (IsStart first) :=
  inferInstanceAs (Decidable (_ ∨ _))

theorem IsStart.not_isSpace {first : Char} (isStart : IsStart first) : isSpace first = false := by
  rw [← Bool.not_eq_true]
  intro spaced
  simp only [isSpace, Bool.or_eq_true, beq_iff_eq] at spaced
  rcases spaced with ((rfl | rfl) | rfl) | rfl
  all_goals exact absurd isStart (by decide)

theorem shown_null (depth : Nat) : shown depth .null = ['n', 'u', 'l', 'l'] := by
  simp [shown, render, scalarText]

theorem shown_boolean (depth : Nat) (value : Bool) : shown depth (.boolean value) =
    if value then ['t', 'r', 'u', 'e'] else ['f', 'a', 'l', 's', 'e'] := by
  cases value <;> simp [shown, render, scalarText]

theorem shown_number (depth : Nat) (number : Number) :
    shown depth (.number number) = (numberText number).toList := by
  simp [shown, render, scalarText]

theorem shown_text (depth : Nat) (text : String) :
    shown depth (.text text) = '\x22' :: closing text := by
  simp [shown, render, scalarText, toList_quoted]

theorem shown_list_nil (depth : Nat) : shown depth (.list []) = ['[', ']'] := by
  simp [shown, render, renderItems, bracketed]

theorem shown_record_nil (depth : Nat) : shown depth (.record []) = ['\x7b', '\x7d'] := by
  simp [shown, Value.record, render, renderEntries, bracketed]

theorem exists_shown_eq (isDocument : value.IsDocument) (depth : Nat) :
    ∃ first others, shown depth value = first :: others ∧ IsStart first := by
  cases isDocument with
  | null => exact ⟨_, _, shown_null depth, by decide⟩
  | boolean value =>
      rw [shown_boolean]
      cases value with
      | false => exact ⟨_, _, rfl, by decide⟩
      | true => exact ⟨_, _, rfl, by decide⟩
  | number isDouble =>
      rw [shown_number]
      rcases exists_numberText_eq isDouble with ⟨first, others, starts, digit | sign⟩
      · exact ⟨first, others, starts, .inl digit⟩
      · exact ⟨first, others, starts, .inr (by simp at sign ⊢; tauto)⟩
  | text value => exact ⟨_, _, shown_text depth value, by decide⟩
  | @list items _ =>
      by_cases present : items = []
      · rw [present]
        exact ⟨_, _, shown_list_nil depth, by decide⟩
      · exact ⟨_, _, shown_list depth present, by decide⟩
  | @record fields _ _ =>
      by_cases present : fields = []
      · rw [present]
        exact ⟨_, _, shown_record_nil depth, by decide⟩
      · exact ⟨_, _, shown_record depth present, by decide⟩

theorem skipSpace_of_not_isSpace {first : Char} (notSpace : isSpace first = false)
    (rest : List Char) : skipSpace (first :: rest) = first :: rest :=
  List.dropWhile_cons_of_neg (by simp [notSpace])

theorem skipSpace_lineStart (depth : Nat) (rest : List Char) :
    skipSpace (lineStart depth ++ rest) = skipSpace rest := by
  refine List.dropWhile_append_of_pos ?_
  intro character member
  rcases List.mem_cons.mp member with rfl | blank
  · rfl
  · rw [List.eq_of_mem_replicate blank]
    rfl

/-! ## Reading back -/

/-- A value is read back from its text, with fuel for each of its characters. -/
def IsReadBack (value : Value) : Prop :=
  ∀ depth fuel rest, (shown depth value).length ≤ fuel → EndsNumber rest →
    readValue fuel (shown depth value ++ rest) = some (value, rest)

theorem skipSpace_shown (isDocument : value.IsDocument) (depth : Nat) (rest : List Char) :
    skipSpace (shown depth value ++ rest) = shown depth value ++ rest := by
  rcases exists_shown_eq isDocument depth with ⟨first, others, starts, isStart⟩
  rw [starts]
  exact skipSpace_of_not_isSpace isStart.not_isSpace _

theorem endsNumber_lineStart (depth : Nat) (rest : List Char) :
    EndsNumber (lineStart depth ++ rest) := by
  rintro _ ⟨⟩
  exact ⟨rfl, by decide, by decide, by decide⟩

theorem endsNumber_comma (rest : List Char) : EndsNumber (',' :: rest) := by
  rintro _ ⟨⟩
  exact ⟨rfl, by decide, by decide, by decide⟩

/-- What begins like none of a text, a list and a mapping is read as a scalar. -/
theorem readValue_scalar {first : Char} (notQuote : first ≠ '\x22') (notBracket : first ≠ '[')
    (notBrace : first ≠ '\x7b') (fuel : Nat) (rest : List Char) :
    readValue (fuel + 1) (first :: rest) = readScalar (first :: rest) := by
  unfold readValue
  split
  case h_4 => rfl
  all_goals
    rename_i starts
    cases starts
    first
      | exact absurd rfl notQuote
      | exact absurd rfl notBracket
      | exact absurd rfl notBrace

theorem isReadBack_number {number : Number} (isDouble : number.IsDouble) :
    IsReadBack (.number number) := by
  intro depth fuel rest enough ends
  have reads := readScalar_numberText isDouble ends
  rcases exists_numberText_eq isDouble with ⟨first, others, starts, isFirst⟩
  have isShown : shown depth (.number number) = first :: others :=
    (shown_number depth number).trans starts
  rw [starts] at reads
  rw [isShown] at enough ⊢
  obtain ⟨fuel, rfl⟩ : ∃ less, fuel = less + 1 := ⟨fuel - 1, by
    rw [List.length_cons] at enough
    omega⟩
  have excluded {other : Char} (isOther : other = '\x22' ∨ other = '[' ∨ other = '\x7b') :
      first ≠ other := by
    rintro rfl
    rcases isOther with rfl | rfl | rfl
    all_goals exact absurd isFirst (by decide)
  rw [List.cons_append, readValue_scalar (excluded (.inl rfl)) (excluded (.inr (.inl rfl)))
    (excluded (.inr (.inr rfl)))]
  exact reads

theorem isReadBack_text (text : String) : IsReadBack (.text text) := by
  intro depth fuel rest enough _
  rw [shown_text] at enough ⊢
  obtain ⟨fuel, rfl⟩ : ∃ less, fuel = less + 1 := ⟨fuel - 1, by
    rw [List.length_cons] at enough
    omega⟩
  rw [List.cons_append, readValue, readText_closing]
  rfl

theorem isReadBack_word {word : Value} {first : Char} {others : List Char}
    (isShown : ∀ depth, shown depth word = first :: others) (notQuote : first ≠ '\x22')
    (notBracket : first ≠ '[') (notBrace : first ≠ '\x7b')
    (reads : ∀ rest, readScalar (first :: (others ++ rest)) = some (word, rest)) :
    IsReadBack word := by
  intro depth fuel rest enough _
  rw [isShown] at enough ⊢
  obtain ⟨fuel, rfl⟩ : ∃ less, fuel = less + 1 := ⟨fuel - 1, by
    rw [List.length_cons] at enough
    omega⟩
  rw [List.cons_append, readValue_scalar notQuote notBracket notBrace]
  exact reads rest

theorem isReadBack_null : IsReadBack .null :=
  isReadBack_word shown_null (by decide) (by decide) (by decide) fun _ => rfl

theorem isReadBack_boolean (value : Bool) : IsReadBack (.boolean value) := by
  cases value with
  | false =>
      exact isReadBack_word (fun depth => shown_boolean depth false) (by decide) (by decide)
        (by decide) fun _ => rfl
  | true =>
      exact isReadBack_word (fun depth => shown_boolean depth true) (by decide) (by decide)
        (by decide) fun _ => rfl

/-! ### Lists -/

theorem joined_cons_cons (depth : Nat) (first second : List Char) (others : List (List Char)) :
    joined depth (first :: second :: others) =
      first ++ (',' :: (lineStart (depth + 1) ++ joined depth (second :: others))) := by
  rw [joined, List.intercalate_cons_cons, List.append_assoc]
  rfl

theorem exists_joined_eq (depth : Nat) (first : List Char) (others : List (List Char)) :
    ∃ more, joined depth (first :: others) = first ++ more := by
  cases others with
  | nil => exact ⟨[], by rw [joined, List.intercalate_singleton, List.append_nil]⟩
  | cons second others => exact ⟨_, joined_cons_cons depth first second others⟩

theorem skipSpace_joined {item : Value} (isDocument : item.IsDocument) (depth : Nat)
    (others : List (List Char)) (rest : List Char) :
    skipSpace (joined depth (shown (depth + 1) item :: others) ++ rest) =
      joined depth (shown (depth + 1) item :: others) ++ rest := by
  rcases exists_joined_eq depth (shown (depth + 1) item) others with ⟨more, isJoined⟩
  rw [isJoined, List.append_assoc, skipSpace_shown isDocument]

theorem readItems_joined {items : List Value} (present : items ≠ [])
    (areDocuments : ∀ item ∈ items, item.IsDocument) (each : ∀ item ∈ items, IsReadBack item)
    {depth fuel : Nat} {before : List Value} {rest : List Char}
    (enough : (joined depth (items.map (shown (depth + 1)))).length < fuel) :
    readItems fuel before (joined depth (items.map (shown (depth + 1))) ++
        (lineStart depth ++ ']' :: rest)) =
      some (.list (before.reverse ++ items), rest) := by
  induction items generalizing fuel before with
  | nil => exact absurd rfl present
  | cons item others induction =>
      rcases List.forall_mem_cons.mp each with ⟨reads, readOthers⟩
      rcases List.forall_mem_cons.mp areDocuments with ⟨_, areOthers⟩
      obtain ⟨fuel, rfl⟩ : ∃ less, fuel = less + 1 := ⟨fuel - 1, by omega⟩
      cases others with
      | nil =>
          have isJoined : joined depth ([item].map (shown (depth + 1))) = shown (depth + 1) item :=
            List.intercalate_singleton
          rw [isJoined] at enough ⊢
          rw [readItems, reads _ _ _ (by omega) (endsNumber_lineStart _ _)]
          simp only [Option.bind_eq_bind, Option.bind_some, skipSpace_lineStart,
            skipSpace_of_not_isSpace (by decide : isSpace ']' = false), List.reverse_cons]
      | cons next more =>
          rw [List.map_cons, List.map_cons, joined_cons_cons] at enough ⊢
          rw [← List.map_cons] at enough ⊢
          simp only [List.length_append, List.length_cons] at enough
          rw [List.append_assoc, List.cons_append, readItems,
            reads _ _ _ (by omega) (endsNumber_comma _)]
          simp only [Option.bind_eq_bind, Option.bind_some,
            skipSpace_of_not_isSpace (by decide : isSpace ',' = false), List.append_assoc,
            skipSpace_lineStart, List.map_cons,
            skipSpace_joined (List.forall_mem_cons.mp areOthers).1]
          rw [← List.map_cons, induction (List.cons_ne_nil _ _) areOthers readOthers (by omega),
            List.reverse_cons, List.append_assoc]
          rfl

theorem readValue_list {fuel : Nat} {text rest : List Char} {first : Char}
    (starts : skipSpace text = first :: rest) (isOpen : first ≠ ']') :
    readValue (fuel + 1) ('[' :: text) = readItems fuel [] (first :: rest) := by
  simp only [readValue, starts]
  split
  case h_1 closes =>
    cases closes
    exact absurd rfl isOpen
  case h_2 => rfl

theorem isReadBack_list {items : List Value} (areDocuments : ∀ item ∈ items, item.IsDocument)
    (each : ∀ item ∈ items, IsReadBack item) : IsReadBack (.list items) := by
  intro depth fuel rest enough _
  cases items with
  | nil =>
      rw [shown_list_nil] at enough ⊢
      obtain ⟨fuel, rfl⟩ : ∃ less, fuel = less + 1 := ⟨fuel - 1, by
        rw [List.length_cons] at enough
        omega⟩
      simp only [List.cons_append, List.nil_append, readValue,
        skipSpace_of_not_isSpace (by decide : isSpace ']' = false)]
  | cons item others =>
      rw [shown_list depth (List.cons_ne_nil _ _)] at enough ⊢
      simp only [List.length_cons, List.length_append] at enough
      obtain ⟨fuel, rfl⟩ : ∃ less, fuel = less + 1 := ⟨fuel - 1, by omega⟩
      have isItem := (List.forall_mem_cons.mp areDocuments).1
      rcases exists_shown_eq isItem (depth + 1) with ⟨first, more, starts, isStart⟩
      rcases exists_joined_eq depth (shown (depth + 1) item) (others.map (shown (depth + 1))) with
        ⟨tail, isJoined⟩
      have begins : joined depth ((item :: others).map (shown (depth + 1))) ++
          (lineStart depth ++ ']' :: rest) =
            first :: (more ++ (tail ++ (lineStart depth ++ ']' :: rest))) := by
        rw [List.map_cons, isJoined, starts, List.append_assoc]
        rfl
      have skips : skipSpace (lineStart (depth + 1) ++
          (joined depth ((item :: others).map (shown (depth + 1))) ++
            (lineStart depth ++ ']' :: rest))) =
              first :: (more ++ (tail ++ (lineStart depth ++ ']' :: rest))) := by
        rw [skipSpace_lineStart, begins, skipSpace_of_not_isSpace isStart.not_isSpace]
      have isOpen : first ≠ ']' := by
        rintro rfl
        exact absurd isStart (by decide)
      simp only [List.cons_append, List.append_assoc, List.nil_append]
      rw [readValue_list skips isOpen, ← begins,
        readItems_joined (List.cons_ne_nil _ _) areDocuments each (by omega)]
      rfl

/-! ### Mappings -/

/-- A field as an entry of a mapping. -/
def entryOf (field : String × Value) : Value × Value :=
  (.text field.1, field.2)

theorem put_of_fresh {field : String × Value} {fields : List (String × Value)}
    (fresh : field.1 ∉ fields.map Prod.fst) :
    Value.put (.text field.1) field.2 (fields.map entryOf) = (fields ++ [field]).map entryOf := by
  induction fields with
  | nil => rfl
  | cons other others induction =>
      rw [List.map_cons, List.mem_cons, not_or] at fresh
      have differs : (Value.text other.1).sameKey (.text field.1) = false :=
        beq_eq_false_iff_ne.mpr (Ne.symm fresh.1)
      rw [List.map_cons, entryOf, Value.put, differs, induction fresh.2]
      rfl

/-- An entry is read up to what follows its value. -/
theorem readEntries_entry {field : String × Value} {before : List (String × Value)}
    (isDocument : field.2.IsDocument) (reads : IsReadBack field.2)
    (fresh : field.1 ∉ before.map Prod.fst) {depth fuel : Nat} {tail : List Char}
    (enough : (shown depth field.2).length ≤ fuel) (ends : EndsNumber tail) :
    readEntries (fuel + 1) (before.map entryOf) ('\x22' :: (shownEntry depth field ++ tail)) =
      match skipSpace tail with
      | ',' :: later => readEntries fuel ((before ++ [field]).map entryOf) (skipSpace later)
      | '\x7d' :: later => some (.record (before ++ [field]), later)
      | _ => none := by
  have text : shownEntry depth field ++ tail =
      closing field.1 ++ (':' :: ' ' :: (shown depth field.2 ++ tail)) := by
    rw [shownEntry, List.append_assoc]
    rfl
  have blank : skipSpace (' ' :: (shown depth field.2 ++ tail)) = shown depth field.2 ++ tail :=
    skipSpace_shown isDocument _ _
  rw [text, readEntries, readText_closing]
  simp only [Option.bind_eq_bind, Option.bind_some,
    skipSpace_of_not_isSpace (by decide : isSpace ':' = false), blank, reads _ _ _ enough ends,
    put_of_fresh fresh]
  rfl

theorem readEntries_joined {fields before : List (String × Value)} (present : fields ≠ [])
    (areDocuments : ∀ field ∈ fields, field.2.IsDocument)
    (each : ∀ field ∈ fields, IsReadBack field.2)
    (distinct : ((before ++ fields).map Prod.fst).Nodup) {depth fuel : Nat} {rest : List Char}
    (enough : (joined depth (fields.map (quotedEntry (depth + 1)))).length < fuel) :
    readEntries fuel (before.map entryOf)
        (joined depth (fields.map (quotedEntry (depth + 1))) ++
          (lineStart depth ++ '\x7d' :: rest)) =
      some (.record (before ++ fields), rest) := by
  induction fields generalizing fuel before with
  | nil => exact absurd rfl present
  | cons field others induction =>
      rcases List.forall_mem_cons.mp each with ⟨reads, readOthers⟩
      rcases List.forall_mem_cons.mp areDocuments with ⟨isDocument, areOthers⟩
      have fresh : field.1 ∉ before.map Prod.fst := by
        rw [List.map_append, List.map_cons] at distinct
        exact fun member => (List.nodup_append.mp distinct).2.2 _ member _
          (List.mem_cons_self ..) rfl
      obtain ⟨fuel, rfl⟩ : ∃ less, fuel = less + 1 := ⟨fuel - 1, by omega⟩
      cases others with
      | nil =>
          have isJoined : joined depth ([field].map (quotedEntry (depth + 1))) =
              '\x22' :: shownEntry (depth + 1) field := List.intercalate_singleton
          rw [isJoined] at enough ⊢
          simp only [shownEntry, List.length_cons, List.length_append] at enough
          rw [List.cons_append, readEntries_entry isDocument reads fresh (by omega)
            (endsNumber_lineStart _ _), skipSpace_lineStart, skipSpace_of_not_isSpace (by decide)]
          rfl
      | cons next more =>
          have later : ((before ++ [field] ++ next :: more).map Prod.fst).Nodup := by
            rwa [List.append_assoc]
          have isJoined : joined depth ((field :: next :: more).map (quotedEntry (depth + 1))) =
              '\x22' :: (shownEntry (depth + 1) field ++ (',' :: (lineStart (depth + 1) ++
                joined depth ((next :: more).map (quotedEntry (depth + 1)))))) :=
            joined_cons_cons depth _ _ _
          have skips : skipSpace (joined depth ((next :: more).map (quotedEntry (depth + 1))) ++
              (lineStart depth ++ '\x7d' :: rest)) =
                joined depth ((next :: more).map (quotedEntry (depth + 1))) ++
                  (lineStart depth ++ '\x7d' :: rest) := by
            rcases exists_joined_eq depth (quotedEntry (depth + 1) next)
              (more.map (quotedEntry (depth + 1))) with ⟨tail, begins⟩
            rw [List.map_cons, begins]
            exact skipSpace_of_not_isSpace (by decide) _
          rw [isJoined] at enough ⊢
          simp only [List.length_append, List.length_cons, shownEntry] at enough
          rw [List.cons_append, List.append_assoc, List.cons_append, List.append_assoc,
            readEntries_entry isDocument reads fresh (by omega) (endsNumber_comma _),
            skipSpace_of_not_isSpace (by decide)]
          change readEntries fuel ((before ++ [field]).map entryOf) (skipSpace (lineStart (depth + 1) ++
            (joined depth ((next :: more).map (quotedEntry (depth + 1))) ++
              (lineStart depth ++ '\x7d' :: rest)))) = _
          rw [skipSpace_lineStart, skips, induction (List.cons_ne_nil _ _) areOthers readOthers
            later (by omega), List.append_assoc]
          rfl

theorem readValue_record {fuel : Nat} {text rest : List Char} {first : Char}
    (starts : skipSpace text = first :: rest) (isOpen : first ≠ '\x7d') :
    readValue (fuel + 1) ('\x7b' :: text) = readEntries fuel [] (first :: rest) := by
  simp only [readValue, starts]
  split
  case h_1 closes =>
    cases closes
    exact absurd rfl isOpen
  case h_2 => rfl

theorem isReadBack_record {fields : List (String × Value)}
    (areDocuments : ∀ field ∈ fields, field.2.IsDocument)
    (each : ∀ field ∈ fields, IsReadBack field.2) (distinct : (fields.map Prod.fst).Nodup) :
    IsReadBack (.record fields) := by
  intro depth fuel rest enough _
  cases fields with
  | nil =>
      rw [shown_record_nil] at enough ⊢
      obtain ⟨fuel, rfl⟩ : ∃ less, fuel = less + 1 := ⟨fuel - 1, by
        rw [List.length_cons] at enough
        omega⟩
      simp only [List.cons_append, List.nil_append, readValue,
        skipSpace_of_not_isSpace (by decide : isSpace '\x7d' = false)]
      rfl
  | cons field others =>
      rw [shown_record depth (List.cons_ne_nil _ _)] at enough ⊢
      simp only [List.length_cons, List.length_append] at enough
      obtain ⟨fuel, rfl⟩ : ∃ less, fuel = less + 1 := ⟨fuel - 1, by omega⟩
      rcases exists_joined_eq depth (quotedEntry (depth + 1) field)
        (others.map (quotedEntry (depth + 1))) with ⟨tail, isJoined⟩
      have begins : joined depth ((field :: others).map (quotedEntry (depth + 1))) ++
          (lineStart depth ++ '\x7d' :: rest) = '\x22' :: (shownEntry (depth + 1) field ++
            (tail ++ (lineStart depth ++ '\x7d' :: rest))) := by
        rw [List.map_cons, isJoined, List.append_assoc]
        rfl
      have skips : skipSpace (lineStart (depth + 1) ++
          (joined depth ((field :: others).map (quotedEntry (depth + 1))) ++
            (lineStart depth ++ '\x7d' :: rest))) = '\x22' :: (shownEntry (depth + 1) field ++
              (tail ++ (lineStart depth ++ '\x7d' :: rest))) := by
        rw [skipSpace_lineStart, begins, skipSpace_of_not_isSpace (by decide)]
      have reads := @readEntries_joined _ [] (List.cons_ne_nil _ _) areDocuments each
        (by rwa [List.nil_append]) depth fuel rest (by omega)
      simp only [List.cons_append, List.append_assoc, List.nil_append]
      rw [readValue_record skips (by decide), ← begins]
      exact reads

/-! ## Documents -/

/-- A document is read back from its text at any depth. -/
theorem isReadBack_of_isDocument (isDocument : value.IsDocument) : IsReadBack value := by
  induction isDocument with
  | null => exact isReadBack_null
  | boolean value => exact isReadBack_boolean value
  | number isDouble => exact isReadBack_number isDouble
  | text value => exact isReadBack_text value
  | list each reads => exact isReadBack_list each reads
  | record distinct each reads => exact isReadBack_record each reads distinct

theorem read?_indented (isDocument : value.IsDocument) : read? (indented value) = some value := by
  have skips := skipSpace_shown isDocument 0 []
  have reads := isReadBack_of_isDocument isDocument 0 ((shown 0 value).length + 1) []
    (Nat.le_succ _) (fun _ impossible => nomatch impossible)
  rw [List.append_nil] at skips reads
  have isShown : (indented value).toList = shown 0 value := rfl
  rw [read?, isShown, skips, reads]
  rfl

theorem return_not_mem_lineStart (depth : Nat) : '\r' ∉ lineStart depth := by
  simp [lineStart]

theorem return_not_mem_joined (depth : Nat) {parts : List (List Char)}
    (each : ∀ part ∈ parts, '\r' ∉ part) : '\r' ∉ joined depth parts := by
  induction parts with
  | nil => exact List.not_mem_nil
  | cons part others induction =>
      rcases List.forall_mem_cons.mp each with ⟨first, rest⟩
      cases others with
      | nil => rwa [joined, List.intercalate_singleton]
      | cons next more =>
          rw [joined_cons_cons]
          refine List.not_mem_append first (List.not_mem_cons_of_ne_of_not_mem (by decide) ?_)
          exact List.not_mem_append (return_not_mem_lineStart _) (induction rest)

/-- No document holds a carriage return, so reading it from a file changes nothing. -/
theorem return_not_mem_shown (isDocument : value.IsDocument) (depth : Nat) :
    '\r' ∉ shown depth value := by
  have bracketed {opening last : Char} {parts : List (List Char)} (depth : Nat)
      (isOpening : '\r' ≠ opening) (isLast : '\r' ≠ last) (each : ∀ part ∈ parts, '\r' ∉ part) :
      '\r' ∉ opening :: (lineStart (depth + 1) ++
        (joined depth parts ++ (lineStart depth ++ [last]))) := by
    refine List.not_mem_cons_of_ne_of_not_mem isOpening ?_
    refine List.not_mem_append (return_not_mem_lineStart _) ?_
    refine List.not_mem_append (return_not_mem_joined _ each) ?_
    exact List.not_mem_append (return_not_mem_lineStart _) (by simpa using isLast)
  induction isDocument generalizing depth with
  | null =>
      rw [shown_null]
      decide
  | boolean value =>
      rw [shown_boolean]
      cases value <;> decide
  | number isDouble =>
      rw [shown_number]
      exact return_not_mem_numberText isDouble
  | text value =>
      rw [shown_text]
      exact List.not_mem_cons_of_ne_of_not_mem (by decide) (return_not_mem_closing value)
  | @list items _ induction =>
      by_cases present : items = []
      · rw [present, shown_list_nil]
        decide
      · rw [shown_list depth present]
        refine bracketed depth (by decide) (by decide) fun part member => ?_
        rcases List.mem_map.mp member with ⟨item, isItem, rfl⟩
        exact induction item isItem _
  | @record fields _ _ induction =>
      by_cases present : fields = []
      · rw [present, shown_record_nil]
        decide
      · rw [shown_record depth present]
        refine bracketed depth (by decide) (by decide) fun part member => ?_
        rcases List.mem_map.mp member with ⟨field, isField, rfl⟩
        refine List.not_mem_cons_of_ne_of_not_mem (by decide) ?_
        refine List.not_mem_append (return_not_mem_closing _) ?_
        refine List.not_mem_cons_of_ne_of_not_mem (by decide) ?_
        exact List.not_mem_cons_of_ne_of_not_mem (by decide) (induction field isField _)

/-- A document is read back from the file that it was written to. -/
theorem read?_unifyLineEnds_indented (isDocument : value.IsDocument) :
    read? (String.ofList (Text.unifyLineEnds (indented value).toList)) = some value := by
  have absent : '\r' ∉ (indented value).toList := return_not_mem_shown isDocument 0
  rw [Text.unifyLineEnds_of_not_mem absent, String.ofList_toList]
  exact read?_indented isDocument

end Json

end UplinkShaper
