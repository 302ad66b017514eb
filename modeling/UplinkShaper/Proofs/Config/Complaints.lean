import Mathlib.Data.List.Nodup
import UplinkShaper.Proofs.Config.Plain

/-!
Complaints of a schema. A document that is not admitted is refused with the complaint that
lies nearest to its root. In a plain document every complaint can be written, and of two
there is always a nearer one, so nothing else can come of a check.
-/

namespace UplinkShaper

/-! ## Results that surface -/

namespace Failure

def isConfiguration : Failure → Bool
  | .configuration _ => true
  | _ => false

end Failure

/-- A result that is no failure, or one of the configuration. -/
def Surfaces (result : Except Failure α) : Prop :=
  ∀ failure, result = .error failure → failure.isConfiguration = true

namespace Surfaces

theorem ok (value : α) : Surfaces (.ok value : Except Failure α) :=
  fun _ impossible => nomatch impossible

theorem error (error : ConfigurationError) :
    Surfaces (.error (.configuration error) : Except Failure α) := by
  rintro _ ⟨⟩
  rfl

/-- A refusal with a message that can be written. -/
theorem ofConfiguration {error : ConfigurationError} (writable : error.isWritable = true) :
    Surfaces (.error (.ofConfiguration error) : Except Failure α) := by
  rw [Failure.ofConfiguration, if_pos writable]
  exact .error error

theorem bind {result : Except Failure α} {next : α → Except Failure β}
    (surfaces : Surfaces result)
    (nextSurfaces : ∀ value, result = .ok value → Surfaces (next value)) :
    Surfaces (result >>= next) := by
  cases result with
  | ok value => exact nextSurfaces value rfl
  | error failure =>
      rintro _ ⟨⟩
      exact surfaces failure rfl

theorem mapM {items : List α} {next : α → Except Failure β}
    (surfaces : ∀ item ∈ items, Surfaces (next item)) : Surfaces (items.mapM next) := by
  induction items with
  | nil => exact ok []
  | cons item rest induction =>
      rcases List.forall_mem_cons.mp surfaces with ⟨first, others⟩
      rw [List.mapM_cons]
      exact first.bind fun _ _ => (induction others).bind fun _ _ => ok _

theorem forM {items : List α} {check : α → Except Failure Unit}
    (surfaces : ∀ item ∈ items, Surfaces (check item)) : Surfaces (items.forM check) := by
  induction items with
  | nil => exact ok ()
  | cons item rest induction =>
      rcases List.forall_mem_cons.mp surfaces with ⟨first, others⟩
      exact first.bind fun _ _ => induction others

theorem foldlM {items : List α} {next : β → α → Except Failure β} (start : β)
    (surfaces : ∀ item ∈ items, ∀ value, Surfaces (next value item)) :
    Surfaces (items.foldlM next start) := by
  induction items generalizing start with
  | nil => exact ok start
  | cons item rest induction =>
      rcases List.forall_mem_cons.mp surfaces with ⟨first, others⟩
      rw [List.foldlM_cons]
      exact (first start).bind fun value _ => induction value others

end Surfaces

namespace Schema

/-! ## Where complaints are -/

mutual

/-- Whether no mapping is to have two fields of one name. -/
def isDistinct : Schema → Bool
  | .scalar _ _ => true
  | .items _ item => item.isDistinct
  | .record _ fields _ => decide (fieldNames fields).Nodup && fieldsAreDistinct fields
  | .table inner => inner.isDistinct

def fieldsAreDistinct : List (String × Schema) → Bool
  | [] => true
  | (_, schema) :: rest => schema.isDistinct && fieldsAreDistinct rest

end

/-- The ways that lead from a value to its parts, as a schema knows them. -/
inductive Leads : Schema → List Value → Prop
  | here {schema : Schema} : Leads schema []
  | item {forms : List Form} {item : Schema} {index : Int} {rest : List Value} :
      Leads item rest → Leads (.items forms item) (.whole index :: rest)
  | field {required : List String} {fields : List (String × Schema)} {isClosed : Bool}
      {name : String} {schema : Schema} {rest : List Value} : (name, schema) ∈ fields →
        Leads schema rest → Leads (.record required fields isClosed) (.text name :: rest)
  | entry {inner : Schema} {key : String} {rest : List Value} :
      Leads inner rest → Leads (.table inner) (.text key :: rest)

theorem isDistinct_of_mem {fields : List (String × Schema)} {name : String} {schema : Schema}
    (distinct : fieldsAreDistinct fields = true) (member : (name, schema) ∈ fields) :
    schema.isDistinct = true := by
  induction fields with
  | nil => cases member
  | cons head rest induction =>
      rw [fieldsAreDistinct, Bool.and_eq_true] at distinct
      rcases List.mem_cons.mp member with rfl | later
      · exact distinct.1
      · exact induction distinct.2 later

/-- A name leads to one schema. -/
theorem eq_of_mem_of_nodup {fields : List (String × Schema)} {name : String}
    {left right : Schema} (distinct : (fieldNames fields).Nodup)
    (isLeft : (name, left) ∈ fields) (isRight : (name, right) ∈ fields) : left = right := by
  have same := List.inj_on_of_nodup_map distinct isLeft isRight rfl
  exact (Prod.ext_iff.mp same).2

theorem isSome_compareKeys?_text (left right : String) :
    (compareKeys? (.text left) (.text right)).isSome = true := rfl

theorem isSome_compareKeys?_whole (left right : Int) :
    (compareKeys? (.whole left) (.whole right)).isSome = true := rfl

/-- Of two ways in one schema it is always known which comes first. -/
theorem Leads.isSome_comparePaths? {schema : Schema} {left right : List Value}
    (distinct : schema.isDistinct = true) (leads : Leads schema left)
    (leadsToo : Leads schema right) : (comparePaths? left right).isSome = true := by
  induction leads generalizing right with
  | here => cases right <;> rfl
  | item _ induction =>
      cases leadsToo with
      | here => rfl
      | item leadsToo =>
          rw [comparePaths?]
          split
          · exact induction distinct leadsToo
          · exact isSome_compareKeys?_whole _ _
  | @field required fields isClosed name schema rest member _ induction =>
      rw [isDistinct, Bool.and_eq_true, decide_eq_true_eq] at distinct
      cases leadsToo with
      | here => rfl
      | @field _ _ _ other otherSchema more memberToo leadsToo =>
          rw [comparePaths?]
          split
          case isTrue same =>
            cases Value.sameKey_text_iff.mp same
            cases eq_of_mem_of_nodup distinct.1 member memberToo
            exact induction (isDistinct_of_mem distinct.2 member) leadsToo
          case isFalse => exact isSome_compareKeys?_text _ _
  | entry _ induction =>
      cases leadsToo with
      | here => rfl
      | entry leadsToo =>
          rw [comparePaths?]
          split
          · exact induction distinct leadsToo
          · exact isSome_compareKeys?_text _ _

/-! ## Complaints about plain values -/

/-- A complaint that can be written, about a part of the value at a path. -/
structure IsAbout (schema : Schema) (path : List Value) (error : FormError) : Prop where
  writable : error.isWritable = true
  leads : ∃ rest, error.path = path ++ rest ∧ Leads schema rest

theorem IsAbout.here {schema : Schema} {path : List Value} {error : FormError}
    (writable : error.isWritable = true) (isHere : error.path = path) :
    schema.IsAbout path error :=
  ⟨writable, [], isHere.trans (List.append_nil _).symm, .here⟩

theorem isAbout_of_formErrors {schema : Schema} {forms : List Form} {path : List Value}
    {value : Value} (plain : value.isPlain = true) :
    ∀ error ∈ formErrors forms path value, schema.IsAbout path error := by
  intro error member
  unfold formErrors at member
  split at member
  · cases member
  · cases List.mem_singleton.mp member
    exact .here (Value.isWritable_of_isPlain value plain) rfl

theorem isAbout_of_ruleErrors {schema : Schema} {rules : List ScalarRule} {path : List Value}
    {value : Value} (plain : value.isPlain = true) :
    ∀ error ∈ ruleErrors rules path value, schema.IsAbout path error := by
  intro error member
  rcases List.mem_map.mp member with ⟨complaint, _, rfl⟩
  exact .here (Value.isWritable_of_isPlain value plain) rfl

theorem isAbout_of_missingErrors {schema : Schema} {required : List String}
    {path : List Value} {value : Value} :
    ∀ error ∈ missingErrors required path value, schema.IsAbout path error := by
  intro error member
  rcases List.mem_map.mp member with ⟨name, _, rfl⟩
  exact .here rfl rfl

theorem isAbout_of_unexpectedErrors {schema : Schema} {names : List String}
    {path : List Value} {entries : List (Value × Value)}
    (plain : Value.entriesArePlain entries = true) :
    ∀ error ∈ unexpectedErrors names path entries, schema.IsAbout path error := by
  intro error member
  unfold unexpectedErrors at member
  dsimp only at member
  split at member
  · cases member
  · cases List.mem_singleton.mp member
    refine .here (Value.areWritable_iff.mpr fun key isKey => ?_) rfl
    have isExtra := (List.mem_mergeSort.mp isKey)
    rcases List.mem_map.mp (List.mem_filter.mp isExtra).1 with ⟨entry, isEntry, rfl⟩
    rcases Value.exists_text_of_isText (Value.entriesArePlain_iff.mp plain entry isEntry).1 with
      ⟨name, isName⟩
    rw [isName]
    rfl

/-- A complaint about a part is one about the whole. -/
theorem IsAbout.inside {schema part : Schema} {path : List Value} {key : Value}
    {error : FormError} (about : part.IsAbout (path ++ [key]) error)
    (leads : ∀ rest, Leads part rest → Leads schema (key :: rest)) :
    schema.IsAbout path error := by
  rcases about with ⟨writable, rest, isPath, leadsOn⟩
  exact ⟨writable, key :: rest, by rw [isPath, List.append_assoc]; rfl, leads rest leadsOn⟩

mutual

theorem isAbout_of_errors : ∀ (schema : Schema) (path : List Value) (value : Value),
    value.isPlain = true → ∀ error ∈ schema.errors path value, schema.IsAbout path error
  | .scalar forms rules, path, value, plain, error, member => by
      rcases List.mem_append.mp member with isForm | isRule
      · exact isAbout_of_formErrors plain error isForm
      · exact isAbout_of_ruleErrors plain error isRule
  | .items forms item, path, value, plain, error, member => by
      unfold errors at member
      rcases List.mem_append.mp member with isForm | isItem
      · exact isAbout_of_formErrors plain error isForm
      · cases value with
        | list values =>
            rcases List.mem_flatten.mp isItem with ⟨errors, isErrors, isError⟩
            rcases List.mem_mapIdx.mp isErrors with ⟨index, inside, rfl⟩
            have elementPlain := Value.arePlain_iff.mp plain values[index] (List.getElem_mem inside)
            exact (isAbout_of_errors item _ _ elementPlain error isError).inside fun _ => .item
        | _ => cases isItem
  | .record required fields isClosed, path, value, plain, error, member => by
      unfold errors at member
      rcases List.mem_append.mp member with isForm | isInside
      · exact isAbout_of_formErrors plain error isForm
      · cases value with
        | mapping entries =>
            rcases List.mem_append.mp isInside with isNamed | isUnexpected
            · rcases List.mem_append.mp isNamed with isMissing | isField
              · exact isAbout_of_missingErrors error isMissing
              · rcases isAbout_of_fieldErrors fields path _ plain error isField with
                  ⟨name, schema, isListed, about⟩
                exact about.inside fun _ => .field isListed
            · split at isUnexpected
              · exact isAbout_of_unexpectedErrors plain error isUnexpected
              · cases isUnexpected
        | _ => cases isInside
  | .table inner, path, value, plain, error, member => by
      unfold errors at member
      rcases List.mem_append.mp member with isForm | isInside
      · exact isAbout_of_formErrors plain error isForm
      · cases value with
        | mapping entries =>
            rcases List.mem_flatMap.mp isInside with ⟨⟨key, element⟩, isEntry, isError⟩
            have entryPlain := Value.entriesArePlain_iff.mp plain _ isEntry
            rcases Value.exists_text_of_isText entryPlain.1 with ⟨name, isName⟩
            cases isName
            exact (isAbout_of_errors inner _ element entryPlain.2.2 error isError).inside
              fun _ => .entry
        | _ => cases isInside

theorem isAbout_of_fieldErrors : ∀ (fields : List (String × Schema)) (path : List Value)
    (value : Value), value.isPlain = true → ∀ error ∈ fieldErrors path value fields,
      ∃ name schema, (name, schema) ∈ fields ∧ schema.IsAbout (path ++ [.text name]) error
  | [], _, _, _, _, member => nomatch member
  | (name, schema) :: rest, path, value, plain, error, member => by
      rw [fieldErrors] at member
      rcases List.mem_append.mp member with isFirst | later
      · cases found : value.field? name with
        | none =>
            rw [found] at isFirst
            cases isFirst
        | some element =>
            rw [found] at isFirst
            have elementPlain := (Value.isPlain_of_field? plain found).2
            exact ⟨name, schema, List.mem_cons_self ..,
              isAbout_of_errors schema _ element elementPlain error isFirst⟩
      · rcases isAbout_of_fieldErrors rest path value plain error later with
          ⟨other, part, isListed, about⟩
        exact ⟨other, part, List.mem_cons_of_mem _ isListed, about⟩

end

/-! ## The nearest complaint -/

theorem exists_better {best next : FormError}
    (comparable : (comparePaths? best.path next.path).isSome = true) :
    better best next = .ok best ∨ better best next = .ok next := by
  unfold better
  split
  · exact .inr rfl
  · split
    · exact .inl rfl
    · split
      · exact .inr rfl
      · exact .inl rfl
      case h_3 incomparable =>
        rw [incomparable] at comparable
        cases comparable

theorem exists_worst {holds : FormError → Prop} {best : FormError} {others : List FormError}
    (comparable : ∀ left right, holds left → holds right →
      (comparePaths? left.path right.path).isSome = true)
    (isHeld : holds best) (areHeld : ∀ other ∈ others, holds other) :
    ∃ worst, others.foldlM better best = .ok worst := by
  induction others generalizing best with
  | nil => exact ⟨best, rfl⟩
  | cons next rest induction =>
      rcases List.forall_mem_cons.mp areHeld with ⟨nextIsHeld, restAreHeld⟩
      rw [List.foldlM_cons]
      rcases exists_better (comparable best next isHeld nextIsHeld) with chosen | chosen
      · rw [chosen]
        exact induction isHeld restAreHeld
      · rw [chosen]
        exact induction nextIsHeld restAreHeld

/-- A plain document is admitted, or refused for its form. -/
theorem surfaces_check {schema : Schema} {document : Value}
    (distinct : schema.isDistinct = true) (plain : document.isPlain = true) :
    Surfaces (schema.check document) := by
  have about := isAbout_of_errors schema [] document plain
  unfold check
  split
  · exact .ok _
  case h_2 first others isErrors =>
    rw [isErrors] at about
    rcases List.forall_mem_cons.mp about with ⟨firstIsAbout, othersAreAbout⟩
    have comparable : ∀ left right, schema.IsAbout [] left → schema.IsAbout [] right →
        (comparePaths? left.path right.path).isSome = true := by
      rintro left right ⟨_, leftRest, isLeft, leads⟩ ⟨_, rightRest, isRight, leadsToo⟩
      rw [isLeft, isRight]
      exact leads.isSome_comparePaths? distinct leadsToo
    have allWritable : ((first :: others).any fun error => !error.isWritable) = false := by
      rw [List.any_eq_false]
      intro error member
      rw [(about error member).writable]
      decide
    rcases exists_worst comparable firstIsAbout othersAreAbout with ⟨worst, isWorst⟩
    rw [if_neg (by rw [allWritable]; decide), isWorst]
    exact .error _

end Schema

end UplinkShaper
