import UplinkShaper.Config.Source
import UplinkShaper.Proofs.Config.Doubles

/-!
Numbers in files. A number that is written in a file is read as a whole one or as the double that
it rounds to, so settings from files have no others.
-/

namespace UplinkShaper

namespace Double

theorem isDouble_ofDecimal (negative : Bool) (significant : Nat) (scale : Int) :
    (ofDecimal negative significant scale).IsDouble := by
  simp only [ofDecimal]
  split
  · exact isDouble_zero negative
  split
  · exact trivial
  split
  · exact isDouble_zero negative
  · exact isDouble_round _

theorem isDouble_of_ofDigits? {negative : Bool} {text : List Char} {double : Double}
    (isRead : ofDigits? negative text = some double) : double.IsDouble := by
  simp only [ofDigits?, Option.bind_eq_bind] at isRead
  rcases Option.bind_eq_some_iff.mp isRead with ⟨exponent, _, isRead⟩
  split at isRead
  · cases isRead
  · rcases Option.bind_eq_some_iff.mp isRead with ⟨significant, _, ⟨⟩⟩
    exact isDouble_ofDecimal _ _ _

theorem isDouble_of_read? {text : List Char} {double : Double}
    (isRead : read? text = some double) : double.IsDouble := by
  rcases Option.bind_eq_some_iff.mp isRead with ⟨shown, _, isRead⟩
  dsimp only at isRead
  split at isRead
  · cases isRead
    exact trivial
  · cases isRead
    exact trivial
  · cases isRead
    exact trivial
  · exact isDouble_of_ofDigits? isRead

end Double

namespace Yaml

namespace Scalar

theorem isDouble_of_readDouble {text : List Char} {double : Double}
    (isRead : readDouble text = .ok double) : double.IsDouble := by
  unfold readDouble at isRead
  split at isRead
  case h_1 read =>
    cases isRead
    exact Double.isDouble_of_read? read
  case h_2 => cases isRead

theorem isDouble_of_sumBase60 {total double : Double} {base : Int} {parts : List Double}
    (isDouble : total.IsDouble) (isSum : sumBase60 total base parts = .ok double) :
    double.IsDouble := by
  induction parts generalizing total base with
  | nil =>
      cases isSum
      exact isDouble
  | cons part rest induction =>
      rcases Result.bind_eq_ok.mp isSum with ⟨factor, _, isSum⟩
      exact induction (Double.isDouble_add isDouble (Double.isDouble_mul part factor)) isSum

theorem isDouble_of_doubleValue {text : List Char} {double : Double}
    (isRead : doubleValue text = .ok double) : double.IsDouble := by
  have signed {negative : Bool} {size : Double} (isDouble : size.IsDouble)
      (isSigned : (pure (if negative then size.neg else size) : Except Failure Double) =
        .ok double) : double.IsDouble := by
    rw [← Result.pure_eq_ok.mp isSigned]
    split
    · exact Double.isDouble_neg isDouble
    · exact isDouble
  unfold doubleValue at isRead
  dsimp only at isRead
  split at isRead
  · cases isRead
  · exact @signed _ (.infinite false) trivial isRead
  · exact @signed _ .notANumber trivial isRead
  · split at isRead
    · rcases Result.bind_eq_ok.mp isRead with ⟨parts, _, isRead⟩
      rcases Result.bind_eq_ok.mp isRead with ⟨size, isSum, isRead⟩
      exact signed (isDouble_of_sumBase60 (Double.isDouble_zero false) isSum) isRead
    · rcases Result.bind_eq_ok.mp isRead with ⟨size, isSize, isRead⟩
      exact signed (isDouble_of_readDouble isSize) isRead

theorem lift_eq_ok {result : Except Failure Value} {found : Value} :
    lift result = .ok found ↔ result = .ok found :=
  Result.mapError_eq_ok

theorem hasDoubles_of_booleanValue {text : List Char} {found : Value}
    (isValue : booleanValue text = .ok found) : found.HasDoubles := by
  unfold booleanValue at isValue
  split at isValue <;> cases isValue <;> exact Value.hasDoubles_boolean _

theorem hasDoubles_of_momentValue {text : List Char} {found : Value}
    (isValue : momentValue text = .ok found) : found.HasDoubles := by
  unfold momentValue at isValue
  split at isValue
  case h_1 => cases isValue
  case h_2 stamp _ =>
    dsimp only at isValue
    split at isValue
    · rcases Result.bind_eq_ok.mp isValue with ⟨date, _, ⟨⟩⟩
      rintro _ ⟨⟩
    · rcases Result.bind_eq_ok.mp isValue with ⟨offset, _, isValue⟩
      rcases Result.bind_eq_ok.mp isValue with ⟨date, _, isValue⟩
      rcases Result.bind_eq_ok.mp isValue with ⟨moment, _, ⟨⟩⟩
      rintro _ ⟨⟩

theorem hasDoubles_of_binaryValue {text : List Char} {found : Value}
    (isValue : binaryValue text = .ok found) : found.HasDoubles := by
  unfold binaryValue at isValue
  split at isValue
  · split at isValue
    · cases isValue
      rintro _ ⟨⟩
    · cases isValue
  · cases isValue

theorem hasDoubles_of_value {tag : ScalarTag} {text : String} {found : Value}
    (isValue : value tag text = .ok found) : found.HasDoubles := by
  cases tag with
  | null =>
      cases isValue
      exact Value.hasDoubles_null
  | text =>
      cases isValue
      exact Value.hasDoubles_text text
  | boolean => exact hasDoubles_of_booleanValue (lift_eq_ok.mp isValue)
  | timestamp => exact hasDoubles_of_momentValue (lift_eq_ok.mp isValue)
  | binary => exact hasDoubles_of_binaryValue isValue
  | integer =>
      rcases Result.map_eq_ok.mp (lift_eq_ok.mp isValue) with ⟨number, _, ⟨⟩⟩
      exact Value.hasDoubles_whole number
  | float =>
      rcases Result.map_eq_ok.mp (lift_eq_ok.mp isValue) with ⟨double, isRead, ⟨⟩⟩
      exact Value.hasDoubles_real (isDouble_of_doubleValue isRead)

end Scalar

namespace Node

theorem hasDoubles_of_scalarValue (node : Node) (tag : String) :
    (((scalarValue node tag).toOption).getD .null).HasDoubles := by
  cases isValue : scalarValue node tag with
  | error fault => exact Value.hasDoubles_null
  | ok found =>
      unfold scalarValue at isValue
      split at isValue
      · exact Scalar.hasDoubles_of_value isValue
      · cases isValue

theorem hasDoubles_pairs (items : List Node) : ∀ value ∈ pairs items, value.HasDoubles := by
  induction items with
  | nil => exact List.forall_mem_nil _
  | cons item rest induction =>
      unfold pairs
      split
      · rename_i empty
        cases empty
      · rename_i isPair
        cases isPair
        refine List.forall_mem_cons.mpr ⟨?_, induction⟩
        rintro _ ⟨⟩
      · rename_i isOther
        cases isOther
        exact induction

mutual

theorem hasDoubles_value : ∀ node : Node, node.value.HasDoubles
  | .scalar tag text => by
      unfold value
      exact hasDoubles_of_scalarValue _ tag
  | .sequence tag items => by
      unfold value
      split
      · exact Value.hasDoubles_list_iff.mpr (hasDoubles_values items)
      · exact Value.hasDoubles_list_iff.mpr (hasDoubles_pairs items)
  | .mapping tag entries => by
      unfold value
      split
      · exact Value.hasDoubles_mapping_iff.mpr
          (hasDoubles_entryValues [] (List.forall_mem_nil _) entries)
      split
      · rintro _ ⟨⟩
      · exact hasDoubles_of_scalarValue _ tag

theorem hasDoubles_values : ∀ items : List Node, ∀ value ∈ values items, value.HasDoubles
  | [] => List.forall_mem_nil _
  | item :: rest =>
      List.forall_mem_cons.mpr ⟨hasDoubles_value item, hasDoubles_values rest⟩

theorem hasDoubles_entryValues (before : List (Value × Value))
    (known : ∀ entry ∈ before, entry.2.HasDoubles) :
    ∀ entries : List (Node × Node), ∀ entry ∈ entryValues before entries, entry.2.HasDoubles
  | [] => known
  | (_, value) :: rest =>
      hasDoubles_entryValues _ (Value.hasDoubles_put (hasDoubles_value value) known) rest

end

end Node

theorem hasDoubles_of_read {text : String} {found : Value} (isRead : read text = .ok found) :
    found.HasDoubles := by
  rcases Result.bind_eq_ok.mp isRead with ⟨node?, _, isRead⟩
  cases node? with
  | none =>
      cases isRead
      exact Value.hasDoubles_null
  | some node =>
      dsimp only at isRead
      split at isRead
      · cases isRead
      · cases isRead
        exact Node.hasDoubles_value _

end Yaml

namespace Settings

variable {settings : Settings}

theorem hasDoubles_of_documentOf {path : Path} {text : String} {document : Value}
    (isRead : documentOf path text = .ok document) : document.HasDoubles := by
  unfold documentOf at isRead
  split at isRead
  case h_4 read =>
    cases isRead
    exact Yaml.hasDoubles_of_read read
  case h_3 =>
    cases isRead
    exact Value.hasDoubles_mapping_iff.mpr (List.forall_mem_nil _)
  all_goals cases isRead

/-- The class trees of settings that were read from files are asked for with doubles. -/
theorem hasDoubles_of_ofFile {locations : Locations} {files : Files} {path : Path}
    (accepted : ofFile locations files path = .ok settings) : settings.treeRequest.HasDoubles := by
  rcases Result.bind_eq_ok.mp accepted with ⟨_, _, accepted⟩
  split at accepted
  · cases accepted
  · rcases Result.bind_eq_ok.mp accepted with ⟨document, isRead, accepted⟩
    exact hasDoubles_of_ofDocument (hasDoubles_of_documentOf isRead) accepted

theorem hasDoubles_of_load {context : ConfigurationContext} {given : Option String}
    (loaded : load context given = .ok settings) : settings.treeRequest.HasDoubles := by
  unfold load at loaded
  dsimp only at loaded
  split at loaded
  · exact hasDoubles_of_ofFile loaded
  · exact hasDoubles_of_ofFile loaded
  · split at loaded
    · exact hasDoubles_of_ofFile loaded
    · exact hasDoubles_of_ofDocument
        (Value.hasDoubles_mapping_iff.mpr (List.forall_mem_nil _)) loaded

/-- Settings that were loaded, or were read again from a file. -/
def IsLoaded (settings : Settings) : Prop :=
  (∃ context given, load context given = .ok settings) ∨
    ∃ locations files path, ofFile locations files path = .ok settings

theorem IsLoaded.hasDoubles (isLoaded : settings.IsLoaded) : settings.treeRequest.HasDoubles := by
  rcases isLoaded with ⟨_, _, loaded⟩ | ⟨_, _, _, accepted⟩
  · exact hasDoubles_of_load loaded
  · exact hasDoubles_of_ofFile accepted

end Settings

end UplinkShaper
