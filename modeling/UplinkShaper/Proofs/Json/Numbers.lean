import UplinkShaper.Json
import UplinkShaper.Proofs.Number.Shortest
import UplinkShaper.Proofs.Text.Words

/-!
Numbers in JSON texts. A whole number is read back from its digits, and a double from the
shortest digits that denote it, in whichever notation they are written.
-/

namespace UplinkShaper

namespace Json

open Decimal

variable {shown whole places rest later : List Char} {exponent : Int}

/-! ## Parts of numbers -/

/-- What cannot go on with a number at its start. -/
def EndsNumber (rest : List Char) : Prop :=
  ∀ next ∈ rest.head?, next.isDigit = false ∧ next ≠ '.' ∧ next ≠ 'e' ∧ next ≠ 'E'

/-- Digits of a whole number, without zeros in front. -/
structure IsWholePart (shown : List Char) : Prop where
  areDigits : ∀ character ∈ shown, character.isDigit = true
  present : shown ≠ []
  leads : shown.head? ≠ some '0' ∨ shown = ['0']

theorem isWholePart_toDigits (count : Nat) : IsWholePart (Nat.toDigits 10 count) where
  areDigits := Text.isDigit_of_mem_toDigits
  present := Nat.toDigits_ne_nil
  leads := by
    rcases Nat.eq_zero_or_pos count with rfl | positive
    · exact .inr (Nat.toDigits_zero 10)
    · exact .inl (head?_toDigits_ne positive)

theorem readWhole_append (isWhole : IsWholePart shown)
    (stops : ∀ next ∈ rest.head?, next.isDigit = false) :
    readWhole (shown ++ rest) = some (shown, rest) := by
  rcases isWhole.leads with leads | rfl
  · rcases Text.takeWhile_append_of_stops isWhole.areDigits stops with ⟨taken, dropped⟩
    unfold readWhole
    split
    case h_1 starts =>
      rw [← List.head?_append_of_ne_nil _ isWhole.present, starts] at leads
      exact absurd rfl leads
    case h_2 =>
      rw [taken, dropped]
      cases shown with
      | nil => exact absurd rfl isWhole.present
      | cons => rfl
  · rfl

/-- Digits after a point, if there are any. -/
def pointed : List Char → List Char
  | [] => []
  | first :: others => '.' :: first :: others

theorem readPlaces_pointed (areDigits : ∀ character ∈ places, character.isDigit = true)
    (stops : ∀ next ∈ rest.head?, next.isDigit = false ∧ next ≠ '.') :
    readPlaces (pointed places ++ rest) = (places, rest) := by
  cases places with
  | nil =>
      change readPlaces rest = ([], rest)
      unfold readPlaces
      split
      case h_1 => exact absurd rfl (stops '.' rfl).2
      case h_2 => rfl
  | cons first others =>
      rcases Text.takeWhile_append_of_stops areDigits fun next isNext => (stops next isNext).1 with
        ⟨taken, dropped⟩
      change readPlaces ('.' :: (first :: others ++ rest)) = _
      rw [readPlaces, taken, dropped]

theorem pointed_head?_not_isDigit (stops : ∀ next ∈ rest.head?, next.isDigit = false) :
    ∀ next ∈ (pointed places ++ rest).head?, next.isDigit = false := by
  cases places with
  | nil => exact stops
  | cons first others =>
      rintro _ ⟨⟩
      rfl

theorem readExponent_eq_none (stops : ∀ next ∈ rest.head?, next ≠ 'e' ∧ next ≠ 'E') :
    readExponent rest = none := by
  cases rest with
  | nil => rfl
  | cons next others =>
      rcases stops next rfl with ⟨notSmall, notLarge⟩
      unfold readExponent
      exact if_neg (not_or.mpr ⟨notSmall, notLarge⟩)

theorem digitsValue_padded (width count : Nat) : digitsValue (padded width count) = count := by
  change Nat.ofDigitChars 10 (padded width count) 0 = count
  rw [padded, Nat.ofDigitChars_append, Nat.ofDigitChars_replicate_zero, mul_zero]
  exact Nat.ofDigitChars_ten_toDigits

theorem isDigit_of_mem_padded {width count : Nat} :
    ∀ character ∈ padded width count, character.isDigit = true := by
  intro character member
  rcases List.mem_append.mp member with inFront | shown
  · rw [List.eq_of_mem_replicate inFront]
    rfl
  · exact Text.isDigit_of_mem_toDigits character shown

theorem readExponent_exponentText (exponent : Int)
    (stops : ∀ next ∈ rest.head?, next.isDigit = false) :
    readExponent (exponentText exponent ++ rest) = some (exponent, rest) := by
  rcases Text.takeWhile_append_of_stops (@isDigit_of_mem_padded 2 exponent.natAbs) stops with
    ⟨taken, dropped⟩
  have value := digitsValue_padded 2 exponent.natAbs
  have present : padded 2 exponent.natAbs ≠ [] :=
    List.append_ne_nil_of_right_ne_nil _ Nat.toDigits_ne_nil
  unfold exponentText
  by_cases negative : exponent < 0
  · rw [if_pos negative]
    simp only [List.cons_append, readExponent, true_or, if_true, taken, dropped]
    cases isShown : padded 2 exponent.natAbs with
    | nil => exact absurd isShown present
    | cons first others =>
        rw [← isShown, value]
        have isExponent : -1 * ((exponent.natAbs : Nat) : Int) = exponent := by omega
        rw [isExponent]
  · rw [if_neg negative]
    simp only [List.cons_append, readExponent, true_or, if_true, taken, dropped]
    cases isShown : padded 2 exponent.natAbs with
    | nil => exact absurd isShown present
    | cons first others =>
        rw [← isShown, value]
        have isExponent : 1 * ((exponent.natAbs : Nat) : Int) = exponent := by omega
        rw [isExponent]

/-! ## Magnitudes -/

theorem readMagnitude_toDigits (ends : EndsNumber rest) (count : Nat) (negative : Bool) :
    readMagnitude negative (Nat.toDigits 10 count ++ rest) =
      some (.whole (if negative then -count else count), rest) := by
  have places : readPlaces rest = ([], rest) :=
    readPlaces_pointed (List.forall_mem_nil _) fun next isNext =>
      ⟨(ends next isNext).1, (ends next isNext).2.1⟩
  have value : digitsValue (Nat.toDigits 10 count) = count := Nat.ofDigitChars_ten_toDigits
  rw [readMagnitude, readWhole_append (isWholePart_toDigits count) fun next isNext =>
    (ends next isNext).1]
  simp only [Option.bind_eq_bind, Option.bind_some, places,
    readExponent_eq_none fun next isNext => (ends next isNext).2.2, value]
  rfl

/-- A number with places or an exponent is read as a double. -/
theorem readMagnitude_real (isWhole : IsWholePart whole)
    (areDigits : ∀ character ∈ places, character.isDigit = true)
    (stops : ∀ next ∈ rest.head?, next.isDigit = false ∧ next ≠ '.')
    (reads : readExponent rest = some (exponent, later) ∨
      readExponent rest = none ∧ places ≠ [] ∧ exponent = 0 ∧ later = rest) (negative : Bool) :
    readMagnitude negative (whole ++ (pointed places ++ rest)) =
      some (.real (.ofDecimal negative (Nat.ofDigitChars 10 (whole ++ places) 0)
        (exponent - places.length)), later) := by
  rw [readMagnitude, readWhole_append isWhole
    (pointed_head?_not_isDigit fun next isNext => (stops next isNext).1)]
  simp only [Option.bind_eq_bind, Option.bind_some, readPlaces_pointed areDigits stops]
  rcases reads with reads | ⟨nothing, present, rfl, rfl⟩
  · rw [reads]
    cases places <;> rfl
  · rw [nothing]
    cases places with
    | nil => exact absurd rfl present
    | cons => rfl

/-! ## Doubles -/

/-- The text of a magnitude with known digits. -/
def magnitudeText (shown : List Char) (exponent : Int) : List Char :=
  if exponent < -4 ∨ 16 ≤ exponent then scientific shown exponent
  else
    match positional shown exponent with
    | (whole, []) => whole ++ ['.', '0']
    | (whole, part) => whole ++ '.' :: part

theorem scientific_eq (first : Char) (others : List Char) (exponent : Int) :
    scientific (first :: others) exponent = [first] ++ (pointed others ++ exponentText exponent) := by
  cases others <;> rfl

variable {value : Rat}

theorem ofDecimal_of_isWrittenAs {significant : Nat} {scale : Int} (positive : 0 < value)
    (written : Double.IsWrittenAs value shown exponent)
    (same : (significant : Rat) * 10 ^ scale = denoted shown exponent) (negative : Bool) :
    Double.ofDecimal negative significant scale =
      .finite (if negative then -value else value) :=
  Double.ofDecimal_of_round positive (same ▸ written.rounded) negative

theorem readMagnitude_scientific (positive : 0 < value)
    (written : Double.IsWrittenAs value shown exponent) (ends : EndsNumber rest)
    (negative : Bool) :
    readMagnitude negative (scientific shown exponent ++ rest) =
      some (.real (.finite (if negative then -value else value)), rest) := by
  rcases written with ⟨areDigits, present, leads, rounded⟩
  cases shown with
  | nil => exact absurd rfl present
  | cons first others =>
      rcases List.forall_mem_cons.mp areDigits with ⟨firstDigit, restDigits⟩
      have isWhole : IsWholePart [first] := {
        areDigits := List.forall_mem_singleton.mpr firstDigit
        present := List.cons_ne_nil _ _
        leads := .inl leads }
      have reads := readExponent_exponentText exponent fun next isNext => (ends next isNext).1
      have stops : ∀ next ∈ (exponentText exponent ++ rest).head?,
          next.isDigit = false ∧ next ≠ '.' := by
        rintro _ ⟨⟩
        exact ⟨rfl, by decide⟩
      rw [scientific_eq, List.append_assoc, List.append_assoc,
        readMagnitude_real isWhole restDigits stops (.inl reads),
        ofDecimal_of_isWrittenAs positive ⟨areDigits, present, leads, rounded⟩]
      rw [denoted, List.length_cons, List.singleton_append]
      congr 2
      omega

theorem endsNumber_stops (ends : EndsNumber rest) :
    ∀ next ∈ rest.head?, next.isDigit = false ∧ next ≠ '.' :=
  fun next isNext => ⟨(ends next isNext).1, (ends next isNext).2.1⟩

/-- A number with places and without an exponent. -/
theorem readMagnitude_places (isWhole : IsWholePart whole)
    (areDigits : ∀ character ∈ places, character.isDigit = true) (present : places ≠ [])
    (ends : EndsNumber rest) (positive : 0 < value)
    (written : Double.IsWrittenAs value shown exponent)
    (same : (Nat.ofDigitChars 10 (whole ++ places) 0 : Rat) * 10 ^ (-places.length : Int) =
      denoted shown exponent) (negative : Bool) :
    readMagnitude negative (whole ++ '.' :: places ++ rest) =
      some (.real (.finite (if negative then -value else value)), rest) := by
  have text : whole ++ '.' :: places ++ rest = whole ++ (pointed places ++ rest) := by
    cases places with
    | nil => exact absurd rfl present
    | cons first others => simp [pointed]
  rw [text, readMagnitude_real isWhole areDigits (endsNumber_stops ends)
    (.inr ⟨readExponent_eq_none fun next isNext => (ends next isNext).2.2, present, rfl, rfl⟩),
    zero_sub, ofDecimal_of_isWrittenAs positive written same]

theorem isDigit_of_mem_zeros {count : Nat} :
    ∀ character ∈ List.replicate count '0', character.isDigit = true := by
  intro character member
  rw [List.eq_of_mem_replicate member]
  rfl

/-- A double below one, with zeros after the point. -/
theorem readMagnitude_below_one (positive : 0 < value)
    (written : Double.IsWrittenAs value shown exponent) (small : exponent < 0)
    (ends : EndsNumber rest) (negative : Bool) :
    readMagnitude negative
        (['0'] ++ '.' :: (List.replicate (-exponent - 1).toNat '0' ++ shown) ++ rest) =
      some (.real (.finite (if negative then -value else value)), rest) := by
  have isWhole : IsWholePart ['0'] :=
    ⟨List.forall_mem_singleton.mpr rfl, List.cons_ne_nil _ _, .inr rfl⟩
  have front : Nat.ofDigitChars 10
      (['0'] ++ (List.replicate (-exponent - 1).toNat '0' ++ shown)) 0 =
        Nat.ofDigitChars 10 shown 0 := by
    rw [List.singleton_append, Nat.ofDigitChars_cons, Nat.ofDigitChars_append]
    change Nat.ofDigitChars 10 shown
      (Nat.ofDigitChars 10 (List.replicate (-exponent - 1).toNat '0') 0) = _
    rw [Nat.ofDigitChars_replicate_zero, mul_zero]
  refine readMagnitude_places isWhole
    (List.forall_mem_append.mpr ⟨isDigit_of_mem_zeros, written.areDigits⟩)
    (List.append_ne_nil_of_right_ne_nil _ written.present) ends positive written ?_ negative
  rw [front, denoted, List.length_append, List.length_replicate]
  congr 2
  omega

/-- A double with all its digits before the point. -/
theorem readMagnitude_integral (positive : 0 < value)
    (written : Double.IsWrittenAs value shown exponent) (large : 0 ≤ exponent)
    (short : shown.length ≤ exponent.toNat + 1) (ends : EndsNumber rest) (negative : Bool) :
    readMagnitude negative
        (shown ++ List.replicate (exponent.toNat + 1 - shown.length) '0' ++ '.' :: ['0'] ++ rest) =
      some (.real (.finite (if negative then -value else value)), rest) := by
  have isWhole : IsWholePart
      (shown ++ List.replicate (exponent.toNat + 1 - shown.length) '0') := {
    areDigits := List.forall_mem_append.mpr ⟨written.areDigits, isDigit_of_mem_zeros⟩
    present := List.append_ne_nil_of_left_ne_nil written.present _
    leads := .inl (by
      rw [List.head?_append_of_ne_nil _ written.present]
      exact written.leads) }
  refine readMagnitude_places isWhole (List.forall_mem_singleton.mpr rfl) (List.cons_ne_nil _ _)
    ends positive written ?_ negative
  rw [← denoted_append_zeros shown exponent (exponent.toNat + 1 - shown.length + 1),
    List.replicate_succ', ← List.append_assoc, denoted]
  congr 2
  simp only [List.length_append, List.length_replicate, List.length_singleton]
  omega

/-- A double with digits on both sides of the point. -/
theorem readMagnitude_mixed (positive : 0 < value)
    (written : Double.IsWrittenAs value shown exponent) (large : 0 ≤ exponent)
    (long : exponent.toNat + 1 < shown.length) (ends : EndsNumber rest) (negative : Bool) :
    readMagnitude negative
        (shown.take (exponent.toNat + 1) ++ '.' :: shown.drop (exponent.toNat + 1) ++ rest) =
      some (.real (.finite (if negative then -value else value)), rest) := by
  have parts := List.take_append_drop (exponent.toNat + 1) shown
  have taken : shown.take (exponent.toNat + 1) ≠ [] := by
    intro isNothing
    rw [isNothing, List.nil_append] at parts
    have lengths := congrArg List.length parts
    rw [List.length_drop] at lengths
    omega
  have isWhole : IsWholePart (shown.take (exponent.toNat + 1)) := {
    areDigits := fun character member => written.areDigits _ (List.mem_of_mem_take member)
    present := taken
    leads := .inl (by
      rw [← List.head?_append_of_ne_nil _ taken, parts]
      exact written.leads) }
  have left : shown.drop (exponent.toNat + 1) ≠ [] := by
    rw [ne_eq, List.drop_eq_nil_iff]
    omega
  refine readMagnitude_places isWhole
    (fun character member => written.areDigits _ (List.mem_of_mem_drop member)) left ends positive
    written ?_ negative
  rw [parts, denoted, List.length_drop]
  congr 2
  omega

/-- A positive double is read back from its digits. -/
theorem readMagnitude_magnitudeText (positive : 0 < value)
    (written : Double.IsWrittenAs value shown exponent) (ends : EndsNumber rest)
    (negative : Bool) :
    readMagnitude negative (magnitudeText shown exponent ++ rest) =
      some (.real (.finite (if negative then -value else value)), rest) := by
  unfold magnitudeText
  by_cases far : exponent < -4 ∨ 16 ≤ exponent
  · rw [if_pos far]
    exact readMagnitude_scientific positive written ends negative
  rw [if_neg far]
  unfold positional
  by_cases small : exponent < 0
  · have left : List.replicate (-exponent - 1).toNat '0' ++ shown ≠ [] :=
      List.append_ne_nil_of_right_ne_nil _ written.present
    have reads := readMagnitude_below_one positive written small ends negative
    rw [if_pos small]
    cases part : List.replicate (-exponent - 1).toNat '0' ++ shown with
    | nil => exact absurd part left
    | cons first others => rwa [part] at reads
  · rw [if_neg small]
    dsimp only
    cases part : shown.drop (exponent.toNat + 1) with
    | nil =>
        have short : shown.length ≤ exponent.toNat + 1 := List.drop_eq_nil_iff.mp part
        rw [List.take_of_length_le short]
        exact readMagnitude_integral positive written (not_lt.mp small) short ends negative
    | cons first others =>
        have long : exponent.toNat + 1 < shown.length := by
          by_contra short
          rw [List.drop_of_length_le (not_lt.mp short)] at part
          cases part
        have noZeros : exponent.toNat + 1 - shown.length = 0 := by omega
        rw [noZeros, List.replicate_zero, List.append_nil]
        have reads := readMagnitude_mixed positive written (not_lt.mp small) long ends negative
        rwa [part] at reads

/-! ## Numbers -/

theorem readScalar_of_isDigit {first : Char} (digit : first.isDigit = true) (rest : List Char) :
    readScalar (first :: rest) = (readMagnitude false (first :: rest)).map
      fun (number, rest) => (.number number, rest) := by
  unfold readScalar
  split
  case h_8 => rfl
  all_goals
    rename_i starts
    cases starts
    cases digit

theorem readScalar_minus {first : Char} (digit : first.isDigit = true) (rest : List Char) :
    readScalar ('-' :: first :: rest) = (readMagnitude true (first :: rest)).map
      fun (number, rest) => (.number number, rest) := by
  unfold readScalar
  split
  case h_1 starts =>
    cases starts
    cases digit
  case h_2 starts =>
    cases starts
    rfl
  case h_8 _ notMinus _ _ _ _ _ => exact absurd rfl (notMinus (first :: rest))
  all_goals
    rename_i starts
    cases starts

theorem readScalar_magnitude {first : Char} {others : List Char} {number : Number}
    (digit : first.isDigit = true) (negative : Bool)
    (reads : readMagnitude negative (first :: others ++ rest) = some (number, rest)) :
    readScalar (signed negative (first :: others) ++ rest) = some (.number number, rest) := by
  cases negative with
  | false =>
      change readScalar (first :: (others ++ rest)) = _
      rw [readScalar_of_isDigit digit]
      exact congrArg (Option.map _) reads
  | true =>
      change readScalar ('-' :: first :: (others ++ rest)) = _
      rw [readScalar_minus digit]
      exact congrArg (Option.map _) reads

theorem exists_magnitudeText_eq (written : Double.IsWrittenAs value shown exponent) :
    ∃ first others, magnitudeText shown exponent = first :: others ∧ first.isDigit = true := by
  rcases List.exists_cons_of_ne_nil written.present with ⟨first, others, rfl⟩
  have digit := written.areDigits first (List.mem_cons_self ..)
  unfold magnitudeText
  by_cases far : exponent < -4 ∨ 16 ≤ exponent
  · rw [if_pos far, scientific_eq]
    exact ⟨first, _, rfl, digit⟩
  · rw [if_neg far]
    unfold positional
    by_cases small : exponent < 0
    · rw [if_pos small]
      split
      all_goals
        rename_i same
        rcases Prod.mk.inj same with ⟨rfl, _⟩
        exact ⟨'0', _, rfl, rfl⟩
    · rw [if_neg small]
      split
      all_goals
        rename_i same
        rcases Prod.mk.inj same with ⟨rfl, _⟩
        exact ⟨first, _, rfl, digit⟩

theorem toList_shortest (nonzero : value ≠ 0) :
    (Double.finite value).shortest.toList =
      signed (value < 0) (magnitudeText (Double.shortestDigits value.abs).1
        (Double.shortestDigits value.abs).2) := by
  simp only [Double.shortest, Double.toRat?, if_neg nonzero, String.toList_ofList]
  rfl

theorem readScalar_zero (ends : EndsNumber rest) (negative : Bool) :
    readScalar (signed negative ['0', '.', '0'] ++ rest) =
      some (.number (.real (Double.zero negative)), rest) := by
  have isWhole : IsWholePart ['0'] :=
    ⟨List.forall_mem_singleton.mpr rfl, List.cons_ne_nil _ _, .inr rfl⟩
  have nothing := readExponent_eq_none fun next isNext => (ends next isNext).2.2
  have reads := readMagnitude_real isWhole isWhole.areDigits (endsNumber_stops ends)
    (.inr ⟨nothing, isWhole.present, rfl, rfl⟩) negative
  exact readScalar_magnitude rfl negative reads

theorem isWrittenAs_abs (exact : Double.round value = .finite value) (nonzero : value ≠ 0) :
    0 < value.abs ∧ Double.IsWrittenAs value.abs (Double.shortestDigits value.abs).1
      (Double.shortestDigits value.abs).2 := by
  have positive : 0 < value.abs := by
    rw [Double.abs_eq_magnitude]
    exact abs_pos.mpr nonzero
  have magnitude : Double.round value.abs = .finite value.abs := by
    rw [Double.abs_eq_magnitude]
    rcases abs_choice value with same | opposite
    · rwa [same]
    · rw [opposite]
      exact Double.round_neg exact nonzero
  exact ⟨positive, Double.isWrittenAs_shortestDigits positive magnitude⟩

theorem readScalar_finite (exact : Double.round value = .finite value) (ends : EndsNumber rest) :
    readScalar ((Double.finite value).shortest.toList ++ rest) =
      some (.number (.real (.finite value)), rest) := by
  by_cases nonzero : value = 0
  · rw [nonzero]
    exact readScalar_zero ends false
  · rcases isWrittenAs_abs exact nonzero with ⟨positive, written⟩
    rcases exists_magnitudeText_eq written with ⟨first, others, starts, digit⟩
    have reads := readMagnitude_magnitudeText positive written ends (decide (value < 0))
    rw [starts] at reads
    rw [toList_shortest nonzero, starts, readScalar_magnitude digit _ reads]
    have signs : (if decide (value < 0) = true then -value.abs else value.abs) = value := by
      rw [Double.abs_eq_magnitude]
      by_cases negative : value < 0
      · rw [if_pos (decide_eq_true negative), abs_of_neg negative, neg_neg]
      · rw [if_neg (by simpa using negative), abs_of_nonneg (not_lt.mp negative)]
    rw [signs]

theorem toList_toString (count : Int) :
    (toString count).toList = signed (count < 0) (Nat.toDigits 10 count.natAbs) := by
  cases count with
  | ofNat size => exact Nat.toList_repr
  | negSucc size =>
      have negative : Int.negSucc size < 0 := Int.negSucc_lt_zero size
      change ("-" ++ (size + 1).repr).toList = _
      rw [decide_eq_true negative, String.toList_append, Nat.toList_repr]
      rfl

theorem readScalar_whole (count : Int) (ends : EndsNumber rest) :
    readScalar ((toString count).toList ++ rest) = some (.number (.whole count), rest) := by
  rcases List.exists_cons_of_ne_nil (@Nat.toDigits_ne_nil count.natAbs 10) with
    ⟨first, others, starts⟩
  have digit := Text.isDigit_of_mem_toDigits first (starts ▸ List.mem_cons_self ..)
  have reads := readMagnitude_toDigits ends count.natAbs (decide (count < 0))
  rw [starts] at reads
  rw [toList_toString, starts, readScalar_magnitude digit _ reads]
  by_cases negative : count < 0
  · have signs : -(count.natAbs : Int) = count := by omega
    rw [if_pos (decide_eq_true negative), signs]
  · have signs : (count.natAbs : Int) = count := by omega
    rw [if_neg (by simpa using negative), signs]

/-- A number is read back from its text. -/
theorem readScalar_numberText {number : Number} (isDouble : number.IsDouble)
    (ends : EndsNumber rest) :
    readScalar ((numberText number).toList ++ rest) = some (.number number, rest) := by
  rcases number with count | (value | _ | negative | _)
  · exact readScalar_whole count ends
  · exact readScalar_finite isDouble ends
  · exact readScalar_zero ends true
  · cases negative <;> rfl
  · rfl

/-! ## Characters -/

/-- A number begins with a digit, a sign or a letter of its own. -/
theorem exists_numberText_eq {number : Number} (isDouble : number.IsDouble) :
    ∃ first others, (numberText number).toList = first :: others ∧
      (first.isDigit = true ∨ first ∈ ['-', 'I', 'N']) := by
  have begins {negative : Bool} {first : Char} {others : List Char}
      (digit : first.isDigit = true) : ∃ sign rest, signed negative (first :: others) =
        sign :: rest ∧ (sign.isDigit = true ∨ sign ∈ ['-', 'I', 'N']) := by
    cases negative with
    | false => exact ⟨first, others, rfl, .inl digit⟩
    | true => exact ⟨'-', first :: others, rfl, .inr (List.mem_cons_self ..)⟩
  rcases number with count | (value | _ | negative | _)
  · rcases List.exists_cons_of_ne_nil (@Nat.toDigits_ne_nil count.natAbs 10) with
      ⟨first, others, starts⟩
    have digit := Text.isDigit_of_mem_toDigits first (starts ▸ List.mem_cons_self ..)
    change ∃ first others, (toString count).toList = first :: others ∧ _
    rw [toList_toString, starts]
    exact begins digit
  · change ∃ first others, (Double.finite value).shortest.toList = first :: others ∧ _
    by_cases nonzero : value = 0
    · rw [nonzero]
      exact ⟨'0', _, rfl, .inl rfl⟩
    · rcases exists_magnitudeText_eq (isWrittenAs_abs isDouble nonzero).2 with
        ⟨first, others, starts, digit⟩
      rw [toList_shortest nonzero, starts]
      exact begins digit
  · exact ⟨'-', _, rfl, by decide⟩
  · cases negative with
    | false => exact ⟨'I', _, rfl, by decide⟩
    | true => exact ⟨'-', _, rfl, by decide⟩
  · exact ⟨'N', _, rfl, by decide⟩

theorem return_not_mem_of_isDigit (areDigits : ∀ character ∈ shown, character.isDigit = true) :
    '\r' ∉ shown := by
  intro member
  cases areDigits _ member

theorem return_not_mem_signed (negative : Bool) (absent : '\r' ∉ shown) :
    '\r' ∉ signed negative shown := by
  cases negative with
  | false => exact absent
  | true => exact List.not_mem_cons_of_ne_of_not_mem (by decide) absent

theorem return_not_mem_positional (absent : '\r' ∉ shown) (exponent : Int) :
    '\r' ∉ (positional shown exponent).1 ∧ '\r' ∉ (positional shown exponent).2 := by
  have zeros {count : Nat} : '\r' ∉ List.replicate count '0' :=
    return_not_mem_of_isDigit isDigit_of_mem_zeros
  unfold positional
  split
  · exact ⟨List.not_mem_cons_of_ne_of_not_mem (by decide) List.not_mem_nil,
      List.not_mem_append zeros absent⟩
  · exact ⟨List.not_mem_append (fun member => absent (List.mem_of_mem_take member)) zeros,
      fun member => absent (List.mem_of_mem_drop member)⟩

theorem return_not_mem_magnitudeText (areDigits : ∀ character ∈ shown, character.isDigit = true)
    (exponent : Int) : '\r' ∉ magnitudeText shown exponent := by
  have absent := return_not_mem_of_isDigit areDigits
  have exponentAbsent : '\r' ∉ exponentText exponent := by
    have padding := return_not_mem_of_isDigit (@isDigit_of_mem_padded 2 exponent.natAbs)
    unfold exponentText
    split <;> simp [padding]
  unfold magnitudeText
  split
  · cases shown with
    | nil => exact exponentAbsent
    | cons first others =>
        rw [List.mem_cons, not_or] at absent
        rw [scientific_eq]
        cases others with
        | nil => simp [pointed, absent.1, exponentAbsent]
        | cons next more =>
            have := absent.2
            rw [List.mem_cons, not_or] at this
            simp [pointed, absent.1, exponentAbsent, this]
  · have parts := return_not_mem_positional absent exponent
    split
    case h_1 same =>
      rw [same] at parts
      exact List.not_mem_append parts.1 (by decide)
    case h_2 same =>
      rw [same] at parts
      exact List.not_mem_append parts.1 (List.not_mem_cons_of_ne_of_not_mem (by decide) parts.2)

/-- No number is written over several lines. -/
theorem return_not_mem_numberText {number : Number} (isDouble : number.IsDouble) :
    '\r' ∉ (numberText number).toList := by
  rcases number with count | (value | _ | negative | _)
  · change '\r' ∉ (toString count).toList
    rw [toList_toString]
    exact return_not_mem_signed _ (return_not_mem_of_isDigit Text.isDigit_of_mem_toDigits)
  · change '\r' ∉ (Double.finite value).shortest.toList
    by_cases nonzero : value = 0
    · rw [nonzero]
      decide
    · rw [toList_shortest nonzero]
      have written := (isWrittenAs_abs isDouble nonzero).2
      exact return_not_mem_signed _ (return_not_mem_magnitudeText written.areDigits _)
  · decide
  · cases negative <;> decide
  · decide

end Json

end UplinkShaper
