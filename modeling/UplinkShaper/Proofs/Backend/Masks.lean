import Mathlib.Data.Nat.Bitwise
import UplinkShaper.Proofs.Backend.Criteria

/-!
Addresses as networks and as the packet filter read them. A network has a count of leading bits,
and reads an inverted mask as the mask that it is the inverse of; the packet filter compares in the
bits that are written. So both look for the same addresses where the bits of the mask lead, and
there is an address that tells them apart where they do not.
-/

namespace UplinkShaper

namespace Address

/-! ## Dotted quads -/

theorem octet?_lt {shown : List Char} {value : Nat} (read : octet? shown = some value) :
    value < 256 := by
  unfold octet? at read
  dsimp only at read
  split at read
  · cases read
  · split at read
    · cases read
    · split at read
      · cases read
      case isFalse small =>
        cases read
        omega

theorem quad?_lt {text : List Char} {value : Nat} (read : quad? text = some value) :
    value < 2 ^ 32 := by
  unfold quad? at read
  split at read
  case h_1 =>
    simp only [Option.bind_eq_bind, Option.bind_eq_some_iff, Option.pure_def, Option.some.injEq]
      at read
    rcases read with ⟨first, isFirst, second, isSecond, third, isThird, fourth, isFourth, rfl⟩
    have := octet?_lt isFirst
    have := octet?_lt isSecond
    have := octet?_lt isThird
    have := octet?_lt isFourth
    omega
  case h_2 => cases read

theorem read?_lt {text : String} {value : Nat} (read : read? text = some ⟨.four, value⟩) :
    value < 2 ^ 32 := by
  unfold read? at read
  split at read
  · cases read
  · unfold ofChars? at read
    split at read
    case h_1 quad =>
      cases read
      exact quad?_lt quad
    case h_2 => cases read
    case h_3 => cases read

/-- An address of version four as it is written. -/
def quadText (value : Nat) : List Char :=
  Nat.toDigits 10 (value / 2 ^ 24) ++ '.' :: (Nat.toDigits 10 (value / 2 ^ 16 % 256) ++ '.' ::
    (Nat.toDigits 10 (value / 2 ^ 8 % 256) ++ '.' :: Nat.toDigits 10 (value % 256)))

theorem octet?_toDigits {octet : Nat} (small : octet < 256) :
    octet? (Nat.toDigits 10 octet) = some octet := by
  have all : ∀ octet < 256, octet? (Nat.toDigits 10 octet) = some octet := by decide +kernel
  exact all octet small

theorem quad?_quadText {value : Nat} (small : value < 2 ^ 32) :
    quad? (quadText value) = some value := by
  have dots (count : Nat) : '.' ∉ Nat.toDigits 10 count :=
    Text.not_mem_toDigits (by decide) count
  rw [quad?, quadText, Text.parts_append (dots _), Text.parts_append (dots _),
    Text.parts_append (dots _), Text.parts_of_not_mem (dots _)]
  dsimp only
  rw [octet?_toDigits (by omega), octet?_toDigits (by omega), octet?_toDigits (by omega),
    octet?_toDigits (by omega)]
  simp only [Option.bind_eq_bind, Option.bind_some, Option.pure_def, Option.some.injEq]
  omega

theorem read?_quadText {value : Nat} (small : value < 2 ^ 32) :
    read? (String.ofList (quadText value)) = some ⟨.four, value⟩ := by
  have slashes (count : Nat) : '/' ∉ Nat.toDigits 10 count :=
    Text.not_mem_toDigits (by decide) count
  have noSlash : '/' ∉ quadText value := by simp [quadText, slashes]
  rw [read?, String.toList_ofList, if_neg noSlash, ofChars?, quad?_quadText small]

end Address

namespace Netfilter

/-! ## Masks -/

theorem leadingOnes_eq {length : Nat} (inRange : length ≤ 32) :
    leadingOnes length = (2 ^ length - 1) <<< (32 - length) := by
  have split : 2 ^ 32 = 2 ^ length * 2 ^ (32 - length) := by
    rw [← Nat.pow_add, Nat.add_sub_cancel' inRange]
  rw [leadingOnes, Nat.shiftLeft_eq, Nat.sub_mul, ← split, Nat.one_mul]

/-- A mask of leading bits leaves the number that these bits make. -/
theorem and_leadingOnes {value length : Nat} (small : value < 2 ^ 32) (inRange : length ≤ 32) :
    value &&& leadingOnes length = value >>> (32 - length) <<< (32 - length) := by
  apply Nat.eq_of_testBit_eq
  intro index
  rw [leadingOnes_eq inRange, Nat.testBit_and, Nat.testBit_shiftLeft, Nat.testBit_shiftLeft,
    Nat.testBit_shiftRight, Nat.testBit_two_pow_sub_one]
  by_cases free : index < 32 - length
  · simp [Nat.not_le.mpr free]
  · have place : 32 - length + (index - (32 - length)) = index := by omega
    rw [place]
    by_cases inside : index < 32
    · have leads : index - (32 - length) < length := by omega
      simp [Nat.le_of_not_lt free, leads]
    · have beyond : value.testBit index = false :=
        Nat.testBit_lt_two_pow (small.trans_le (Nat.pow_le_pow_right (by decide) (by omega)))
      simp [beyond]

theorem covers_leadingOnes {base address length : Nat} (baseSmall : base < 2 ^ 32)
    (addressSmall : address < 2 ^ 32) (inRange : length ≤ 32) :
    Masked.covers ⟨base, leadingOnes length⟩ address = Subnet.covers ⟨base, length⟩ address := by
  rw [Masked.covers, Subnet.covers]
  dsimp only
  rw [and_leadingOnes baseSmall inRange, and_leadingOnes addressSmall inRange, Bool.eq_iff_iff,
    beq_iff_eq, beq_iff_eq]
  constructor
  · intro shifted
    have back := congrArg (· >>> (32 - length)) shifted
    simpa only [Nat.shiftLeft_shiftRight] using back
  · intro same
    rw [same]

theorem lengthOfMask?_eq_some {mask length : Nat}
    (found : Network.lengthOfMask? mask = some length) :
    length ≤ 32 ∧ mask = leadingOnes length := by
  have isMask := List.find?_some found
  have listed := List.mem_range.mp (List.mem_of_find?_eq_some found)
  exact ⟨by omega, by simpa [leadingOnes] using isMask⟩

theorem lengthOfMask?_eq_none {mask : Nat} (absent : Network.lengthOfMask? mask = none) :
    ∀ length ≤ 32, mask ≠ leadingOnes length := by
  intro length inRange isMask
  have differs := List.find?_eq_none.mp absent length (List.mem_range.mpr (by omega))
  exact differs (by simpa [leadingOnes] using isMask)

/-- How the mask of an address comes to the length of its network: its bits lead, or those that it
leaves out do, or there is no network. -/
theorem read?_of_masked? {text : String} {addresses : Masked}
    (masked : masked? text = some addresses) :
    addresses.base < 2 ^ 32 ∧
      ((∃ length ≤ 32, addresses.mask = leadingOnes length ∧
        Network.read? text = some (Network.around ⟨.four, addresses.base⟩ length)) ∨
      (∃ length ≤ 32, 2 ^ 32 - 1 - addresses.mask = leadingOnes length ∧
        addresses.mask < 2 ^ 32 ∧ (∀ other ≤ 32, addresses.mask ≠ leadingOnes other) ∧
          Network.read? text = some (Network.around ⟨.four, addresses.base⟩ length)) ∨
      Network.read? text = none) := by
  simp only [masked?] at masked
  split at masked
  case h_1 host equal =>
    rcases Option.map_eq_some_iff.mp masked with ⟨base, quad, rfl⟩
    refine ⟨Address.quad?_lt quad, .inl ⟨32, le_refl _, rfl, ?_⟩⟩
    rw [Network.read?, equal]
    simp [Address.ofChars?, quad, Network.ofParts?, AddressFamily.width]
  case h_2 host shown equal =>
    rcases Option.bind_eq_some_iff.mp masked with ⟨base, quad, rest⟩
    rcases Option.bind_eq_some_iff.mp rest with ⟨mask, isMask, equalMasked⟩
    cases equalMasked
    refine ⟨Address.quad?_lt quad, ?_⟩
    have isRead : Network.read? text = Network.ofParts? ⟨.four, base⟩ (some shown) := by
      rw [Network.read?, equal]
      simp [Address.ofChars?, quad]
    rw [isRead, Network.ofParts?, AddressFamily.width]
    dsimp only
    -- Both readers look for a count first, and then for a mask.
    unfold mask? at isMask
    split at isMask
    case h_1 length isLength =>
      cases isMask
      have inRange : length ≤ 32 := by
        unfold Network.lengthOf? at isLength
        dsimp only at isLength
        split at isLength
        · cases isLength
        case isFalse small =>
          cases isLength
          simp only [not_or, not_lt] at small
          exact small.2.2
      rw [isLength]
      exact .inl ⟨length, inRange, rfl, rfl⟩
    case h_2 noLength =>
      rw [noLength]
      dsimp only
      rw [Network.lengthOfQuad?, isMask]
      simp only [Option.bind_eq_bind, Option.bind_some]
      cases leads : Network.lengthOfMask? mask with
      | some length =>
          rcases lengthOfMask?_eq_some leads with ⟨inRange, isLeading⟩
          exact .inl ⟨length, inRange, isLeading, rfl⟩
      | none =>
          cases inverted : Network.lengthOfMask? (Nat.pow 2 32 - 1 - mask) with
          | some length =>
              rcases lengthOfMask?_eq_some inverted with ⟨inRange, isLeading⟩
              exact .inr (.inl ⟨length, inRange, isLeading, Address.quad?_lt isMask,
                lengthOfMask?_eq_none leads, rfl⟩)
          | none => exact .inr (.inr rfl)
  case h_3 => cases masked

/-- The mask of a text sets leading bits, if any. -/
def IsFilterable (text : String) : Prop :=
  ∃ addresses length, masked? text = some addresses ∧ length ≤ 32 ∧
    addresses.mask = leadingOnes length

/-- An address on which an inverted mask and its network disagree: the base, with its last bit
turned over. -/
theorem exists_apart {base mask length : Nat} (baseSmall : base < 2 ^ 32) (inRange : length ≤ 32)
    (maskSmall : mask < 2 ^ 32) (inverted : 2 ^ 32 - 1 - mask = leadingOnes length)
    (notLeading : ∀ other ≤ 32, mask ≠ leadingOnes other) :
    ∃ address < 2 ^ 32, Subnet.covers ⟨base, length⟩ address = true ∧
      Masked.covers ⟨base, mask⟩ address = false := by
  -- A mask of zeros leads, with length zero, so the inverse leaves at least one bit to the mask.
  have notAll : length ≠ 32 := by
    rintro rfl
    refine notLeading 0 (by decide) ?_
    rw [leadingOnes] at inverted ⊢
    omega
  have maskIs : mask = 2 ^ (32 - length) - 1 := by
    have atMost : 2 ^ (32 - length) ≤ 2 ^ 32 := Nat.pow_le_pow_right (by decide) (by omega)
    have positive : 0 < 2 ^ (32 - length) := Nat.two_pow_pos _
    rw [leadingOnes] at inverted
    omega
  have lastBit : mask.testBit 0 = true := by
    rw [maskIs, Nat.testBit_two_pow_sub_one, decide_eq_true_eq]
    omega
  refine ⟨base ^^^ 1, Nat.xor_lt_two_pow baseSmall (by decide), ?_, ?_⟩
  · have gone : 1 >>> (32 - length) = 0 :=
      Nat.shiftRight_eq_zero 1 _ (Nat.one_lt_two_pow (by omega))
    rw [Subnet.covers, Nat.shiftRight_xor_distrib, gone, Nat.xor_zero, beq_self_eq_true]
  · rw [Masked.covers, beq_eq_false_iff_ne]
    intro same
    have turned : (base ^^^ 1).testBit 0 = !base.testBit 0 := by
      rw [Nat.testBit_xor, Nat.testBit_one_zero, Bool.xor_true]
    have bits := congrArg (Nat.testBit · 0) same
    simp only [Nat.testBit_and, lastBit, turned, Bool.and_true] at bits
    exact (Bool.eq_not_self _).mp bits

end Netfilter

end UplinkShaper
