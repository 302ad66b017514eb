import UplinkShaper.Text.Parts

/-!
Internet addresses and networks of both versions. An address is a number of 32 or
128 bits. A network is the set of addresses that agree with its base in the leading
bits.
-/

namespace UplinkShaper

inductive AddressFamily
  | four
  | six
deriving DecidableEq, Repr

def AddressFamily.width : AddressFamily → Nat
  | .four => 32
  | .six => 128

structure Address where
  family : AddressFamily
  value : Nat
deriving DecidableEq, Repr

structure Network where
  base : Address
  /-- How many leading bits are fixed. -/
  length : Nat
deriving DecidableEq, Repr

namespace Network

/-- How many bits at the end are free. -/
def free (network : Network) : Nat :=
  network.base.family.width - network.length

def contains (network : Network) (address : Address) : Bool :=
  network.base.family == address.family &&
    network.base.value >>> network.free == address.value >>> network.free

end Network

namespace Address

/-! ## Version four -/

def digitsValue (shown : List Char) : Nat :=
  shown.foldl (fun total digit => 10 * total + (digit.toNat - 48)) 0

/-- One to three digits without a leading zero, up to 255. -/
def octet? (shown : List Char) : Option Nat :=
  let value := digitsValue shown
  if shown.isEmpty ∨ !shown.all Char.isDigit ∨ 3 < shown.length then none
  else if shown.head? = some '0' ∧ shown ≠ ['0'] then none
  else if 255 < value then none
  else some value

def quad? (text : List Char) : Option Nat :=
  match Text.parts '.' text with
  | [first, second, third, fourth] => do
      let first ← octet? first
      let second ← octet? second
      let third ← octet? third
      let fourth ← octet? fourth
      return ((first * 256 + second) * 256 + third) * 256 + fourth
  | _ => none

/-! ## Version six -/

def hexadecimalDigit? (character : Char) : Option Nat :=
  if '0' ≤ character ∧ character ≤ '9' then some (character.toNat - 48)
  else if 'a' ≤ character ∧ character ≤ 'f' then some (character.toNat - 87)
  else if 'A' ≤ character ∧ character ≤ 'F' then some (character.toNat - 55)
  else none

/-- One to four hexadecimal digits. -/
def group? (shown : List Char) : Option Nat :=
  if shown.isEmpty ∨ 4 < shown.length then none
  else shown.foldlM (fun total character =>
    (hexadecimalDigit? character).map fun digit => 16 * total + digit) 0

/-- A dotted quad at the end stands for two groups. -/
def withoutQuad? (parts : List (List Char)) : Option (List (List Char)) :=
  match parts.getLast? with
  | some last =>
      if '.' ∈ last then do
        let value ← quad? last
        return parts.dropLast ++ [Nat.toDigits 16 (value / 0x10000), Nat.toDigits 16 (value % 0x10000)]
      else some parts
  | none => none

def groupsValue? (groups : List (List Char)) : Option Nat :=
  groups.foldlM (fun total shown => (group? shown).map fun value => total * 0x10000 + value) 0

/-- The places of empty parts, without those at both ends. -/
def innerGaps (parts : List (List Char)) : List Nat :=
  (List.range parts.length).filter fun index =>
    0 < index && index + 1 < parts.length && parts[index]? == some []

/-- The groups on one side of a gap. The part at the end of the text may be empty
only if it is the only one: the gap then reaches the end. -/
def besideGap? (outermostIsEmpty : Bool) (groups : List (List Char)) :
    Option (List (List Char)) :=
  if outermostIsEmpty then if groups.length = 1 then some [] else none else some groups

/-- Eight groups, or fewer with one gap that stands for the missing zeros. -/
def groups? (text : List Char) : Option Nat := do
  let parts := Text.parts ':' text
  if parts.length < 3 then none
  else
    let parts ← withoutQuad? parts
    if 9 < parts.length then none
    else
      match innerGaps parts with
      | [] => if parts.length = 8 then groupsValue? parts else none
      | [gap] => do
          let high := parts.take gap
          let low := parts.drop (gap + 1)
          let high ← besideGap? (parts.head? == some []) high
          let low ← besideGap? (parts.getLast? == some []) low
          if 7 < high.length + low.length then none
          else
            let above ← groupsValue? high
            let below ← groupsValue? low
            return above * Nat.pow 2 (16 * (8 - high.length)) + below
      | _ => none

/-- An address of version six may name a zone after a percent sign, which plays no
part in comparisons. -/
def six? (text : List Char) : Option Nat :=
  match Text.cut? '%' text with
  | none => groups? text
  | some (shown, zone) => if zone.isEmpty ∨ '%' ∈ zone then none else groups? shown

/-! ## Both versions -/

def ofChars? (text : List Char) : Option Address :=
  match quad? text, six? text with
  | some value, _ => some ⟨.four, value⟩
  | none, some value => some ⟨.six, value⟩
  | none, none => none

def read? (text : String) : Option Address :=
  if '/' ∈ text.toList then none else ofChars? text.toList

end Address

namespace Network

/-! ## Masks -/

/-- A count of leading bits, in digits. -/
def lengthOf? (width : Nat) (shown : List Char) : Option Nat :=
  let value := Address.digitsValue shown
  if shown.isEmpty ∨ !shown.all Char.isDigit ∨ width < value then none else some value

/-- The count of leading ones of a mask that has ones and then zeros only. -/
def lengthOfMask? (mask : Nat) : Option Nat :=
  (List.range 33).find? fun length => mask == Nat.pow 2 32 - Nat.pow 2 (32 - length)

/-- A mask as a dotted quad: ones and then zeros, or zeros and then ones. -/
def lengthOfQuad? (shown : List Char) : Option Nat := do
  let mask ← Address.quad? shown
  match lengthOfMask? mask with
  | some length => some length
  | none => lengthOfMask? (Nat.pow 2 32 - 1 - mask)

/-- The network of an address, whose bits beyond the length are dropped. -/
def around (address : Address) (length : Nat) : Network :=
  let free := address.family.width - length
  { base := { address with value := address.value >>> free <<< free }, length := length }

def ofParts? (address : Address) : Option (List Char) → Option Network
  | none => some (around address address.family.width)
  | some mask =>
      match lengthOf? address.family.width mask, address.family with
      | some length, _ => some (around address length)
      | none, .four => (lengthOfQuad? mask).map (around address)
      | none, .six => none

/-- Read an address that may be followed by a slash and a mask. -/
def read? (text : String) : Option Network :=
  match Text.parts '/' text.toList with
  | [address] => (Address.ofChars? address).bind fun address => ofParts? address none
  | [address, mask] => (Address.ofChars? address).bind fun address => ofParts? address (some mask)
  | _ => none

end Network

end UplinkShaper
