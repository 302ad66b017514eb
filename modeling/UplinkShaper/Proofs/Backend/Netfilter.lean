import UplinkShaper.Backend.Execution
import UplinkShaper.Proofs.Classify.Building
import UplinkShaper.Proofs.Text.Words

/-!
The packet filter that marking rules are entered into. A rule is read off the words of the
command that enters it. Marking does not end the traversal of a chain, so the mark in
force at its end is the one of the last rule that matches.
-/

namespace UplinkShaper

namespace Netfilter

/-- What a packet shows to rules. -/
structure Packet where
  protocol : String
  source : Nat
  destination : Nat
  sourcePort : Option Int
  destinationPort : Option Int

/-- Addresses of version four that agree in the leading bits. -/
structure Subnet where
  base : Nat
  length : Nat

inductive Test
  | source (addresses : Subnet)
  | destination (addresses : Subnet)
  | protocol (name : String)
  | sourcePort (first last : Nat)
  | destinationPort (first last : Nat)

inductive Target
  /-- Set the mark of the packet, and go on. -/
  | mark (value : Nat)
  | log

structure Rule where
  tests : List Test
  target : Target

/-! ## Traversal -/

def Subnet.covers (addresses : Subnet) (address : Nat) : Bool :=
  addresses.base >>> (32 - addresses.length) == address >>> (32 - addresses.length)

def covers (first last : Nat) (port : Option Int) : Bool :=
  port.any fun port => (first : Int) ≤ port && port ≤ (last : Int)

def Test.holds (packet : Packet) : Test → Bool
  | .source addresses => addresses.covers packet.source
  | .destination addresses => addresses.covers packet.destination
  | .protocol name => name == packet.protocol
  | .sourcePort first last => Netfilter.covers first last packet.sourcePort
  | .destinationPort first last => Netfilter.covers first last packet.destinationPort

def Rule.holds (packet : Packet) (rule : Rule) : Bool :=
  rule.tests.all (·.holds packet)

def Target.markAfter (mark : Option Nat) : Target → Option Nat
  | .mark value => some value
  | .log => mark

/-- The mark of a packet after the rules of a chain, in the order in which they were
appended. -/
def traverse (packet : Packet) : List Rule → Option Nat → Option Nat
  | [], mark => mark
  | rule :: rest, mark =>
      traverse packet rest (if rule.holds packet then rule.target.markAfter mark else mark)

/-! ## Reading rules -/

def number? (shown : List Char) : Option Nat :=
  if shown.isEmpty ∨ !shown.all Char.isDigit then none else some (Address.digitsValue shown)

/-- One port, or the first and the last one of a range. -/
def ports? (text : String) : Option (Nat × Nat) :=
  match Text.parts ':' text.toList with
  | [shown] => (number? shown).map fun port => (port, port)
  | [first, last] => do return (← number? first, ← number? last)
  | _ => none

/-- A host, or a host and the count of leading bits that are looked at. -/
def subnet? (text : String) : Option Subnet :=
  match Text.parts '/' text.toList with
  | [host] => (Address.quad? host).map fun base => ⟨base, 32⟩
  | [host, shown] => do return ⟨← Address.quad? host, ← Network.lengthOf? 32 shown⟩
  | _ => none

def test? (option value : String) : Option Test :=
  match option with
  | "-s" => (subnet? value).map .source
  | "-d" => (subnet? value).map .destination
  | "-p" => some (.protocol value)
  | "--sport" => (ports? value).map fun range => .sourcePort range.1 range.2
  | "--dport" => (ports? value).map fun range => .destinationPort range.1 range.2
  | _ => none

def rule? : List String → Option Rule
  | ["-j", "MARK", "--set-mark", value] =>
      (number? value.toList).map fun mark => { tests := [], target := .mark mark }
  | "-j" :: "LOG" :: _ => some { tests := [], target := .log }
  | option :: value :: rest => do
      let test ← test? option value
      let rule ← rule? rest
      return { rule with tests := test :: rule.tests }
  | _ => none

/-- The rule that a command appends to a chain. -/
def appended? (chain : String) : List String → Option Rule
  | _ :: "-t" :: _ :: "-A" :: name :: words => if name = chain then rule? words else none
  | _ => none

/-- A test in front of other tests and a target. -/
theorem rule?_cons {option value : String} {rest : List String} {test : Test} {rule : Rule}
    (notTarget : option ≠ "-j") (isTest : test? option value = some test)
    (isRule : rule? rest = some rule) :
    rule? (option :: value :: rest) = some { rule with tests := test :: rule.tests } := by
  rw [rule?, isTest, isRule]
  · rfl
  · intro _ isTarget
    exact absurd isTarget notTarget
  · intro isTarget
    exact absurd isTarget notTarget

theorem rule?_mark {value : String} {mark : Nat} (isNumber : number? value.toList = some mark) :
    rule? ["-j", "MARK", "--set-mark", value] = some { tests := [], target := .mark mark } := by
  rw [rule?, isNumber]
  rfl

/-! ## Words of commands -/

theorem number?_toString {value : Int} (nonneg : 0 ≤ value) :
    number? (toString value).toList = some value.toNat := by
  rcases Int.eq_ofNat_of_zero_le nonneg with ⟨count, rfl⟩
  have digits : (Nat.toDigits 10 count).all Char.isDigit = true :=
    List.all_eq_true.mpr Text.isDigit_of_mem_toDigits
  have value : Address.digitsValue (Nat.toDigits 10 count) = count := Nat.ofDigitChars_ten_toDigits
  rw [Text.toList_toString_natCast, number?, digits, value]
  simp [Nat.toDigits_ne_nil]

theorem not_mem_toString {character : Char} (notDigit : character.isDigit = false) {value : Int}
    (nonneg : 0 ≤ value) : character ∉ (toString value).toList := by
  rcases Int.eq_ofNat_of_zero_le nonneg with ⟨count, rfl⟩
  rw [Text.toList_toString_natCast]
  exact Text.not_mem_toDigits notDigit count

theorem colon_not_mem_toString {value : Int} (nonneg : 0 ≤ value) :
    ':' ∉ (toString value).toList :=
  not_mem_toString (by decide) nonneg

/-- The range that a specification of ports shows is read back. -/
theorem ports?_portRange {protocol : String} {start : Int} {last : Option Int} {side : MatchSide}
    (startNonneg : 0 ≤ start) (lastNonneg : ∀ port ∈ last, 0 ≤ port) :
    ∃ shown, (MatchSpec.ofPorts protocol start last side).portRange = some shown ∧
      ports? shown = some (start.toNat, (last.getD start).toNat) := by
  have single : ports? (toString start) = some (start.toNat, start.toNat) := by
    rw [ports?, Text.parts_of_not_mem (colon_not_mem_toString startNonneg)]
    simp only [number?_toString startNonneg, Option.map_some]
  cases last with
  | none => exact ⟨_, rfl, single⟩
  | some port =>
      by_cases same : port = start
      · subst same
        exact ⟨toString port, by simp [MatchSpec.portRange, MatchSpec.ofPorts], single⟩
      · refine ⟨s!"{start}:{port}", by simp [MatchSpec.portRange, MatchSpec.ofPorts, same], ?_⟩
        have shown : s!"{start}:{port}".toList =
            (toString start).toList ++ ':' :: (toString port).toList := by
          rw [String.toList_append, String.toList_append, List.append_assoc]
          rfl
        have portNonneg := lastNonneg port rfl
        rw [ports?, shown, Text.parts_append (colon_not_mem_toString startNonneg),
          Text.parts_of_not_mem (colon_not_mem_toString portNonneg)]
        dsimp only
        rw [number?_toString startNonneg, number?_toString portNonneg]
        rfl

theorem isPort_nonneg {port : Int} (isPort : PortRange.isPort port = true) : 0 ≤ port := by
  simp only [PortRange.isPort, Bool.and_eq_true, decide_eq_true_eq] at isPort
  omega

theorem ruleWords_ofPorts {name text : String} {start mark precedence : Int} {last : Option Int}
    {side : MatchSide} (isText : (MatchSpec.ofPorts name start last side).portRange = some text) :
    Marking.ruleWords ⟨.ofPorts name start last side, mark, precedence⟩ =
      .ok ["-p", name, "--" ++ side.name, text] := by
  have words : Words.matching (.ofPorts name start last side) =
      [some "-p", some name, some ("--" ++ side.name), some text] := by
    rw [← isText]
    rfl
  rw [Marking.ruleWords, words]
  rfl

/-- Every word of a rule is there. -/
theorem exists_ruleWords {rule : ClassificationRule} (expanded : rule.spec.IsExpanded) :
    ∃ words, Marking.ruleWords rule = .ok words := by
  rcases rule with ⟨spec, mark, precedence⟩
  dsimp only at expanded
  cases expanded with
  | @ports name start last side _ startIsPort lastIsPort _ =>
      have lastNonneg : ∀ port ∈ last, 0 ≤ port := fun port isLast =>
        isPort_nonneg (lastIsPort port isLast).1
      rcases @ports?_portRange name start last side (isPort_nonneg startIsPort) lastNonneg with
        ⟨text, isText, _⟩
      exact ⟨_, ruleWords_ofPorts isText⟩
  | @protocol name _ => exact ⟨["-p", name], rfl⟩
  | @address text _ side _ _ =>
      exact ⟨[if some side = some .source then "-s" else "-d", text], rfl⟩

end Netfilter

end UplinkShaper
