import Mathlib.Logic.Function.Basic
import UplinkShaper.Proofs.Allocation.Ids
import UplinkShaper.Proofs.Backend.Netfilter

/-!
What the kernel holds for the two backends: a queueing tree for each device, and in the
table for changing packets the chains and the rules that lead to them. A command is read
off its words. It takes effect if what it needs is there and what it adds is not, and
otherwise it fails and changes nothing.
-/

namespace UplinkShaper

/-! ## Handles -/

/-- The name of a queue or a class: two numbers of sixteen bits. -/
structure Handle where
  major : Nat
  minor : Nat
deriving DecidableEq, Repr

namespace Handle

def digit? (character : Char) : Option Nat :=
  if character.isDigit then some (character.toNat - 48)
  else if 'a' ≤ character ∧ character ≤ 'f' then some (character.toNat - 87)
  else none

/-- The number of sixteen bits that hexadecimal digits denote; no digit denotes zero. -/
def number? (shown : List Char) : Option Nat := do
  let value ← shown.foldlM (fun total character => (digit? character).map (16 * total + ·)) 0
  if value ≤ Allocation.largestMinor then some value else none

/-- The handle that a text denotes. -/
def ofText? (text : String) : Option Handle :=
  match Text.parts ':' text.toList with
  | [major, minor] => do return ⟨← number? major, ← number? minor⟩
  | _ => none

end Handle

namespace Kernel

/-! ## Queueing trees -/

structure QueueClass where
  handle : Handle
  parent : Handle
  curve : List String
deriving DecidableEq, Repr

structure LeafQueue where
  handle : Handle
  parent : Handle
  kind : List String
deriving DecidableEq, Repr

/-- Leads packets with a mark to a class. -/
structure ClassFilter where
  precedence : Nat
  mark : Nat
  target : Handle
deriving DecidableEq, Repr

structure QueueTree where
  root : Handle
  default : Nat
  classes : List QueueClass
  queues : List LeafQueue
  filters : List ClassFilter
deriving DecidableEq, Repr

namespace QueueTree

def bare (root : Handle) (default : Nat) : QueueTree where
  root := root
  default := default
  classes := []
  queues := []
  filters := []

def hasClass (tree : QueueTree) (handle : Handle) : Bool :=
  tree.classes.any (·.handle == handle)

/-- Whether classes can stand below a handle. -/
def canHold (tree : QueueTree) (handle : Handle) : Bool :=
  handle == tree.root || tree.hasClass handle

def addClass (tree : QueueTree) (item : QueueClass) : Option QueueTree :=
  if tree.canHold item.parent ∧ !tree.canHold item.handle then
    some { tree with classes := tree.classes ++ [item] }
  else none

/-- A class has one queue at most, and a handle is used once. -/
def addQueue (tree : QueueTree) (queue : LeafQueue) : Option QueueTree :=
  if tree.hasClass queue.parent ∧ queue.handle ≠ tree.root ∧
      tree.queues.all fun other =>
        other.parent ≠ queue.parent ∧ other.handle ≠ queue.handle then
    some { tree with queues := tree.queues ++ [queue] }
  else none

def addFilter (tree : QueueTree) (parent : Handle) (filter : ClassFilter) : Option QueueTree :=
  if parent = tree.root ∧ tree.hasClass filter.target ∧
      tree.filters.all fun other =>
        other.precedence ≠ filter.precedence ∨ other.mark ≠ filter.mark then
    some { tree with filters := tree.filters ++ [filter] }
  else none

/-! What was added is there, and what was there still is. -/

section Added

variable {tree : QueueTree} {item : QueueClass} {queue : LeafQueue} {filter : ClassFilter}

theorem addClass_eq (parent : tree.canHold item.parent = true)
    (new : tree.canHold item.handle = false) :
    tree.addClass item = some { tree with classes := tree.classes ++ [item] } := by
  simp [addClass, parent, new]

@[simp]
theorem canHold_append (handle : Handle) :
    canHold { tree with classes := tree.classes ++ [item] } handle =
      (tree.canHold handle || item.handle == handle) := by
  simp [canHold, hasClass, Bool.or_assoc]

theorem addQueue_eq (parent : tree.hasClass queue.parent = true)
    (notRoot : queue.handle ≠ tree.root)
    (new : ∀ other ∈ tree.queues, other.parent ≠ queue.parent ∧ other.handle ≠ queue.handle) :
    tree.addQueue queue = some { tree with queues := tree.queues ++ [queue] } := by
  have all : (tree.queues.all fun other =>
      other.parent ≠ queue.parent ∧ other.handle ≠ queue.handle) = true := by
    simpa using new
  rw [addQueue, if_pos ⟨parent, notRoot, all⟩]

theorem addFilter_eq (target : tree.hasClass filter.target = true)
    (new : ∀ other ∈ tree.filters, other.precedence ≠ filter.precedence) :
    tree.addFilter tree.root filter = some { tree with filters := tree.filters ++ [filter] } := by
  have all : (tree.filters.all fun other =>
      other.precedence ≠ filter.precedence ∨ other.mark ≠ filter.mark) = true := by
    simp only [List.all_eq_true, decide_eq_true_eq]
    exact fun other member => .inl (new other member)
  rw [addFilter, if_pos ⟨rfl, target, all⟩]

end Added

end QueueTree

/-! ## Commands -/

/-- What commands ask of the kernel. Rules are kept as they are written. -/
inductive Command
  | addRoot (device : String) (root : Handle) (default : Nat)
  | addClass (device : String) (item : QueueClass)
  | addQueue (device : String) (queue : LeafQueue)
  | addFilter (device : String) (parent : Handle) (filter : ClassFilter)
  | dropRoot (device : String)
  | dropIngress (device : String)
  | create (chain : String)
  | empty (chain : String)
  | remove (chain : String)
  | append (chain : String) (rule : List String)
  | hook (device chain : String)
  | unhook (device chain : String)
deriving DecidableEq, Repr

namespace Command

def shaping? : List String → Option Command
  | ["qdisc", "add", "dev", device, "root", "handle", root, "hfsc", "default", default] => do
      return .addRoot device (← Handle.ofText? root) (← Handle.number? default.toList)
  | "qdisc" :: "add" :: "dev" :: device :: "parent" :: parent :: "handle" :: handle :: kind => do
      return .addQueue device ⟨← Handle.ofText? handle, ← Handle.ofText? parent, kind⟩
  | "class" :: "add" :: "dev" :: device :: "parent" :: parent :: "classid" :: handle :: "hfsc" ::
      curve => do
      return .addClass device ⟨← Handle.ofText? handle, ← Handle.ofText? parent, curve⟩
  | ["filter", "add", "dev", device, "parent", parent, "protocol", "ip", "prio", precedence,
      "handle", mark, "fw", "classid", target] => do
      return .addFilter device (← Handle.ofText? parent)
        ⟨← Netfilter.number? precedence.toList, ← Netfilter.number? mark.toList,
          ← Handle.ofText? target⟩
  | ["qdisc", "del", "dev", device, "root"] => some (.dropRoot device)
  | ["qdisc", "del", "dev", device, "ingress"] => some (.dropIngress device)
  | _ => none

def marking? : List String → Option Command
  | ["-A", "POSTROUTING", "-o", device, "-j", chain] => some (.hook device chain)
  | ["-D", "POSTROUTING", "-o", device, "-j", chain] => some (.unhook device chain)
  | "-A" :: chain :: rule => some (.append chain rule)
  | ["-N", chain] => some (.create chain)
  | ["-F", chain] => some (.empty chain)
  | ["-X", chain] => some (.remove chain)
  | _ => none

/-- What a command asks, whatever its tool is called. -/
def ofWords? : List String → Option Command
  | _ :: "-t" :: "mangle" :: words => marking? words
  | _ :: words => shaping? words
  | [] => none

end Command

end Kernel

/-! ## The kernel -/

structure Kernel where
  /-- The tree of each device. -/
  trees : String → Option Kernel.QueueTree
  /-- The rules of each chain that was created. -/
  chains : String → Option (List (List String))
  /-- The devices and chains of the rules that lead outgoing packets to chains. -/
  hooks : List (String × String)

namespace Kernel

/-- The chain that outgoing packets pass in any case. -/
def outgoing : String := "POSTROUTING"

def hasChain (kernel : Kernel) (chain : String) : Prop :=
  chain = outgoing ∨ (kernel.chains chain).isSome

instance (kernel : Kernel) (chain : String) : Decidable (kernel.hasChain chain) :=
  inferInstanceAs (Decidable (_ ∨ _))

def withTree (kernel : Kernel) (device : String) (tree : Option QueueTree) : Kernel :=
  { kernel with trees := Function.update kernel.trees device tree }

def withChain (kernel : Kernel) (chain : String) (rules : Option (List (List String))) : Kernel :=
  { kernel with chains := Function.update kernel.chains chain rules }

/-- The kernel after a command, if the command does not fail. -/
def after (kernel : Kernel) : Command → Option Kernel
  | .addRoot device root default =>
      match kernel.trees device with
      | some _ => none
      | none => some (kernel.withTree device (some (.bare root default)))
  | .addClass device item => do
      let tree ← (← kernel.trees device).addClass item
      return kernel.withTree device (some tree)
  | .addQueue device queue => do
      let tree ← (← kernel.trees device).addQueue queue
      return kernel.withTree device (some tree)
  | .addFilter device parent filter => do
      let tree ← (← kernel.trees device).addFilter parent filter
      return kernel.withTree device (some tree)
  | .dropRoot device => do
      let _ ← kernel.trees device
      return kernel.withTree device none
  -- No device has a queue for incoming packets.
  | .dropIngress _ => none
  | .create chain =>
      if kernel.hasChain chain then none else some (kernel.withChain chain (some []))
  | .empty chain => do
      let _ ← kernel.chains chain
      return kernel.withChain chain (some [])
  | .remove chain =>
      if kernel.chains chain = some [] ∧ kernel.hooks.all (·.2 ≠ chain) then
        some (kernel.withChain chain none)
      else none
  | .append chain rule => do
      let rules ← kernel.chains chain
      return kernel.withChain chain (some (rules ++ [rule]))
  | .hook device chain =>
      if kernel.hasChain chain then some { kernel with hooks := kernel.hooks ++ [(device, chain)] }
      else none
  | .unhook device chain =>
      if (device, chain) ∈ kernel.hooks then
        some { kernel with hooks := kernel.hooks.erase (device, chain) }
      else none

end Kernel

/-! ## Words of commands -/

namespace Handle

/-- The handle of the class with an id, whose digits are read as hexadecimal ones. -/
def ofId (id : Int) : Handle where
  major := 1
  minor := Allocation.readAsHexadecimal id.toNat

theorem digit?_digitChar {character : Char} (digit : character.isDigit = true) :
    digit? character = some (character.toNat - 48) := by
  rw [digit?, if_pos digit]

theorem foldlM_digit? {shown : List Char} (digits : ∀ character ∈ shown, character.isDigit = true)
    (total : Nat) :
    shown.foldlM (fun total character => (digit? character).map (16 * total + ·)) total =
      some (shown.foldl (fun total digit => 16 * total + (digit.toNat - 48)) total) := by
  induction shown generalizing total with
  | nil => rfl
  | cons character rest induction =>
      rcases List.forall_mem_cons.mp digits with ⟨digit, restDigits⟩
      rw [List.foldlM_cons, digit?_digitChar digit, List.foldl_cons]
      exact induction restDigits _

/-- A decimal numeral is read as a hexadecimal one. -/
theorem number?_toString {value : Int} (nonneg : 0 ≤ value) (narrow : value ≤ 9999) :
    number? (toString value).toList = some (Allocation.readAsHexadecimal value.toNat) := by
  rcases Int.eq_ofNat_of_zero_le nonneg with ⟨count, rfl⟩
  have small : Allocation.readAsHexadecimal count ≤ Allocation.largestMinor :=
    Allocation.readAsHexadecimal_le_largestMinor_iff.mpr (by omega)
  rw [number?, Text.toList_toString_natCast, foldlM_digit? Text.isDigit_of_mem_toDigits]
  exact if_pos small

theorem ofText?_classHandle {id : Int} (nonneg : 0 ≤ id) (narrow : id ≤ 9999) :
    ofText? (classHandle (toString id)) = some (ofId id) := by
  have shown : (classHandle (toString id)).toList = ['1'] ++ ':' :: (toString id).toList := by
    rw [classHandle, String.toList_append]
    rfl
  have absent := Netfilter.colon_not_mem_toString nonneg
  rw [ofText?, shown, Text.parts_append (by decide), Text.parts_of_not_mem absent]
  dsimp only
  rw [number?_toString nonneg narrow]
  rfl

theorem ofText?_rootHandle : ofText? rootHandle = some ⟨1, 0⟩ := by
  decide

/-- The handle of a leaf queue, which has the id of its class as its first number. -/
theorem ofText?_queue {id : Int} (nonneg : 0 ≤ id) (narrow : id ≤ 9999) :
    ofText? (toString id ++ ":") = some ⟨(ofId id).minor, 0⟩ := by
  have shown : (toString id ++ ":").toList = (toString id).toList ++ ':' :: [] := by
    rw [String.toList_append]
    rfl
  have absent := Netfilter.colon_not_mem_toString nonneg
  rw [ofText?, shown, Text.parts_append absent]
  dsimp only [Text.parts]
  rw [number?_toString nonneg narrow]
  rfl

theorem ofId_inj {left right : Int} (leftNonneg : 0 ≤ left) (rightNonneg : 0 ≤ right) :
    ofId left = ofId right ↔ left = right := by
  constructor
  · intro equal
    have := Allocation.readAsHexadecimal_strictMono.injective (congrArg Handle.minor equal)
    omega
  · rintro rfl
    rfl

end Handle

end UplinkShaper
