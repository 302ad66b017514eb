import UplinkShaper.Yaml.Node

/-!
From a document to its value. A merge key takes in the entries of other mappings,
which the mapping's own entries override. Scalars are read level by level, so of two
scalars without a value the one nearer to the root is reported.
-/

namespace UplinkShaper

namespace Yaml

namespace Node

def hasTag (name : String) : Node → Bool
  | .scalar tag _ | .sequence tag _ | .mapping tag _ => tag == tagNamed name

/-! ## Merging -/

/-- A mapping with a merge key that cannot be followed. -/
def unmergeable : Node :=
  .mapping "" []

def isUnmergeable : Node → Bool
  | .mapping "" [] => true
  | _ => false

def mergedMapping? : Node → Option (List (Node × Node))
  | .mapping "" _ => none
  | .mapping _ entries => some entries
  | _ => none

/-- What a merge key takes in: the entries of a mapping, or those of several, of
which an earlier one overrides a later. -/
def mergedEntries? : Node → Option (List (Node × Node))
  | .sequence _ items => (items.mapM mergedMapping?).map fun found => found.reverse.flatten
  | node => mergedMapping? node

/-- A key that is an equals sign is text. -/
def plainKey : Node → Node
  | .scalar tag text => if tag = tagNamed "value" then .scalar (tagNamed "str") text else .scalar tag text
  | node => node

/-- Entries without merge keys, after what those take in. -/
def flattened? (entries : List (Node × Node)) : Option (List (Node × Node)) := do
  let merges := entries.filter fun (key, _) => key.hasTag "merge"
  let own := entries.filter fun (key, _) => !key.hasTag "merge"
  let taken ← merges.mapM fun (_, value) => mergedEntries? value
  return taken.flatten ++ own.map fun (key, value) => (plainKey key, value)

/-- A mapping of the kinds that merge keys work in. -/
def mergeMapping (tag : String) (entries : List (Node × Node)) : Node :=
  if tag = tagNamed "map" ∨ tag = tagNamed "set" then
    match flattened? entries with
    | some flat => .mapping tag flat
    | none => unmergeable
  else .mapping tag entries

mutual

/-- A node in which all merge keys have been followed. -/
def merged : Node → Node
  | .scalar tag text => .scalar tag text
  | .sequence tag items => .sequence tag (mergedItems items)
  | .mapping tag entries => mergeMapping tag (mergedPairs entries)

def mergedItems : List Node → List Node
  | [] => []
  | item :: rest => item.merged :: mergedItems rest

def mergedPairs : List (Node × Node) → List (Node × Node)
  | [] => []
  | (key, value) :: rest => (key.merged, value.merged) :: mergedPairs rest

end

/-! ## Values -/

/-- The text of a scalar. A mapping has the text of its entry under an equals sign. -/
def scalarText? : Node → Option String
  | .scalar _ text => some text
  | .mapping _ entries => valueText? entries
  | .sequence _ _ => none
where
  valueText? : List (Node × Node) → Option String
    | [] => none
    | (key, .scalar _ text) :: rest =>
        if key.hasTag "value" then some text else valueText? rest
    | (_, _) :: rest => valueText? rest

def scalarValue (node : Node) (tag : String) : Except Fault Value :=
  match Scalar.ofTag? tag, scalarText? node with
  | some tag, some text => Scalar.value tag text
  | _, _ => .error .malformed

def put (key value : Value) (entries : List (Value × Value)) : List (Value × Value) :=
  Value.put key value entries

mutual

def value : Node → Value
  | .scalar tag text => ((scalarValue (.scalar tag text) tag).toOption).getD .null
  | .sequence tag items =>
      if tag = tagNamed "seq" then .list (values items)
      else .list (pairs items)
  | .mapping tag entries =>
      if tag = tagNamed "map" then .mapping (entryValues [] entries)
      else if tag = tagNamed "set" then .set ((entryValues [] entries).map (·.1))
      else ((scalarValue (.mapping tag entries) tag).toOption).getD .null

def values : List Node → List Value
  | [] => []
  | item :: rest => item.value :: values rest

def pairs : List Node → List Value
  | [] => []
  | .mapping _ [(key, value)] :: rest => .pair key.value value.value :: pairs rest
  | _ :: rest => pairs rest

/-- Entries after others; of two with one key the later counts. -/
def entryValues (before : List (Value × Value)) : List (Node × Node) → List (Value × Value)
  | [] => before
  | (key, value) :: rest => entryValues (put key.value value.value before) rest

end

/-! ## Faults -/

abbrev Leveled := Nat × Fault

/-- Whether a node is one of the kinds that cannot be keys. -/
def isCollection (node : Node) : Bool :=
  match node with
  | .scalar _ _ => false
  | .sequence _ _ => true
  | .mapping tag _ => tag == tagNamed "map" || tag == tagNamed "set"

def faultOf (level : Nat) (result : Except Fault Value) : List Leveled :=
  match result with
  | .error fault => [(level, fault)]
  | .ok _ => []

mutual

/-- Everything that keeps a node from having a value. -/
def faults (level : Nat) : Node → List Leveled
  | .scalar tag text => faultOf level (scalarValue (.scalar tag text) tag)
  | .sequence tag items =>
      if tag = tagNamed "seq" then itemFaults (level + 1) items
      else if tag = tagNamed "omap" ∨ tag = tagNamed "pairs" then pairFaults (level + 1) items
      else [(level, .malformed)]
  | .mapping tag entries =>
      if tag = "" then [(level + 1, .malformed)]
      else if tag = tagNamed "map" ∨ tag = tagNamed "set" then entryFaults (level + 1) entries
      else faultOf level (scalarValue (.mapping tag entries) tag)

def itemFaults (level : Nat) : List Node → List Leveled
  | [] => []
  | item :: rest => item.faults level ++ itemFaults level rest

def pairFaults (level : Nat) : List Node → List Leveled
  | [] => []
  | .mapping _ [(key, value)] :: rest =>
      key.faults level ++ value.faults level ++ pairFaults level rest
  | _ :: _ => [(level, .malformed)]

def entryFaults (level : Nat) : List (Node × Node) → List Leveled
  | [] => []
  | (key, value) :: rest =>
      key.faults level ++ (if key.isCollection then [(level, .malformed)] else []) ++
        value.faults level ++ entryFaults level rest

end

def nearest : List Leveled → Option Fault
  | [] => none
  | first :: others =>
      some (others.foldl (fun (best next : Leveled) => if next.1 < best.1 then next else best)
        first).2

end Node

def read (text : String) : Except Fault Value := do
  match ← Node.ofText text with
  | none => return .null
  | some node =>
      let node := node.merged
      match Node.nearest (node.faults 0) with
      | some fault => .error fault
      | none => return node.value

end Yaml

end UplinkShaper
