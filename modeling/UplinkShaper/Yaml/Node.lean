import UplinkShaper.Yaml.Scalar
import UplinkShaper.Yaml.TokenStream

/-!
Nodes of a YAML document: scalars, sequences and mappings with their tags. An alias
stands for a copy of the node that its anchor names.
-/

namespace UplinkShaper

namespace Yaml

inductive Node
  | scalar (tag : String) (text : String)
  | sequence (tag : String) (items : List Node)
  | mapping (tag : String) (entries : List (Node × Node))
deriving Repr, Inhabited

namespace Node

def tagNamed (name : String) : String :=
  Scalar.tagStart ++ name

/-- What stands where nothing is written. -/
def empty : Node :=
  .scalar (tagNamed "null") ""

/-! ## Reading tokens -/

structure ReadState where
  tokens : List Token
  /-- What is wrong after the last token. -/
  fault : Option Fault
  handles : List (String × String)
  /-- The nodes by anchor; one that is still being read has no node yet. -/
  anchors : List (String × Option Node)

abbrev Reader := StateT ReadState (Except Fault)

def malformed : Reader α :=
  throw .malformed

def peek : Reader Token := do
  let state ← get
  match state.tokens with
  | token :: _ => return token
  | [] => throw (state.fault.getD .malformed)

def skip : Reader Unit :=
  modify fun state => { state with tokens := state.tokens.drop 1 }

/-- Move past a token, if it is next. -/
def skipIf (token : Token) : Reader Bool := do
  if (← peek) = token then
    skip
    return true
  else return false

/-- Move past the comma before an item of a flow collection. The first has none. -/
def skipComma (isFirst : Bool) : Reader Unit := do
  unless isFirst do
    unless ← skipIf .flowEntry do malformed

def resolveTag (handle : Option String) (suffix : String) : Reader String := do
  match handle with
  | none => return suffix
  | some handle =>
      match (← get).handles.find? fun (known, _) => known == handle with
      | some (_, replacement) => return replacement ++ suffix
      | none => malformed

def openAnchor (name : String) : Reader Unit := do
  let state ← get
  if state.anchors.any fun (known, _) => known == name then malformed
  else set { state with anchors := (name, none) :: state.anchors }

def closeAnchor (name : Option String) (node : Node) : Reader Unit :=
  match name with
  | none => return
  | some name =>
      modify fun state =>
        { state with anchors := state.anchors.map fun (known, old) =>
            (known, if known == name then some node else old) }

def aliased (name : String) : Reader Node := do
  match (← get).anchors.find? fun (known, _) => known == name with
  | some (_, some node) => return node
  | _ => malformed

/-- What may stand before the content of a node. -/
structure Properties where
  anchor : Option String
  tag : Option String

def tagProperty : Reader (Option String) := do
  match ← peek with
  | .tag handle suffix =>
      skip
      return some (← resolveTag handle suffix)
  | _ => return none

def anchorProperty : Reader (Option String) := do
  match ← peek with
  | .anchor name =>
      skip
      return some name
  | _ => return none

/-- An anchor and a tag, in either order. -/
def properties : Reader Properties := do
  match ← anchorProperty with
  | some name => return { anchor := some name, tag := ← tagProperty }
  | none =>
      match ← tagProperty with
      | some tag => return { anchor := ← anchorProperty, tag := some tag }
      | none => return { anchor := none, tag := none }

/-- A tag that leaves the choice to the form. -/
def openTag (tag : Option String) : Option String :=
  tag.filter (· != "!")

/-- A scalar. Without a tag a plain one has the tag of its form, a quoted one that of
text. -/
def ofScalar (tag : Option String) (text : String) (isPlain : Bool) : Node :=
  match openTag tag with
  | some tag => .scalar tag text
  | none =>
      if isPlain || tag.isSome then .scalar (tagNamed (Scalar.implicitTag text)) text
      else .scalar (tagNamed "str") text

inductive Place
  | flow
  | block
  /-- In a block mapping, where a sequence needs no indentation. -/
  | blockEntry
deriving DecidableEq, Repr

mutual

def readNode (fuel : Nat) (place : Place) : Reader Node := do
  match fuel, ← peek with
  | 0, _ => malformed
  | _, .alias name =>
      skip
      aliased name
  | fuel + 1, _ =>
      let found ← properties
      found.anchor.forM openAnchor
      let node ← readContent fuel place found
      closeAnchor found.anchor node
      return node

def readContent (fuel : Nat) (place : Place) (found : Properties) : Reader Node := do
  match fuel with
  | 0 => malformed
  | fuel + 1 =>
      let sequenceTag := (openTag found.tag).getD (tagNamed "seq")
      let mappingTag := (openTag found.tag).getD (tagNamed "map")
      match ← peek, place with
      | .blockEntry, .blockEntry => return .sequence sequenceTag (← readIndentless fuel)
      | .scalar text isPlain, _ =>
          skip
          return ofScalar found.tag text isPlain
      | .flowSequenceStart, _ =>
          skip
          return .sequence sequenceTag (← readFlowItems fuel true)
      | .flowMappingStart, _ =>
          skip
          return .mapping mappingTag (← readFlowEntries fuel true)
      | .blockSequenceStart, .block | .blockSequenceStart, .blockEntry =>
          skip
          return .sequence sequenceTag (← readBlockItems fuel)
      | .blockMappingStart, .block | .blockMappingStart, .blockEntry =>
          skip
          return .mapping mappingTag (← readBlockEntries fuel)
      | _, _ =>
          if found.anchor.isSome || found.tag.isSome then
            match openTag found.tag with
            | some tag => return .scalar tag ""
            | none => return empty
          else malformed

/-- A node, unless one of some tokens comes next. -/
def readUnless (fuel : Nat) (place : Place) (stops : List Token) : Reader Node := do
  match fuel with
  | 0 => malformed
  | fuel + 1 => if (← peek) ∈ stops then return empty else readNode fuel place

def readBlockItems (fuel : Nat) : Reader (List Node) := do
  match fuel, ← peek with
  | fuel + 1, .blockEntry =>
      skip
      let item ← readUnless fuel .block [.blockEntry, .blockEnd]
      return item :: (← readBlockItems fuel)
  | _, .blockEnd =>
      skip
      return []
  | _, _ => malformed

def readIndentless (fuel : Nat) : Reader (List Node) := do
  match fuel, ← peek with
  | 0, _ => malformed
  | fuel + 1, .blockEntry =>
      skip
      let item ← readUnless fuel .block [.blockEntry, .key, .value, .blockEnd]
      return item :: (← readIndentless fuel)
  | _, _ => return []

/-- The value of an entry, which may be missing. -/
def readBlockValue (fuel : Nat) : Reader Node := do
  match fuel, ← peek with
  | fuel + 1, .value =>
      skip
      readUnless fuel .blockEntry [.key, .value, .blockEnd]
  | _, _ => return empty

def readBlockEntries (fuel : Nat) : Reader (List (Node × Node)) := do
  match fuel, ← peek with
  | fuel + 1, .key =>
      skip
      let key ← readUnless fuel .blockEntry [.key, .value, .blockEnd]
      let value ← readBlockValue fuel
      return (key, value) :: (← readBlockEntries fuel)
  | _, .blockEnd =>
      skip
      return []
  | _, _ => malformed

/-- The value of an entry in a flow collection, which may be missing. -/
def readFlowValue (fuel : Nat) (stops : List Token) : Reader Node := do
  match fuel, ← peek with
  | fuel + 1, .value =>
      skip
      readUnless fuel .flow stops
  | _, _ => return empty

def readFlowItems (fuel : Nat) (isFirst : Bool) : Reader (List Node) := do
  match fuel with
  | 0 => malformed
  | fuel + 1 =>
      if ← skipIf .flowSequenceEnd then return []
      else
        skipComma isFirst
        match ← peek with
        | .flowSequenceEnd =>
            skip
            return []
        | .key =>
            skip
            let key ← readUnless fuel .flow [.value, .flowEntry, .flowSequenceEnd]
            let value ← readFlowValue fuel [.flowEntry, .flowSequenceEnd]
            let item := Node.mapping (tagNamed "map") [(key, value)]
            return item :: (← readFlowItems fuel false)
        | _ =>
            let item ← readNode fuel .flow
            return item :: (← readFlowItems fuel false)

def readFlowEntries (fuel : Nat) (isFirst : Bool) : Reader (List (Node × Node)) := do
  match fuel with
  | 0 => malformed
  | fuel + 1 =>
      if ← skipIf .flowMappingEnd then return []
      else
        skipComma isFirst
        match ← peek with
        | .flowMappingEnd =>
            skip
            return []
        | .key =>
            skip
            let key ← readUnless fuel .flow [.value, .flowEntry, .flowMappingEnd]
            let value ← readFlowValue fuel [.flowEntry, .flowMappingEnd]
            return (key, value) :: (← readFlowEntries fuel false)
        | _ =>
            let key ← readNode fuel .flow
            return (key, empty) :: (← readFlowEntries fuel false)

end

/-! ## Documents -/

def standardHandles : List (String × String) :=
  [("!", "!"), ("!!", Scalar.tagStart)]

/-- Read directives. A version may be given once, and a handle defined once. -/
def readDirectives (fuel : Nat) (versions : Nat) (handles : List (String × String)) :
    Reader (List (String × String)) := do
  match fuel, ← peek with
  | fuel + 1, .directive directive =>
      skip
      match directive with
      | .version major =>
          if versions ≠ 0 ∨ major ≠ 1 then malformed
          else readDirectives fuel (versions + 1) handles
      | .tagHandle handle replacement =>
          if handles.any fun (known, _) => known == handle then malformed
          else readDirectives fuel versions ((handle, replacement) :: handles)
      | .other => readDirectives fuel versions handles
  | _, _ => return handles

def skipDocumentEnds (fuel : Nat) : Reader Unit := do
  match fuel with
  | 0 => return
  | fuel + 1 => if ← skipIf .documentEnd then skipDocumentEnds fuel

/-- Read the end of a document, after which no other one may come. -/
def readEnd (fuel : Nat) : Reader Unit := do
  skipDocumentEnds fuel
  if (← peek) = .streamEnd then return else malformed

def readDocument (fuel : Nat) : Reader (Option Node) := do
  match ← peek with
  | .directive _ | .documentStart | .streamEnd =>
      if (← peek) = .streamEnd then return none
      else
        let handles ← readDirectives fuel 0 []
        modify fun state => { state with handles := handles ++ standardHandles }
        if ← skipIf .documentStart then
          let node ←
            match ← peek with
            | .directive _ | .documentStart | .documentEnd | .streamEnd => pure empty
            | _ => readNode fuel .block
          readEnd fuel
          return some node
        else malformed
  | _ =>
      let node ← readNode fuel .block
      readEnd fuel
      return some node

/-- The document of a text. Each step of the reading takes up a token or goes into a
part of a node, so the fuel is never used up. -/
def ofText (text : String) : Except Fault (Option Node) :=
  let stream := TokenStream.ofText text
  let state : ReadState :=
    { tokens := stream.tokens, fault := stream.fault, handles := standardHandles, anchors := [] }
  (readDocument (4 * stream.tokens.length + 8) |>.run' state)

end Node

end Yaml

end UplinkShaper
