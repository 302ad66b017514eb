import UplinkShaper.Failure

/-!
Schemas for documents. A schema says which forms a value may take and what its
parts look like. `Schema.errors` lists every way in which a value departs from a
schema, in a fixed order, and `Schema.check` reports the one that lies nearest to
the root, of several as near the one with the greatest path.
-/

namespace UplinkShaper

/-- The forms that values take. A number without a fraction is an integer, however
it is written. -/
inductive Form
  | object
  | array
  | text
  | integer
  | number
  | boolean
deriving DecidableEq, Repr

namespace Form

def name : Form → String
  | .object => "object"
  | .array => "array"
  | .text => "string"
  | .integer => "integer"
  | .number => "number"
  | .boolean => "boolean"

def admits : Form → Value → Bool
  | .object, .mapping _ => true
  | .array, .list _ => true
  | .text, .text _ => true
  | .integer, .number value => value.isIntegral
  | .number, .number _ => true
  | .boolean, .boolean _ => true
  | _, _ => false

end Form

/-- A condition on a value by itself. It holds of values of other forms than the
one it is about. -/
inductive ScalarRule
  | oneOf (names : List String)
  | atLeast (minimum : Int)
  | nonEmpty
deriving DecidableEq, Repr

/-- What a condition says about a value that fails it. -/
def ScalarRule.complaint? (value : Value) : ScalarRule → Option String
  | .oneOf names =>
      match value with
      | .text name => if name ∈ names then none else some (unlisted names)
      | _ => some (unlisted names)
  | .atLeast minimum =>
      match value with
      | .number number =>
          if number.lt (.whole minimum) then
            some (value.literal ++ s!" is less than the minimum of {minimum}")
          else none
      | _ => none
  | .nonEmpty =>
      match value with
      | .text text => if text.isEmpty then some (value.literal ++ " should be non-empty") else none
      | _ => none
where
  unlisted (names : List String) : String :=
    value.literal ++ " is not one of " ++ (Value.list (names.map .text)).literal

inductive Schema
  | scalar (forms : List Form) (rules : List ScalarRule)
  /-- A list of values of one schema, or a value of another form. -/
  | items (forms : List Form) (item : Schema)
  /-- A mapping with fields of its own, closed if it admits no others. -/
  | record (required : List String) (fields : List (String × Schema)) (isClosed : Bool)
  /-- A mapping from any keys to values of one schema. -/
  | table (value : Schema)

/-- A way in which a value departs from a schema. -/
structure FormError where
  path : List Value
  message : String
  /-- Whether the numbers in the message are short enough to be written. -/
  isWritable : Bool

namespace Schema

def formErrors (forms : List Form) (path : List Value) (value : Value) : List FormError :=
  if forms.any fun form => form.admits value then []
  else
    let names := Value.commaSeparated (forms.map fun form => Text.quoted form.name)
    [{ path := path, message := value.literal ++ " is not of type " ++ names,
       isWritable := value.isWritable }]

def ruleErrors (rules : List ScalarRule) (path : List Value) (value : Value) :
    List FormError :=
  (rules.filterMap (ScalarRule.complaint? value)).map fun complaint =>
    { path := path, message := complaint, isWritable := value.isWritable }

def missingErrors (required : List String) (path : List Value) (value : Value) :
    List FormError :=
  (required.filter fun name => (value.field? name).isNone).map fun name =>
    { path := path, message := Text.quoted name ++ " is a required property",
      isWritable := true }

/-- The complaint about the keys of a mapping that its schema does not name. -/
def unexpectedErrors (names : List String) (path : List Value)
    (entries : List (Value × Value)) : List FormError :=
  let extra := (entries.map (·.1)).filter fun key =>
    !names.any fun name => key.sameKey (.text name)
  let sorted := extra.mergeSort fun left right => !decide (right.plain < left.plain)
  match sorted with
  | [] => []
  | _ =>
      let verb := if sorted.length = 1 then "was" else "were"
      let shown := Value.commaSeparated (sorted.map (·.literal))
      [{ path := path,
         message := s!"Additional properties are not allowed ({shown} {verb} unexpected)"
         isWritable := Value.areWritable sorted }]

def fieldNames (fields : List (String × Schema)) : List String :=
  fields.map (·.1)

mutual

def errors (path : List Value) (value : Value) : Schema → List FormError
  | .scalar forms rules => formErrors forms path value ++ ruleErrors rules path value
  | .items forms item =>
      formErrors forms path value ++
        match value with
        | .list values =>
            (values.mapIdx fun index element =>
              errors (path ++ [.whole index]) element item).flatten
        | _ => []
  | .record required fields isClosed =>
      formErrors [.object] path value ++
        match value with
        | .mapping entries =>
            missingErrors required path value ++ fieldErrors path value fields ++
              if isClosed then unexpectedErrors (fieldNames fields) path entries else []
        | _ => []
  | .table inner =>
      formErrors [.object] path value ++
        match value with
        | .mapping entries =>
            entries.flatMap fun (key, element) => errors (path ++ [key]) element inner
        | _ => []

def fieldErrors (path : List Value) (value : Value) : List (String × Schema) → List FormError
  | [] => []
  | (name, schema) :: rest =>
      (match value.field? name with
        | some element => errors (path ++ [.text name]) element schema
        | none => []) ++ fieldErrors path value rest

end

/-! ## The error that is reported -/

def compareKeys? (left right : Value) : Option Ordering :=
  match left, right with
  | .text first, .text second => some (compareOfLessAndEq first second)
  | .date first, .date second => some (compare first.ordinal second.ordinal)
  | _, _ =>
      match left.keyNumber?, right.keyNumber? with
      | some first, some second => first.compare? second
      | _, _ => none

/-- How two paths compare: at the first place where they differ. -/
def comparePaths? : List Value → List Value → Option Ordering
  | [], [] => some .eq
  | [], _ :: _ => some .lt
  | _ :: _, [] => some .gt
  | left :: lefts, right :: rights =>
      if left.sameKey right then comparePaths? lefts rights else compareKeys? left right

/-- The more telling of two errors, the first one on a tie. -/
def better (best next : FormError) : Except Failure FormError :=
  if next.path.length < best.path.length then .ok next
  else if best.path.length < next.path.length then .ok best
  else
    match comparePaths? best.path next.path with
    | some .lt => .ok next
    | some _ => .ok best
    | none => .error .mismatch

def place (path : List Value) : String :=
  match path with
  | [] => "<root>"
  | _ =>
      match String.intercalate "/" (path.map (·.plain)) with
      | "" => "<root>"
      | shown => shown

def check (schema : Schema) (document : Value) : Except Failure Unit :=
  match schema.errors [] document with
  | [] => .ok ()
  | first :: others =>
      if (first :: others).any (!·.isWritable) then .error (.invalid .unwritable)
      else do
        let worst ← others.foldlM better first
        .error (.configuration (.form (place worst.path) worst.message))

end Schema

end UplinkShaper
