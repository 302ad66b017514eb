import UplinkShaper.Value

/-!
Merging documents. What the second document says overrides the first; where both
have a mapping the two are merged, so only what is written is replaced. Lists are
replaced as a whole.
-/

namespace UplinkShaper

namespace Value

mutual

def laidOver (old : Option Value) : Value → Value
  | .mapping entries =>
      match old with
      | some (.mapping base) => .mapping (mergeEntries base entries)
      | _ => .mapping entries
  | value => value

/-- Entries over those of a mapping, one after the other. -/
def mergeEntries (base : List (Value × Value)) : List (Value × Value) → List (Value × Value)
  | [] => base
  | (key, value) :: rest => mergeEntries (put key (laidOver (find? key base) value) base) rest

end

/-- Merge a document over another. -/
def merge (base override : Value) : Value :=
  laidOver (some base) override

end Value

end UplinkShaper
