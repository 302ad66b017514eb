import UplinkShaper.Log
import UplinkShaper.Shaping.Tier

/-!
From tiers as they are asked for to a class tree. Reserved tiers are not taken off
the rate that shares are taken of, so the nominal total may exceed the link; the
scheduler arbitrates that, and the tree carries a warning. A single tier above the
rate of the link is refused.

The steps, in order: ids are checked, then each request by itself, then the sums of
shares. The default tier takes what its siblings leave. Tiers are ordered in layers
below the root, and rates are computed from the root down.
-/

namespace UplinkShaper

namespace Allocation

def refuse (cause : AllocationCause) (tier value : Value) : Except Failure α :=
  .error (.ofAllocation { cause := cause, tier := tier, value := value })

/-! ## Ids -/

/-- The number that a decimal text denotes when its digits are read as hexadecimal
ones, which is how class handles are read. -/
def readAsHexadecimal (value : Nat) : Nat :=
  (Nat.toDigits 10 value).foldl (fun total digit => 16 * total + (digit.toNat - 48)) 0

def largestMinor : Nat := 0xffff

/-- A tier as it is asked for, with an id that is a proper one. -/
structure Request where
  id : Int
  spec : TierSpec
deriving Repr

def checkId (seen : List Int) (spec : TierSpec) : Except Failure Request :=
  match spec.id with
  | .number (.whole id) =>
      if id ≤ 0 then refuse .idNotPositive spec.id spec.id
      else if id = rootId then refuse .idOfRoot spec.id .null
      else if !(Number.whole id).isWritable then .error (.invalid .unwritable)
      else if largestMinor < readAsHexadecimal id.toNat then refuse .idTooWide spec.id spec.id
      else if id ∈ seen then refuse .idRepeated spec.id .null
      else .ok { id := id, spec := spec }
  | _ => refuse .idNotPositive spec.id spec.id

def checkIds (seen : List Int) : List TierSpec → Except Failure (List Request)
  | [] => .ok []
  | spec :: rest => do
      let request ← checkId seen spec
      return request :: (← checkIds (request.id :: seen) rest)

/-! ## Requests -/

/-- Check what a tier asks for, apart from its place in the tree. -/
def checkRequest (request : Request) : Except Failure Unit :=
  let spec := request.spec
  match spec.kind with
  | .reserved =>
      if spec.rate.isSome = spec.ratePercent.isSome then refuse .reservedRate spec.id .null
      else .ok ()
  | .percentage =>
      match spec.share with
      | none => refuse .shareMissing spec.id .null
      | some share =>
          if (0 : Number).le share && share.le 100 then .ok ()
          else refuse .shareRange spec.id (.number share)

/-! ## Shares -/

/-- Add to the total of a parent, which starts at zero. -/
def addShare (parent : Number) (share : Double) :
    List (Number × Double) → List (Number × Double)
  | [] => [(parent, (Double.finite 0).add share)]
  | (other, total) :: rest =>
      if other.eq parent then (other, total.add share) :: rest
      else (other, total) :: addShare parent share rest

/-- The sums of shares by parent, in the order in which parents are first named. -/
def shareTotals (requests : List Request) : Except Failure (List (Number × Double)) :=
  requests.foldlM (fun totals request =>
    match request.spec.kind with
    | .reserved => .ok totals
    | .percentage => do
        let share ← arithmetic (request.spec.share.getD 0).toDouble
        return addShare request.spec.parent share totals) []

def totalUnder? (parent : Number) (totals : List (Number × Double)) : Option Double :=
  (totals.find? fun (other, _) => other.eq parent).map (·.2)

def hundred : Double := .finite 100

def isAbove (left right : Double) : Bool :=
  left.compare? right == some .gt

/-- Check that no parent's shares exceed a hundred percent. -/
def checkTotals (totals : List (Number × Double)) : Except Failure Unit :=
  match totals.find? fun (_, total) => isAbove total hundred with
  | some (parent, total) =>
      refuse (.sharesExceed parent total) .null (.number (.real total))
  | none => .ok ()

def idleWarnings (totals : List (Number × Double)) : List AllocationWarning :=
  (totals.filter fun (_, total) => isAbove hundred total).map fun (parent, total) =>
    .idle parent total

/-- What is left of a hundred percent. -/
def remainder (claimed : Option Double) : Number :=
  match claimed with
  | some total => .real (hundred.sub total)
  | none => 100

/-! ## Layers -/

/-- Whether the parent of a tier is among known classes. -/
def isReady (known : List Int) (request : Request) : Bool :=
  known.any fun id => request.spec.parent.eq (.whole id)

/-- The error for the first of the tiers that no layer takes. -/
def unreachable (declared : List Int) (request : Request) : Except Failure α :=
  let parent := request.spec.parent
  if isReady declared request then
    refuse .parentCycle request.spec.id (.number parent)
  else refuse (.parentMissing parent) request.spec.id (.number parent)

/-- The tiers of the next layer. -/
def ready (known : List Int) (pending : List Request) : List Request :=
  pending.filter (isReady known)

/-- The tiers that wait for a later layer. -/
def waiting (known : List Int) (pending : List Request) : List Request :=
  pending.filter fun request => !isReady known request

theorem waiting_length_lt {known : List Int} {pending : List Request}
    (found : pending.any (isReady known)) :
    (waiting known pending).length < pending.length := by
  obtain ⟨request, member, holds⟩ := List.any_eq_true.mp found
  exact List.length_filter_lt_length_iff_exists.mpr ⟨request, member, by simp [holds]⟩

/-- Order tiers in layers: first those whose parents are known, then those whose
parents are then known, and so on. -/
def inLayers (declared known : List Int) :
    (pending : List Request) → Except Failure (List Request)
  | [] => .ok []
  | first :: others =>
      if _ : (first :: others).any (isReady known) then do
        let layer := ready known (first :: others)
        let later ←
          inLayers declared (known ++ layer.map (·.id)) (waiting known (first :: others))
        return layer ++ later
      else unreachable declared first
termination_by pending => pending.length
decreasing_by exact waiting_length_lt ‹_›

/-! ## Rates -/

def knownRate? (rates : List (Int × Int)) (id : Number) : Option Int :=
  (rates.find? fun (known, _) => id.eq (.whole known)).map (·.2)

/-- A percentage of a rate, rounded down. -/
def percentOf (rate : Int) (percent : Number) : Except Failure Int :=
  arithmetic do ((← (← (Number.whole rate).mul percent).floorDiv 100).wholePart)

def rateOf (capacity : Int) (rates : List (Int × Int)) (spec : TierSpec) :
    Except Failure Int :=
  match spec.kind with
  | .reserved =>
      match spec.rate, spec.ratePercent with
      | some rate, _ => arithmetic rate.wholePart
      | none, some percent => percentOf capacity percent
      | none, none => .error .mismatch
  | .percentage =>
      match spec.share, knownRate? rates spec.parent with
      | some share, some rate => percentOf rate share
      | none, _ => .error .mismatch
      | _, none => .error .key

def checkRate (capacity rate : Int) (tier : Value) : Except Failure Unit :=
  if rate ≤ 0 then refuse .rateNotPositive tier (.whole rate)
  else if capacity < rate then
    refuse (.rateExceedsLink rate capacity) tier (.whole rate)
  else .ok ()

/-- What all tiers of a tree have in common. -/
structure Setting where
  capacity : LinkCapacity
  roundTrip : Number
  defaultId : Int

/-- The tier for a request, below classes whose rates are known. -/
def tierOf (setting : Setting) (rates : List (Int × Int)) (request : Request) :
    Except Failure Tier := do
  let spec := request.spec
  let rate ← rateOf setting.capacity.rate rates spec
  checkRate setting.capacity.rate rate spec.id
  return {
    id := request.id
    label := spec.label
    parent := spec.parent
    kind := spec.kind
    priority := spec.priority
    rate := rate
    curve := ← ServiceCurve.ofRate (.whole rate) spec.priority
    buffer := ← Buffer.size (.whole rate) setting.roundTrip
    share := spec.share
    isDefault := request.id = setting.defaultId }

/-- The tiers that were made, and the failure that ended the making, if any. -/
structure Outcome where
  tiers : List Tier
  failure : Option Failure

def makeTiers (setting : Setting) (rates : List (Int × Int)) : List Request → Outcome
  | [] => { tiers := [], failure := none }
  | request :: rest =>
      match tierOf setting rates request with
      | .error failure => { tiers := [], failure := some failure }
      | .ok tier =>
          let others := makeTiers setting ((tier.id, tier.rate) :: rates) rest
          { others with tiers := tier :: others.tiers }

/-! ## Class trees -/

/-- Requests in layers, and the warnings that are known before rates are. -/
structure Prepared where
  setting : Setting
  requests : List Request
  warnings : List AllocationWarning

/-- Everything up to the rates. -/
def prepare (roundTrip : Number) (capacity : LinkCapacity) (specs : List TierSpec)
    (default : TierSpec) : Except Failure Prepared := do
  let requests ← checkIds [] (specs ++ [default])
  let others := requests.take specs.length
  match requests.getLast? with
  | none => .error .key
  | some last =>
      let declared := if default.share.isSome then requests else others
      declared.forM checkRequest
      checkTotals (← shareTotals declared)
      let last ←
        if default.share.isSome then pure last
        else do
          let claimed := totalUnder? default.parent (← shareTotals others)
          pure { last with spec := { default with share := some (remainder claimed) } }
      let complete := others ++ [last]
      let warnings := idleWarnings (← shareTotals complete)
      let layered ← inLayers (complete.map (·.id)) [rootId] complete
      return {
        setting := { capacity := capacity, roundTrip := roundTrip, defaultId := last.id }
        requests := layered
        warnings := warnings }

/-- The sum of the rates directly below the root. -/
def nominalRate (tiers : List Tier) : Int :=
  ((tiers.filter (·.isChildOf rootId)).map (·.rate)).foldr (· + ·) 0

def nominalWarnings (capacity : Int) (tiers : List Tier) : List AllocationWarning :=
  if capacity < nominalRate tiers then [.oversubscribed (nominalRate tiers) capacity] else []

def outcome (prepared : Prepared) : Outcome :=
  makeTiers prepared.setting [(rootId, prepared.setting.capacity.rate)] prepared.requests

def treeOf (prepared : Prepared) (tiers : List Tier) : ClassTree :=
  let capacity := prepared.setting.capacity
  { capacity := capacity, tiers := tiers,
    warnings := prepared.warnings ++ nominalWarnings capacity.rate tiers }

def tierRecord (tier : Tier) : LogRecord :=
  .debug s!"Tier {tier.handle} ({tier.label}): {tier.rate}kbit {tier.priority.name}"

end Allocation

structure TreeRequest where
  capacity : LinkCapacity
  reserved : List TierSpec
  tiers : List TierSpec
  default : Option TierSpec
deriving Repr

namespace TreeRequest

open Allocation

def prepare (request : TreeRequest) (roundTrip : Number) : Except Failure Prepared :=
  Allocation.prepare roundTrip request.capacity (request.reserved ++ request.tiers)
    (request.default.getD (.standard none))

/-- The class tree for a request, with buffers for a round trip in milliseconds. -/
def compile (request : TreeRequest) (roundTrip : Number) : Except Failure ClassTree := do
  let prepared ← request.prepare roundTrip
  let made := outcome prepared
  match made.failure with
  | some failure => .error failure
  | none => .ok (treeOf prepared made.tiers)

/-- What is logged while a class tree is made: each tier once it is known, and the
warnings at the end. -/
def log (request : TreeRequest) (roundTrip : Number) : List LogRecord :=
  match request.prepare roundTrip with
  | .error _ => []
  | .ok prepared =>
      let made := outcome prepared
      made.tiers.map tierRecord ++
        match made.failure with
        | some _ => []
        | none => (treeOf prepared made.tiers).warnings.map fun warning =>
            .warning warning.message

end TreeRequest

end UplinkShaper
