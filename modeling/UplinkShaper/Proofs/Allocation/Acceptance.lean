import UplinkShaper.Proofs.Allocation.Decisions

/-!
Which requests are accepted. For requests in whole numbers the conditions can be read off
the request: its ids, what each tier asks for, the sums of shares, the chains of parents
and the rates they lead to. Anything else is refused, and for no other kind of reason.
-/

namespace UplinkShaper

/-- What a class tree is made from, in whole numbers. -/
structure WholeRequest where
  capacity : LinkCapacity
  reserved : List WholeSpec
  tiers : List WholeSpec
  default : Option WholeSpec

namespace WholeRequest

open Allocation WholeSpec

def toRequest (request : WholeRequest) : TreeRequest where
  capacity := request.capacity
  reserved := request.reserved.map (·.toSpec)
  tiers := request.tiers.map (·.toSpec)
  default := request.default.map (·.toSpec)

def defaultSpec (request : WholeRequest) : WholeSpec :=
  request.default.getD .standard

/-- The tiers besides the default one. -/
def others (request : WholeRequest) : List WholeSpec :=
  request.reserved ++ request.tiers

def specs (request : WholeRequest) : List WholeSpec :=
  request.others ++ [request.defaultSpec]

/-- A request that comes to a class tree. Only the default tier may leave its share open. -/
structure IsAcceptable (request : WholeRequest) : Prop where
  ids : ProperIds request.specs
  proper : ∀ spec ∈ request.others, spec.IsProper
  default : ∀ share ∈ request.defaultSpec.share, 0 ≤ share ∧ share ≤ 100
  shares : ∀ parent, claimed parent request.specs ≤ 100
  rooted : ∀ spec ∈ request.specs, ReachesRoot request.specs spec.parent
  rates : ∀ spec ∈ request.specs, ∃ rate,
    RateOf request.capacity.rate request.specs spec.id rate ∧ InRange request.capacity.rate rate

end WholeRequest

namespace Allocation

open WholeSpec

/-! ## Rates -/

/-- A percentage has at most as many digits as its factors together. -/
theorem natAbs_percentage_lt {left right : Int} {first second : Nat}
    (leftShort : left.natAbs < 10 ^ first) (rightShort : right.natAbs < 10 ^ second) :
    (left * right / 100).natAbs < 10 ^ (first + second) := by
  calc (left * right / 100).natAbs ≤ (left * right).natAbs := Int.natAbs_ediv_le_natAbs ..
    _ = left.natAbs * right.natAbs := Int.natAbs_mul ..
    _ < 10 ^ first * 10 ^ second := Nat.mul_lt_mul'' leftShort rightShort
    _ = 10 ^ (first + second) := (Nat.pow_add ..).symm

theorem isWritable_percentage {capacity percent : Int} (positive : 0 < capacity)
    (small : Exact capacity) (short : IsShortNumber percent) :
    (Number.whole (capacity * percent / 100)).isWritable = true := by
  have capacityShort : capacity.natAbs < 10 ^ 14 := by
    simp only [Exact] at small
    omega
  exact isWritable_of_lt (by decide) (natAbs_percentage_lt capacityShort short)

theorem rateBelow_isWritable {capacity parentRate : Int} {specs : List WholeSpec}
    {spec : WholeSpec} (small : Exact capacity) (short : spec.IsShort)
    (hasRate : HasRate specs spec) (range : InRange capacity parentRate) :
    (Number.whole (rateBelow capacity specs spec parentRate)).isWritable = true := by
  have positive : 0 < capacity := by
    simp only [InRange] at range
    omega
  simp only [rateBelow]
  cases kind : spec.kind with
  | reserved =>
      cases fixed : spec.rate with
      | some rate => exact (short.rate rate fixed).isWritable
      | none =>
          have one := hasRate.reserved kind
          cases relative : spec.ratePercent with
          | none => simp [fixed, relative] at one
          | some percent =>
              exact isWritable_percentage positive small (short.ratePercent percent relative)
  | percentage =>
      rcases hasRate.percentage kind with ⟨nonneg, atMost⟩
      have parentNonneg : 0 ≤ parentRate := by
        have := range.1
        omega
      have product : 0 ≤ parentRate * shareOf specs spec := mul_nonneg parentNonneg nonneg
      have most : parentRate * shareOf specs spec ≤ parentRate * 100 :=
        mul_le_mul_of_nonneg_left atMost (by have := range.1; omega)
      apply @isWritable_of_lt _ 14 (by decide)
      simp only [InRange] at range
      simp only [Exact] at small
      dsimp only
      omega

end Allocation

namespace WholeRequest

open Allocation WholeSpec

theorem map_toSpec (request : WholeRequest) :
    request.specs.map (·.toSpec) = request.toRequest.reserved ++ request.toRequest.tiers ++
      [request.toRequest.default.getD (.standard none)] := by
  have defaultSame : request.toRequest.default.getD (.standard none) =
      request.defaultSpec.toSpec := by
    rw [toRequest, defaultSpec]
    cases request.default with
    | none => rfl
    | some spec => rfl
  rw [defaultSame, specs, others, List.map_append, List.map_append, List.map_singleton]
  rfl

theorem prepare_toRequest {request : WholeRequest} (ids : ProperIds request.specs)
    (roundTrip : Number) :
    request.toRequest.prepare roundTrip =
      settleAll roundTrip request.capacity (request.others.map (·.request))
        request.defaultSpec.request := by
  have checked := checkIds_whole_eq_ok_iff.mpr ⟨ids, rfl⟩
  have same := map_toSpec request
  rw [same] at checked
  apply prepare_eq_settleAll
  · rw [checked, specs, List.map_append, List.map_singleton]
  · rw [List.map_map, others, List.map_append]
    rfl
  · rw [toRequest, defaultSpec]
    cases request.default with
    | none => rfl
    | some spec => rfl

/-- With short numbers, improper ids are refused. -/
theorem prepare_refusal {request : WholeRequest} (improper : ¬ ProperIds request.specs)
    (short : ∀ spec ∈ request.specs, spec.IsShort) (roundTrip : Number) :
    Result.IsRefusal (request.toRequest.prepare roundTrip) := by
  have writable : ∀ spec ∈ request.specs.map (·.toSpec), spec.id.isWritable = true := by
    intro asked member
    rcases List.mem_map.mp member with ⟨spec, isSpec, rfl⟩
    exact (short spec isSpec).id.isWritable
  have decision := @isDecision_checkIds [] _ writable
  rw [TreeRequest.prepare, Allocation.prepare, ← map_toSpec]
  refine (decision.resolve_left ?_).bind _
  rintro ⟨requests, checked⟩
  exact improper (checkIds_whole_eq_ok_iff.mp checked).1

section Placed

variable {request : WholeRequest} {prepared : Prepared} {roundTrip : Int}

theorem hasRate_of_isPlaced (percentage : request.defaultSpec.kind = .percentage)
    (placed : IsPlaced request.others request.defaultSpec) {spec : WholeSpec}
    (member : spec ∈ request.specs) : HasRate request.specs spec := by
  have declaredProper := (declaredSpecs_isProper percentage).mpr ⟨placed.proper, placed.default⟩
  constructor
  · intro reserved
    rcases List.mem_append.mp member with other | isLast
    · exact (placed.proper spec other).reserved reserved
    · rw [List.mem_singleton.mp isLast, percentage] at reserved
      cases reserved
  · exact shareOf_bounds declaredProper placed.shares percentage member

theorem computable_of_isPreparation (small : Exact prepared.setting.capacity.rate)
    (short : ∀ spec ∈ request.specs, spec.IsShort)
    (hasRate : ∀ spec ∈ request.specs, HasRate request.specs spec)
    (preparation : IsPreparation request.specs prepared) {asked : Request}
    (member : asked ∈ prepared.requests) : Computable prepared.setting request.specs asked := by
  rcases preparation.source asked member with ⟨spec, isSpec, comes⟩
  have idSame : asked.spec.id = .whole spec.id := congrArg TierSpec.id comes.others
  constructor
  · refine ⟨spec, isSpec, comes, hasRate spec isSpec, ?_⟩
    intro parentRate range
    exact rateBelow_isWritable small (short spec isSpec) (hasRate spec isSpec) range
  · rw [idSame]
    exact (short spec isSpec).id.isWritable

theorem knowsRates_root (capacity : LinkCapacity) (specs : List WholeSpec) :
    KnowsRates capacity.rate specs [rootId] [(rootId, capacity.rate)] := by
  intro id member
  rw [List.mem_singleton.mp member]
  exact ⟨capacity.rate, rfl, .root, capacity.positive, le_refl _⟩

/-- Once everything before the rates succeeded, the rates decide. -/
theorem outcome_cases (ids : ProperIds request.specs) (small : request.capacity.rate ≤ 2 ^ 46)
    (percentage : request.defaultSpec.kind = .percentage)
    (short : ∀ spec ∈ request.specs, spec.IsShort)
    (placed : IsPlaced request.others request.defaultSpec)
    (capacity : prepared.setting.capacity = request.capacity)
    (delay : prepared.setting.roundTrip = .whole roundTrip)
    (preparation : IsPreparation request.specs prepared) :
    (request.IsAcceptable ∧ (outcome prepared).failure = none) ∨
      (¬ request.IsAcceptable ∧ ∃ error, (outcome prepared).failure = some (.allocation error)) := by
  have isExact : Exact prepared.setting.capacity.rate := by
    rw [capacity]
    exact small
  have writable := InRange.isWritable isExact ⟨prepared.setting.capacity.positive, le_refl _⟩
  have computable := fun asked => @computable_of_isPreparation _ _ isExact short
    (fun spec => hasRate_of_isPlaced percentage placed) preparation asked
  have knows := knowsRates_root prepared.setting.capacity request.specs
  have made := makeTiers_outcome isExact delay writable computable preparation.first knows
  rw [capacity] at made
  simp only [outcome]
  rw [capacity]
  rcases made with ⟨complete, all⟩ | ⟨failed, asked, member, rate, isRate, out⟩
  · left
    refine ⟨⟨ids, placed.proper, placed.default, placed.shares, placed.rooted, ?_⟩, complete⟩
    intro spec member
    rcases preparation.target spec member with ⟨asked, isAsked, comes⟩
    exact comes.id ▸ all asked isAsked
  · right
    refine ⟨fun acceptable => out ?_, failed⟩
    rcases preparation.source asked member with ⟨spec, isSpec, comes⟩
    rcases acceptable.rates spec isSpec with ⟨other, isOther, range⟩
    rw [← comes.id] at isOther
    rw [isRate.unique ids isOther]
    exact range

end Placed

/-- With short numbers, a request comes to a tree if it is acceptable, and is refused for
a reason if not. -/
theorem compile_cases {request : WholeRequest} {roundTrip : Int}
    (small : request.capacity.rate ≤ 2 ^ 46)
    (percentage : request.defaultSpec.kind = .percentage)
    (short : ∀ spec ∈ request.specs, spec.IsShort) :
    (request.IsAcceptable ∧
        ∃ tree, request.toRequest.compile (.whole roundTrip) = .ok tree) ∨
      (¬ request.IsAcceptable ∧
        Result.IsRefusal (request.toRequest.compile (.whole roundTrip))) := by
  by_cases ids : ProperIds request.specs
  case neg =>
    exact .inr ⟨fun acceptable => ids acceptable.ids,
      (prepare_refusal ids short (.whole roundTrip)).bind _⟩
  rw [TreeRequest.compile, prepare_toRequest ids]
  rcases @settleAll_cases (.whole roundTrip) request.capacity request.others request.defaultSpec
    percentage ids.length_le short with ⟨placed, prepared, ready, capacity, delay, preparation⟩ |
      ⟨notPlaced, refused⟩
  case inr =>
    refine .inr ⟨fun acceptable => notPlaced ?_, refused.bind _⟩
    exact ⟨acceptable.proper, acceptable.default, acceptable.shares, acceptable.rooted⟩
  rw [ready, Result.ok_bind]
  dsimp only
  rcases outcome_cases ids small percentage short placed capacity delay preparation with
    ⟨acceptable, complete⟩ | ⟨notAcceptable, error, failed⟩
  · rw [complete]
    exact .inl ⟨acceptable, _, rfl⟩
  · rw [failed]
    exact .inr ⟨notAcceptable, error, rfl⟩

/-- A request with short numbers comes to a class tree exactly if it is acceptable. In any
other case it is refused as a request for a class tree, with no other kind of failure. -/
theorem compile_isOk_iff {request : WholeRequest} {roundTrip : Int}
    (small : request.capacity.rate ≤ 2 ^ 46)
    (percentage : ∀ spec ∈ request.default, spec.kind = .percentage)
    (short : ∀ spec ∈ request.reserved ++ request.tiers ++ request.default.toList, spec.IsShort) :
    ((∃ tree, request.toRequest.compile (.whole roundTrip) = .ok tree) ↔ request.IsAcceptable) ∧
      (¬ request.IsAcceptable → ∃ error,
        request.toRequest.compile (.whole roundTrip) = .error (.allocation error)) := by
  have defaultKind : request.defaultSpec.kind = .percentage := by
    simp only [defaultSpec]
    cases given : request.default with
    | none => rfl
    | some spec => exact percentage spec given
  have allShort : ∀ spec ∈ request.specs, spec.IsShort := by
    intro spec member
    rcases List.mem_append.mp member with other | isLast
    · exact short spec (List.mem_append_left _ other)
    · rw [List.mem_singleton.mp isLast, defaultSpec]
      cases given : request.default with
      | none => exact standard_isShort
      | some default => exact short default (by simp [given])
  rcases @compile_cases request roundTrip small defaultKind allShort
    with ⟨acceptable, tree, compiled⟩ | ⟨notAcceptable, refused⟩
  · exact ⟨⟨fun _ => acceptable, fun _ => ⟨tree, compiled⟩⟩, fun not => absurd acceptable not⟩
  · refine ⟨⟨fun ⟨tree, compiled⟩ => ?_, fun acceptable => absurd acceptable notAcceptable⟩,
      fun _ => refused⟩
    exact absurd compiled (refused.not_ok tree)

/-- A tier that is named before its parent, and a default tier that takes what is left. -/
def nested : WholeRequest where
  capacity := .tenMegabits
  reserved := [{
    id := 2, label := "Voice", kind := .reserved, priority := .realtimeStrict
    share := none, rate := some 1000, ratePercent := none, parent := 10 }]
  tiers := [{
    id := 10, label := "Web", kind := .percentage, priority := .shared
    share := some 60, rate := none, ratePercent := none, parent := 1 }]
  default := none

theorem nested_isAcceptable :
    nested.capacity.rate ≤ 2 ^ 46 ∧ (∀ spec ∈ nested.default, spec.kind = .percentage) ∧
      (∀ spec ∈ nested.reserved ++ nested.tiers ++ nested.default.toList, spec.IsShort) ∧
        nested.IsAcceptable := by
  have small : nested.capacity.rate ≤ 2 ^ 46 := by decide
  have percentage : ∀ spec ∈ nested.default, spec.kind = .percentage := by simp [nested]
  have short : ∀ spec ∈ nested.reserved ++ nested.tiers ++ nested.default.toList,
      spec.IsShort := by
    intro spec member
    simp only [nested, Option.toList_none, List.append_nil, List.cons_append, List.nil_append,
      List.mem_cons, List.not_mem_nil, or_false] at member
    rcases member with rfl | rfl
    · refine ⟨isShortNumber_of_lt (by decide), isShortNumber_of_lt (by decide), by simp, ?_,
        by simp⟩
      simpa using isShortNumber_of_lt (by decide)
    · refine ⟨isShortNumber_of_lt (by decide), isShortNumber_of_lt (by decide), ?_, by simp,
        by simp⟩
      simpa using isShortNumber_of_lt (by decide)
  refine ⟨small, percentage, short, ?_⟩
  have isMade : (nested.toRequest.compile 50).isOk = true := by decide +kernel
  cases compiled : nested.toRequest.compile 50 with
  | error failure =>
      rw [compiled] at isMade
      cases isMade
  | ok tree => exact (compile_isOk_iff small percentage short).1.mp ⟨tree, compiled⟩

end WholeRequest

end UplinkShaper
