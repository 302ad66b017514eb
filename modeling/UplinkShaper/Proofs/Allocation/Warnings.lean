import UplinkShaper.Proofs.Allocation.Division
import UplinkShaper.Proofs.Allocation.Sums

/-!
The warnings of a class tree. Sums of shares are kept in a table with a row for each class that
some tier shares, in the order in which these classes are first named, and for whole shares each
row holds the exact sum. So the warnings are one for each class whose shares leave some of its
rate to no one, in that order, and one more if the rates below the root are above the link.
-/

namespace UplinkShaper

namespace TierSpec

/-- The class that a tier gets a share of. -/
def sharedClass? (spec : TierSpec) : Option Int :=
  if spec.kind = .percentage then spec.parent.toInt? else none

/-- The classes that tiers share, in the order in which they are first named. -/
def sharedClasses (specs : List TierSpec) : List Int :=
  (specs.filterMap sharedClass?).eraseDups

/-- A class as the first of the tiers that share it names it. -/
def naming (specs : List TierSpec) (id : Int) : Number :=
  ((specs.find? fun spec => spec.sharedClass? = some id).map (·.parent)).getD (.whole id)

theorem mem_sharedClasses {specs : List TierSpec} {id : Int} :
    id ∈ sharedClasses specs ↔ ∃ spec ∈ specs, spec.sharedClass? = some id := by
  rw [sharedClasses, List.mem_eraseDups, List.mem_filterMap]

theorem parent_of_sharedClass? {spec : TierSpec} {id : Int}
    (shares : spec.sharedClass? = some id) :
    spec.kind = .percentage ∧ spec.parent.toInt? = some id := by
  unfold sharedClass? at shares
  split at shares
  case isTrue percentage => exact ⟨percentage, shares⟩
  case isFalse => cases shares

theorem sharedClasses_concat (done : List TierSpec) (spec : TierSpec) :
    sharedClasses (done ++ [spec]) =
      match spec.sharedClass? with
      | some id =>
          if id ∈ sharedClasses done then sharedClasses done else sharedClasses done ++ [id]
      | none => sharedClasses done := by
  unfold sharedClasses
  rw [List.filterMap_append, List.filterMap_cons, List.filterMap_nil]
  cases spec.sharedClass? with
  | none => rw [List.append_nil]
  | some id =>
      have rest : [id].removeAll (done.filterMap sharedClass?) =
          if id ∈ done.filterMap sharedClass? then [] else [id] := by
        by_cases known : id ∈ done.filterMap sharedClass?
        · rw [if_pos known, List.removeAll, List.filter_cons_of_neg (by simpa using known),
            List.filter_nil]
        · rw [if_neg known, List.removeAll, List.filter_cons_of_pos (by simpa using known),
            List.filter_nil]
      simp only [List.eraseDups_append, List.mem_eraseDups, rest]
      split
      · exact List.append_nil _
      · rfl

theorem exists_first {specs : List TierSpec} {id : Int} (member : id ∈ sharedClasses specs) :
    ∃ first, specs.find? (fun spec => spec.sharedClass? = some id) = some first := by
  rcases mem_sharedClasses.mp member with ⟨spec, isSpec, shares⟩
  exact Option.isSome_iff_exists.mp
    (List.find?_isSome.mpr ⟨spec, isSpec, by simpa using shares⟩)

theorem toInt?_naming {specs : List TierSpec} {id : Int} (member : id ∈ sharedClasses specs) :
    (naming specs id).toInt? = some id := by
  rcases exists_first member with ⟨first, found⟩
  have shares : first.sharedClass? = some id := by simpa using List.find?_some found
  rw [naming, found, Option.map_some, Option.getD_some]
  exact (parent_of_sharedClass? shares).2

/-- Later tiers do not change the name of a class. -/
theorem naming_concat_of_mem {done : List TierSpec} {id : Int}
    (member : id ∈ sharedClasses done) (spec : TierSpec) :
    naming (done ++ [spec]) id = naming done id := by
  rcases exists_first member with ⟨first, found⟩
  rw [naming, naming, List.find?_append, found, Option.some_or]

theorem naming_concat_of_not_mem {done : List TierSpec} {spec : TierSpec} {id : Int}
    (new : id ∉ sharedClasses done) (shares : spec.sharedClass? = some id) :
    naming (done ++ [spec]) id = spec.parent := by
  have none : done.find? (fun spec => spec.sharedClass? = some id) = none := by
    rw [List.find?_eq_none]
    intro other isOther
    rw [decide_eq_true_eq]
    exact fun sharesToo => new (mem_sharedClasses.mpr ⟨other, isOther, sharesToo⟩)
  rw [naming, List.find?_append, none, Option.none_or, List.find?_singleton, shares]
  simp

end TierSpec

namespace Allocation

open TierSpec

/-! ## Rows -/

section Rows

variable {totals : List (Number × Double)} {parent : Number} {share : Double} {place : Int}

theorem parents_addShare_of_known (isParent : parent.toInt? = some place)
    (known : ∃ row ∈ totals, row.1.toInt? = some place) :
    (addShare parent share totals).map (·.1) = totals.map (·.1) := by
  rcases parents_addShare parent share totals with kept | ⟨absent, _⟩
  · exact kept
  · rcases known with ⟨row, member, isRow⟩
    have equal := (Number.eq_iff_of_toInt? isRow isParent).mpr rfl
    rw [absent row member] at equal
    cases equal

theorem parents_addShare_of_new (whole : ∀ row ∈ totals, ∃ id : Int, row.1.toInt? = some id)
    (isParent : parent.toInt? = some place)
    (new : ∀ row ∈ totals, row.1.toInt? ≠ some place) :
    (addShare parent share totals).map (·.1) = totals.map (·.1) ++ [parent] := by
  rcases parents_addShare parent share totals with kept | ⟨_, added⟩
  · -- The share is in the table afterwards, so one of the old rows would be its class's.
    have found := @totalUnder_addShare parent parent share totals place place isParent isParent
      whole
    rw [if_pos rfl] at found
    rcases Option.map_eq_some_iff.mp found with ⟨row, isRow, _⟩
    have member : row.1 ∈ totals.map (·.1) :=
      kept ▸ List.mem_map_of_mem (List.mem_of_find?_eq_some isRow)
    rcases List.mem_map.mp member with ⟨old, isOld, same⟩
    rcases whole old isOld with ⟨id, isId⟩
    have equal : row.1.eq parent = true := by simpa using List.find?_some isRow
    rw [← same, Number.eq_iff_of_toInt? isId isParent] at equal
    exact absurd (equal ▸ isId) (new old isOld)
  · exact added

end Rows

/-- The table of sums has a row for each class that is shared, in the order in which these are
first named. -/
theorem parents_shareTotals {requests : List Request} {totals : List (Number × Double)}
    (each : ∀ request ∈ requests, IsClaim request) (summed : shareTotals requests = .ok totals) :
    totals.map (·.1) =
      (sharedClasses (requests.map (·.spec))).map (naming (requests.map (·.spec))) := by
  induction requests using List.reverseRecOn generalizing totals with
  | nil =>
      cases summed
      rfl
  | append_singleton done request induction =>
      have eachDone : ∀ other ∈ done, IsClaim other :=
        fun other member => each other (List.mem_append_left _ member)
      have claim : IsClaim request := each request (by simp)
      rw [shareTotals, List.foldlM_append] at summed
      rcases Result.bind_eq_ok.mp summed with ⟨before, summedDone, rest⟩
      have rows := induction eachDone summedDone
      have kept : (sharedClasses (done.map (·.spec))).map
            (naming (done.map (·.spec) ++ [request.spec])) = before.map (·.1) := by
        rw [rows]
        exact List.map_congr_left fun id member => naming_concat_of_mem member request.spec
      rw [List.foldlM_cons] at rest
      rw [List.map_append, List.map_singleton, sharedClasses_concat]
      cases kind : request.spec.kind with
      | reserved =>
          have sharesNone : request.spec.sharedClass? = none := by simp [sharedClass?, kind]
          simp only [kind, Result.ok_bind, List.foldlM_nil] at rest
          cases rest
          simp only [sharesNone, kept]
      | percentage =>
          rcases claim.parent with ⟨place, isParent⟩
          have shares : request.spec.sharedClass? = some place := by
            rw [sharedClass?, if_pos kind, isParent]
          simp only [kind, List.foldlM_nil, bind_pure] at rest
          rcases Result.bind_eq_ok.mp rest with ⟨double, _, equal⟩
          cases equal
          have known_iff : (∃ row ∈ before, row.1.toInt? = some place) ↔
              place ∈ sharedClasses (done.map (·.spec)) := by
            have among : (∃ row ∈ before, row.1.toInt? = some place) ↔
                some place ∈ (before.map (·.1)).map Number.toInt? := by
              simp
            have classes : ((sharedClasses (done.map (·.spec))).map
                (naming (done.map (·.spec)))).map Number.toInt? =
                  (sharedClasses (done.map (·.spec))).map some := by
              rw [List.map_map]
              exact List.map_congr_left fun id member => toInt?_naming member
            rw [among, rows, classes]
            simp
          simp only [shares]
          split
          case isTrue known =>
            rw [kept, parents_addShare_of_known isParent (known_iff.mpr known)]
          case isFalse new =>
            rw [List.map_append, kept, List.map_singleton, naming_concat_of_not_mem new shares,
              parents_addShare_of_new (whole_shareTotals eachDone summedDone) isParent]
            exact fun row member isRow => new (known_iff.mp ⟨row, member, isRow⟩)

/-! ## Whole shares -/

/-- A request whose share is a whole percentage, as a whole number or a double. -/
structure IsWholePart (request : Request) : Prop where
  parent : ∃ id : Int, request.spec.parent.toInt? = some id
  share : request.spec.kind = .percentage → ∃ number share, request.spec.share = some number ∧
    StandsFor number share ∧ 0 ≤ share ∧ share ≤ 100

theorem IsWholePart.isClaim {request : Request} (isPart : IsWholePart request) :
    IsClaim request := by
  refine ⟨isPart.parent, fun percentage => ?_⟩
  rcases isPart.share percentage with ⟨number, _, given, _⟩
  rw [given]
  rfl

theorem toDouble_of_standsFor {number : Number} {share : Int} (stands : StandsFor number share)
    (nonneg : 0 ≤ share) (atMost : share ≤ 100) : number.toDouble = .ok (.finite share) := by
  rcases stands with rfl | rfl
  · exact Double.ofInt_eq_ok (by rw [abs_lt]; omega)
  · rfl

/-- What a request claims of a class is a whole percentage, or nothing. -/
theorem IsWholePart.claimUnder? {request : Request} (isPart : IsWholePart request) (id : Int) :
    (∃ share : Int, 0 ≤ share ∧ share ≤ 100 ∧ claimOf id request = share ∧
        request.spec.claimUnder? id = some (.finite share)) ∨
      claimOf id request = 0 ∧ request.spec.claimUnder? id = none := by
  unfold claimOf TierSpec.claimUnder?
  split
  case isTrue below =>
    rcases isPart.share below.1 with ⟨number, share, given, stands, nonneg, atMost⟩
    refine .inl ⟨share, nonneg, atMost, ?_, ?_⟩
    · rw [given, Option.bind_some, stands.toInt?, Option.getD_some]
    · rw [given, Option.bind_some, toDouble_of_standsFor stands nonneg atMost]
      rfl
  case isFalse => exact .inr ⟨rfl, rfl⟩

theorem sum_claimsOf {requests : List Request} (each : ∀ request ∈ requests, IsWholePart request)
    (id : Int) :
    (∀ claim ∈ claimsOf id requests, claim.IsFine) ∧
      ((claimsOf id requests).map fun claim => claim.toRat?.getD 0).sum = claims id requests := by
  induction requests with
  | nil => simp [claimsOf, claims]
  | cons request rest induction =>
      rcases List.forall_mem_cons.mp each with ⟨here, later⟩
      rcases induction later with ⟨fine, sum⟩
      have total : claims id (request :: rest) = claimOf id request + claims id rest := rfl
      have found : claimsOf id (request :: rest) =
          (request.spec.claimUnder? id).toList ++ claimsOf id rest := by
        simp only [claimsOf, List.map_cons, List.filterMap_cons]
        cases request.spec.claimUnder? id <;> rfl
      rw [found, total]
      rcases here.claimUnder? id with ⟨share, nonneg, atMost, isClaim, claims⟩ | ⟨none, claims⟩
      · rw [claims, isClaim]
        refine ⟨List.forall_mem_cons.mpr ⟨⟨share * 2 ^ 32, by omega, by omega, ?_⟩, fine⟩, ?_⟩
        · rw [Double.toRat?, Int.cast_mul]
          norm_num
        · simpa [Double.toRat?] using sum
      · rw [claims, none]
        exact ⟨fine, by simpa using sum⟩

/-- Whole shares of a class add up to their exact sum. -/
theorem foldl_claimsOf {requests : List Request}
    (each : ∀ request ∈ requests, IsWholePart request) (few : requests.length ≤ 10000) (id : Int) :
    (claimsOf id requests).foldl Double.add (.finite 0) = .finite (claims id requests) := by
  rcases sum_claimsOf each id with ⟨fine, sum⟩
  have most : (claimsOf id requests).length ≤ (requests.map (·.spec)).length :=
    List.length_filterMap_le ..
  rw [List.length_map] at most
  have added := @Double.foldl_add_fine (claimsOf id requests) 0 (le_refl _) (by omega) fine
  simpa [sum] using added

/-- The table of whole shares: each class that is shared with its exact sum. -/
theorem shareTotals_eq {requests : List Request} {totals : List (Number × Double)}
    (each : ∀ request ∈ requests, IsWholePart request) (few : requests.length ≤ 10000)
    (summed : shareTotals requests = .ok totals) :
    totals = (sharedClasses (requests.map (·.spec))).map fun id =>
      (naming (requests.map (·.spec)) id, .finite (claims id requests)) := by
  have areClaims : ∀ request ∈ requests, IsClaim request :=
    fun request member => (each request member).isClaim
  have whole := whole_shareTotals areClaims summed
  let rowOf (parent : Number) : Number × Double :=
    (parent, .finite (claims (parent.toInt?.getD 0) requests))
  have rows : totals = (totals.map (·.1)).map rowOf := by
    rw [List.map_map, List.map_congr_left, List.map_id]
    intro row member
    rcases whole row member with ⟨id, isRow⟩
    have found := totalUnder_of_mem (distinct_shareTotals areClaims summed) whole member
    rw [totalUnder_shareTotals areClaims summed isRow, totalOf, foldl_claimsOf each few] at found
    split at found
    · cases found
    · simp only [rowOf, Function.comp_apply, isRow, Option.getD_some, Option.some.inj found]
      rfl
  rw [rows, parents_shareTotals areClaims summed, List.map_map]
  refine List.map_congr_left fun id member => ?_
  simp only [rowOf, Function.comp_apply, toInt?_naming member, Option.getD_some]

theorem hundred_isAbove_iff {amount : Int} :
    isAbove hundred (.finite amount) = true ↔ amount < 100 := by
  simp only [isAbove, hundred, Double.compare?, Double.toRat?, beq_iff_eq, Option.some.injEq]
  constructor
  · intro above
    by_contra notBelow
    have least : (100 : Rat) ≤ amount := by exact_mod_cast not_lt.mp notBelow
    split at above
    · cases above
    · split at above
      · cases above
      case isFalse notLess notEqual => exact notLess (lt_of_le_of_ne least notEqual)
  · intro below
    have belowRat : (amount : Rat) < 100 := by exact_mod_cast below
    rw [if_neg belowRat.not_gt, if_neg belowRat.ne']

theorem idleWarnings_map (classes : List Int) (name : Int → Number) (total : Int → Int) :
    idleWarnings (classes.map fun id => (name id, .finite (total id))) =
      (classes.filter fun id => total id < 100).map fun id =>
        .idle (name id) (.finite (total id)) := by
  rw [idleWarnings, List.filter_map, List.map_map]
  congr 2
  funext id
  exact Bool.eq_iff_iff.mpr (hundred_isAbove_iff.trans decide_eq_true_iff.symm)

theorem Settles.isWholePart {prepared : Prepared} {others : List Request} {last final : Request}
    (settles : Settles prepared others last final) (whole : HaveWholeShares (others ++ [last])) :
    ∀ request ∈ others ++ [final], IsWholePart request := by
  intro request member
  refine ⟨?_, settles.exists_standsFor whole member⟩
  rcases List.mem_append.mp member with other | isFinal
  · exact whole.parents request (List.mem_append_left _ other)
  · rw [List.mem_singleton.mp isFinal, (settled_spec settles.finished).2]
    exact whole.parents last (by simp)

/-- The share that the default tier takes changes nothing about which classes are shared. -/
theorem sharedClasses_settled {specs : List TierSpec} {last final : TierSpec}
    (same : final = { last with share := final.share }) :
    sharedClasses (specs ++ [final]) = sharedClasses (specs ++ [last]) ∧
      naming (specs ++ [final]) = naming (specs ++ [last]) := by
  have shares : final.sharedClass? = last.sharedClass? := by rw [same]; rfl
  have parent : final.parent = last.parent := by rw [same]
  constructor
  · rw [sharedClasses_concat, sharedClasses_concat, shares]
  · funext id
    simp only [naming, List.find?_append, List.find?_singleton, shares]
    cases specs.find? fun spec => spec.sharedClass? = some id with
    | some first => rfl
    | none =>
        simp only [Option.none_or]
        split
        · rw [Option.map_some, Option.map_some, parent]
        · rfl

end Allocation

namespace ClassTree

/-- The rates right below the root, added up. -/
def rateBelowRoot (tree : ClassTree) : Int :=
  ((tree.children rootId).map (·.rate)).sum

/-- The classes whose shares leave some of their rate to no one, in the order in which a request
names them. -/
def idleClasses (tree : ClassTree) (request : TreeRequest) : List Int :=
  (TierSpec.sharedClasses request.specs).filter fun id => tree.sharedPercent id < 100

/-- A tree whose warnings are those that its shares and rates call for, and no others. -/
structure WarnsRightly (tree : ClassTree) (request : TreeRequest) : Prop where
  percents : ∀ tier ∈ tree.tiers, tier.kind = .percentage →
    ∃ share ∈ tier.share, share.toInt? = some tier.percent
  warnings : tree.warnings =
    ((tree.idleClasses request).map fun id =>
      .idle (TierSpec.naming request.specs id) (.finite (tree.sharedPercent id))) ++
    if request.capacity.rate < tree.rateBelowRoot then
      [.oversubscribed tree.rateBelowRoot request.capacity.rate]
    else []
  remainder : request.defaultSpec.kind = .percentage → request.defaultSpec.share = none →
    ∀ parent total, .idle parent total ∈ tree.warnings →
      parent.eq request.defaultSpec.parent = false
  silent : tree.warnings = [] → tree.rateBelowRoot ≤ request.capacity.rate

end ClassTree

namespace TreeRequest

open Allocation

section Made

variable {request : TreeRequest} {prepared : Prepared} {others : List Request}
  {last final : Request} (whole : HaveWholeShares (others ++ [last]))
  (settles : Settles prepared others last final) (complete : (outcome prepared).failure = none)

include whole settles complete

/-- A default tier that takes what is left of its class leaves nothing of it idle. -/
theorem not_mem_idleClasses (percentage : last.spec.kind = .percentage)
    (isOpen : last.spec.share = none) {id : Int} (isParent : last.spec.parent.toInt? = some id) :
    id ∉ (treeOf prepared (outcome prepared).tiers).idleClasses request := by
  intro isIdle
  have below := of_decide_eq_true (List.mem_filter.mp isIdle).2
  rw [sharedPercent_eq_claims settles complete,
    settles.claims_eq_hundred whole isOpen percentage isParent] at below
  omega

/-- What is known of warnings before rates are is the same as what the tree shows. -/
theorem warnings_of_settles (checked : checkIds [] request.specs = .ok (others ++ [last])) :
    prepared.warnings =
      ((treeOf prepared (outcome prepared).tiers).idleClasses request).map fun id =>
        .idle (TierSpec.naming request.specs id)
          (.finite ((treeOf prepared (outcome prepared).tiers).sharedPercent id)) := by
  have few : (others ++ [final]).length ≤ 10000 := by simpa using whole.few
  have same : others.map (·.spec) ++ [last.spec] = request.specs := by
    simpa using (checkIds_eq_ok_iff.mp checked).1
  rcases settles.warnings with ⟨totals, summed, warned⟩
  rcases @sharedClasses_settled (others.map (·.spec)) _ _ (settled_spec settles.finished).2 with
    ⟨classes, names⟩
  rw [warned, shareTotals_eq (settles.isWholePart whole) few summed, idleWarnings_map,
    List.map_append, List.map_singleton, classes, names, same]
  simp only [ClassTree.idleClasses, sharedPercent_eq_claims settles complete]

end Made

/-- The warnings of a tree that is made of whole shares are the right ones. -/
theorem warnsRightly_of_compile {request : TreeRequest} {roundTrip : Number} {tree : ClassTree}
    (whole : request.AsksWholeShares) (compiled : request.compile roundTrip = .ok tree) :
    tree.WarnsRightly request := by
  rcases compile_eq_ok_iff.mp compiled with ⟨prepared, ready, complete, rfl⟩
  rcases exists_settles_of_prepare ready with
    ⟨others, last, final, checked, _, isLast, settles, capacity, _⟩
  have wholeShares := haveWholeShares whole checked settles
  have idle := warnings_of_settles wholeShares settles complete checked
  have nominal : nominalWarnings prepared.setting.capacity.rate (outcome prepared).tiers =
      if request.capacity.rate < (treeOf prepared (outcome prepared).tiers).rateBelowRoot then
        [.oversubscribed (treeOf prepared (outcome prepared).tiers).rateBelowRoot
          request.capacity.rate]
      else [] := by
    rw [capacity]
    rfl
  constructor
  · intro tier member percentage
    rcases exists_standsFor_of_made wholeShares settles complete member percentage with
      ⟨number, given, stands, _⟩
    exact ⟨number, given, stands.toInt?⟩
  · rw [← idle, ← nominal]
    rfl
  · intro percentage isOpen parent total warned
    rcases List.mem_append.mp warned with isIdle | isNominal
    · rw [idle] at isIdle
      rcases List.mem_map.mp isIdle with ⟨id, isClass, equal⟩
      cases equal
      rw [Bool.eq_false_iff]
      intro sameClass
      have isNamed := TierSpec.toInt?_naming (List.mem_filter.mp isClass).1
      rcases wholeShares.parents last (by simp) with ⟨place, isParent⟩
      have isDefault : last.spec = request.defaultSpec := isLast
      rw [← isDefault] at percentage isOpen sameClass
      rw [Number.eq_iff_of_toInt? isNamed isParent] at sameClass
      exact not_mem_idleClasses wholeShares settles complete percentage isOpen
        (sameClass ▸ isParent) isClass
    · rw [nominal] at isNominal
      split at isNominal
      · cases List.mem_singleton.mp isNominal
      · cases isNominal
  · intro none
    have noNominal := (List.append_eq_nil_iff.mp none).2
    rw [nominal] at noNominal
    split at noNominal
    · cases noNominal
    · omega

/-- A request with a share of a share that is written first, a rest for the default tier, and
rates that add up to more than the link has. -/
def crowded : TreeRequest where
  capacity := .tenMegabits
  reserved := [{
    id := .whole 5, label := "Calls", kind := .reserved, priority := .realtimeStrict
    share := none, rate := some 9000, ratePercent := none, parent := 1 }]
  tiers := [{
    id := .whole 10, label := "Web", kind := .percentage, priority := .shared
    share := some 70, rate := none, ratePercent := none, parent := 20 }, {
    id := .whole 20, label := "House", kind := .percentage, priority := .shared
    share := some 40, rate := none, ratePercent := none, parent := 1 }]
  default := none

theorem exists_warnsRightly_crowded :
    crowded.AsksWholeShares ∧ ∃ tree, crowded.compile 50 = .ok tree ∧
      tree.warnings = [.idle 20 (.finite 70), .oversubscribed 19000 10000] ∧
        tree.WarnsRightly crowded := by
  have whole : crowded.AsksWholeShares := by
    intro spec member percentage share given
    simp only [specs, crowded, defaultSpec] at member
    simp at member
    rcases member with rfl | rfl | rfl | rfl
    · cases percentage
    · cases given
      exact ⟨70, rfl⟩
    · cases given
      exact ⟨40, rfl⟩
    · cases given
  have evaluated : ((crowded.compile 50).map (·.warnings)).toOption =
      some [.idle 20 (.finite 70), .oversubscribed 19000 10000] := by
    decide +kernel
  cases compiled : crowded.compile 50 with
  | error failure =>
      rw [compiled] at evaluated
      cases evaluated
  | ok tree =>
      rw [compiled] at evaluated
      exact ⟨whole, tree, rfl, Option.some.inj evaluated, warnsRightly_of_compile whole compiled⟩

end TreeRequest

end UplinkShaper
