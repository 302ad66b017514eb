import UplinkShaper.Proofs.Backend.Netfilter
import UplinkShaper.Proofs.Backend.Orders
import UplinkShaper.Proofs.Backend.Plans
import UplinkShaper.Proofs.Config.Ports
import UplinkShaper.Proofs.Session.Protocol

/-!
The handles that commands name. A class has a handle of its own and hangs below a parent, as
filters and queues do. Handles are scoped: a command may name the root queue and the classes
that commands before it have added, until the root queue is taken away.
-/

namespace UplinkShaper

namespace Handles

/-! ## What commands name -/

/-- What the commands of the shaper are about. -/
def objects : List String := ["qdisc", "class", "filter"]

/-- What follows the device in a command of the shaper. -/
def detail? : List String → Option (List String)
  | _ :: object :: _ :: "dev" :: _ :: detail => if object ∈ objects then some detail else none
  | _ => none

/-- The words that stand after a key. -/
def valuesOf (key : String) : List String → List String
  | word :: value :: rest =>
      if word = key then value :: valuesOf key (value :: rest) else valuesOf key (value :: rest)
  | _ => []

/-- The handle of a class whose minor number is written in decimal digits. -/
def IsDecimal (handle : String) : Prop :=
  ∃ digits, handle = rootHandle ++ String.ofList digits ∧ digits ≠ [] ∧
    ∀ digit ∈ digits, digit.isDigit = true

/-- A handle that something can be put below: of the root queue or of a known class. -/
def IsPlace (known : List String) (handle : String) : Prop :=
  handle = rootHandle ∨ IsDecimal handle ∧ handle ∈ known

/-- A command that names classes in decimal digits, below places that exist. -/
structure IsNamed (known words : List String) : Prop where
  classes : ∀ detail ∈ detail? words, ∀ handle ∈ valuesOf "classid" detail, IsDecimal handle
  parents : ∀ detail ∈ detail? words, ∀ handle ∈ valuesOf "parent" detail, IsPlace known handle

/-- The classes that are known after a command. -/
def after (known : List String) : List String → List String
  | [_, "qdisc", "del", "dev", _, "root"] => []
  | _ :: "class" :: "add" :: "dev" :: _ :: detail => known ++ valuesOf "classid" detail
  | _ => known

/-- Commands that name what those before them have added. -/
def AreScoped (known : List String) : List (List String) → Prop
  | [] => True
  | words :: rest => IsNamed known words ∧ AreScoped (after known words) rest

/-! ## Words after keys -/

variable {known next later words detail : List String} {key word place handle : String}

/-- The keys that handles stand after. -/
def keys : List String := ["classid", "parent"]

/-- Words that are values and nothing else. -/
def AreValues (words : List String) : Prop :=
  ∀ word ∈ words, word ∉ keys

instance (words : List String) : Decidable (AreValues words) :=
  inferInstanceAs (Decidable (∀ word ∈ words, word ∉ keys))

theorem valuesOf_cons_of_ne (differs : word ≠ key) (rest : List String) :
    valuesOf key (word :: rest) = valuesOf key rest := by
  cases rest with
  | nil => rfl
  | cons value rest => rw [valuesOf, if_neg differs]

theorem valuesOf_append (isKey : key ∈ keys) (areValues : AreValues words) (rest : List String) :
    valuesOf key (words ++ rest) = valuesOf key rest := by
  induction words with
  | nil => rfl
  | cons word words induction =>
      rcases List.forall_mem_cons.mp areValues with ⟨isValue, areValuesLater⟩
      have differs : word ≠ key := by
        rintro rfl
        exact isValue isKey
      rw [List.cons_append, valuesOf_cons_of_ne differs, induction areValuesLater]

theorem valuesOf_of_areValues (isKey : key ∈ keys) (areValues : AreValues words) :
    valuesOf key words = [] := by
  have values := valuesOf_append isKey areValues []
  rwa [List.append_nil] at values

/-- The only value after a key. -/
theorem valuesOf_key (isKey : key ∈ keys) (isValue : word ∉ keys) (areValues : AreValues words) :
    valuesOf key (key :: word :: words) = [word] := by
  have areAll : AreValues (word :: words) := List.forall_mem_cons.mpr ⟨isValue, areValues⟩
  rw [valuesOf, if_pos rfl, valuesOf_of_areValues isKey areAll]

/-- What stands below a place, and has no handle of a class. -/
theorem valuesOf_below (isPlace : place ∉ keys) (areValues : AreValues words) :
    valuesOf "parent" ("parent" :: place :: words) = [place] ∧
      valuesOf "classid" ("parent" :: place :: words) = [] := by
  refine ⟨valuesOf_key (by decide) isPlace areValues, ?_⟩
  have areAll : AreValues (place :: words) := List.forall_mem_cons.mpr ⟨isPlace, areValues⟩
  rw [valuesOf_cons_of_ne (by decide), valuesOf_of_areValues (by decide) areAll]

/-- What stands below a place, and has the handle of a class. -/
theorem valuesOf_named (isPlace : place ∉ keys) (areValues : AreValues words)
    (isHandle : handle ∉ keys) (areValuesLater : AreValues later) :
    valuesOf "parent" ("parent" :: place :: (words ++ "classid" :: handle :: later)) = [place] ∧
      valuesOf "classid" ("parent" :: place :: (words ++ "classid" :: handle :: later)) =
        [handle] := by
  have areFirst : AreValues (place :: words) := List.forall_mem_cons.mpr ⟨isPlace, areValues⟩
  have areLast : AreValues (handle :: later) := List.forall_mem_cons.mpr ⟨isHandle, areValuesLater⟩
  rw [← List.cons_append]
  constructor
  · rw [List.cons_append, valuesOf, if_pos rfl, ← List.cons_append,
      valuesOf_append (by decide) areFirst, valuesOf_cons_of_ne (by decide),
      valuesOf_of_areValues (by decide) areLast]
  · rw [valuesOf_cons_of_ne (by decide), valuesOf_append (by decide) areFirst,
      valuesOf_key (by decide) isHandle areValuesLater]

/-! ## Words that are no keys -/

theorem not_mem_keys_of_not_mem {letter : Char} (absent : letter ∉ word.toList)
    (common : ∀ key ∈ keys, letter ∈ key.toList) : word ∉ keys :=
  fun isKey => absent (common word isKey)

theorem not_mem_keys_of_suffix {ending : List Char} (ends : ending <:+ word.toList)
    (differs : ∀ key ∈ keys, ¬ ending <:+ key.toList) : word ∉ keys :=
  fun isKey => differs word isKey ends

theorem toString_not_mem_keys (value : Int) : toString value ∉ keys := by
  apply @not_mem_keys_of_not_mem _ 'a'
  · cases value with
    | ofNat count => exact Netfilter.not_mem_toString (by decide) (Int.natCast_nonneg count)
    | negSucc count =>
        have absent : 'a' ∉ (toString ((count + 1 : Nat) : Int)).toList :=
          Netfilter.not_mem_toString (by decide) (Int.natCast_nonneg _)
        have shown : toString (Int.negSucc count) = "-" ++ toString ((count + 1 : Nat) : Int) := rfl
        rw [shown, String.toList_append]
        simpa using absent
  · decide

/-! ## Decimal handles -/

theorem toList_classHandle (minor : String) :
    (classHandle minor).toList = '1' :: ':' :: minor.toList := by
  rw [classHandle, String.toList_append]
  rfl

theorem classHandle_not_mem_keys (minor : String) : classHandle minor ∉ keys := by
  intro isKey
  have first : ∀ key ∈ keys, key.toList.head? ≠ some '1' := by decide
  apply first _ isKey
  rw [toList_classHandle]
  rfl

theorem isDecimal_classHandle {id : Int} (nonneg : 0 ≤ id) :
    IsDecimal (classHandle (toString id)) := by
  rcases Int.eq_ofNat_of_zero_le nonneg with ⟨count, rfl⟩
  refine ⟨Nat.toDigits 10 count, ?_, Nat.toDigits_ne_nil, Text.isDigit_of_mem_toDigits⟩
  rw [← Text.toList_toString_natCast, String.ofList_toList]
  rfl

/-- The text of a double is never that of a decimal handle. -/
theorem not_isPlace_of_real (known : List String) (double : Double) :
    ¬ IsPlace known (classHandle (Number.real double).text) := by
  have shown := toList_classHandle (Number.real double).text
  rcases Double.exists_mark double with ⟨mark, isMark, member⟩
  rintro (isRoot | ⟨⟨digits, equal, _, areDigits⟩, _⟩)
  · rw [isRoot] at shown
    have isEmpty : (Number.real double).text.toList = [] :=
      (List.cons.inj (List.cons.inj shown).2).2.symm
    rw [show (Number.real double).text = double.shortest from rfl] at isEmpty
    rw [isEmpty] at member
    cases member
  · rw [equal, String.toList_append, String.toList_ofList] at shown
    have same : digits = double.shortest.toList := (List.cons.inj (List.cons.inj shown).2).2
    have digit := areDigits mark (same ▸ member)
    have notDigits : Double.marks.all (fun mark => !mark.isDigit) = true := by decide
    have notDigit := List.all_eq_true.mp notDigits mark isMark
    rw [digit] at notDigit
    cases notDigit

/-! ## Values of commands -/

theorem rate_not_mem_keys {value : Number} {shown : String}
    (written : Words.rate value = .ok shown) : shown ∉ keys := by
  rcases Result.bind_eq_ok.mp written with ⟨double, _, equal⟩
  rw [← Result.pure_eq_ok.mp equal]
  apply @not_mem_keys_of_suffix _ "kbit".toList
  · rw [String.toList_append]
    exact List.suffix_append ..
  · decide

theorem areValues_sharing {value : Number} {shown : String}
    (written : Words.rate value = .ok shown) : AreValues ["ls", "rate", shown] := by
  simp only [AreValues, List.forall_mem_cons]
  exact ⟨by decide, by decide, rate_not_mem_keys written, List.forall_mem_nil _⟩

theorem areValues_curve {curve : ServiceCurve} (written : Words.curve curve = .ok words) :
    AreValues words := by
  unfold Words.curve at written
  dsimp only at written
  cases given : curve.burst with
  | none =>
      rw [given] at written
      rcases Result.bind_eq_ok.mp written with ⟨_, ⟨⟩, rest⟩
      rcases Result.bind_eq_ok.mp rest with ⟨sustained, isSustained, equal⟩
      cases equal
      exact areValues_sharing isSustained
  | some burst =>
      rw [given] at written
      rcases Result.bind_eq_ok.mp written with ⟨reached, isReached, rest⟩
      rcases Result.bind_eq_ok.mp rest with ⟨kept, isKept, rest⟩
      rcases Result.bind_eq_ok.mp rest with ⟨_, ⟨⟩, rest⟩
      rcases Result.bind_eq_ok.mp rest with ⟨sustained, isSustained, equal⟩
      cases equal
      have duration : (Value.ofOption .whole burst.duration).literal ++ "ms" ∉ keys := by
        apply @not_mem_keys_of_suffix _ "ms".toList
        · rw [String.toList_append]
          exact List.suffix_append ..
        · decide
      refine List.forall_mem_append.mpr ⟨?_, areValues_sharing isSustained⟩
      simp only [List.forall_mem_cons]
      exact ⟨by decide, by decide, rate_not_mem_keys isReached, by decide, duration, by decide,
        rate_not_mem_keys isKept, List.forall_mem_nil _⟩

theorem areValues_queueWords {kind : String} {limit : Int}
    (written : Shaper.queueWords kind limit = .ok words) : AreValues words := by
  have limitValue := toString_not_mem_keys limit
  unfold Shaper.queueWords at written
  split at written
  · cases written
    simp only [AreValues, List.forall_mem_cons]
    exact ⟨by decide, by decide, by decide, by decide, limitValue, List.forall_mem_nil _⟩
  · cases written
    simp only [AreValues, List.forall_mem_cons]
    exact ⟨by decide, by decide, limitValue, List.forall_mem_nil _⟩
  · cases written

/-! ## Commands in a row -/

/-- Commands that are scoped, and the classes that are known after them. -/
structure Leads (known : List String) (commands : List (List String)) (next : List String) :
    Prop where
  areScoped : AreScoped known commands
  reached : commands.foldl after known = next

variable {commands more : List (List String)}

theorem areScoped_append : AreScoped known (commands ++ more) ↔
    AreScoped known commands ∧ AreScoped (commands.foldl after known) more := by
  induction commands generalizing known with
  | nil => simp [AreScoped]
  | cons words rest induction =>
      rw [List.cons_append, AreScoped, AreScoped, induction, and_assoc]
      rfl

theorem Leads.nil : Leads known [] known :=
  ⟨trivial, rfl⟩

theorem Leads.append (leads : Leads known commands next) (goesOn : Leads next more later) :
    Leads known (commands ++ more) later := by
  refine ⟨areScoped_append.mpr ⟨leads.areScoped, ?_⟩, ?_⟩
  · rw [leads.reached]
    exact goesOn.areScoped
  · rw [List.foldl_append, leads.reached, goesOn.reached]

/-- Items that each add no class. -/
theorem Leads.flatMap {items : List α} {commandsOf : α → List (List String)}
    (each : ∀ item ∈ items, Leads known (commandsOf item) known) :
    Leads known (items.flatMap commandsOf) known := by
  induction items with
  | nil => exact .nil
  | cons item rest induction =>
      rcases List.forall_mem_cons.mp each with ⟨first, others⟩
      exact first.append (induction others)

theorem leads_of_none (foreign : detail? words = none) (same : after known words = known) :
    Leads known [words] known := by
  refine ⟨⟨⟨?_, ?_⟩, trivial⟩, same⟩ <;>
    (rw [foreign]; exact fun _ impossible => nomatch impossible)

theorem leads_of_some (isDetail : detail? words = some detail) (isAfter : after known words = next)
    (classes : ∀ handle ∈ valuesOf "classid" detail, IsDecimal handle)
    (parents : ∀ handle ∈ valuesOf "parent" detail, IsPlace known handle) :
    Leads known [words] next := by
  refine ⟨⟨⟨?_, ?_⟩, trivial⟩, isAfter⟩
  · rw [isDetail]
    rintro _ ⟨⟩
    exact classes
  · rw [isDetail]
    rintro _ ⟨⟩
    exact parents

theorem leads_of_areValues (isDetail : detail? words = some detail)
    (isAfter : after known words = next) (areValues : AreValues detail) :
    Leads known [words] next := by
  apply leads_of_some isDetail isAfter
  · rw [valuesOf_of_areValues (by decide) areValues]
    exact List.forall_mem_nil _
  · rw [valuesOf_of_areValues (by decide) areValues]
    exact List.forall_mem_nil _

/-! ## Single commands -/

section Shaper

variable (shaper : Shaper)

theorem leads_dropRoot : Leads known [shaper.dropRoot] [] :=
  leads_of_areValues rfl rfl (show AreValues ["root"] by decide)

theorem leads_dropIngress : Leads known [shaper.dropIngress] known :=
  leads_of_areValues rfl rfl (show AreValues ["ingress"] by decide)

theorem leads_rootQueue (default : Int) : Leads known [shaper.rootQueue default] known := by
  have areFirst : AreValues ["root", "handle", rootHandle, "hfsc", "default"] := by decide
  have areAll : AreValues (["root", "handle", rootHandle, "hfsc", "default"] ++
      [toString default]) :=
    List.forall_mem_append.mpr ⟨areFirst, List.forall_mem_singleton.mpr
      (toString_not_mem_keys default)⟩
  exact leads_of_areValues rfl rfl areAll

/-- A new class below a place. -/
theorem leads_class {tail : List String} (isPlace : IsPlace known place)
    (isDecimal : IsDecimal handle) (placeValue : place ∉ keys) (handleValue : handle ∉ keys)
    (areValues : AreValues tail) (tool device : String) :
    Leads known [tool :: "class" :: "add" :: "dev" :: device :: "parent" :: place ::
      "classid" :: handle :: tail] (known ++ [handle]) := by
  rcases valuesOf_named placeValue (List.forall_mem_nil _) handleValue areValues with
    ⟨parents, classes⟩
  simp only [List.nil_append] at parents classes
  refine leads_of_some rfl ?_ ?_ ?_
  · rw [after, classes]
  · rw [classes]
    exact List.forall_mem_singleton.mpr isDecimal
  · rw [parents]
    exact List.forall_mem_singleton.mpr isPlace

theorem leads_rootClass {value : Number} {rate : String} (written : Words.rate value = .ok rate) :
    Leads known [shaper.rootClass rate] (known ++ [classHandle (toString rootId)]) := by
  have rateValue := rate_not_mem_keys written
  refine leads_class (.inl rfl) (isDecimal_classHandle (by decide)) (by decide)
    (classHandle_not_mem_keys _) ?_ _ _
  simp only [AreValues, List.forall_mem_cons]
  exact ⟨by decide, by decide, by decide, rateValue, by decide, by decide, rateValue,
    List.forall_mem_nil _⟩

theorem leads_shapingClass {id : Int} {parent : Number} {curve : ServiceCurve} (nonneg : 0 ≤ id)
    (isPlace : IsPlace known (classHandle parent.text)) (written : Words.curve curve = .ok words) :
    Leads known [shaper.shapingClass id parent words] (known ++ [classHandle (toString id)]) :=
  leads_class isPlace (isDecimal_classHandle nonneg) (classHandle_not_mem_keys _)
    (classHandle_not_mem_keys _)
    (List.forall_mem_cons.mpr ⟨by decide, areValues_curve written⟩) _ _

theorem leads_leafQueue {id limit : Int} {kind : String}
    (isPlace : IsPlace known (classHandle (toString id)))
    (written : Shaper.queueWords kind limit = .ok words) :
    Leads known [shaper.leafQueue id words] known := by
  have handleValue : toString id ++ ":" ∉ keys := by
    apply @not_mem_keys_of_suffix _ ":".toList
    · rw [String.toList_append]
      exact List.suffix_append ..
    · decide
  have areValues : AreValues ("handle" :: (toString id ++ ":") :: words) :=
    List.forall_mem_cons.mpr ⟨by decide, List.forall_mem_cons.mpr
      ⟨handleValue, areValues_queueWords written⟩⟩
  rcases valuesOf_below (classHandle_not_mem_keys (toString id)) areValues with
    ⟨parents, classes⟩
  have isDetail : detail? (shaper.leafQueue id words) =
      some ("parent" :: classHandle (toString id) :: "handle" :: (toString id ++ ":") :: words) :=
    rfl
  refine leads_of_some isDetail rfl ?_ ?_
  · rw [classes]
    exact List.forall_mem_nil _
  · rw [parents]
    exact List.forall_mem_singleton.mpr isPlace

theorem leads_markFilter {filter : MarkFilter} {id : Int} (nonneg : 0 ≤ id)
    (leadsTo : filter.handle = classHandle (toString id)) :
    Leads known [shaper.markFilter filter] known := by
  have areValues : AreValues ["protocol", "ip", "prio", toString filter.precedence, "handle",
      toString filter.mark, "fw"] := by
    simp only [AreValues, List.forall_mem_cons]
    exact ⟨by decide, by decide, by decide, toString_not_mem_keys _, by decide,
      toString_not_mem_keys _, by decide, List.forall_mem_nil _⟩
  have isValue : filter.handle ∉ keys := leadsTo ▸ classHandle_not_mem_keys _
  rcases valuesOf_named (by decide : rootHandle ∉ keys) areValues isValue
    (List.forall_mem_nil _) with ⟨parents, classes⟩
  have isDetail : detail? (shaper.markFilter filter) =
      some ("parent" :: rootHandle :: (["protocol", "ip", "prio", toString filter.precedence,
        "handle", toString filter.mark, "fw"] ++ ["classid", filter.handle])) := rfl
  refine leads_of_some isDetail rfl ?_ ?_
  · rw [classes]
    exact List.forall_mem_singleton.mpr (leadsTo ▸ isDecimal_classHandle nonneg)
  · rw [parents]
    exact List.forall_mem_singleton.mpr (.inl rfl)

end Shaper

/-- Commands of the marking side name no handle. -/
theorem leads_inTable (marking : Marking) (words : List String) :
    Leads known [marking.inTable words] known := by
  have isTable : marking.inTable words = marking.tool :: "-t" :: marking.table :: words := rfl
  rw [isTable]
  apply leads_of_none
  · unfold detail?
    split
    case h_1 _ object _ _ _ same =>
      have isFlag : object = "-t" := (List.cons.inj (List.cons.inj same).2).1.symm
      rw [isFlag, if_neg (by decide)]
    case h_2 => rfl
  · unfold after
    split
    case h_1 same => exact absurd (List.cons.inj (List.cons.inj same).2).1 (by decide)
    case h_2 same => exact absurd (List.cons.inj (List.cons.inj same).2).1 (by decide)
    case h_3 => rfl

end Handles

/-! ## Commands of orders -/

/-- The commands of an order that name something. -/
def Order.commands : Order → List (List String)
  | .required words | .tried words => [words]
  | .unhook _ | .unwritable _ => []

namespace Handles

variable {known next : List String}

theorem leads_of_unhooks {marking : Marking} {count : Nat} {copies : List Exchange}
    (unhooks : Unhooks marking count copies) : Leads known (copies.map (·.words)) known := by
  induction unhooks with
  | enough => exact .nil
  | absent => exact leads_inTable marking _
  | removed _ _ induction => exact (leads_inTable marking _).append induction

/-- What is carried out of scoped orders is scoped. -/
theorem areScoped_of_runs {orders : List Order} {exchanges : List Exchange}
    {result : Except Failure Unit} (runs : Runs orders exchanges result)
    (areScoped : AreScoped known (orders.flatMap Order.commands)) :
    AreScoped known (exchanges.map (·.words)) := by
  induction runs generalizing known with
  | nil => trivial
  | required _ _ induction => exact ⟨areScoped.1, induction areScoped.2⟩
  | failed _ => exact ⟨areScoped.1, trivial⟩
  | tried _ induction => exact ⟨areScoped.1, induction areScoped.2⟩
  | unhook unhooks _ induction =>
      have kept := @leads_of_unhooks known _ _ _ unhooks
      rw [List.map_append]
      refine areScoped_append.mpr ⟨kept.areScoped, ?_⟩
      rw [kept.reached]
      exact induction areScoped
  | unwritable => trivial

/-- All that is required is carried out, where nothing fails. -/
theorem mem_of_runs {orders : List Order} {exchanges : List Exchange}
    (runs : Runs orders exchanges (.ok ())) {words : List String}
    (member : .required words ∈ orders) : words ∈ exchanges.map (·.words) := by
  rcases runs.exists_of_required member with ⟨exchange, among, isWords, _⟩
  exact List.mem_map.mpr ⟨exchange, among, isWords⟩

/-- In scoped commands each names places that are known when it is run. -/
theorem exists_known_of_mem {commands : List (List String)} {words : List String}
    (areScoped : AreScoped known commands) (member : words ∈ commands) :
    ∃ known, IsNamed known words := by
  induction commands generalizing known with
  | nil => cases member
  | cons first rest induction =>
      rcases List.mem_cons.mp member with rfl | later
      · exact ⟨known, areScoped.1⟩
      · exact induction areScoped.2 later

/-! ## Teardowns and plans -/

variable {backends : Backends}

/-- After a teardown no class is known. -/
theorem leads_teardown (backends : Backends) :
    Leads known (backends.teardownOrders.flatMap Order.commands) [] :=
  (leads_dropRoot backends.shaper).append ((leads_dropIngress backends.shaper).append
    ((leads_inTable backends.marking _).append (leads_inTable backends.marking _)))

end Handles

/-- The commands of a step that name something. -/
def PlanStep.commands (backends : Backends) (step : PlanStep) : List (List String) :=
  (step.orders backends).flatMap Order.commands

namespace Handles

variable {known next : List String} {backends : Backends} {tiers : List Tier}

theorem leads_root {capacity : LinkCapacity} {default : Int}
    (written : (PlanStep.root capacity default).IsWritten) :
    Leads known ((PlanStep.root capacity default).commands backends)
      (known ++ [classHandle (toString rootId)]) := by
  rcases written with ⟨rate, isRate⟩
  have commands : (PlanStep.root capacity default).commands backends =
      [backends.shaper.rootQueue default] ++ [backends.shaper.rootClass rate] := by
    simp only [PlanStep.commands, PlanStep.orders, isRate]
    rfl
  rw [commands]
  exact (leads_rootQueue backends.shaper default).append (leads_rootClass backends.shaper isRate)

/-- Each class is added below a class that was added before it. -/
theorem leads_classes (nonneg : ∀ tier ∈ tiers, 0 ≤ tier.id)
    (written : ∀ tier ∈ tiers, (PlanStep.shapingClass tier.id tier.parent tier.curve).IsWritten)
    (places : ∀ before tier after, tiers = before ++ tier :: after →
      IsPlace (known ++ before.map (·.handle)) (classHandle tier.parent.text)) :
    Leads known ((tiers.map fun tier =>
      PlanStep.shapingClass tier.id tier.parent tier.curve).flatMap (·.commands backends))
      (known ++ tiers.map (·.handle)) := by
  induction tiers generalizing known with
  | nil =>
      rw [List.map_nil, List.map_nil, List.append_nil]
      exact .nil
  | cons tier rest induction =>
      rcases List.forall_mem_cons.mp nonneg with ⟨nonnegHere, nonnegLater⟩
      rcases List.forall_mem_cons.mp written with ⟨⟨words, isCurve⟩, writtenLater⟩
      have isPlace := places [] tier rest rfl
      rw [List.map_nil, List.append_nil] at isPlace
      have commands : (PlanStep.shapingClass tier.id tier.parent tier.curve).commands backends =
          [backends.shaper.shapingClass tier.id tier.parent words] := by
        simp only [PlanStep.commands, PlanStep.orders, isCurve]
        rfl
      rw [List.map_cons, List.flatMap_cons, commands, List.map_cons, List.append_cons]
      refine (leads_shapingClass backends.shaper nonnegHere isPlace isCurve).append
        (induction nonnegLater writtenLater fun before other after split => ?_)
      have later := places (tier :: before) other after (by rw [split, List.cons_append])
      rwa [List.map_cons, List.append_cons] at later

theorem leads_leafQueue_step {id limit : Int} {kind : String}
    (written : (PlanStep.leafQueue id kind limit).IsWritten)
    (isPlace : IsPlace known (classHandle (toString id))) :
    Leads known ((PlanStep.leafQueue id kind limit).commands backends) known := by
  rcases written with ⟨words, isQueue⟩
  have commands : (PlanStep.leafQueue id kind limit).commands backends =
      [backends.shaper.leafQueue id words] := by
    simp only [PlanStep.commands, PlanStep.orders, isQueue]
    rfl
  rw [commands]
  exact leads_leafQueue backends.shaper isPlace isQueue

theorem leads_mark_step {rule : ClassificationRule} (written : (PlanStep.mark rule).IsWritten) :
    Leads known ((PlanStep.mark rule).commands backends) known := by
  rcases written with ⟨words, isMatching⟩
  have commands : (PlanStep.mark rule).commands backends =
      [backends.marking.mark words rule.mark] := by
    simp only [PlanStep.commands, PlanStep.orders, isMatching]
    rfl
  rw [commands]
  exact leads_inTable backends.marking _

/-- The commands of a plan are scoped, if its tiers have decimal ids and their parents stand
before them. -/
theorem areScoped_build {tree : ClassTree} {rules : RuleSet} {kind : String} {isLogged : Bool}
    (written : ∀ step ∈ (Plan.build tree rules kind isLogged).steps, step.IsWritten)
    (nonneg : ∀ tier ∈ tree.tiers, 0 ≤ tier.id)
    (parents : ∀ before tier after, tree.tiers = before ++ tier :: after →
      tier.parent = .whole rootId ∨ ∃ parent ∈ before, tier.parent = .whole parent.id)
    (filters : ∀ filter ∈ rules.filters, ∃ tier ∈ tree.tiers, filter.handle = tier.handle) :
    AreScoped [] ((Plan.build tree rules kind isLogged).steps.flatMap (·.commands backends)) := by
  let top := classHandle (toString rootId)
  let all := [top] ++ tree.tiers.map (·.handle)
  simp only [Plan.build, List.forall_mem_append, List.forall_mem_cons] at written
  rcases written with ⟨⟨⟨⟨⟨⟨⟨root, _⟩, classes⟩, queues⟩, _⟩, marks⟩, logs⟩, _⟩
  have places : ∀ before tier after, tree.tiers = before ++ tier :: after →
      IsPlace ([top] ++ before.map (·.handle)) (classHandle tier.parent.text) := by
    intro before tier after split
    right
    rcases parents before tier after split with isRoot | ⟨parent, earlier, isParent⟩
    · rw [isRoot]
      exact ⟨isDecimal_classHandle (by decide), List.mem_append_left _ (List.mem_cons_self ..)⟩
    · have isTier : parent ∈ tree.tiers := split ▸ List.mem_append_left _ earlier
      rw [isParent]
      exact ⟨isDecimal_classHandle (nonneg parent isTier), List.mem_append_right _
        (List.mem_map.mpr ⟨parent, earlier, rfl⟩)⟩
  have areClasses : Leads [top] ((Plan.classSteps tree).flatMap (·.commands backends)) all :=
    leads_classes nonneg (fun tier member => classes _ (List.mem_map_of_mem member)) places
  have areQueues : Leads all ((Plan.queueSteps tree kind).flatMap (·.commands backends)) all := by
    refine Leads.flatMap fun step member => ?_
    have isWritten := queues step member
    unfold Plan.queueSteps at member
    split at member
    · cases member
    · rcases List.mem_map.mp member with ⟨tier, isLeaf, rfl⟩
      have isTier := (List.mem_filter.mp isLeaf).1
      exact leads_leafQueue_step isWritten (.inr ⟨isDecimal_classHandle (nonneg tier isTier),
        List.mem_append_right _ (List.mem_map_of_mem isTier)⟩)
  have areHooks : Leads all
      ([PlanStep.clearMarks, .attachMarks].flatMap (·.commands backends)) all :=
    (leads_inTable backends.marking _).append ((leads_inTable backends.marking _).append
      (leads_inTable backends.marking _))
  have areMarks : Leads all
      ((rules.rules.map PlanStep.mark).flatMap (·.commands backends)) all := by
    refine Leads.flatMap fun step member => ?_
    have isWritten := marks step member
    rcases List.mem_map.mp member with ⟨rule, _, rfl⟩
    exact leads_mark_step isWritten
  have areLogs : Leads all
      ((if isLogged then [PlanStep.logMarks] else []).flatMap (·.commands backends)) all := by
    split
    · exact leads_inTable backends.marking _
    · exact .nil
  have areFilters : Leads all
      ((rules.filters.map PlanStep.markFilter).flatMap (·.commands backends)) all := by
    refine Leads.flatMap fun step member => ?_
    rcases List.mem_map.mp member with ⟨filter, isFilter, rfl⟩
    rcases filters filter isFilter with ⟨tier, isTier, leadsTo⟩
    exact leads_markFilter backends.shaper (nonneg tier isTier) leadsTo
  simp only [Plan.build, List.flatMap_append, List.flatMap_singleton]
  exact (((((((leads_root root).append areClasses).append areQueues).append areHooks).append
    areMarks).append areLogs).append areFilters).areScoped

end Handles

end UplinkShaper
