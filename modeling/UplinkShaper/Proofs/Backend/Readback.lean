import UplinkShaper.Proofs.Backend.Steps
import UplinkShaper.Proofs.Number.Magnitudes
import UplinkShaper.Proofs.Shaping.Curves
import UplinkShaper.Proofs.Text.Words

/-!
What the words of classes and queues mean to the kernel. A rate is a decimal numeral with a
unit. Rates of up to `2 ^ 46` kilobits and the bursts above them are doubles, halves
included, so what is read back is the very rate that was written.
-/

namespace UplinkShaper

namespace Kernel

/-! ## Numerals -/

/-- A numeral, with or without places after a point. -/
def decimal? (shown : List Char) : Option Rat :=
  match Text.parts '.' shown with
  | [units] => (Netfilter.number? units).map (Nat.cast : Nat → Rat)
  | [units, places] => do
      let whole ← Netfilter.number? units
      let part ← Netfilter.number? places
      return whole + part / 10 ^ places.length
  | _ => none

/-- Kilobits per second. -/
def rate? (text : String) : Option Rat :=
  match Text.parts 'k' text.toList with
  | [shown, unit] => if unit = ['b', 'i', 't'] then decimal? shown else none
  | _ => none

/-- Milliseconds. -/
def duration? (text : String) : Option Nat :=
  match Text.parts 'm' text.toList with
  | [shown, unit] => if unit = ['s'] then Netfilter.number? shown else none
  | _ => none

/-! ## Classes -/

/-- A curve of two segments, the first of which lasts for some milliseconds. -/
structure Segments where
  first : Rat
  duration : Nat
  second : Rat
deriving DecidableEq, Repr

/-- The same rate all the time: a first segment that lasts for no time. -/
def Segments.flat (rate : Rat) : Segments where
  first := 0
  duration := 0
  second := rate

/-- What a class is served: in real time, of the rest of the link, and at most. -/
structure Service where
  realtime : Option Segments
  share : Option Segments
  limit : Option Segments
deriving DecidableEq, Repr

namespace Service

def unserved : Service where
  realtime := none
  share := none
  limit := none

def ofWords? : List String → Option Service
  | [] => some unserved
  | "rt" :: "m1" :: first :: "d" :: duration :: "m2" :: second :: rest => do
      let segments := Segments.mk (← rate? first) (← duration? duration) (← rate? second)
      return { ← ofWords? rest with realtime := some segments }
  | "ls" :: "rate" :: rate :: rest => do
      return { ← ofWords? rest with share := some (.flat (← rate? rate)) }
  | "ul" :: "rate" :: rate :: rest => do
      return { ← ofWords? rest with limit := some (.flat (← rate? rate)) }
  | "sc" :: "rate" :: rate :: rest => do
      let segments := Segments.flat (← rate? rate)
      return { ← ofWords? rest with realtime := some segments, share := some segments }
  | _ => none

variable {rate : Rat} {shown : String}

theorem ofWords?_share (isRate : rate? shown = some rate) :
    ofWords? ["ls", "rate", shown] = some ⟨none, some (.flat rate), none⟩ := by
  rw [ofWords?, isRate]
  rfl

theorem ofWords?_realtime {first second : String} {segments : Segments} {duration : String}
    (isFirst : rate? first = some segments.first)
    (isDuration : duration? duration = some segments.duration)
    (isSecond : rate? second = some segments.second) (isRate : rate? shown = some rate) :
    ofWords? (["rt", "m1", first, "d", duration, "m2", second] ++ ["ls", "rate", shown]) =
      some ⟨some segments, some (.flat rate), none⟩ := by
  rw [List.cons_append, List.cons_append, List.cons_append, List.cons_append, List.cons_append,
    List.cons_append, List.cons_append, List.nil_append, ofWords?, isFirst, isDuration, isSecond,
    ofWords?_share isRate]
  rfl

/-- The words of a class that is capped. -/
theorem ofWords?_capped (isRate : rate? shown = some rate) :
    ofWords? ["sc", "rate", shown, "ul", "rate", shown] =
      some ⟨some (.flat rate), some (.flat rate), some (.flat rate)⟩ := by
  rw [ofWords?, ofWords?, isRate]
  rfl

end Service

/-! ## Queues -/

/-- What a queue holds at most. -/
inductive QueueLimit
  | frames (count : Nat)
  | bytes (count : Nat)
deriving DecidableEq, Repr

namespace QueueLimit

def ofWords? : List String → Option QueueLimit
  | ["sfq", "perturb", _, "limit", limit] => (Netfilter.number? limit.toList).map .frames
  | ["bfifo", "limit", limit] => (Netfilter.number? limit.toList).map .bytes
  | _ => none

/-- The limit of a queue of a kind for a buffer in bytes: as many full frames as it takes to
hold the buffer, or the bytes themselves. -/
def IsFor (kind : String) (buffer : Int) : QueueLimit → Prop
  | .frames count => kind = "sfq" ∧ (count - 1 : Int) * Buffer.frameSize < buffer ∧
      buffer ≤ count * Buffer.frameSize
  | .bytes count => kind = "bfifo" ∧ buffer = count

/-- The limit that a plan gives a leaf is read back. -/
theorem exists_limit {kind : String} {tier : Tier} {words : List String}
    (positive : 0 < tier.buffer)
    (written : Shaper.queueWords kind (Plan.queueLimit kind tier) = .ok words) :
    ∃ limit, ofWords? words = some limit ∧ limit.IsFor kind tier.buffer := by
  unfold Shaper.queueWords at written
  split at written
  · cases written
    have nonneg : 0 ≤ Plan.queueLimit "sfq" tier := by
      simp only [Plan.queueLimit, Plan.fairQueue, if_true, Buffer.wholeFrames]
      omega
    refine ⟨.frames (Plan.queueLimit "sfq" tier).toNat, ?_, rfl, ?_⟩
    · rw [ofWords?, Netfilter.number?_toString nonneg]
      rfl
    · simp only [Plan.queueLimit, Plan.fairQueue, if_true, Buffer.wholeFrames, Buffer.frameSize]
      omega
  · cases written
    have isBuffer : Plan.queueLimit "bfifo" tier = tier.buffer := if_neg (by decide)
    rw [isBuffer]
    refine ⟨.bytes tier.buffer.toNat, ?_, rfl, (Int.toNat_of_nonneg positive.le).symm⟩
    rw [ofWords?, Netfilter.number?_toString positive.le]
    rfl
  · cases written

end QueueLimit

/-! ## Marks -/

/-- What a rule that sets a mark looks for, and the mark. -/
def marked? (words : List String) : Option (List String × Nat) :=
  match words.reverse with
  | mark :: "--set-mark" :: "MARK" :: "-j" :: matching =>
      (Netfilter.number? mark.toList).map fun mark => (matching.reverse, mark)
  | _ => none

theorem marked?_markRule (matching : List String) {mark : Int} (nonneg : 0 ≤ mark) :
    marked? (markRule matching mark) = some (matching, mark.toNat) := by
  have reversed : (markRule matching mark).reverse =
      toString mark :: "--set-mark" :: "MARK" :: "-j" :: matching.reverse := by
    simp [markRule]
  simp only [marked?, reversed]
  rw [Netfilter.number?_toString nonneg, List.reverse_reverse]
  rfl

/-! ## Numerals that were written -/

theorem parts_pair {separator : Char} {first second : List Char} (absent : separator ∉ first)
    (absentToo : separator ∉ second) :
    Text.parts separator (first ++ separator :: second) = [first, second] := by
  rw [Text.parts_append absent, Text.parts_of_not_mem absentToo]

theorem cast_toNat {value : Int} (nonneg : 0 ≤ value) : (value.toNat : Rat) = value := by
  exact_mod_cast Int.toNat_of_nonneg nonneg

theorem decimal?_whole {value : Int} (nonneg : 0 ≤ value) :
    decimal? (toString value).toList = some (value : Rat) := by
  have absent := Netfilter.not_mem_toString (by decide : '.'.isDigit = false) nonneg
  rw [decimal?, Text.parts_of_not_mem absent]
  dsimp only
  rw [Netfilter.number?_toString nonneg, Option.map_some, cast_toNat nonneg]

theorem decimal?_half {value : Int} (nonneg : 0 ≤ value) :
    decimal? (toString value ++ ".5").toList = some (value + 1 / 2 : Rat) := by
  have shown : (toString value ++ ".5").toList = (toString value).toList ++ '.' :: ['5'] :=
    String.toList_append
  have absent := Netfilter.not_mem_toString (by decide : '.'.isDigit = false) nonneg
  have five : Netfilter.number? ['5'] = some 5 := rfl
  rw [decimal?, shown, parts_pair absent (by decide)]
  dsimp only
  rw [Netfilter.number?_toString nonneg, five]
  dsimp only [Option.bind_eq_bind, Option.bind_some]
  rw [cast_toNat nonneg]
  norm_num

theorem rate?_of_decimal {shown : String} {value : Rat}
    (isValue : decimal? shown.toList = some value) (absent : 'k' ∉ shown.toList) :
    rate? (shown ++ "kbit") = some value := by
  have text : (shown ++ "kbit").toList = shown.toList ++ 'k' :: ['b', 'i', 't'] :=
    String.toList_append
  rw [rate?, text, parts_pair absent (by decide)]
  dsimp only
  rw [if_pos rfl, isValue]

theorem duration?_whole {value : Int} (nonneg : 0 ≤ value) :
    duration? (toString value ++ "ms") = some value.toNat := by
  have text : (toString value ++ "ms").toList = (toString value).toList ++ 'm' :: ['s'] :=
    String.toList_append
  rw [duration?, text, parts_pair (Netfilter.not_mem_toString (by decide) nonneg) (by decide)]
  dsimp only
  rw [if_pos rfl, Netfilter.number?_toString nonneg]

end Kernel

/-! ## Rates -/

namespace Number

theorem not_isInteger_half {value : Int} : ((value : Rat) + 1 / 2).den ≠ 1 := by
  intro isWhole
  have whole := (Rat.den_eq_one_iff _).mp isWhole
  have twice : (2 * ((value : Rat) + 1 / 2).num : Rat) = 2 * value + 1 := by
    rw [whole]
    ring
  have odd : 2 * ((value : Rat) + 1 / 2).num = 2 * value + 1 := by exact_mod_cast twice
  omega

end Number

namespace Words

theorem double_whole (value : Int) : double (.finite value) = toString value := by
  simp [double, Number.toInt?]

/-- Three places of a half, of which the two zeros are dropped. -/
theorem placesText_half (value : Nat) :
    Decimal.dropTrailingZeros (Decimal.placesText 3 (value + 1 / 2)) =
      Nat.toDigits 10 value ++ ['.', '5'] := by
  have scaled : ((value : Rat) + 1 / 2) * 10 ^ 3 = ((1000 * value + 500 : Int) : Rat) := by
    push_cast
    ring
  have count : (1000 * value + 500 : Int).toNat = 1000 * value + 500 := by omega
  have units : (1000 * value + 500) / 1000 = value := by omega
  have places : (1000 * value + 500) % 1000 = 500 := by omega
  have padded : Decimal.padded 3 500 = ['5', '0', '0'] := rfl
  have text : Decimal.placesText 3 (value + 1 / 2) =
      Nat.toDigits 10 value ++ '.' :: ['5', '0', '0'] := by
    rw [Decimal.placesText, scaled, nearestEven_intCast, count, if_neg (by decide)]
    rw [show Nat.pow 10 3 = 1000 from rfl, units, places, padded]
    rfl
  rw [text]
  simp [Decimal.dropTrailingZeros]

theorem double_half {value : Int} (nonneg : 0 ≤ value) :
    double (.finite (value + 1 / 2)) = toString value ++ ".5" := by
  rcases Int.eq_ofNat_of_zero_le nonneg with ⟨count, rfl⟩
  have positive : (0 : Rat) < (count : Int) + 1 / 2 := by positivity
  have sign : (Double.finite ((count : Int) + 1 / 2)).isNegative = false := by
    simpa [Double.isNegative] using positive.le
  have magnitude : Rat.abs ((count : Int) + 1 / 2) = (count : Rat) + 1 / 2 := by
    rw [Double.abs_eq_magnitude, abs_of_pos positive]
    rfl
  rw [double, Number.toInt?, if_neg Number.not_isInteger_half]
  dsimp only [threePlaces, Double.fixed, Double.toRat?]
  rw [sign, magnitude]
  rw [Decimal.signed, if_neg Bool.false_ne_true, String.toList_ofList, placesText_half]
  apply String.toList_inj.mp
  rw [String.toList_ofList, String.toList_append, Text.toList_toString_natCast]
  rfl

/-- A whole number or a half is read back. -/
theorem rate?_double {twice : Int} (nonneg : 0 ≤ twice) :
    Kernel.rate? (double (.finite (twice / 2)) ++ "kbit") = some (twice / 2 : Rat) := by
  rcases Int.even_or_odd' twice with ⟨half, rfl | rfl⟩
  · have halfNonneg : 0 ≤ half := by omega
    have same : ((2 * half : Int) : Rat) / 2 = half := by
      push_cast
      ring
    rw [same, double_whole]
    exact Kernel.rate?_of_decimal (Kernel.decimal?_whole halfNonneg)
      (Netfilter.not_mem_toString (by decide) halfNonneg)
  · have halfNonneg : 0 ≤ half := by omega
    have same : ((2 * half + 1 : Int) : Rat) / 2 = half + 1 / 2 := by
      push_cast
      ring
    rw [same, double_half halfNonneg]
    refine Kernel.rate?_of_decimal (Kernel.decimal?_half halfNonneg) ?_
    rw [String.toList_append, List.mem_append, not_or]
    exact ⟨Netfilter.not_mem_toString (by decide) halfNonneg, by decide⟩

/-- A rate that is a whole number or a half is written, and read back. -/
theorem exists_rate {number : Number} {twice : Int} (value : number.value? = some (twice / 2 : Rat))
    (nonneg : 0 ≤ twice) (small : twice < 2 ^ 53) :
    ∃ text, rate number = .ok text ∧ Kernel.rate? text = some (twice / 2 : Rat) := by
  rcases number with whole | (rational | _ | _ | _)
  · have same : (whole : Rat) = twice / 2 := Option.some.inj value
    have double : (2 * whole : Int) = twice := by
      have : (2 * whole : Rat) = twice := by rw [same]; ring
      exact_mod_cast this
    have isNear : Double.ofInt whole = .ok (.finite whole) :=
      Double.ofInt_eq_ok (by rw [abs_lt]; omega)
    refine ⟨Words.double (.finite whole) ++ "kbit", ?_, ?_⟩
    · rw [rate, Number.toDouble, isNear]
      rfl
    · rw [same]
      exact rate?_double nonneg
  · have same : rational = twice / 2 := Option.some.inj value
    rw [same]
    exact ⟨Words.double (.finite (twice / 2)) ++ "kbit", rfl, rate?_double nonneg⟩
  · have same : (0 : Rat) = twice / 2 := Option.some.inj value
    rw [← same]
    have isZero : Words.double .negativeZero = toString (0 : Int) := rfl
    refine ⟨toString (0 : Int) ++ "kbit", by rw [rate, Number.toDouble, ← isZero]; rfl, ?_⟩
    exact Kernel.rate?_of_decimal (by simpa using Kernel.decimal?_whole (le_refl 0)) (by decide)
  · cases value
  · cases value

theorem exists_rate_whole {whole : Int} (nonneg : 0 ≤ whole) (small : whole < 2 ^ 52) :
    ∃ text, rate (.whole whole) = .ok text ∧ Kernel.rate? text = some (whole : Rat) := by
  have same : ((2 * whole : Int) / 2 : Rat) = whole := by simp
  have value : (Number.whole whole).value? = some ((2 * whole : Int) / 2 : Rat) := by
    rw [same]
    rfl
  have written := exists_rate value (by omega) (by omega)
  rwa [same] at written

end Words

/-! ## Curves -/

namespace ServiceCurve

open Kernel

/-- The burst of a rate of up to `2 ^ 46` kilobits is a whole number or a half. -/
theorem exists_burst_of_ofRate {rate : Int} {priority : Priority} {curve : ServiceCurve}
    (positive : 0 < rate) (small : rate ≤ 2 ^ 46)
    (made : ofRate (.whole rate) priority = .ok curve) :
    ∀ burst ∈ curve.burst, ∃ (twice : Int) (duration : Nat),
      burst.rate.value? = some (twice / 2 : Rat) ∧ burst.duration = some (duration : Int) ∧
        0 ≤ twice ∧ twice < 2 ^ 53 := by
  simp only [ofRate] at made
  split at made
  case h_1 =>
    cases made
    intro _ impossible
    cases impossible
  case h_2 profile found =>
    rcases exists_halves_of_burstProfile? found with ⟨halves, duration, isHalves, lasts, more, most⟩
    have bounded : rate * halves < 2 ^ 53 := by
      calc rate * halves ≤ 2 ^ 46 * 4 := mul_le_mul small most more.le (by decide)
        _ < 2 ^ 53 := by decide
    rw [isHalves, Number.whole_mul_half positive more bounded] at made
    cases made
    rintro burst ⟨⟩
    refine ⟨rate * halves, duration, ?_, by rw [lasts], (mul_pos positive more).le, bounded⟩
    rw [Number.value?_simplify]
    rfl

/-- A service that is what a curve says. -/
structure IsServed (curve : ServiceCurve) (rate : Int) (service : Service) : Prop where
  share : service.share = some (.flat rate)
  limit : service.limit = none
  realtime : service.realtime.isSome = curve.burst.isSome
  burst : ∀ burst ∈ curve.burst, ∃ (first : Rat) (duration : Nat),
    burst.rate.value? = some first ∧ burst.duration = some (duration : Int) ∧
      service.realtime = some ⟨first, duration, rate⟩

theorem exists_service_of_ofRate {rate : Int} {priority : Priority} {curve : ServiceCurve}
    {words : List String} (positive : 0 < rate) (small : rate ≤ 2 ^ 46)
    (made : ofRate (.whole rate) priority = .ok curve) (written : Words.curve curve = .ok words) :
    ∃ service, Service.ofWords? words = some service ∧ curve.IsServed rate service := by
  have isSustained := (fits_of_ofRate positive made).sustained
  have bursts := exists_burst_of_ofRate positive small made
  rcases Words.exists_rate_whole positive.le (by omega) with ⟨shown, isShown, isRead⟩
  rcases curve with ⟨sustained, burst⟩
  dsimp only at isSustained
  subst isSustained
  cases burst with
  | none =>
      rw [Words.curve, isShown] at written
      cases written
      exact ⟨_, Service.ofWords?_share isRead, ⟨rfl, rfl, rfl, by simp⟩⟩
  | some burst =>
      rcases bursts burst rfl with ⟨twice, duration, isBurst, lasts, nonneg, bounded⟩
      rcases Words.exists_rate isBurst nonneg bounded with ⟨first, isFirst, isFirstRead⟩
      have literal : (Value.ofOption .whole (some (duration : Int))).literal =
          toString (duration : Int) := by
        rw [Value.ofOption, Value.whole, Value.literal, Number.text]
      rw [Words.curve] at written
      dsimp only at written
      rw [isFirst, isShown, lasts, literal] at written
      cases written
      let segments : Segments := ⟨twice / 2, duration, rate⟩
      refine ⟨⟨some segments, some (.flat rate), none⟩, ?_, rfl, rfl, rfl, ?_⟩
      · exact Service.ofWords?_realtime isFirstRead
          (duration?_whole (Int.natCast_nonneg duration)) isRead isRead
      · rintro _ ⟨⟩
        exact ⟨_, _, isBurst, lasts, rfl⟩

end ServiceCurve

end UplinkShaper
