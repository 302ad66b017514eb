/-!
Dates and moments of the proleptic Gregorian calendar. A moment may carry an
offset from universal time; converting one moves it to offset zero, which is day
arithmetic on the count of days since the first of January of year one.
-/

namespace UplinkShaper

structure Date where
  year : Nat
  month : Nat
  day : Nat
deriving DecidableEq, Repr, Inhabited

structure Moment where
  date : Date
  hour : Nat
  minute : Nat
  second : Nat
  microsecond : Nat
  /-- Seconds east of universal time, if that is known. -/
  offset : Option Int
deriving DecidableEq, Repr, Inhabited

/-- Why fields do not form a date or a moment. -/
inductive CalendarError
  | yearRange (year : Nat)
  | monthRange
  | dayRange
  | hourRange
  | minuteRange
  | secondRange
  | offsetRange (seconds : Int)
deriving DecidableEq, Repr

namespace Calendar

def isLeap (year : Nat) : Bool :=
  year % 4 = 0 && (year % 100 != 0 || year % 400 = 0)

def monthLength (year month : Nat) : Nat :=
  match month with
  | 2 => if isLeap year then 29 else 28
  | 4 | 6 | 9 | 11 => 30
  | _ => 31

/-- A number in decimal with at least `width` digits. -/
def padded (width value : Nat) : String :=
  let shown := toString value
  String.ofList (List.replicate (width - shown.length) '0') ++ shown

def daysBeforeYear (year : Nat) : Nat :=
  let past := year - 1
  past * 365 + past / 4 - past / 100 + past / 400

def daysBeforeMonth (year month : Nat) : Nat :=
  ((List.range (month - 1)).map fun index => monthLength year (index + 1)).foldr (· + ·) 0

end Calendar

namespace Date

open Calendar

def make (year month day : Nat) : Except CalendarError Date :=
  if year = 0 ∨ 9999 < year then .error (.yearRange year)
  else if month = 0 ∨ 12 < month then .error .monthRange
  else if day = 0 ∨ monthLength year month < day then .error .dayRange
  else .ok ⟨year, month, day⟩

/-- The day's number, the first of January of year one being zero. -/
def ordinal (date : Date) : Nat :=
  daysBeforeYear date.year + daysBeforeMonth date.year date.month + (date.day - 1)

/-- The month and day with a number of days before them in a year, searched from
the given month on. -/
def inYear (year : Nat) : (months : List Nat) → (rest : Nat) → Nat × Nat
  | [], rest => (12, rest + 1)
  | month :: later, rest =>
      if rest < monthLength year month then (month, rest + 1)
      else inYear year later (rest - monthLength year month)

/-- The day with a given number. The year is found from the cycles of four
hundred, one hundred, four and one years. -/
def ofOrdinal (ordinal : Nat) : Date :=
  let quadricentury := ordinal / 146097
  let rest := ordinal % 146097
  let century := min (rest / 36524) 3
  let rest := rest - century * 36524
  let quadrennium := rest / 1461
  let rest := rest % 1461
  let single := min (rest / 365) 3
  let rest := rest - single * 365
  let year := quadricentury * 400 + century * 100 + quadrennium * 4 + single + 1
  let (month, day) := inYear year [1, 2, 3, 4, 5, 6, 7, 8, 9, 10, 11] rest
  ⟨year, month, day⟩

def text (date : Date) : String :=
  s!"{padded 4 date.year}-{padded 2 date.month}-{padded 2 date.day}"

end Date

namespace Moment

open Calendar

def make (date : Date) (hour minute second microsecond : Nat) (offset : Option Int) :
    Except CalendarError Moment :=
  if 23 < hour then .error .hourRange
  else if 59 < minute then .error .minuteRange
  else if 59 < second then .error .secondRange
  else
    match offset with
    | some seconds =>
        if 86400 ≤ seconds.natAbs then .error (.offsetRange seconds)
        else .ok ⟨date, hour, minute, second, microsecond, offset⟩
    | none => .ok ⟨date, hour, minute, second, microsecond, none⟩

/-- The same moment at offset zero. -/
def toUniversal (moment : Moment) : Moment :=
  let shift := moment.offset.getD 0
  let seconds : Int :=
    (moment.date.ordinal * 86400 + moment.hour * 3600 + moment.minute * 60 + moment.second : Nat)
      - shift
  let days := (seconds / 86400).toNat
  let rest := (seconds % 86400).toNat
  { date := Date.ofOrdinal days, hour := rest / 3600, minute := rest / 60 % 60,
    second := rest % 60, microsecond := moment.microsecond, offset := some 0 }

/-- An offset as hours and minutes, and seconds where there are any. -/
def offsetText (seconds : Int) : String :=
  let sign := if seconds < 0 then "-" else "+"
  let size := seconds.natAbs
  let rest := if size % 60 = 0 then "" else ":" ++ padded 2 (size % 60)
  sign ++ padded 2 (size / 3600) ++ ":" ++ padded 2 (size / 60 % 60) ++ rest

def timeText (moment : Moment) : String :=
  let fraction :=
    if moment.microsecond = 0 then "" else "." ++ padded 6 moment.microsecond
  s!"{padded 2 moment.hour}:{padded 2 moment.minute}:{padded 2 moment.second}" ++ fraction

/-- Date, time and offset, with `separator` between date and time. -/
def textWith (separator : String) (moment : Moment) : String :=
  moment.date.text ++ separator ++ moment.timeText ++ (moment.offset.map offsetText).getD ""

/-- The standard text, as in `2026-01-02T03:04:05+00:00`. -/
def text (moment : Moment) : String :=
  moment.textWith "T"

/-- Date and time to the second, without the offset. The year is not padded. -/
def clockText (moment : Moment) : String :=
  let date := moment.date
  s!"{date.year}-{padded 2 date.month}-{padded 2 date.day} " ++
    s!"{padded 2 moment.hour}:{padded 2 moment.minute}:{padded 2 moment.second}"

end Moment

/-! ## Reading the standard text -/

namespace Moment

/-- Read a number of exactly `count` digits. -/
def readDigits (count : Nat) (text : List Char) : Option (Nat × List Char) :=
  let shown := text.take count
  if shown.length = count ∧ shown.all Char.isDigit then
    some (shown.foldl (fun total digit => 10 * total + (digit.toNat - 48)) 0, text.drop count)
  else none

def readMark (mark : Char) : List Char → Option (List Char)
  | first :: rest => if first = mark then some rest else none
  | [] => none

/-- Read the digits after a point or a comma as microseconds; what is finer is
dropped. -/
def readFraction (text : List Char) : Nat × List Char :=
  match text with
  | [] => (0, [])
  | mark :: rest =>
      if mark = '.' ∨ mark = ',' then
        let shown := rest.takeWhile Char.isDigit
        let six := (shown ++ List.replicate 6 '0').take 6
        (six.foldl (fun total digit => 10 * total + (digit.toNat - 48)) 0,
          rest.dropWhile Char.isDigit)
      else (0, text)

/-- Read two digits after a colon, or nothing where there is no colon. -/
def readNext (text : List Char) : Option (Nat × List Char) :=
  match text with
  | ':' :: rest => readDigits 2 rest
  | _ => some (0, text)

def readOffset : List Char → Option (Option Int)
  | [] => some none
  | ['Z'] => some (some 0)
  | sign :: rest => do
      let factor : Int ← if sign = '+' then some 1 else if sign = '-' then some (-1) else none
      let (hours, rest) ← readDigits 2 rest
      let (minutes, rest) ← readNext rest
      let (seconds, rest) ← readNext rest
      if rest.isEmpty then some (some (factor * (hours * 3600 + minutes * 60 + seconds : Nat)))
      else none

/-- Read a moment in its standard text, whose last parts may be left out. -/
def read? (text : String) : Option Moment := do
  let (year, rest) ← readDigits 4 text.toList
  let (month, rest) ← readMark '-' rest >>= readDigits 2
  let (day, rest) ← readMark '-' rest >>= readDigits 2
  let date ← (Date.make year month day).toOption
  match rest with
  | [] => (make date 0 0 0 0 none).toOption
  | _ :: rest =>
      let (hour, rest) ← readDigits 2 rest
      let (minute, rest) ← readNext rest
      let (second, rest) ← readNext rest
      let (microsecond, rest) := readFraction rest
      let offset ← readOffset rest
      (make date hour minute second microsecond offset).toOption

end Moment

end UplinkShaper
