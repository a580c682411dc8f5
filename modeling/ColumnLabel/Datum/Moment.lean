import ColumnLabel.Number.Numeral
import ColumnLabel.Text.Search

/-!
# ColumnLabel.Datum.Moment

Days of the calendar, times of day, and both together: their ISO 8601 notation, their written form, and
when two of them are the same.

A clock may know how far it is ahead of universal time.  Less than a second ahead or behind does not count:
such a clock shows universal time.

The notation has fields of a fixed number of digits.  The written form has the fields as plain numbers,
seconds and microseconds of zero left out, the microseconds first; the offset comes last, as days, seconds
and microseconds.

Two moments without an offset are the same when their clocks agree.  Two with offsets are the same when
they are one instant, wherever their clocks stand; one with and one without an offset never are.
-/

namespace ColumnLabel

/-- A day of the calendar. -/
structure Day where
  year : Nat
  month : Nat
  day : Nat
  deriving DecidableEq, Repr

/-- A time of day in microseconds since midnight, and how many microseconds the clock is ahead of universal
time, where that is known. -/
structure Clock where
  time : Nat
  offset? : Option Int
  deriving DecidableEq, Repr

/-- A time of day on a day. -/
structure DateTime where
  day : Day
  clock : Clock
  deriving DecidableEq, Repr

namespace Moment

/-- The microseconds of a second. -/
def second : Nat := 1000000

/-- The microseconds of a minute. -/
def minute : Nat := 60 * second

/-- The microseconds of an hour. -/
def hour : Nat := 60 * minute

/-- The microseconds of a day. -/
def dayLength : Nat := 24 * hour

/-! ## Calendar -/

/-- Does a year of the Gregorian calendar have a leap day? -/
def isLeapYear (year : Nat) : Bool := year % 4 == 0 && (year % 100 != 0 || year % 400 == 0)

/-- The lengths of the months of a year, in days. -/
def monthLengths (year : Nat) : List Nat :=
  [31, if isLeapYear year then 29 else 28, 31, 30, 31, 30, 31, 31, 30, 31, 30, 31]

/-- The number of a day, counted from the first day of the first year. -/
def dayNumber (year month day : Nat) : Nat :=
  let years := year - 1
  365 * years + years / 4 - years / 100 + years / 400 +
    ((monthLengths year).take (month - 1)).foldr (· + ·) 0 + day

/-- One year on, the count of the multiples of a number grows by one if it divides the year. -/
theorem div_of_pos {year : Nat} (hy : 0 < year) (k : Nat) :
    year / k = (year - 1) / k + if year % k = 0 then 1 else 0 := by
  obtain ⟨n, rfl⟩ : ∃ n, year = n + 1 := ⟨year - 1, by omega⟩
  simp only [Nat.add_sub_cancel]
  split
  · next h => exact Nat.succ_div_of_mod_eq_zero h
  · next h => simpa using Nat.succ_div_of_mod_ne_zero h

/-- The day after the last one of a year is the first one of the next. -/
theorem dayNumber_newYear (year : Nat) (h : 0 < year) :
    dayNumber (year + 1) 1 1 = dayNumber year 12 31 + 1 := by
  have h4 := div_of_pos h 4
  have h100 := div_of_pos h 100
  have h400 := div_of_pos h 400
  have hle : (year - 1) / 100 ≤ (year - 1) / 4 := by omega
  have hleap : (if isLeapYear year then 29 else 28) + (if year % 100 = 0 then 1 else 0) =
      28 + (if year % 4 = 0 then 1 else 0) + (if year % 400 = 0 then 1 else 0) := by
    have : year % 100 = 0 → year % 4 = 0 := by omega
    have : year % 400 = 0 → year % 100 = 0 := by omega
    simp only [isLeapYear]
    by_cases year % 4 = 0 <;> by_cases year % 100 = 0 <;> by_cases year % 400 = 0 <;> simp_all
  simp only [dayNumber, monthLengths, Nat.add_sub_cancel, h4, h100, h400]
  generalize (year - 1) / 4 = a at *
  generalize (year - 1) / 100 = b at *
  generalize (year - 1) / 400 = c at *
  simp only [List.take, List.foldr, Nat.sub_self]
  omega

end Moment

/-- The number of a day, counted from the first day of the first year. -/
def Day.number (d : Day) : Nat := Moment.dayNumber d.year d.month d.day

namespace Moment

/-! ## Notation -/

/-- The digits of a number, with zeros in front to fill a width. -/
def padded (width n : Nat) : List Char := (Numeral.digits n).leftpad width '0'

/-- The number of a run of digits. -/
def number? (ds : List Char) : Option Nat :=
  if ds ≠ [] ∧ ds.all Char.isDigit then some (Nat.ofDigitChars 10 ds 0) else none

/-- The number of a field that has a width. -/
def field? (width : Nat) (ds : List Char) : Option Nat :=
  if ds.length = width then number? ds else none

/-- The number of a field of two digits below a bound. -/
def below? (bound : Nat) (ds : List Char) : Option Nat := (field? 2 ds).filter (· < bound)

/-- The microseconds of what follows the seconds: nothing, or a point and digits, of which six count. -/
def fraction? : List Char → Option Nat
  | [] => some 0
  | '.' :: ds => (number? ds).bind fun _ => number? ((ds ++ List.replicate 6 '0').take 6)
  | _ => none

/-- The microseconds of a time; what is left out at its end is zero. -/
def time? (cs : List Char) : Option Nat :=
  match Text.pieces ':' cs with
  | [h] => return (← below? 24 h) * hour
  | [h, m] => return (← below? 24 h) * hour + (← below? 60 m) * minute
  | [h, m, s] =>
    return (← below? 24 h) * hour + (← below? 60 m) * minute + (← below? 60 (s.take 2)) * second +
      (← fraction? (s.drop 2))
  | _ => none

/-- The notation of a time; seconds of zero may be left out. -/
def writeTime (keepSeconds : Bool) (t : Nat) : List Char :=
  padded 2 (t / hour) ++ ':' :: padded 2 (t % hour / minute) ++
    (if keepSeconds || t % minute ≠ 0 then ':' :: padded 2 (t % minute / second) else []) ++
    (if t % second = 0 then [] else '.' :: padded 6 (t % second))

end Moment

namespace Day

/-- Is there such a day? -/
def isValid (d : Day) : Bool :=
  1 ≤ d.year && 1 ≤ d.month && 1 ≤ d.day &&
    ((Moment.monthLengths d.year)[d.month - 1]?).any (d.day ≤ ·)

/-- Reads the notation of a day. -/
def read? (cs : List Char) : Option Day :=
  match Text.pieces '-' cs with
  | [year, month, day] => do
    let d : Day := ⟨← Moment.field? 4 year, ← Moment.field? 2 month, ← Moment.field? 2 day⟩
    if d.isValid then some d else none
  | _ => none

/-- The notation of a day. -/
def notate (d : Day) : List Char :=
  Moment.padded 4 d.year ++ '-' :: Moment.padded 2 d.month ++ '-' :: Moment.padded 2 d.day

end Day

namespace Clock

/-- Does an offset start here? -/
def startsOffset (c : Char) : Bool := c = '+' || c = '-' || c = 'Z'

/-- Reads the notation of a clock; the letter `Z` stands for universal time. -/
def read? (cs : List Char) : Option Clock := do
  let time ← Moment.time? (cs.takeWhile fun c => !startsOffset c)
  match cs.dropWhile fun c => !startsOffset c with
  | [] => return ⟨time, none⟩
  | ['Z'] => return ⟨time, some 0⟩
  | 'Z' :: _ => none
  | sign :: zone =>
    let distance ← Moment.time? zone
    let offset : Int := if distance < Moment.second then 0 else distance
    return ⟨time, some (if sign = '-' then -offset else offset)⟩

/-- The notation of a clock. -/
def notate (c : Clock) : List Char :=
  Moment.writeTime true c.time ++
    match c.offset? with
    | none => []
    | some offset => (if offset < 0 then '-' else '+') :: Moment.writeTime false offset.natAbs

end Clock

namespace DateTime

/-- Reads a day and a clock, with any one character between them.  A day alone is its midnight. -/
def read? (cs : List Char) : Option DateTime := do
  let day ← Day.read? (cs.take 10)
  match cs.drop 10 with
  | [] => return ⟨day, ⟨0, none⟩⟩
  | _ :: clock => return ⟨day, ← Clock.read? clock⟩

/-- The notation of a day and a clock, with a mark between them. -/
def notate (mark : Char) (t : DateTime) : List Char := t.day.notate ++ mark :: t.clock.notate

end DateTime

/-! ## Written form -/

namespace Moment

/-- A name with arguments, with a comma and a blank between them. -/
def call (name : String) (arguments : List (List Char)) : List Char :=
  name.toList ++ '(' :: (", ".toList.intercalate arguments ++ [')'])

/-- The written form of an offset, as days, seconds and microseconds; the days are rounded down. -/
def writeOffset (total : Int) : List Char :=
  if total = 0 then "datetime.timezone.utc".toList
  else
    let rest := total.fmod dayLength
    let part (name : String) (i : Int) : List (List Char) :=
      if i = 0 then [] else [name.toList ++ Numeral.ofInt i]
    call "datetime.timezone"
      [call "datetime.timedelta" (part "days=" (total.fdiv dayLength) ++ part "seconds=" (rest / second)
        ++ part "microseconds=" (rest % second))]

end Moment

/-- The arguments of a day. -/
def Day.arguments (d : Day) : List (List Char) := [d.year, d.month, d.day].map Numeral.digits

/-- The arguments of a clock. -/
def Clock.arguments (c : Clock) : List (List Char) :=
  let seconds := c.time % Moment.minute / Moment.second
  let micros := c.time % Moment.second
  let rest := if micros ≠ 0 then [seconds, micros] else if seconds ≠ 0 then [seconds] else []
  let zone := c.offset?.map fun offset => "tzinfo=".toList ++ Moment.writeOffset offset
  ([c.time / Moment.hour, c.time % Moment.hour / Moment.minute] ++ rest).map Numeral.digits ++ zone.toList

/-- The written form of a day. -/
def Day.written (d : Day) : List Char := Moment.call "datetime.date" d.arguments

/-- The written form of a clock. -/
def Clock.written (c : Clock) : List Char := Moment.call "datetime.time" c.arguments

/-- The written form of a day and a clock. -/
def DateTime.written (t : DateTime) : List Char :=
  Moment.call "datetime.datetime" (t.day.arguments ++ t.clock.arguments)

/-! ## Sameness -/

/-- The instant at which a clock shows its time on a day, in microseconds of universal time. -/
def Clock.instant? (c : Clock) (dayNumber : Nat) : Option Int :=
  c.offset?.map fun offset => (dayNumber * Moment.dayLength + c.time : Nat) - offset

/-- Do two clocks stand for the same time of day?  Here an instant may lie before or after the day, and the
two have to agree within their seconds too. -/
def Clock.same (a b : Clock) : Bool :=
  a == b ||
    match a.instant? 0, b.instant? 0 with
    | some x, some y => x == y && a.time % Moment.second == b.time % Moment.second
    | _, _ => false

/-- The instant of a day and a clock, if the clock knows its offset. -/
def DateTime.instant? (t : DateTime) : Option Int := t.clock.instant? t.day.number

/-- Are two days with clocks the same moment? -/
def DateTime.same (a b : DateTime) : Bool :=
  a == b ||
    match a.instant?, b.instant? with
    | some x, some y => x == y
    | _, _ => false

end ColumnLabel
