import GlyphLine.Text.Decimal

/-!
# Dates and times

A timestamp is a date, a time of day to the nanosecond, and an offset from universal
time in whole minutes.  It is written as the standard RFC 3339 asks: date, `T`, time,
and the offset or `Z`.

* `Timestamp`: the timestamps, all of which exist in the calendar.
* `Timestamp.text`: the written form.  The fraction has no zeros at its end.
* `Timestamp.ofText?`: the reader.  It takes any character of one byte between date and
  time, either size of `z`, and any number of digits in a fraction, of which the first
  nine count.  A leap second is the last nanosecond of the second before it, and may
  stand only at the end of a month in universal time.
-/

namespace GlyphLine
namespace Calendar

/-- Whether a year has a leap day. -/
def isLeapYear (year : Nat) : Bool := year % 4 == 0 && (year % 100 != 0 || year % 400 == 0)

/-- The number of days of a month. -/
def daysIn (year month : Nat) : Nat :=
  match month with
  | 2 => if isLeapYear year then 29 else 28
  | 4 | 6 | 9 | 11 => 30
  | _ => 31

/-- Whether a date exists. -/
def isDate (year month day : Nat) : Bool :=
  year ≤ 9999 && 1 ≤ month && month ≤ 12 && 1 ≤ day && day ≤ daysIn year month

/-- Whether a time of day exists. -/
def isTime (hour minute second nanosecond : Nat) : Bool :=
  hour < 24 && minute < 60 && second < 60 && nanosecond < 1000000000

/-- Whether an offset is less than a day. -/
def isOffset (minutes : Int) : Bool := minutes.natAbs < 24 * 60

end Calendar

open Calendar

/-- A date and a time with their offset from universal time in minutes. -/
structure Timestamp where
  year : Nat
  month : Nat
  day : Nat
  hour : Nat
  minute : Nat
  second : Nat
  nanosecond : Nat
  offset : Int
  exists_date : isDate year month day = true
  exists_time : isTime hour minute second nanosecond = true
  exists_offset : isOffset offset = true
  deriving DecidableEq, Repr

namespace Timestamp

/-- The beginning of the year 1970 in universal time. -/
def epoch : Timestamp := ⟨1970, 1, 1, 0, 0, 0, 0, 0, by decide, by decide, by decide⟩

instance : Inhabited Timestamp := ⟨epoch⟩

/-- The timestamp of a date, a time and an offset, if they exist. -/
def of? (year month day hour minute second nanosecond : Nat) (offset : Int) :
    Option Timestamp :=
  if h : isDate year month day = true ∧ isTime hour minute second nanosecond = true ∧
      isOffset offset = true then
    some ⟨year, month, day, hour, minute, second, nanosecond, offset, h.1, h.2.1, h.2.2⟩
  else none

/-! ## Writing -/

/-- The last `n` decimal digits of a number. -/
def digits (n value : Nat) : List Char :=
  match n with
  | 0 => []
  | n + 1 => digits n (value / 10) ++ [Nat.digitChar (value % 10)]

/-- The nine digits of a fraction without the zeros at its end. -/
def fractionDigits (nanosecond : Nat) : List Char :=
  ((digits 9 nanosecond).reverse.dropWhile (· == '0')).reverse

/-- An offset in hours and minutes, or `Z` for none. -/
def offsetChars (offset : Int) : List Char :=
  if offset = 0 then ['Z']
  else
    (if offset < 0 then '-' else '+') ::
      digits 2 (offset.natAbs / 60) ++ ':' :: digits 2 (offset.natAbs % 60)

/-- The characters of the written form. -/
def chars (t : Timestamp) : List Char :=
  digits 4 t.year ++ '-' :: digits 2 t.month ++ '-' :: digits 2 t.day ++ 'T' ::
    digits 2 t.hour ++ ':' :: digits 2 t.minute ++ ':' :: digits 2 t.second ++
    (if t.nanosecond = 0 then [] else '.' :: fractionDigits t.nanosecond) ++
    offsetChars t.offset

/-- The written form. -/
def text (t : Timestamp) : String := String.ofList t.chars

/-- The form of a log, to the microsecond and without an offset. -/
def logText (t : Timestamp) : String :=
  String.ofList (digits 4 t.year ++ '-' :: digits 2 t.month ++ '-' :: digits 2 t.day ++ 'T' ::
    digits 2 t.hour ++ ':' :: digits 2 t.minute ++ ':' :: digits 2 t.second ++ '.' ::
    digits 6 (t.nanosecond / 1000) ++ ['Z'])

/-! ## Reading -/

/-- The number of exactly `n` digits, and what follows. -/
def number? (n : Nat) (s : List Char) : Option (Nat × List Char) :=
  let ds := s.take n
  if ds.length = n && ds.all Char.isDigit then some (Text.digitsValue ds, s.drop n) else none

/-- What follows a character. -/
def after? (c : Char) : List Char → Option (List Char)
  | [] => none
  | d :: rest => if d = c then some rest else none

/-- What follows any one character of a single byte. -/
def afterSeparator? : List Char → Option (List Char)
  | [] => none
  | c :: rest => if c.toNat < 0x80 then some rest else none

/-- The nanoseconds of the digits of a fraction. -/
def nanosecondsOf (ds : List Char) : Nat :=
  let first := ds.take 9
  Text.digitsValue first * Nat.pow 10 (9 - first.length)

/-- A fraction of a second, if there is one, in nanoseconds. -/
def fraction? : List Char → Option (Nat × List Char)
  | '.' :: rest =>
    let (ds, rest) := rest.span Char.isDigit
    if ds.isEmpty then none else some (nanosecondsOf ds, rest)
  | s => some (0, s)

/-- An offset in minutes, which ends the text. -/
def offset? : List Char → Option Int
  | ['Z'] | ['z'] => some 0
  | c :: rest =>
    if c = '+' || c = '-' then do
      let (hours, rest) ← number? 2 rest
      let rest ← after? ':' rest
      let (minutes, rest) ← number? 2 rest
      if rest.isEmpty && hours < 24 && minutes < 60 then
        let n : Int := hours * 60 + minutes
        some (if c = '-' then -n else n)
      else none
    else none
  | [] => none

/-- A date: year, month and day. -/
def date? (s : List Char) : Option ((Nat × Nat × Nat) × List Char) := do
  let (year, s) ← number? 4 s
  let s ← after? '-' s
  let (month, s) ← number? 2 s
  let s ← after? '-' s
  let (day, s) ← number? 2 s
  some ((year, month, day), s)

/-- A time of day: hour, minute, second and nanosecond. -/
def time? (s : List Char) : Option ((Nat × Nat × Nat × Nat) × List Char) := do
  let (hour, s) ← number? 2 s
  let s ← after? ':' s
  let (minute, s) ← number? 2 s
  let s ← after? ':' s
  let (second, s) ← number? 2 s
  let (nanosecond, s) ← fraction? s
  some ((hour, minute, second, nanosecond), s)

/-- Whether the minute of a timestamp is the last one of a month in universal time. -/
def endsMonth (t : Timestamp) : Bool :=
  let minutes : Int := t.hour * 60 + t.minute - t.offset
  if minutes < 0 then minutes == -1 && t.day == 1
  else if 24 * 60 ≤ minutes then
    minutes == 2 * 24 * 60 - 1 && t.day + 1 == daysIn t.year t.month
  else minutes == 24 * 60 - 1 && t.day == daysIn t.year t.month

/-- The timestamp of a written form. -/
def ofChars? (s : List Char) : Option Timestamp := do
  let ((year, month, day), s) ← date? s
  let s ← afterSeparator? s
  let ((hour, minute, second, nanosecond), s) ← time? s
  let offset ← offset? s
  if second = 60 then
    (of? year month day hour minute 59 999999999 offset).filter endsMonth
  else of? year month day hour minute second nanosecond offset

/-- The timestamp of a text. -/
def ofText? (s : String) : Option Timestamp := ofChars? s.toList

/-! ## Clocks -/

/-- The date that is a number of days behind the first one of a year, looking at years
from there on. -/
def dateAfter : (years : Nat) → (year days : Nat) → Nat × Nat × Nat
  | 0, year, _ => (year, 1, 1)
  | years + 1, year, days =>
    let length := if isLeapYear year then 366 else 365
    if length ≤ days then dateAfter years (year + 1) (days - length)
    else monthAfter year 12 1 days
where
  /-- The date that is a number of days behind the first one of a month. -/
  monthAfter (year : Nat) : (months : Nat) → (month days : Nat) → Nat × Nat × Nat
    | 0, month, _ => (year, month, 1)
    | months + 1, month, days =>
      if daysIn year month ≤ days then monthAfter year months (month + 1) (days - daysIn year month)
      else (year, month, days + 1)

/-- The timestamp, in universal time, of a clock that counts the seconds since 1970. -/
def ofClock (seconds nanosecond : Nat) : Timestamp :=
  let (year, month, day) := dateAfter 8030 1970 (seconds / 86400)
  let s := seconds % 86400
  (of? year month day (s / 3600) (s / 60 % 60) (s % 60) nanosecond 0).getD epoch

end Timestamp
end GlyphLine
