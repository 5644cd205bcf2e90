import CallGraph.Number.Binary64

/-!
# Points in time

A point in time is a day, counted from 1 January 1970 in the Gregorian calendar, and a time of day
to the nanosecond.  A minute may have a sixty-first second, which is kept as a fraction of at least
one second after second 59.
-/

namespace CallGraph

/-- A day in the calendar. -/
structure Date where
  year : Int
  month : Nat
  day : Nat
deriving DecidableEq, Repr

namespace Date

/-- Whether a year has a 29 February. -/
def isLeap (year : Int) : Bool :=
  (year % 4 == 0 && year % 100 != 0) || year % 400 == 0

/-- The number of days of a month. -/
def daysInMonth (year : Int) : Nat → Nat
  | 2 => if isLeap year then 29 else 28
  | 4 | 6 | 9 | 11 => 30
  | _ => 31

/-- Whether the day exists, in a year that the calendar goes to. -/
def isValid (date : Date) : Bool :=
  -262143 ≤ date.year && date.year ≤ 262142 && 1 ≤ date.month && date.month ≤ 12 &&
    1 ≤ date.day && date.day ≤ daysInMonth date.year date.month

/-- The number of days since 1 January 1970.  Years are counted from March, so that a leap day is
the last day of its year. -/
def toDays (date : Date) : Int :=
  let year := if date.month ≤ 2 then date.year - 1 else date.year
  let month : Int := (date.month + 9) % 12
  let dayOfYear := (153 * month + 2) / 5 + date.day - 1
  365 * year + year / 4 - year / 100 + year / 400 + dayOfYear - 719468

/-- The day with the given number. -/
def ofDays (days : Int) : Date :=
  let n := days + 719468
  let era := n / 146097
  let dayOfEra := n % 146097
  let yearOfEra := (dayOfEra - dayOfEra / 1460 + dayOfEra / 36524 - dayOfEra / 146096) / 365
  let dayOfYear := dayOfEra - (365 * yearOfEra + yearOfEra / 4 - yearOfEra / 100)
  let month := (5 * dayOfYear + 2) / 153
  let day := dayOfYear - (153 * month + 2) / 5 + 1
  let year := yearOfEra + era * 400
  if month < 10 then ⟨year, (month + 3).toNat, day.toNat⟩
  else ⟨year + 1, (month - 9).toNat, day.toNat⟩

/-- A number with at least `width` digits. -/
def padded (width n : Nat) : List Char :=
  Number.padZeros width (Number.digits n)

/-- The year with four digits; other years have a sign. -/
def yearText (year : Int) : List Char :=
  if 0 ≤ year && year ≤ 9999 then padded 4 year.toNat
  else (if year < 0 then '-' else '+') :: padded 4 year.natAbs

/-- The day as year, month and day. -/
def toChars (date : Date) : List Char :=
  yearText date.year ++ '-' :: padded 2 date.month ++ '-' :: padded 2 date.day

end Date

/-- A point in time: the day, the second of the day, and the nanoseconds after it. -/
structure Instant where
  days : Int
  second : Nat
  nanosecond : Nat
deriving DecidableEq, Repr

namespace Instant

/-- The first moment of 1970. -/
def epoch : Instant where
  days := 0
  second := 0
  nanosecond := 0

instance : Inhabited Instant := ⟨epoch⟩

/-- The day of the point in time. -/
def date (t : Instant) : Date :=
  Date.ofDays t.days

/-- The point in time that clocks `offset` seconds ahead show as `t`, unless the calendar does not
go that far. -/
def atOffset? (t : Instant) (offset : Int) : Option Instant :=
  let second := (t.second : Int) - offset
  let moved := ⟨t.days + second / 86400, (second % 86400).toNat, t.nanosecond⟩
  if moved.date.isValid then some moved else none

/-- A fraction of a second, with three, six or nine decimal places, whichever suffices. -/
def fractionText (nanosecond : Nat) : List Char :=
  if nanosecond = 0 then []
  else if nanosecond % 1000000 = 0 then '.' :: Date.padded 3 (nanosecond / 1000000)
  else if nanosecond % 1000 = 0 then '.' :: Date.padded 6 (nanosecond / 1000)
  else '.' :: Date.padded 9 nanosecond

/-- The point in time with the given sign of its zone. -/
def toText (t : Instant) (zone : String) : String :=
  let leap := t.nanosecond / 1000000000
  String.ofList
    (t.date.toChars ++ 'T' :: Date.padded 2 (t.second / 3600) ++ ':' ::
      Date.padded 2 (t.second / 60 % 60) ++ ':' :: Date.padded 2 (t.second % 60 + leap) ++
      fractionText (t.nanosecond % 1000000000) ++ zone.toList)

end Instant

end CallGraph
