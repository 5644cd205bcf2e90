import CallGraph.Calendar.Instant
import CallGraph.Number.Decimal
import CallGraph.Text.Blank

/-!
# Reading points in time

Three spellings are read: a strict one with a fixed number of digits everywhere, a lenient one that
allows fewer digits, signed years and white space, and days alone.
-/

namespace CallGraph.Calendar

/-- A step of reading: what was read, and the characters that are left. -/
abbrev Read (α : Type) := List Char → Option (α × List Char)

/-- Reads at least `least` and at most `most` decimal digits. -/
def number (least most : Nat) : Read Nat := fun cs =>
  let ds := (cs.take most).takeWhile Char.isDigit
  if ds.length < least then none else some (Number.ofDigits ds, cs.drop ds.length)

/-- Reads one of the given characters. -/
def oneOf (allowed : List Char) : Read Unit
  | [] => none
  | c :: rest => if allowed.contains c then some ((), rest) else none

/-- The characters after white space. -/
def skipBlank (cs : List Char) : List Char :=
  cs.dropWhile Text.isBlank

/-- Reads a year of at most four digits, or a signed one of any length. -/
def year : Read Int
  | '-' :: rest => (number 1 rest.length rest).map fun (n, rest) => (-(n : Int), rest)
  | '+' :: rest => (number 1 rest.length rest).map fun (n, rest) => ((n : Int), rest)
  | cs => (number 1 4 cs).map fun (n, rest) => ((n : Int), rest)

/-- Reads a fraction of a second, if there is one, as nanoseconds.  Further digits are dropped. -/
def fraction : Read Nat
  | '.' :: rest => do
      let (n, after) ← number 1 9 rest
      some (n * Nat.pow 10 (9 - (rest.length - after.length)), after.dropWhile Char.isDigit)
  | cs => some (0, cs)

/-- Reads the distance of a zone in seconds: `Z`, or a sign, hours, what `separator` reads, and
minutes. -/
def zone (separator : Read Unit) : Read Int
  | [] => none
  | c :: rest =>
      if c = 'Z' || c = 'z' then some (0, rest)
      else if c = '+' || c = '-' || c = '\u2212' then do
        let (hours, rest) ← number 2 2 rest
        let (_, rest) ← separator rest
        let (minutes, rest) ← number 2 2 rest
        if minutes < 60 then
          let seconds : Int := hours * 3600 + minutes * 60
          some (if c = '+' then seconds else -seconds, rest)
        else none
      else none

/-- The point in time with the given parts, if day, time and zone exist. -/
def instant? (year : Int) (month day hour minute second nanosecond : Nat) (offset : Int) :
    Option Instant :=
  let date : Date := ⟨year, month, day⟩
  if date.isValid && hour < 24 && minute < 60 && second ≤ 60 && offset.natAbs < 86400 then
    let (second, leap) := if second = 60 then (59, 1000000000) else (second, 0)
    (Instant.mk date.toDays (hour * 3600 + minute * 60 + second) (nanosecond + leap)).atOffset?
      offset
  else none

/-- Reads a point in time in the strict spelling. -/
def strict? (cs : List Char) : Option Instant := do
  let (year, cs) ← number 4 4 cs
  let (_, cs) ← oneOf ['-'] cs
  let (month, cs) ← number 2 2 cs
  let (_, cs) ← oneOf ['-'] cs
  let (day, cs) ← number 2 2 cs
  let (_, cs) ← oneOf ['T', 't', ' '] cs
  let (hour, cs) ← number 2 2 cs
  let (_, cs) ← oneOf [':'] cs
  let (minute, cs) ← number 2 2 cs
  let (_, cs) ← oneOf [':'] cs
  let (second, cs) ← number 2 2 cs
  let (nanosecond, cs) ← fraction cs
  let (offset, cs) ← zone (oneOf [':']) cs
  if cs.isEmpty then instant? year month day hour minute second nanosecond offset else none

/-- Colons and white space between the hours and minutes of a zone. -/
def looseSeparator : Read Unit := fun cs =>
  some ((), cs.dropWhile fun c => c == ':' || Text.isBlank c)

/-- Reads a zone, which may be the letters UTC. -/
def looseZone : Read Int := fun cs =>
  if (cs.take 3).map Char.toUpper = ['U', 'T', 'C'] then some (0, cs.drop 3)
  else zone looseSeparator cs

/-- Reads year, month and day with hyphens between them, where `gap` may stand before hyphens. -/
def date (gap : List Char → List Char) : Read (Int × Nat × Nat) := fun cs => do
  let (y, cs) ← year (skipBlank cs)
  let (_, cs) ← oneOf ['-'] (gap cs)
  let (m, cs) ← number 1 2 (skipBlank cs)
  let (_, cs) ← oneOf ['-'] (gap cs)
  let (d, cs) ← number 1 2 (skipBlank cs)
  some ((y, m, d), cs)

/-- Reads a point in time in the lenient spelling. -/
def lenient? (cs : List Char) : Option Instant := do
  let ((y, m, d), cs) ← date skipBlank cs
  let (_, cs) ← oneOf ['T', 't', ' '] cs
  let (hour, cs) ← number 1 2 (skipBlank cs)
  let (_, cs) ← oneOf [':'] (skipBlank cs)
  let (minute, cs) ← number 1 2 (skipBlank cs)
  let (_, cs) ← oneOf [':'] (skipBlank cs)
  let (second, cs) ← number 1 2 (skipBlank cs)
  let (nanosecond, cs) ← fraction cs
  let (offset, cs) ← looseZone (skipBlank cs)
  if (skipBlank cs).isEmpty then instant? y m d hour minute second nanosecond offset else none

/-- Reads a day, as the first moment of it. -/
def day? (cs : List Char) : Option Instant := do
  let ((y, m, d), cs) ← date id cs
  if cs.isEmpty then instant? y m d 0 0 0 0 0 else none

end CallGraph.Calendar
