import CallGraph.Calendar.Reader
import CallGraph.Data.Basic

/-!
# Scalars of TOML

Truth values, numbers, dates and times, each as one word of a TOML text.  A date or time becomes a
record, which no field of this library reads.
-/

namespace CallGraph.Toml

/-- The digits of a number, where single underscores may stand between digits. -/
def ungroup? (isDigit : Char → Bool) : List Char → Option (List Char)
  | [] => none
  | [c] => if isDigit c then some [c] else none
  | c :: '_' :: rest => if isDigit c then (ungroup? isDigit rest).map (c :: ·) else none
  | c :: rest => if isDigit c then (ungroup? isDigit rest).map (c :: ·) else none

/-- The value of a digit in any base up to sixteen. -/
def digitValue (c : Char) : Nat :=
  if c.isDigit then c.toNat - '0'.toNat
  else if 'a' ≤ c ∧ c ≤ 'f' then c.toNat - 'a'.toNat + 10
  else if 'A' ≤ c ∧ c ≤ 'F' then c.toNat - 'A'.toNat + 10
  else 16

/-- A whole number of 64 bits with a sign. -/
def integer? (n : Int) : Option Data :=
  if -Int.pow 2 63 ≤ n ∧ n < Int.pow 2 63 then some (.integer n) else none

/-- A number in another base than ten. -/
def based? (base : Nat) (cs : List Char) : Option Data := do
  let ds ← ungroup? (fun c => digitValue c < base) cs
  integer? (ds.foldl (fun n c => base * n + digitValue c) 0)

/-- The digits of a decimal number, which do not begin with a zero unless that is all. -/
def wholeDigits? (cs : List Char) : Option (List Char) := do
  let ds ← ungroup? Char.isDigit cs
  if ds.head? = some '0' && 1 < ds.length then none else some ds

/-- The exponent of a number, after its sign. -/
def exponent? : List Char → Option Int
  | '+' :: cs => (ungroup? Char.isDigit cs).map fun ds => (Number.ofDigits ds : Int)
  | '-' :: cs => (ungroup? Char.isDigit cs).map fun ds => -(Number.ofDigits ds : Int)
  | cs => (ungroup? Char.isDigit cs).map fun ds => (Number.ofDigits ds : Int)

/-- A decimal number without its sign: an integer, or a number with a fraction or an exponent. -/
def decimal? (negative : Bool) (cs : List Char) : Option Data := do
  let isMark (c : Char) : Bool := c == 'e' || c == 'E'
  let mantissa := cs.takeWhile (!isMark ·)
  let whole ← wholeDigits? (mantissa.takeWhile (· != '.'))
  let fraction ← match mantissa.dropWhile (· != '.') with
    | [] => some []
    | _ :: rest => ungroup? Char.isDigit rest
  let exponent ← match cs.dropWhile (!isMark ·) with
    | [] => some 0
    | _ :: rest => exponent? rest
  if cs.all fun c => c.isDigit || c == '_' then
    let n : Int := Number.ofDigits whole
    integer? (if negative then -n else n)
  else
    let x := (Number.Decimal.mk (Number.ofDigits (whole ++ fraction))
      (exponent - fraction.length)).toFloat
    if x.isInf && !negative then none else some (.real (Number.withSign negative x))

/-- A number, or the words for infinity and for what is no number. -/
def number? : List Char → Option Data
  | '0' :: 'x' :: cs => based? 16 cs
  | '0' :: 'o' :: cs => based? 8 cs
  | '0' :: 'b' :: cs => based? 2 cs
  | cs =>
      let (negative, cs) := match cs with
        | '-' :: cs => (true, cs)
        | '+' :: cs => (false, cs)
        | cs => (false, cs)
      match cs with
      | ['i', 'n', 'f'] => some (.real (Number.withSign negative (1.0 / 0.0)))
      | ['n', 'a', 'n'] => some (.real (0.0 / 0.0))
      | cs => decimal? negative cs

open Calendar in
/-- Reads a time of day, if the word begins with one. -/
def time? (cs : List Char) : Option (List Char) := do
  let (hour, cs) ← number 2 2 cs
  let (_, cs) ← oneOf [':'] cs
  let (minute, cs) ← number 2 2 cs
  let (_, cs) ← oneOf [':'] cs
  let (second, cs) ← number 2 2 cs
  let (_, cs) ← fraction cs
  if hour < 24 && minute < 60 && second ≤ 60 then some cs else none

open Calendar in
/-- Reads a day, if the word begins with one. -/
def day? (cs : List Char) : Option (List Char) := do
  let (year, cs) ← number 4 4 cs
  let (_, cs) ← oneOf ['-'] cs
  let (month, cs) ← number 2 2 cs
  let (_, cs) ← oneOf ['-'] cs
  let (day, cs) ← number 2 2 cs
  if (Date.mk year month day).isValid then some cs else none

/-- Whether a word is the zone of a time. -/
def isZone : List Char → Bool
  | [] => true
  | ['Z'] | ['z'] => true
  | '+' :: cs | '-' :: cs => ((time? (cs ++ [':', '0', '0'])).map List.isEmpty).getD false
  | _ => false

/-- Whether a word is a time of day, or a day that may be followed by a time and its zone. -/
def isTime (cs : List Char) : Bool :=
  match day? cs with
  | some [] => true
  | some (c :: rest) =>
      (c == 'T' || c == 't' || c == ' ') && ((time? rest).map isZone).getD false
  | none => ((time? cs).map List.isEmpty).getD false

/-- The value of a word. -/
def scalar? (cs : List Char) : Option Data :=
  if cs = "true".toList then some (.bool true)
  else if cs = "false".toList then some (.bool false)
  else if isTime cs then some (.record [("datetime", .text (String.ofList cs))])
  else number? cs

end CallGraph.Toml
