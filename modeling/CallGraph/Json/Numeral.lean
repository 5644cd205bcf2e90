import CallGraph.Data.Basic
import CallGraph.Number.Decimal

/-!
# Numbers in JSON

A number as it is written, and the value it has.  A number without fraction and exponent is an
integer as long as 64 bits hold it.  The value of any other number is computed from as many of its
leading digits as 64 bits hold.
-/

namespace CallGraph.Json

/-- A number as it is written: the digits before and after the point, and the exponent. -/
structure Numeral where
  negative : Bool
  whole : List Char
  fraction : Option (List Char)
  exponent : Option (Bool × List Char)
deriving Repr

/-- Takes digits into `significand` while the result has at most 64 bits, and returns it with the
number of the digits that were taken. -/
def takeDigits (significand : Nat) : List Char → Nat × Nat
  | [] => (significand, 0)
  | c :: rest =>
      let next := 10 * significand + (c.toNat - '0'.toNat)
      if next < Nat.pow 2 64 then
        let (value, count) := takeDigits next rest
        (value, count + 1)
      else
        (significand, 0)

/-- Ten to the power of `n`, for `n` up to 308. -/
def powerOfTen (n : Nat) : Float :=
  OfScientific.ofScientific 1 false n

/-- `significand * 10 ^ exponent` in floating-point steps: one multiplication or division by a
power of ten, after divisions by `10 ^ 308` while the exponent lies below `-308`.  There is no
value beyond the largest number. -/
def scaleByTen? (x : Float) (exponent : Int) : Option Float :=
  if 308 < exponent then
    if x == 0.0 then some x else none
  else if 0 ≤ exponent then
    let y := x * powerOfTen exponent.toNat
    if y.isInf then none else some y
  else
    some (divideByTen x (-exponent).toNat)
where
  /-- `x / 10 ^ n` in steps of at most `10 ^ 308`; nothing is left of it after three of them. -/
  divideByTen (x : Float) (n : Nat) : Float :=
    if n ≤ 308 then x / powerOfTen n
    else if x == 0.0 then x
    else if n ≤ 616 then x / powerOfTen 308 / powerOfTen (n - 308)
    else if n ≤ 924 then x / powerOfTen 308 / powerOfTen 308 / powerOfTen (n - 616)
    else 0.0

/-- The floating-point value of the number, if it is not too large. -/
def Numeral.real? (x : Numeral) : Option Float :=
  let (w, taken) := takeDigits 0 x.whole
  let skipped := x.whole.length - taken
  let fraction := x.fraction.getD []
  let (significand, places) := takeDigits w fraction
  let shift : Int := skipped - places
  let exponent : Option Int :=
    match x.exponent with
    | none => some shift
    | some (minus, ds) =>
        let e := Number.ofDigits ds
        if e < Nat.pow 2 31 then
          some (if minus then shift - e else shift + e)
        else if significand = 0 || minus then
          none
        else
          some (Int.pow 2 31)
  let magnitude :=
    match exponent with
    | some e => scaleByTen? significand.toFloat e
    | none => some 0.0
  magnitude.map (Number.withSign x.negative)

/-- The integer that the number is written as, if it is written as one. -/
def Numeral.integer? (x : Numeral) : Option Int :=
  if x.fraction.isNone && x.exponent.isNone then
    let n : Int := Number.ofDigits x.whole
    some (if x.negative then -n else n)
  else none

/-- The value of the number: an integer if it is written as one of at most 64 bits and is not a
negative zero, else a floating-point number. -/
def Numeral.value (x : Numeral) : Data :=
  match x.integer? with
  | some n =>
      if (x.negative && n < 0 && -Int.pow 2 63 ≤ n) || (!x.negative && n < Int.pow 2 64) then
        .integer n
      else asReal
  | none => asReal
where
  asReal : Data :=
    match x.real? with
    | some y => .real y
    | none => .unusable

end CallGraph.Json
