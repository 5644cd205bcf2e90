import CallGraph.Number.Shortest

/-!
# Reading decimal numbers

The floating-point number nearest to a decimal number.
-/

namespace CallGraph.Number

/-- The value of a list of decimal digits. -/
def ofDigits (ds : List Char) : Nat :=
  ds.foldl (fun n c => 10 * n + (c.toNat - '0'.toNat)) 0

/-- The nearest floating-point number, infinite where the decimal number is too large.  Exponents
far out of range are decided without computing the power. -/
def Decimal.toFloat (x : Decimal) : Float :=
  let size := (Number.digits x.coefficient).length + x.exponent
  if x.coefficient = 0 || size < -400 then 0.0
  else if 400 < size then 1.0 / 0.0
  else OfScientific.ofScientific x.coefficient (x.exponent < 0) x.exponent.natAbs

/-- `x` with the given sign. -/
def withSign (negative : Bool) (x : Float) : Float :=
  if negative then -x else x

end CallGraph.Number
