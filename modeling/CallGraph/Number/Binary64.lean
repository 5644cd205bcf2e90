/-!
# Binary floating-point numbers

What the sixty-four bits of a `Float` stand for, in whole numbers: every finite value is
`m * 2 ^ q`.  The exact texts of numbers are computed from this reading and not with rounded
arithmetic.
-/

namespace CallGraph.Number

/-- The value of a floating-point number: `finite negative m q` stands for `± m * 2 ^ q`. -/
inductive Binary64 where
  | nan
  | infinite (negative : Bool)
  | finite (negative : Bool) (m : Nat) (q : Int)
deriving DecidableEq, Repr

namespace Binary64

/-- Reads sign, exponent and fraction from the bits. -/
def ofBits (bits : UInt64) : Binary64 :=
  let n := bits.toNat
  let negative := n / Nat.pow 2 63 == 1
  let exponent : Nat := n / Nat.pow 2 52 % Nat.pow 2 11
  let fraction := n % Nat.pow 2 52
  if exponent = 2047 then
    if fraction = 0 then infinite negative else nan
  else if exponent = 0 then
    finite negative fraction (-1074)
  else
    finite negative (Nat.pow 2 52 + fraction) (Int.ofNat exponent - 1075)

/-- The value of a `Float`. -/
def ofFloat (x : Float) : Binary64 :=
  ofBits x.toBits

/-- The place of a number in the total order of all floating-point numbers.  The bits of those
without a sign stand in this order already, and those with a sign stand before them the other way
round, so that zero has two places and what is not a number lies beyond the infinite ones. -/
def place (x : Float) : Int :=
  let n := x.toBits.toNat
  if n < Nat.pow 2 63 then n else Nat.pow 2 63 - 1 - n

/-- Whether the next smaller magnitude is only half a step away: at a power of two, unless the
step cannot get any smaller. -/
def closeBelow (m : Nat) (q : Int) : Bool :=
  m == Nat.pow 2 52 && -1074 < q

end Binary64

/-- The positive fraction `m * 2 ^ q * 10 ^ k` as numerator and denominator. -/
def scaled (m : Nat) (q k : Int) : Nat × Nat :=
  (m * Nat.pow 2 q.toNat * Nat.pow 10 k.toNat, Nat.pow 2 (-q).toNat * Nat.pow 10 (-k).toNat)

/-- `text`, filled up with zeros on its left to at least `width` characters. -/
def padZeros (width : Nat) (text : List Char) : List Char :=
  List.replicate (width - text.length) '0' ++ text

/-- The decimal digits of a whole number. -/
def digits (n : Nat) : List Char :=
  Nat.toDigits 10 n

/-- The decimal digits of `n * 10 ^ (-places)`, with a point before the last `places` of them. -/
def withPoint (places n : Nat) : List Char :=
  let ds := padZeros (places + 1) (digits n)
  if places = 0 then ds
  else ds.take (ds.length - places) ++ '.' :: ds.drop (ds.length - places)

end CallGraph.Number
