import CallGraph.Number.Binary64

/-!
# Numbers with a fixed number of decimal places

The exact value is rounded to the nearest multiple of the last place, and a tie goes to the even
one.  A number that rounds to zero keeps its sign.
-/

namespace CallGraph.Number

/-- `n / d` rounded to the nearest whole number, a tie to the even one. -/
def divideToEven (n d : Nat) : Nat :=
  let q := n / d
  let r := n % d
  if 2 * r < d then q
  else if d < 2 * r then q + 1
  else if q % 2 = 0 then q
  else q + 1

/-- The number with `places` decimal places. -/
def fixed (places : Nat) (x : Float) : String :=
  match Binary64.ofFloat x with
  | .nan => "NaN"
  | .infinite negative => if negative then "-inf" else "inf"
  | .finite negative m q =>
      let (n, d) := scaled m q places
      let text := withPoint places (divideToEven n d)
      String.ofList (if negative then '-' :: text else text)

end CallGraph.Number
