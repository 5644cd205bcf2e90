import CallGraph.Number.Binary64

/-!
# Shortest decimal numbers

The decimal number with the fewest digits among those that are closer to a given floating-point
number than to any other one, and of these the nearest.  It is searched for on the grids of the
multiples of `10 ^ k`, from coarse to fine: if a grid has a point in the interval that rounds to
the number, one of the number's two neighbours on that grid is such a point.
-/

namespace CallGraph.Number

/-- A decimal number `coefficient * 10 ^ exponent`. -/
structure Decimal where
  coefficient : Nat
  exponent : Int
deriving DecidableEq, Repr

/-- The point on the grid of the multiples of `10 ^ k` that reads back as `m * 2 ^ q`, if there is
one.  Of two such points the nearer is taken, and of two equally near ones the larger.  The bounds
of the interval belong to it if `m` is even. -/
def gridPoint? (m : Nat) (q k : Int) : Option Nat :=
  let (n, d) := scaled (4 * m) (q - 2) (-k)
  let (low, _) := scaled (4 * m - if Binary64.closeBelow m q then 1 else 2) (q - 2) (-k)
  let (high, _) := scaled (4 * m + 2) (q - 2) (-k)
  let inside (c : Nat) : Bool :=
    if m % 2 = 0 then low ≤ c * d && c * d ≤ high else low < c * d && c * d < high
  let below := n / d
  let above := below + 1
  let belowFits := 0 < below && inside below
  if inside above && (!belowFits || d ≤ 2 * (n % d)) then some above
  else if belowFits then some below
  else none

/-- Searches the grids from `10 ^ k` downwards, at most `grids` of them. -/
def searchGrids (m : Nat) (q : Int) : (grids : Nat) → (k : Int) → Option Decimal
  | 0, _ => none
  | grids + 1, k =>
      match gridPoint? m q k with
      | some c => some ⟨c, k⟩
      | none => searchGrids m q grids (k - 1)

/-- The shortest decimal number that reads back as `m * 2 ^ q`.  No number is below `10 ^ -324`
but zero, and none reaches `10 ^ 309`, so the search meets a grid that is fine enough. -/
def shortest (m : Nat) (q : Int) : Decimal :=
  if m = 0 then ⟨0, 0⟩ else (searchGrids m q 660 309).getD ⟨0, 0⟩

/-- The digits of a decimal number in positional notation, without an exponent. -/
def Decimal.positional (x : Decimal) : List Char :=
  if 0 ≤ x.exponent then
    digits x.coefficient ++ List.replicate (if x.coefficient = 0 then 0 else x.exponent.toNat) '0'
  else
    withPoint (-x.exponent).toNat x.coefficient

/-- The number as messages show it: the shortest decimal number, without an exponent and without
a point if it is whole. -/
def plain (x : Float) : String :=
  match Binary64.ofFloat x with
  | .nan => "NaN"
  | .infinite negative => if negative then "-inf" else "inf"
  | .finite negative m q =>
      let text := (shortest m q).positional
      String.ofList (if negative then '-' :: text else text)

/-- The number as data files show it: the shortest decimal number with at least one decimal
place, and with an exponent from `1e16` upwards and below `1e-5`.  What is no number is null. -/
def literal (x : Float) : String :=
  match Binary64.ofFloat x with
  | .nan => "null"
  | .infinite _ => "null"
  | .finite negative m q =>
      let short := shortest m q
      let ds := digits short.coefficient
      let point := ds.length + short.exponent
      let text :=
        if m = 0 then ['0', '.', '0']
        else if 0 ≤ short.exponent && point ≤ 16 then short.positional ++ ['.', '0']
        else if -5 < point && point ≤ 16 then short.positional
        else
          let mantissa := match ds with
            | [] => []
            | [c] => [c]
            | c :: rest => c :: '.' :: rest
          mantissa ++ 'e' :: (toString (point - 1)).toList
      String.ofList (if negative then '-' :: text else text)

end CallGraph.Number
