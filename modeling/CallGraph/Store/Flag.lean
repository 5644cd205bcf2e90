import CallGraph.Number.Decimal

/-!
# Truth values in columns

A column of whole numbers holds a truth value as zero or another number.  A text that is stored in
such a column becomes a number if it reads as a whole number, however it is written; any other
text is kept, and is no truth value.
-/

namespace CallGraph.Flag

/-- A character that may stand around a number. -/
def isSpace (c : Char) : Bool :=
  c == ' ' || (9 ≤ c.toNat && c.toNat ≤ 13)

/-- The text without white space at its two ends. -/
def trimmed (cs : List Char) : List Char :=
  ((cs.dropWhile isSpace).reverse.dropWhile isSpace).reverse

/-- A sign, and the characters after it. -/
def sign : List Char → Bool × List Char
  | '-' :: rest => (true, rest)
  | '+' :: rest => (false, rest)
  | cs => (false, cs)

/-- Reads the exponent of a number, which is all that is left of it. -/
def exponent? : List Char → Option Int
  | [] => some 0
  | mark :: rest =>
      let (negative, ds) := sign rest
      if (mark == 'e' || mark == 'E') && !ds.isEmpty && ds.all Char.isDigit then
        some (if negative then -(Number.ofDigits ds : Int) else Number.ofDigits ds)
      else none

/-- Whether a whole number fits into 64 bits with a sign. -/
def fits (negative : Bool) (n : Nat) : Bool :=
  n < Nat.pow 2 63 || (negative && n == Nat.pow 2 63)

/-- Whether a number with a fraction or an exponent is whole and not too large, and is not zero. -/
def ofFraction? (x : Number.Decimal) : Option Bool :=
  match Number.Binary64.ofFloat x.toFloat with
  | .finite _ m q =>
      let (n, d) := Number.scaled m q 0
      if n % d = 0 && n / d < Nat.pow 2 63 then some (n != 0) else none
  | _ => none

/-- The truth value that a text in the column stands for. -/
def ofText? (text : String) : Option Bool := do
  let (negative, cs) := sign (trimmed text.toList)
  let whole := cs.takeWhile Char.isDigit
  let rest := cs.drop whole.length
  if rest.isEmpty then
    let n := Number.ofDigits whole
    if whole.isEmpty || !fits negative n then none else some (n != 0)
  else
    let (fraction, rest) := match rest with
      | '.' :: rest => (rest.takeWhile Char.isDigit, rest.dropWhile Char.isDigit)
      | rest => ([], rest)
    if whole.isEmpty && fraction.isEmpty then none
    else
      let exponent ← exponent? rest
      ofFraction? ⟨Number.ofDigits (whole ++ fraction), exponent - fraction.length⟩

/-- The text that a truth value is stored as. -/
def toText (value : Bool) : String :=
  if value then "1" else "0"

/-- A truth value is read as it was stored. -/
theorem ofText?_toText (value : Bool) : ofText? (toText value) = some value := by
  cases value <;> decide

end CallGraph.Flag
