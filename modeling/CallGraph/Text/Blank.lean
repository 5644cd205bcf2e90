/-!
# White space

The blank characters of the Unicode standard, and what is cut with their help: the blank ends of a
text, and the lines of a source.
-/

namespace CallGraph.Text

/-- The characters with the Unicode property White_Space. -/
def isBlank (c : Char) : Bool :=
  let n := c.toNat
  (0x9 ≤ n && n ≤ 0xd) || n == 0x20 || n == 0x85 || n == 0xa0 || n == 0x1680 ||
    (0x2000 ≤ n && n ≤ 0x200a) || n == 0x2028 || n == 0x2029 || n == 0x202f || n == 0x205f ||
    n == 0x3000

/-- The text without the blank characters at its two ends. -/
def trimChars (cs : List Char) : List Char :=
  ((cs.dropWhile isBlank).reverse.dropWhile isBlank).reverse

/-- A text with no blank character at either end stays as it is. -/
theorem trimChars_eq_self {cs : List Char} (hfirst : ∀ c ∈ cs.head?, isBlank c = false)
    (hlast : ∀ c ∈ cs.getLast?, isBlank c = false) : trimChars cs = cs := by
  have hself : ∀ ds : List Char, (∀ c ∈ ds.head?, isBlank c = false) →
      ds.dropWhile isBlank = ds := by
    intro ds hds
    cases ds with
    | nil => rfl
    | cons d rest => exact List.dropWhile_cons_of_neg (by simp [hds d rfl])
  rw [trimChars, hself cs hfirst, hself cs.reverse (by rwa [List.head?_reverse]),
    List.reverse_reverse]

/-- The text without the blank characters at its two ends. -/
def trim (s : String) : String :=
  String.ofList (trimChars s.toList)

/-- Whether the text has no character but blank ones. -/
def isBlankText (s : String) : Bool :=
  s.toList.all isBlank

/-- The line without one carriage return at its end. -/
def chompReturn (line : List Char) : List Char :=
  if line.getLast? = some '\r' then line.dropLast else line

/-- The lines of a text: each ends at a line feed, one carriage return before the line feed is
dropped, and a text that ends with a line feed has no empty line after it. -/
def lines (cs : List Char) : List (List Char) :=
  go [] cs
where
  go (line : List Char) : List Char → List (List Char)
    | [] => if line.isEmpty then [] else [line.reverse]
    | '\n' :: rest => chompReturn line.reverse :: go [] rest
    | c :: rest => go (c :: line) rest

end CallGraph.Text
