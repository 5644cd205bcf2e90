import CallGraph.Json.Literal

/-!
# Strings of TOML

Strings between quotation marks may hold escapes; strings between apostrophes stand for themselves.
Three signs on either side make a string that may go over several lines.
-/

namespace CallGraph.Toml

/-- White space inside a line. -/
def isSpace (c : Char) : Bool :=
  c == ' ' || c == '\t'

/-- A character that may stand in comments and strings. -/
def isPlain (c : Char) : Bool :=
  c == '\t' || (0x20 ≤ c.toNat && c.toNat != 0x7f)

/-- The character whose number the digits are. -/
def charOfHex? (ds : List Char) : Option Char := do
  let n ← ds.foldlM (fun n c => (Json.Literal.hexDigit? c).map (16 * n + ·)) 0
  if n.isValidChar then some (Char.ofNat n) else none

/-- The character that an escape stands for, given what follows the backslash, and the number of
characters of the escape after the backslash. -/
def escape? : List Char → Option (Char × Nat)
  | 'b' :: _ => some ('\x08', 1)
  | 't' :: _ => some ('\t', 1)
  | 'n' :: _ => some ('\n', 1)
  | 'f' :: _ => some ('\x0c', 1)
  | 'r' :: _ => some ('\r', 1)
  | '"' :: _ => some ('"', 1)
  | '\\' :: _ => some ('\\', 1)
  | 'u' :: cs => if cs.length < 4 then none else (charOfHex? (cs.take 4)).map fun c => (c, 5)
  | 'U' :: cs => if cs.length < 8 then none else (charOfHex? (cs.take 8)).map fun c => (c, 9)
  | _ => none

/-- Reads the rest of a string on one line, with escapes. -/
def basic (done : List Char) (cs : List Char) : Option (List Char × List Char) :=
  match cs with
  | [] => none
  | '"' :: rest => some (done.reverse, rest)
  | '\\' :: rest =>
      match escape? rest with
      | some (c, n) => basic (c :: done) (rest.drop n)
      | none => none
  | c :: rest => if isPlain c then basic (c :: done) rest else none
termination_by cs.length
decreasing_by all_goals simp only [List.length_cons, List.length_drop]; omega

/-- Reads the rest of a string on one line, without escapes. -/
def literal (done : List Char) : List Char → Option (List Char × List Char)
  | [] => none
  | '\'' :: rest => some (done.reverse, rest)
  | c :: rest => if isPlain c then literal (c :: done) rest else none

/-- Where a line ends: what comes after it. -/
def afterNewline? : List Char → Option (List Char)
  | '\n' :: rest => some rest
  | '\r' :: '\n' :: rest => some rest
  | _ => none

/-- The text after a line end that opens it, if there is one. -/
def dropNewline (cs : List Char) : List Char :=
  (afterNewline? cs).getD cs

/-- Reads the rest of a string that ends with three of the sign `quote`.  One or two more of them
may come before the end.  With `escapes`, a backslash at the end of a line joins it with the next
text; `joining` says that white space is being passed over after that. -/
def multiline (quote : Char) (escapes joining : Bool) (done : List Char) (cs : List Char) :
    Option (List Char × List Char) :=
  match cs with
  | [] => none
  | '\r' :: '\n' :: rest =>
      multiline quote escapes joining (if joining then done else '\n' :: done) rest
  | '\n' :: rest =>
      multiline quote escapes joining (if joining then done else '\n' :: done) rest
  | c :: rest =>
      if joining && isSpace c then multiline quote escapes true done rest
      else if c = quote then
        if rest.take 2 = [quote, quote] then
          let extra := ((rest.drop 2).take 2).takeWhile (· = quote)
          some ((extra ++ done).reverse, rest.drop (2 + extra.length))
        else multiline quote escapes false (c :: done) rest
      else if escapes && c = '\\' then
        match escape? rest with
        | some (c, n) => multiline quote escapes false (c :: done) (rest.drop n)
        | none =>
            if (afterNewline? (rest.dropWhile isSpace)).isSome then
              multiline quote escapes true done rest
            else none
      else if isPlain c then multiline quote escapes false (c :: done) rest
      else none
termination_by cs.length
decreasing_by all_goals simp only [List.length_cons, List.length_drop]; omega

/-- Reads a string of any kind. -/
def string? : List Char → Option (List Char × List Char)
  | '"' :: '"' :: '"' :: rest => multiline '"' true false [] (dropNewline rest)
  | '\'' :: '\'' :: '\'' :: rest => multiline '\'' false false [] (dropNewline rest)
  | '"' :: rest => basic [] rest
  | '\'' :: rest => literal [] rest
  | _ => none

end CallGraph.Toml
