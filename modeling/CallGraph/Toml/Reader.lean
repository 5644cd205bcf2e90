import CallGraph.Toml.Quoted
import CallGraph.Toml.Scalar
import CallGraph.Toml.Table

/-!
# Reading TOML

A TOML text is read line by line.  Headers open tables, and the lines after a header add values to
its table.  Values and the tables in braces may lie in each other up to a depth of 79, and keys
have fewer than 80 parts.
-/

namespace CallGraph.Toml

/-- A step of reading: what was read, and the characters that are left. -/
abbrev Read (α : Type) := List Char → Option (α × List Char)

/-- How deep values may lie in each other. -/
def maxDepth : Nat := 79

/-- The text after white space in a line. -/
def skipSpace (cs : List Char) : List Char :=
  cs.dropWhile isSpace

/-- The text after a comment, if there is one. -/
def skipComment : List Char → List Char
  | '#' :: rest => rest.dropWhile isPlain
  | cs => cs

/-- The text after the end of a line, which may hold white space and a comment. -/
def endLine? (cs : List Char) : Option (List Char) :=
  match skipComment (skipSpace cs) with
  | [] => some []
  | rest => afterNewline? rest

/-- The text after white space, line ends and comments. -/
def skipLines (inComment : Bool) : List Char → Option (List Char)
  | [] => if inComment then none else some []
  | '\n' :: rest => skipLines false rest
  | '\r' :: rest => if rest.head? = some '\n' then skipLines inComment rest else none
  | c :: rest =>
      if inComment then if isPlain c then skipLines true rest else none
      else if isSpace c then skipLines false rest
      else if c = '#' then skipLines true rest
      else some (c :: rest)

/-! ## Keys -/

/-- A character of a key without quotes. -/
def isKeyChar (c : Char) : Bool :=
  c.isAlphanum || c == '_' || c == '-'

/-- Reads one part of a key. -/
def keyPart : Read String := fun cs =>
  match cs with
  | '"' :: rest => (basic [] rest).map fun (key, rest) => (String.ofList key, rest)
  | '\'' :: rest => (literal [] rest).map fun (key, rest) => (String.ofList key, rest)
  | _ =>
      let key := cs.takeWhile isKeyChar
      if key.isEmpty then none else some (String.ofList key, cs.drop key.length)

/-- Reads a key of at most `parts` parts with dots between them. -/
def keyParts : (parts : Nat) → Read (List String)
  | 0, _ => none
  | parts + 1, cs => do
      let (part, rest) ← keyPart (skipSpace cs)
      match skipSpace rest with
      | '.' :: rest => do
          let (others, rest) ← keyParts parts rest
          some (part :: others, rest)
      | rest => some ([part], rest)

/-- Reads a key, as the path to its last part and that part. -/
def key : Read (List String × String) := fun cs => do
  let (parts, rest) ← keyParts maxDepth cs
  some ((parts.dropLast, ← parts.getLast?), rest)

/-! ## Values -/

/-- A character of a word. -/
def isWordChar (c : Char) : Bool :=
  c.isAlphanum || c == '+' || c == '-' || c == '.' || c == '_' || c == ':'

/-- Reads a word; a day may be followed by a space and a time. -/
def word : Read Data := fun cs =>
  let first := cs.takeWhile isWordChar
  match cs.drop first.length with
  | ' ' :: rest =>
      if day? first = some [] && (rest.head?.map Char.isDigit).getD false then
        let second := rest.takeWhile isWordChar
        (scalar? (first ++ ' ' :: second)).map fun tree => (tree, rest.drop second.length)
      else (scalar? first).map fun tree => (tree, ' ' :: rest)
  | rest => (scalar? first).map fun tree => (tree, rest)

/-- Reads the rest of a list of at most `count` items. -/
def items (value : Read Data) (done : List Data) : (count : Nat) → Read Data
  | 0, _ => none
  | count + 1, cs => do
      match ← skipLines false cs with
      | ']' :: rest => some (.list done.reverse, rest)
      | cs => do
          let (item, rest) ← value cs
          match ← skipLines false rest with
          | ',' :: rest => items value (item :: done) count rest
          | ']' :: rest => some (.list (item :: done).reverse, rest)
          | _ => none

/-- Reads a key and its value. -/
def keyValue (value : Read Data) : Read ((List String × String) × Data) := fun cs => do
  let (key, rest) ← key cs
  let (_, rest) ← Calendar.oneOf ['='] rest
  let (tree, rest) ← value (skipSpace rest)
  some ((key, tree), skipSpace rest)

/-- Reads the rest of a table in braces of at most `count` fields. -/
def fields (value : Read Data) (done : Item.Fields) : (count : Nat) → Read Data
  | 0, _ => none
  | count + 1, cs => do
      let (((path, key), tree), rest) ← keyValue value cs
      let done ← Item.addValue path key tree done
      match rest with
      | ',' :: rest => fields value done count rest
      | '}' :: rest => some (.record (Item.fieldsToData done), rest)
      | _ => none

/-- Reads a value that lies in at most `depth` others. -/
def value : (depth : Nat) → Read Data
  | 0, cs => simple cs
  | depth + 1, cs =>
      match cs with
      | '[' :: rest => items (value depth) [] cs.length rest
      | '{' :: rest =>
          match skipSpace rest with
          | '}' :: rest => some (.record [], rest)
          | rest => fields (value depth) [] cs.length rest
      | cs => simple cs
where
  /-- Reads a value without parts. -/
  simple (cs : List Char) : Option (Data × List Char) :=
    match cs with
    | '"' :: _ | '\'' :: _ =>
        (string? cs).map fun (text, rest) => (.text (String.ofList text), rest)
    | cs => word cs

/-! ## Documents -/

/-- Reads what stands between the brackets of a header. -/
def header (close : List Char) : Read (List String × String) := fun cs => do
  let (key, rest) ← key cs
  if close.isPrefixOf rest then some (key, rest.drop close.length) else none

/-- Reads the lines of a text, at most `count` of them.  `here` is the path of the table that
values are added to. -/
def lines (here : List String) (table : Item.Fields) :
    (count : Nat) → List Char → Option Item.Fields
  | 0, _ => none
  | count + 1, cs =>
      match skipSpace cs with
      | [] => some table
      | '[' :: '[' :: rest => do
          let ((path, key), rest) ← header [']', ']'] rest
          let table ← Item.addTable path key table
          lines (path ++ [key]) table count (← endLine? rest)
      | '[' :: rest => do
          let ((path, key), rest) ← header [']'] rest
          let table ← Item.openTable path key table
          lines (path ++ [key]) table count (← endLine? rest)
      | '#' :: _ | '\n' :: _ | '\r' :: _ => do
          lines here table count (← endLine? cs)
      | cs => do
          let (((path, key), tree), rest) ← keyValue (value maxDepth) cs
          let table ← Item.changeAt false
            (fun _ fields => Item.addValue path key tree fields) here false table
          lines here table count (← endLine? rest)

/-- The table that a TOML text describes.  A byte order mark before it does not count. -/
def read (cs : List Char) : Option Data :=
  let cs := match cs with
    | '\ufeff' :: rest => rest
    | cs => cs
  (lines [] [] (cs.length + 1) cs).map fun table => .record (Item.fieldsToData table)

end CallGraph.Toml
