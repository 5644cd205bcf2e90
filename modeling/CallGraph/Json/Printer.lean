import CallGraph.Data.Basic
import CallGraph.Number.Shortest
import CallGraph.Text.Quoted

/-!
# Writing JSON

Two layouts: everything on one line without spaces, and the readable layout with one item or field
on a line, indented by two spaces for every list and record around it.
-/

namespace CallGraph.Json

/-- A character as it stands in a string. -/
def escaped (c : Char) : List Char :=
  match c with
  | '"' => ['\\', '"']
  | '\\' => ['\\', '\\']
  | '\x08' => ['\\', 'b']
  | '\x0c' => ['\\', 'f']
  | '\n' => ['\\', 'n']
  | '\r' => ['\\', 'r']
  | '\t' => ['\\', 't']
  | _ =>
      if c.toNat < 0x20 then
        ['\\', 'u'] ++ Number.padZeros 4 (Text.hexDigits c.toNat)
      else [c]

/-- A text between quotation marks. -/
def string (s : String) : List Char :=
  '"' :: s.toList.flatMap escaped ++ ['"']

/-- A value without parts. -/
def atom : Data → List Char
  | .null => "null".toList
  | .bool value => (if value then "true" else "false").toList
  | .integer value => (toString value).toList
  | .real value => (Number.literal value).toList
  | .text value => string value
  | _ => "null".toList

/-- The pieces with `separator` between each two of them. -/
def separated (separator : List Char) : List (List Char) → List Char
  | [] => []
  | [piece] => piece
  | piece :: rest => piece ++ separator ++ separated separator rest

mutual
/-- A value on one line. -/
def compact : Data → List Char
  | .list items => '[' :: separated [','] (compactItems items) ++ [']']
  | .record fields => '{' :: separated [','] (compactFields fields) ++ ['}']
  | other => atom other

/-- The items of a list. -/
def compactItems : List Data → List (List Char)
  | [] => []
  | item :: items => compact item :: compactItems items

/-- The fields of a record. -/
def compactFields : List (String × Data) → List (List Char)
  | [] => []
  | (key, value) :: fields => (string key ++ ':' :: compact value) :: compactFields fields
end

/-- The start of a line that lies in `depth` lists and records. -/
def newLine (depth : Nat) : List Char :=
  '\n' :: List.replicate (2 * depth) ' '

/-- Pieces on lines of their own between two brackets. -/
def block (depth : Nat) (opening closing : Char) (pieces : List (List Char)) : List Char :=
  match pieces with
  | [] => [opening, closing]
  | _ =>
      opening :: newLine (depth + 1) ++ separated (',' :: newLine (depth + 1)) pieces ++
        newLine depth ++ [closing]

mutual
/-- A value in the readable layout, of which the first line is already indented. -/
def readable (depth : Nat) : Data → List Char
  | .list items => block depth '[' ']' (readableItems (depth + 1) items)
  | .record fields => block depth '{' '}' (readableFields (depth + 1) fields)
  | other => atom other

/-- The items of a list. -/
def readableItems (depth : Nat) : List Data → List (List Char)
  | [] => []
  | item :: items => readable depth item :: readableItems depth items

/-- The fields of a record. -/
def readableFields (depth : Nat) : List (String × Data) → List (List Char)
  | [] => []
  | (key, value) :: fields =>
      (string key ++ ':' :: ' ' :: readable depth value) :: readableFields depth fields
end

/-- The tree on one line. -/
def line (tree : Data) : String :=
  String.ofList (compact tree)

/-- The tree in the readable layout. -/
def pretty (tree : Data) : String :=
  String.ofList (readable 0 tree)

end CallGraph.Json
