import CallGraph.Data.Basic

/-!
# Tables of TOML

A TOML text builds one table piece by piece.  A table may be opened by a header, come into being
because it lies on the way to another one, or be put together from keys with dots; which of these
it is decides what may still be added to it.
-/

namespace CallGraph.Toml

/-- What a table holds under a key: a value, a table, or a list of tables, the latest first.  A
table is implicit if no header has opened it, and dotted if keys with dots made it. -/
inductive Item where
  | value (tree : Data)
  | table (isImplicit isDotted : Bool) (fields : List (String × Item))
  | tables (all : List (List (String × Item)))

namespace Item

/-- The fields of a table. -/
abbrev Fields := List (String × Item)

/-- What is stored under a key. -/
def lookup? (key : String) (fields : Fields) : Option Item :=
  (fields.find? (·.1 == key)).map (·.2)

/-- Stores something else under a key that is there. -/
def replace (key : String) (item : Item) (fields : Fields) : Fields :=
  fields.map fun field => if field.1 = key then (key, item) else field

/-- Changes the table at the end of a path, of which `change` is told whether it is dotted.  Tables
on the way come into being where they are missing.  The way leads into the latest of several
tables, never into a value, and with `dotted` not into a table that a header has opened. -/
def changeAt (dotted : Bool) (change : Bool → Fields → Option Fields) :
    (path : List String) → (isDotted : Bool) → Fields → Option Fields
  | [], isDotted, fields => change isDotted fields
  | key :: path, _, fields =>
      match lookup? key fields with
      | none => do
          let inner ← changeAt dotted change path dotted []
          some (fields ++ [(key, .table true dotted inner)])
      | some (.value _) => none
      | some (.tables []) => none
      | some (.tables (latest :: earlier)) => do
          let inner ← changeAt dotted change path false latest
          some (replace key (.tables (inner :: earlier)) fields)
      | some (.table isImplicit isDotted inner) =>
          if dotted && !isImplicit then none
          else do
            let inner ← changeAt dotted change path isDotted inner
            some (replace key (.table isImplicit isDotted inner) fields)

/-- Adds a value under a path of keys.  Tables on the path have to be dotted ones. -/
def addValue (path : List String) (key : String) (tree : Data) (fields : Fields) :
    Option Fields :=
  changeAt true (fun isDotted fields =>
    if isDotted == path.isEmpty || (lookup? key fields).isSome then none
    else some (fields ++ [(key, .value tree)])) path false fields

/-- Opens the table of a header. -/
def openTable (path : List String) (key : String) (fields : Fields) : Option Fields :=
  changeAt false (fun _ fields =>
    match lookup? key fields with
    | none => some (fields ++ [(key, .table false false [])])
    | some (.table true false inner) => some (replace key (.table false false inner) fields)
    | some _ => none) path false fields

/-- Adds a table to a list of tables. -/
def addTable (path : List String) (key : String) (fields : Fields) : Option Fields :=
  changeAt false (fun _ fields =>
    match lookup? key fields with
    | none => some (fields ++ [(key, .tables [[]])])
    | some (.tables all) => some (replace key (.tables ([] :: all)) fields)
    | some _ => none) path false fields

mutual
/-- The item as data. -/
def toData : Item → Data
  | value tree => tree
  | table _ _ fields => .record (fieldsToData fields)
  | tables all => .list (tablesToData all).reverse

/-- The fields as data. -/
def fieldsToData : List (String × Item) → List (String × Data)
  | [] => []
  | (key, item) :: fields => (key, toData item) :: fieldsToData fields

/-- The tables as data. -/
def tablesToData : List (List (String × Item)) → List Data
  | [] => []
  | fields :: rest => .record (fieldsToData fields) :: tablesToData rest
end

end Item

end CallGraph.Toml
