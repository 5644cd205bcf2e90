/-!
# Data trees

The values that data files are made of, whatever language a file is written in.  Readers of files
yield such trees, and records of this library are decoded from them; writers encode records as
trees and print these.
-/

namespace CallGraph

/-- A value in a data file.  Fields are kept in the order they were written in, repeated ones
included.  `unusable` stands for what is written well but names no value: a text that is not
Unicode, a number out of range, a record with such a text as the name of a field. -/
inductive Data where
  | null
  | bool (value : Bool)
  | integer (value : Int)
  | real (value : Float)
  | text (value : String)
  | list (items : List Data)
  | record (fields : List (String × Data))
  | unusable

namespace Data

instance : Inhabited Data := ⟨null⟩

/-! ## Usable data -/

mutual
/-- Whether everything in the tree names a value, with at most `depth` lists and records around
each other. -/
def isUsable (depth : Nat) : Data → Bool
  | null => true
  | bool _ => true
  | integer _ => true
  | real _ => true
  | text _ => true
  | list items => 0 < depth && areUsable (depth - 1) items
  | record fields => 0 < depth && haveUsable (depth - 1) fields
  | unusable => false

/-- `isUsable` for every item. -/
def areUsable (depth : Nat) : List Data → Bool
  | [] => true
  | item :: items => isUsable depth item && areUsable depth items

/-- `isUsable` for every field. -/
def haveUsable (depth : Nat) : List (String × Data) → Bool
  | [] => true
  | (_, value) :: fields => isUsable depth value && haveUsable depth fields
end

/-- The fields with the last value of each name, in the order in which the names are last
written. -/
def lastFields : List (String × Data) → List (String × Data)
  | [] => []
  | (key, value) :: fields =>
      if fields.any (·.1 == key) then lastFields fields else (key, value) :: lastFields fields

mutual
/-- The tree in which of several fields with one name only the last is left. -/
def settled : Data → Data
  | list items => list (settledItems items)
  | record fields => record (lastFields (settledFields fields))
  | other => other

/-- `settled` for every item. -/
def settledItems : List Data → List Data
  | [] => []
  | item :: items => settled item :: settledItems items

/-- `settled` for every field. -/
def settledFields : List (String × Data) → List (String × Data)
  | [] => []
  | (key, value) :: fields => (key, settled value) :: settledFields fields
end

/-- The tree as a value by itself, rather than as the text of a record of known shape: nothing in
it may be unusable, at most 127 lists and records enclose each other, and the last of several
fields with one name counts. -/
def asValue? (tree : Data) : Option Data :=
  if tree.isUsable 127 then some tree.settled else none

/-! ## Decoding

A decoder answers `none` for a tree that does not have the shape it asks for. -/

/-- The value of the field `key`, the first if there are several. -/
def field? (key : String) : Data → Option Data
  | record fields => (fields.find? (·.1 == key)).map (·.2)
  | _ => none

/-- A text. -/
def text? : Data → Option String
  | text value => some value
  | _ => none

/-- A truth value. -/
def bool? : Data → Option Bool
  | bool value => some value
  | _ => none

/-- A whole number below `bound`. -/
def below? (bound : Nat) : Data → Option Nat
  | integer value => if 0 ≤ value ∧ value < bound then some value.toNat else none
  | _ => none

/-- A whole number of at most 32 bits. -/
def word32? : Data → Option Nat :=
  below? (Nat.pow 2 32)

/-- A whole number of at most 64 bits. -/
def word64? : Data → Option Nat :=
  below? (Nat.pow 2 64)

/-- A number, which may be whole. -/
def real? : Data → Option Float
  | integer value => some (Float.ofInt value)
  | real value => some value
  | _ => none

/-- A list of items that `item?` decodes. -/
def list? (item? : Data → Option α) : Data → Option (List α)
  | list items => items.mapM item?
  | _ => none

/-- Null, or what `value?` decodes. -/
def optional? (value? : Data → Option α) : Data → Option (Option α)
  | null => some none
  | other => (value? other).map some

/-- One of the named choices: its name, or a record with the name as its only field, whose value
satisfies `isEmpty`. -/
def choice? (isEmpty : Data → Bool) (ofName? : String → Option α) : Data → Option α
  | text name => ofName? name
  | record [(name, payload)] => if isEmpty payload then ofName? name else none
  | _ => none

/-- Whether the tree is null. -/
def isNull : Data → Bool
  | null => true
  | _ => false

/-! ## Records of known shape -/

/-- The value of a field that occurs at most once; `none` if it is repeated. -/
def sole? (key : String) (fields : List (String × Data)) : Option (Option Data) :=
  match fields.filter (·.1 == key) with
  | [] => some none
  | [(_, value)] => some (some value)
  | _ => none

/-- The values of the fields named by `keys`, in that order, with `none` for a field that is
missing.  The record may be written as a list of its values in that order, whose last ones may be
missing; fields with other names are skipped, and a repeated field is refused. -/
def fields? (keys : List String) : Data → Option (List (Option Data))
  | record fields => keys.mapM (sole? · fields)
  | list items =>
      if items.length ≤ keys.length then
        some (items.map some ++ List.replicate (keys.length - items.length) none)
      else none
  | _ => none

/-- The value of a field that has to be there. -/
def required? (value? : Data → Option α) (found : Option Data) : Option α :=
  found.bind value?

/-- The value of a field that may be missing. -/
def orElse? (default : α) (value? : Data → Option α) : Option Data → Option α
  | none => some default
  | some tree => value? tree

end Data

end CallGraph
