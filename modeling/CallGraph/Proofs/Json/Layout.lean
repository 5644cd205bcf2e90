import CallGraph.Json.Printer
import CallGraph.Json.Reader
import Mathlib.Data.List.Basic

/-!
# Layouts of JSON

The two layouts in which JSON is written differ in nothing but the white space between the parts of
a text.  They are instances of one printer, so that what is proved of that printer holds of both.

Main results:

- Definition `Layout.print`: the text of a value in a layout.
- Theorems `Layout.print_oneLine` and `Layout.print_indented`: the two layouts that are written.
-/

namespace CallGraph

namespace Json

/-- How the parts of a text are set out: the start of a line that lies in some lists and records,
and what stands before the value of a field.  Both are white space, or nothing. -/
structure Layout where
  line : Nat → List Char
  gap : List Char
  isSpace_of_mem_line : ∀ depth, ∀ c ∈ line depth, Machine.isSpace c = true
  isSpace_of_mem_gap : ∀ c ∈ gap, Machine.isSpace c = true

namespace Layout

/-- The layout on one line. -/
def oneLine : Layout where
  line _ := []
  gap := []
  isSpace_of_mem_line := by simp
  isSpace_of_mem_gap := by simp

/-- The readable layout. -/
def indented : Layout where
  line := newLine
  gap := [' ']
  isSpace_of_mem_line := by
    intro depth c hc
    rcases List.mem_cons.1 hc with rfl | hc
    · rfl
    · rw [(List.mem_replicate.1 hc).2]
      rfl
  isSpace_of_mem_gap := by
    intro c hc
    rw [List.mem_singleton.1 hc]
    rfl

/-- Further pieces, each after a comma on a line of its own. -/
def more (layout : Layout) (depth : Nat) (pieces : List (List Char)) : List Char :=
  pieces.flatMap fun piece => ',' :: (layout.line depth ++ piece)

/-- Pieces between two brackets. -/
def block (layout : Layout) (depth : Nat) (opening closing : Char) (pieces : List (List Char)) :
    List Char :=
  match pieces with
  | [] => [opening, closing]
  | first :: rest =>
      opening :: (layout.line (depth + 1) ++ first ++ layout.more (depth + 1) rest ++
        layout.line depth ++ [closing])

mutual
/-- The text of a value. -/
def print (layout : Layout) (depth : Nat) : Data → List Char
  | .list items => layout.block depth '[' ']' (layout.printItems (depth + 1) items)
  | .record fields => layout.block depth '{' '}' (layout.printFields (depth + 1) fields)
  | other => atom other

/-- The texts of the items of a list. -/
def printItems (layout : Layout) (depth : Nat) : List Data → List (List Char)
  | [] => []
  | item :: items => layout.print depth item :: layout.printItems depth items

/-- The texts of the fields of a record. -/
def printFields (layout : Layout) (depth : Nat) : List (String × Data) → List (List Char)
  | [] => []
  | (key, value) :: fields =>
      (string key ++ ':' :: (layout.gap ++ layout.print depth value)) ::
        layout.printFields depth fields
end

/-- The pieces after the first are each written after a separator. -/
theorem separated_cons (separator first : List Char) (rest : List (List Char)) :
    separated separator (first :: rest) =
      first ++ rest.flatMap (fun piece => separator ++ piece) := by
  induction rest generalizing first with
  | nil => simp [separated]
  | cons second rest ih =>
    rw [separated, ih, List.flatMap_cons, List.append_assoc, List.append_assoc]
    simp

/-- On one line, items are separated by commas alone. -/
theorem block_oneLine (depth : Nat) (opening closing : Char) (pieces : List (List Char)) :
    oneLine.block depth opening closing pieces =
      opening :: separated [','] pieces ++ [closing] := by
  cases pieces with
  | nil => rfl
  | cons first rest => simp [block, more, oneLine, separated_cons]

theorem block_indented (depth : Nat) (opening closing : Char) (pieces : List (List Char)) :
    indented.block depth opening closing pieces = Json.block depth opening closing pieces := by
  cases pieces with
  | nil => rfl
  | cons first rest => simp [block, more, Json.block, indented, separated_cons]

mutual
/-- The layout on one line is the compact text of a tree. -/
theorem print_oneLine (depth : Nat) : ∀ tree, oneLine.print depth tree = compact tree
  | .list items => by rw [print, compact, block_oneLine, printItems_oneLine]
  | .record fields => by rw [print, compact, block_oneLine, printFields_oneLine]
  | .null | .bool _ | .integer _ | .real _ | .text _ | .unusable => by
    rw [print, compact] <;> simp

theorem printItems_oneLine (depth : Nat) :
    ∀ items, oneLine.printItems depth items = compactItems items
  | [] => rfl
  | item :: items => by
    rw [printItems, compactItems, print_oneLine depth item, printItems_oneLine depth items]

theorem printFields_oneLine (depth : Nat) :
    ∀ fields, oneLine.printFields depth fields = compactFields fields
  | [] => rfl
  | (key, value) :: fields => by
    rw [printFields, compactFields, print_oneLine depth value, printFields_oneLine depth fields]
    rfl
end

mutual
/-- The indented layout is the readable text of a tree. -/
theorem print_indented (depth : Nat) : ∀ tree, indented.print depth tree = readable depth tree
  | .list items => by rw [print, readable, block_indented, printItems_indented]
  | .record fields => by rw [print, readable, block_indented, printFields_indented]
  | .null | .bool _ | .integer _ | .real _ | .text _ | .unusable => by
    rw [print, readable] <;> simp

theorem printItems_indented (depth : Nat) :
    ∀ items, indented.printItems depth items = readableItems depth items
  | [] => rfl
  | item :: items => by
    rw [printItems, readableItems, print_indented depth item, printItems_indented depth items]

theorem printFields_indented (depth : Nat) :
    ∀ fields, indented.printFields depth fields = readableFields depth fields
  | [] => rfl
  | (key, value) :: fields => by
    rw [printFields, readableFields, print_indented depth value,
      printFields_indented depth fields]
    rfl
end

end Layout

end Json

end CallGraph
