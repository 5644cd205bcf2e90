import CallGraph.Xml.Content

/-!
# Writing XML

Elements are written one on a line, indented by two spaces for every element around them, except
that an element which holds text stays on one line.
-/

namespace CallGraph.Xml

/-- An element to be written: with elements in it, with text in it, or with nothing. -/
inductive Element where
  | group (name : String) (attributes : List (String × String)) (children : List Element)
  | leaf (name : String) (attributes : List (String × String)) (text : String)
  | empty (name : String) (attributes : List (String × String))

/-- An attribute with the space before it. -/
def attributeText (entry : String × String) : List Char :=
  ' ' :: entry.1.toList ++ ['=', '"'] ++ escape entry.2 ++ ['"']

/-- The inside of a start tag. -/
def tagText (name : String) (attributes : List (String × String)) : List Char :=
  name.toList ++ attributes.flatMap attributeText

/-- The start of a line inside `depth` elements. -/
def newLine (depth : Nat) : List Char :=
  '\n' :: List.replicate (2 * depth) ' '

mutual
/-- An element on lines of its own. -/
def Element.lines (depth : Nat) : Element → List Char
  | .group name attributes children =>
      newLine depth ++ '<' :: tagText name attributes ++ '>' ::
        Element.allLines (depth + 1) children ++ newLine depth ++ '<' :: '/' :: name.toList ++ ['>']
  | .leaf name attributes text =>
      newLine depth ++ '<' :: tagText name attributes ++ '>' :: escape text ++
        '<' :: '/' :: name.toList ++ ['>']
  | .empty name attributes =>
      newLine depth ++ '<' :: tagText name attributes ++ ['/', '>']

/-- Elements on lines of their own. -/
def Element.allLines (depth : Nat) : List Element → List Char
  | [] => []
  | child :: children => Element.lines depth child ++ Element.allLines depth children
end

/-- The document with this root. -/
def Element.document (root : Element) : String :=
  String.ofList ("<?xml version=\"1.0\" encoding=\"UTF-8\"?>".toList ++ Element.lines 0 root)

end CallGraph.Xml
