/-!
# Paths

The parts of paths, which slashes divide, and the extensions of the files that they name.
-/

namespace CallGraph

/-- A path, part by part.  A path that ends with a slash or a dot can only lead to a directory. -/
structure Path where
  isAbsolute : Bool
  parts : List String
  needsDirectory : Bool
deriving DecidableEq, Repr

namespace Path

/-- The pieces of a path between slashes. -/
def pieces (cs : List Char) : List (List Char) :=
  match cs with
  | [] => [[]]
  | '/' :: rest => [] :: pieces rest
  | c :: rest =>
      match pieces rest with
      | [] => [[c]]
      | first :: others => (c :: first) :: others

/-- The parts of a path: its pieces that are neither empty nor a single dot. -/
def partsOf (path : String) : List (List Char) :=
  (pieces path.toList).filter fun piece => piece ≠ [] ∧ piece ≠ ['.']

/-- Reads a path. -/
def ofText (path : String) : Path where
  isAbsolute := path.toList.head? = some '/'
  parts := (partsOf path).map String.ofList
  needsDirectory :=
    (pieces path.toList).getLast? = some [] || (pieces path.toList).getLast? = some ['.']

/-- Whether two paths are written alike, apart from needless slashes and inner dots. -/
def same (a b : String) : Bool :=
  let startsWithDot (path : String) : Bool := (pieces path.toList).head? = some ['.']
  let (p, q) := (ofText a, ofText b)
  p.isAbsolute == q.isAbsolute && p.parts == q.parts && startsWithDot a == startsWithDot b

/-- Whether a text can be the name of a file. -/
def isName (part : String) : Bool :=
  part.utf8ByteSize ≤ 255 && !part.toList.contains '\x00'

/-! ## Extensions -/

/-- The name that a path ends with; a path that ends with two dots has none. -/
def fileName? (path : String) : Option (List Char) :=
  match (partsOf path).getLast? with
  | some name => if name = ['.', '.'] then none else some name
  | none => none

/-- What follows the last dot of a name, unless nothing comes before that dot. -/
def extensionOf? (name : List Char) : Option (List Char) :=
  if name.contains '.' then
    let extension := (name.reverse.takeWhile (· ≠ '.')).reverse
    if extension.length + 1 = name.length then none else some extension
  else none

/-- The extension of the file that a path names. -/
def extension? (path : String) : Option (List Char) :=
  (fileName? path).bind extensionOf?

end Path

end CallGraph
