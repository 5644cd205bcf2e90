import CallGraph.Data.Ordered
import CallGraph.Files.Basic
import CallGraph.Files.Path

/-!
# Trees of files

A file system as a value.  Paths start at the root of the tree; paths that start with a slash lead
out of the tree, where nothing is and nothing can be written.
-/

namespace CallGraph

/-! ## Trees -/

/-- A file or a directory with all that is in it. -/
inductive FileTree where
  | file (content : List UInt8)
  | directory (entries : List (String × FileTree))

namespace FileTree

/-- The tree without files. -/
def empty : FileTree := directory []

instance : Inhabited FileTree := ⟨empty⟩

/-- What a directory holds under a name. -/
def child? (name : String) : FileTree → Option FileTree
  | file _ => none
  | directory entries => (entries.find? (·.1 == name)).map (·.2)

/-- What the names lead to. -/
def get? : FileTree → List String → Option FileTree
  | tree, [] => some tree
  | tree, name :: rest => (tree.child? name).bind (get? · rest)

/-- Whether the names lead to a directory. -/
def isDirectory (tree : FileTree) (names : List String) : Bool :=
  match tree.get? names with
  | some (directory _) => true
  | _ => false

/-- The names in a directory, in ascending order. -/
def names (tree : FileTree) : List String :=
  match tree with
  | file _ => []
  | directory entries => sortTexts (entries.map (·.1))

/-- Puts a tree where the names lead, with directories on the way to it; nothing can be put under a
file. -/
def put (tree : FileTree) (leaf : FileTree) : List String → FileTree
  | [] => leaf
  | name :: rest =>
      match tree with
      | file content => file content
      | directory entries =>
          let inner := ((directory entries).child? name).getD empty
          directory ((name, inner.put leaf rest) :: entries.filter (·.1 != name))

/-! ## Following paths -/

/-- The names that lead to the same place as the parts of a path, of which `done` have been
followed.  Two dots lead back; all but the last place have to be directories. -/
def follow? (tree : FileTree) (done : List String) : List String → Option (List String)
  | [] => some done
  | part :: rest =>
      if !tree.isDirectory done || !Path.isName part then none
      else if part = ".." then tree.follow? done.dropLast rest
      else tree.follow? (done ++ [part]) rest

/-- What the path leads to. -/
def look (tree : FileTree) (path : String) : Entry :=
  let p := Path.ofText path
  if p.isAbsolute || path.isEmpty then .missing
  else
    match (tree.follow? [] p.parts).bind tree.get? with
    | some (directory _) => .directory
    | some (file content) => if p.needsDirectory then .missing else .file content
    | none => .missing

/-- The tree with the directories that the parts of a path name, as far as they can be made, and
the names that lead to the last of them. -/
def makeDirectories (tree : FileTree) (done : List String) :
    List String → FileTree × Option (List String)
  | [] => (tree, some done)
  | part :: rest =>
      if part = ".." then tree.makeDirectories done.dropLast rest
      else if !Path.isName part then (tree, none)
      else
        let here := done ++ [part]
        match tree.get? here with
        | some (directory _) => tree.makeDirectories here rest
        | some (file _) => (tree, none)
        | none => (tree.put empty here).makeDirectories here rest

/-- Puts a file where the names lead, unless a directory is there. -/
def writeAt (tree : FileTree) (names : List String) (content : List UInt8) : FileTree × Bool :=
  if tree.isDirectory names then (tree, false)
  else (tree.put (file content) names, true)

/-- Writes a file in a directory that is there. -/
def write (tree : FileTree) (path : String) (content : List UInt8) : FileTree × Bool :=
  let p := Path.ofText path
  if p.isAbsolute || p.needsDirectory then (tree, false)
  else
    match tree.follow? [] p.parts with
    | some names => tree.writeAt names content
    | none => (tree, false)

/-- Writes a file after making the directories on the way to it. -/
def replace (tree : FileTree) (path : String) (content : List UInt8) : FileTree × Bool :=
  let p := Path.ofText path
  if p.isAbsolute then (tree, false)
  else
    match tree.makeDirectories [] p.parts.dropLast, p.parts.getLast? with
    | (tree, some done), some name =>
        if name = ".." || p.needsDirectory || !Path.isName name then (tree, false)
        else tree.writeAt (done ++ [name]) content
    | (tree, _), _ => (tree, false)

end FileTree

/-- In a tree of files time stands still. -/
instance : FileSystem (StateM FileTree) where
  look path tree := (tree.look path, tree)
  write path content tree := ((tree.write path content).2, (tree.write path content).1)
  replace path content tree := ((tree.replace path content).2, (tree.replace path content).1)
  now := pure .epoch

end CallGraph
