import CallGraph.Calendar.Instant

/-!
# File systems

What the library asks of the place where files are: to look at what a path leads to, to write
files, and to tell the time.  Everything that works with files is written for any monad that
answers these requests, so it can be run on a tree of files in memory as well.
-/

namespace CallGraph

/-- What a path leads to. -/
inductive Entry where
  | missing
  | directory
  | file (content : List UInt8)
deriving DecidableEq, Repr

/-- A monad with files.  Writing tells whether it succeeded. -/
class FileSystem (m : Type → Type) where
  /-- What the path leads to. -/
  look : String → m Entry
  /-- Writes a file in a directory that is there. -/
  write : String → List UInt8 → m Bool
  /-- Writes a file in place of the old one, after making the directories on the way to it. -/
  replace : String → List UInt8 → m Bool
  /-- The current time. -/
  now : m Instant

end CallGraph
