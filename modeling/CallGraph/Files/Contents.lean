import CallGraph.Document.File
import CallGraph.Files.Basic
import CallGraph.Settings.File
import CallGraph.Store.Database
import CallGraph.Store.Populate

/-!
# Graphs, settings and databases in files
-/

namespace CallGraph

variable {m : Type → Type} [Monad m] [FileSystem m]

/-! ## Graph files -/

/-- What was written when a graph was saved. -/
structure SaveStats where
  path : String
  format : Format
  detail : Detail
  nodes : Nat
  edges : Nat
  bytes : Nat
deriving DecidableEq, Repr

namespace Graph

/-- Writes a graph in place of any file with this path, or leaves that file as it is. -/
def save (g : Graph) (path : String) (format : Format) (detail : Detail) :
    ExceptT FileError m SaveStats := do
  let doc := Document.ofGraph g detail (← FileSystem.now (m := m))
  let bytes := doc.write format
  if ← FileSystem.replace (m := m) path bytes then
    return {
      path := path, format := format, detail := detail
      nodes := doc.nodes.length, edges := doc.edges.length, bytes := bytes.length }
  else throw .io

end Graph

/-- The error for a document that cannot be read, or describes no graph. -/
def DocumentFault.inFile (format : Format) (path : String) (fault : DocumentFault) : FileError :=
  .malformed format.name path fault.message fault.isDescribed

namespace Document

/-- The fault of a directory that is read as a file. -/
def directoryFault : Format → DocumentFault
  | .binary => .tooShort
  | _ => .malformed

/-- Reads the document in a file. -/
def load (path : String) (format : Format) : ExceptT FileError m Document := do
  match ← FileSystem.look (m := m) path with
  | .missing => throw (.notFound path)
  | .directory => throw ((directoryFault format).inFile format path)
  | .file bytes =>
      match Document.read format bytes with
      | .ok doc => return doc
      | .error fault => throw (fault.inFile format path)

end Document

namespace Graph

/-- Reads the graph in a file; a graph is never read in part. -/
def load (path : String) (format : Format) : ExceptT FileError m Graph := do
  match (← Document.load path format).toGraph with
  | .ok g => return g
  | .error fault => throw (fault.inFile format path)

/-- Reads the graph in a file of the given format, or of the one that its extension tells. -/
def loadAs (path : String) (format : Option Format) : ExceptT FileError m Graph :=
  match format with
  | some format => load path format
  | none =>
      match Format.ofPath path with
      | .ok format => load path format
      | .error error => throw (.unsupported error)

end Graph

/-! ## Settings files -/

/-- Reads the settings in a file. -/
def Settings.load (path : String) : ExceptT SettingsError m Settings := do
  match ← FileSystem.look (m := m) path with
  | .missing => throw (.notFound path)
  | .directory => throw (.parse undescribed)
  | .file bytes =>
      match Text.ofBytes? bytes with
      | some text => ofToml text
      | none => throw (.parse undescribed)

/-! ## Databases -/

namespace Database

/-- Whether the path stands for a database that is not kept. -/
def isTemporary (path : String) : Bool :=
  path.isEmpty || path == ":memory:"

/-- Writes a database to its file. -/
def save (db : Database) (path : String) : ExceptT StoreError m Unit := do
  unless isTemporary path do
    unless ← FileSystem.write (m := m) path db.toBytes do
      throw .database

/-- Opens the database in a file, which is made if it is missing. -/
def openOrCreate (path : String) : ExceptT StoreError m Database := do
  if isTemporary path then return empty
  match ← FileSystem.look (m := m) path with
  | .directory => throw .database
  | .missing | .file [] =>
      empty.save path
      return empty
  | .file bytes => ofFile bytes

/-- Opens the database in a file that has to be there. -/
def openExisting (path : String) : ExceptT StoreError m Database := do
  match ← FileSystem.look (m := m) path with
  | .missing => throw (.notFound path)
  | _ => openOrCreate path

/-- Changes the database in a file, whatever its version.  A missing file is made, but without a
table there is nothing to change. -/
def edit (path : String) (change : Database → Database) : ExceptT StoreError m Unit := do
  match ← FileSystem.look (m := m) path with
  | .directory | .file [] => throw .database
  | .missing =>
      let _ ← FileSystem.write (m := m) path []
      throw .database
  | .file bytes =>
      match ofBytes? bytes with
      | some db => (change db).save path
      | none => throw .database

end Database

end CallGraph
