import CallGraph.Bytes.Codec
import CallGraph.Store.Basic
import CallGraph.Store.Row

/-!
# Databases

A database is a table of rows with the version of its layout, and is kept in a file.  An empty file
is a database without rows; a file that holds anything else than a database is refused, and so is a
database of another version.
-/

namespace CallGraph

/-- A table of code objects, with the version of its layout. -/
structure Database where
  version : String
  rows : Catalogue Row.id

namespace Database

/-- The version of the layout. -/
def currentVersion : String := "1"

/-- The database without rows. -/
def empty : Database where
  version := currentVersion
  rows := .empty

instance : Inhabited Database := ⟨empty⟩

/-! ## Contents -/

instance : ObjectStore Database where
  put db object := { db with rows := db.rows.insert (Row.ofObject object) }
  remove db id := ({ db with rows := db.rows.erase id }, db.rows.contains id)
  find db id :=
    match db.rows.find? id with
    | some row => (row.read).map some
    | none => .ok none
  load db withSource :=
    Row.readAll (if withSource then db.rows.items else db.rows.items.map Row.lightweight)
  ids db := db.rows.keys
  stats db := {
    totalObjects := db.rows.size
    objectsByKind := tally (db.rows.items.map (·.kind))
    totalCalls := (db.rows.items.map (·.callCount)).foldl (· + ·) 0
    overloadedObjects :=
      db.rows.items.countP fun row => Flag.ofText? row.overloaded != some false }

/-- The database with one column of the row with the given id overwritten. -/
def overwrite (db : Database) (id : String) (column : Column) (text : String) : Database :=
  match db.rows.find? id with
  | some row => { db with rows := db.rows.insert (row.overwrite column text) }
  | none => db

/-! ## Files -/

open Codec in
/-- The columns of a row. -/
def row : Codec Row :=
  (pair text (pair text (pair text (pair text (pair text (pair text (pair (option text)
    (pair text (pair word64 (pair (option text) (option text))))))))))).via
    (fun r => (r.id, r.name, r.packageName, r.kind, r.overloaded, r.parameters, r.returnType,
      r.calls, r.callCount, r.source, r.literals))
    fun (id, name, packageName, kind, overloaded, parameters, returnType, calls, callCount,
        source, literals) =>
      some ⟨id, name, packageName, kind, overloaded, parameters, returnType, calls, callCount,
        source, literals⟩

open Codec in
/-- The version and the rows. -/
def contents : Codec Database :=
  (pair text (list row)).via (fun db => (db.version, db.rows.items))
    fun (version, rows) => some ⟨version, .ofList rows⟩

/-- The letters that a database file begins with. -/
def magic : String := "SQLite format 3\x00"

/-- The file of a database. -/
def toBytes (db : Database) : List UInt8 :=
  Text.bytesOf magic ++ contents.encode db

/-- The database in a file. -/
def ofBytes? (bytes : List UInt8) : Option Database :=
  if bytes.isEmpty then some empty
  else if (Text.bytesOf magic).isPrefixOf bytes then
    (contents.decode (bytes.drop (Text.bytesOf magic).length)).map (·.1)
  else none

/-- Opens the database in a file. -/
def ofFile (bytes : List UInt8) : Except StoreError Database :=
  match ofBytes? bytes with
  | none => .error .database
  | some db =>
      if db.version = currentVersion then .ok db
      else .error (.migration
        s!"database schema version {db.version} is not supported (expected {currentVersion})")

end Database

end CallGraph
