import CallGraph.Code.Data
import CallGraph.Error
import CallGraph.Json.Printer
import CallGraph.Json.Reader
import CallGraph.Store.Flag
import CallGraph.Text.Utf8

/-!
# Rows

A database keeps a code object as a row of texts.  Parameters, calls and literals are written as
JSON.  A row may also have been written by others, so it need not stand for a code object.
-/

namespace CallGraph

open Data

/-- A stored code object, column by column.  The number of calls is kept beside the calls, so that
they can be counted without reading them. -/
structure Row where
  id : String
  name : String
  packageName : String
  kind : String
  overloaded : String
  parameters : String
  returnType : Option String
  calls : String
  callCount : Nat
  source : Option String
  literals : Option String
deriving DecidableEq, Repr

namespace Row

/-- The row of a code object. -/
def ofObject (object : CodeObject) : Row where
  id := object.id
  name := object.name
  packageName := object.packageName
  kind := object.kind.name
  overloaded := Flag.toText object.isOverloaded
  parameters := Json.line (.list (object.parameters.map Parameter.toData))
  returnType := object.returnType
  calls := Json.line (.list (object.calls.map CallSite.toData))
  callCount := object.calls.length
  source := object.source
  literals := object.literals.map fun m => Json.line m.toData

/-- Reads a column that is written as JSON. -/
def column? (value? : Data → Option α) (text : String) : Option α :=
  (Json.read (Text.bytesOf text)).bind value?

/-- Reads a column that is written as JSON, or is empty. -/
def optionalColumn? (value? : Data → Option α) : Option String → Option (Option α)
  | none => some none
  | some written => (column? value? written).map some

/-- Whether the columns of the row are of the types of the table. -/
def isReadable (row : Row) : Bool :=
  (Flag.ofText? row.overloaded).isSome

/-- The row without source and literals. -/
def lightweight (row : Row) : Row :=
  { row with source := none, literals := none }

/-- The code object of a row whose columns are readable. -/
def toObject? (row : Row) : Option CodeObject := do
  some {
    id := row.id
    name := row.name
    packageName := row.packageName
    kind := Kind.ofText row.kind
    isOverloaded := ← Flag.ofText? row.overloaded
    parameters := ← column? (list? Parameter.ofData?) row.parameters
    returnType := row.returnType
    calls := ← column? (list? CallSite.ofData?) row.calls
    source := row.source
    literals := ← optionalColumn? TextMap.ofData? row.literals }

/-- Reads some of the rows of a table: first the columns of all of them, then what is written in
the columns. -/
def readAll (rows : List Row) : Except StoreError (List CodeObject) :=
  if rows.all isReadable then
    match rows.mapM toObject? with
    | some objects => .ok objects
    | none => .error .serialization
  else .error .database

/-- Reads a single row. -/
def read (row : Row) : Except StoreError CodeObject :=
  if row.isReadable then
    match row.toObject? with
    | some object => .ok object
    | none => .error .serialization
  else .error .database

end Row

/-- A column that can be overwritten. -/
inductive Column where
  | name
  | packageName
  | kind
  | overloaded
  | parameters
  | returnType
  | calls
  | source
  | literals
deriving DecidableEq, Repr

namespace Column

/-- The column with the given name. -/
def ofName? : String → Option Column
  | "name" => some name
  | "package_name" => some packageName
  | "kind" => some kind
  | "overloaded" => some overloaded
  | "parameters" => some parameters
  | "return_type" => some returnType
  | "calls" => some calls
  | "source_text" => some source
  | "literal_map" => some literals
  | _ => none

end Column

/-- The row with another text in one column. -/
def Row.overwrite (row : Row) (column : Column) (text : String) : Row :=
  match column with
  | .name => { row with name := text }
  | .packageName => { row with packageName := text }
  | .kind => { row with kind := text }
  | .overloaded => { row with overloaded := text }
  | .parameters => { row with parameters := text }
  | .returnType => { row with returnType := some text }
  | .calls => { row with calls := text }
  | .source => { row with source := some text }
  | .literals => { row with literals := some text }

end CallGraph
