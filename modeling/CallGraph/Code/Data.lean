import CallGraph.Code.Object
import CallGraph.Data.Basic

/-!
# Code objects as data

The record of a code object in files.  All fields are written; the fields with a default may be
missing where a record is read.
-/

namespace CallGraph

open Data

/-- Null, or a text. -/
def Data.ofOptional (toData : α → Data) : Option α → Data
  | none => .null
  | some value => toData value

/-- The record of a map. -/
def TextMap.toData (m : TextMap) : Data :=
  .record (m.entries.map fun (key, value) => (key, .text value))

/-- Reads a record of texts as a map. -/
def TextMap.ofData? : Data → Option TextMap
  | .record fields =>
      (fields.mapM fun field => (text? field.2).map fun value => (field.1, value)).map
        TextMap.ofList
  | _ => none

namespace Parameter

/-- The record of a parameter. -/
def toData (p : Parameter) : Data :=
  .record [
    ("name", .text p.name),
    ("data_type", .text p.dataType),
    ("mode", .text p.mode.name),
    ("default", .ofOptional .text p.default)]

/-- Reads the record of a parameter. -/
def ofData? (tree : Data) : Option Parameter := do
  let [name, dataType, mode, default] ←
    fields? ["name", "data_type", "mode", "default"] tree | none
  some {
    name := ← required? text? name
    dataType := ← required? text? dataType
    mode := ← orElse? .input (choice? isNull ParameterMode.ofName?) mode
    default := ← orElse? none (optional? text?) default }

end Parameter

namespace CallSite

/-- The record of a call. -/
def toData (call : CallSite) : Data :=
  .record [
    ("callee_name", .text call.callee),
    ("line", .integer call.line),
    ("span", .list [.integer call.span.1, .integer call.span.2]),
    ("positional_args", .list (call.positional.map .text)),
    ("named_args", call.named.toData)]

/-- Reads the first and the last place of a span. -/
def spanOfData? : Data → Option (Nat × Nat)
  | .list [first, last] => do some (← first.word64?, ← last.word64?)
  | _ => none

/-- Reads the record of a call. -/
def ofData? (tree : Data) : Option CallSite := do
  let [callee, line, span, positional, named] ←
    fields? ["callee_name", "line", "span", "positional_args", "named_args"] tree | none
  some {
    callee := ← required? text? callee
    line := ← orElse? 0 word32? line
    span := ← orElse? (0, 0) spanOfData? span
    positional := ← orElse? [] (list? text?) positional
    named := ← orElse? .empty TextMap.ofData? named }

end CallSite

namespace CodeObject

/-- The record of a code object. -/
def toData (object : CodeObject) : Data :=
  .record [
    ("id", .text object.id),
    ("name", .text object.name),
    ("package_name", .text object.packageName),
    ("kind", .text object.kind.name),
    ("overloaded", .bool object.isOverloaded),
    ("parameters", .list (object.parameters.map Parameter.toData)),
    ("return_type", .ofOptional .text object.returnType),
    ("calls", .list (object.calls.map CallSite.toData)),
    ("source_text", .ofOptional .text object.source),
    ("literal_map", .ofOptional TextMap.toData object.literals)]

/-- Reads the record of a code object. -/
def ofData? (tree : Data) : Option CodeObject := do
  let [id, name, packageName, kind, overloaded, parameters, returnType, calls, source, literals] ←
    fields? ["id", "name", "package_name", "kind", "overloaded", "parameters", "return_type",
      "calls", "source_text", "literal_map"] tree | none
  some {
    id := ← required? text? id
    name := ← required? text? name
    packageName := ← orElse? "" text? packageName
    kind := ← required? (choice? isNull Kind.ofName?) kind
    isOverloaded := ← orElse? false bool? overloaded
    parameters := ← orElse? [] (list? Parameter.ofData?) parameters
    returnType := ← orElse? none (optional? text?) returnType
    calls := ← orElse? [] (list? CallSite.ofData?) calls
    source := ← orElse? none (optional? text?) source
    literals := ← orElse? none (optional? TextMap.ofData?) literals }

end CodeObject

end CallGraph
