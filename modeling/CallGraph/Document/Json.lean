import CallGraph.Calendar.Reader
import CallGraph.Code.Data
import CallGraph.Document.Basic
import CallGraph.Json.Printer
import CallGraph.Json.Reader
import CallGraph.Text.Utf8

/-!
# JSON documents

A document as a record of its fields, in the readable layout.
-/

namespace CallGraph

open Data

namespace Document

/-- The sign of the zone of times in JSON and binary documents. -/
def zone : String := "Z"

/-- The record of a node. -/
def nodeToData (node : Node) : Data :=
  .record [
    ("id", .text node.id),
    ("name", .text node.name),
    ("package_name", .text node.packageName),
    ("kind", .text node.kind.name),
    ("attributes", node.attributes.toData),
    ("object", .ofOptional CodeObject.toData node.object)]

/-- The record of an edge. -/
def edgeToData (edge : Edge) : Data :=
  .record [("source", .text edge.caller), ("target", .text edge.callee)]

/-- The record of a document. -/
def toData (doc : Document) : Data :=
  .record [
    ("format_version", .integer doc.formatVersion),
    ("mode", .text doc.detail.name),
    ("saved_at", .text (doc.savedAt.toText zone)),
    ("nodes", .list (doc.nodes.map nodeToData)),
    ("edges", .list (doc.edges.map edgeToData))]

/-- Whether the tree is a list: a field that is missing may not be left out of a list of values. -/
def isList : Data → Bool
  | .list _ => true
  | _ => false

/-- Reads the record of a node.  The code object may be missing where fields have names. -/
def nodeOfData? (tree : Data) : Option Node := do
  let [id, name, packageName, kind, attributes, object] ←
    fields? ["id", "name", "package_name", "kind", "attributes", "object"] tree | none
  some {
    id := ← required? text? id
    name := ← required? text? name
    packageName := ← required? text? packageName
    kind := ← required? (choice? isNull Kind.ofName?) kind
    attributes := ← required? TextMap.ofData? attributes
    object := ←
      if isList tree then required? (optional? CodeObject.ofData?) object
      else orElse? none (optional? CodeObject.ofData?) object }

/-- Reads the record of an edge. -/
def edgeOfData? (tree : Data) : Option Edge := do
  let [source, target] ← fields? ["source", "target"] tree | none
  some { caller := ← required? text? source, callee := ← required? text? target }

/-- Reads a time. -/
def instantOfData? (tree : Data) : Option Instant := do
  Calendar.lenient? (← tree.text?).toList

/-- Reads the record of a document. -/
def ofData? (tree : Data) : Option Document := do
  let [version, detail, savedAt, nodes, edges] ←
    fields? ["format_version", "mode", "saved_at", "nodes", "edges"] tree | none
  some {
    formatVersion := ← required? word32? version
    detail := ← required? (choice? isNull Detail.ofName?) detail
    savedAt := ← required? instantOfData? savedAt
    nodes := ← required? (list? nodeOfData?) nodes
    edges := ← required? (list? edgeOfData?) edges }

/-- Writes a document as JSON. -/
def toJson (doc : Document) : List UInt8 :=
  Text.bytesOf (Json.pretty doc.toData)

/-- Reads a document from JSON. -/
def ofJson (bytes : List UInt8) : Except DocumentFault Document :=
  match (Json.read bytes).bind ofData? with
  | some doc => .ok doc
  | none => .error .malformed

end Document

end CallGraph
