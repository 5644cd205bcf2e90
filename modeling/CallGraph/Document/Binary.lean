import CallGraph.Bytes.Codec
import CallGraph.Calendar.Reader
import CallGraph.Document.Basic

/-!
# Binary documents

Four letters, and then the fields of a document one after the other, which may take up to 4 GiB.
What follows a document is not looked at.
-/

namespace CallGraph

namespace Binary

open Codec

/-- The fields of a parameter. -/
def parameter : Codec Parameter :=
  (pair text (pair text (pair (choice ParameterMode.all) (option text)))).via
    (fun p => (p.name, p.dataType, p.mode, p.default))
    fun (name, dataType, mode, default) => some ⟨name, dataType, mode, default⟩

/-- The fields of a call. -/
def callSite : Codec CallSite :=
  (pair text (pair word32 (pair (pair word64 word64) (pair (list text) textMap)))).via
    (fun call => (call.callee, call.line, call.span, call.positional, call.named))
    fun (callee, line, span, positional, named) => some ⟨callee, line, span, positional, named⟩

/-- The fields of a code object. -/
def codeObject : Codec CodeObject :=
  (pair text (pair text (pair text (pair (choice Kind.all) (pair bool (pair (list parameter)
    (pair (option text) (pair (list callSite) (pair (option text) (option textMap)))))))))).via
    (fun o => (o.id, o.name, o.packageName, o.kind, o.isOverloaded, o.parameters, o.returnType,
      o.calls, o.source, o.literals))
    fun (id, name, packageName, kind, isOverloaded, parameters, returnType, calls, source,
        literals) =>
      some ⟨id, name, packageName, kind, isOverloaded, parameters, returnType, calls, source,
        literals⟩

/-- The fields of a node. -/
def node : Codec Node :=
  (pair text (pair text (pair text (pair (choice Kind.all) (pair textMap
    (option codeObject)))))).via
    (fun n => (n.id, n.name, n.packageName, n.kind, n.attributes, n.object))
    fun (id, name, packageName, kind, attributes, object) =>
      some ⟨id, name, packageName, kind, object, attributes⟩

/-- The ends of an edge. -/
def edge : Codec Edge :=
  (pair text text).via (fun e => (e.caller, e.callee)) fun (caller, callee) => some ⟨caller, callee⟩

/-- A point in time, as its text. -/
def instant : Codec Instant :=
  text.via (·.toText "Z") fun s => Calendar.lenient? s.toList

/-- The fields of a document. -/
def document : Codec Document :=
  (pair word32 (pair (choice Detail.all) (pair instant (pair (list node) (list edge))))).via
    (fun doc => (doc.formatVersion, doc.detail, doc.savedAt, doc.nodes, doc.edges))
    fun (formatVersion, detail, savedAt, nodes, edges) =>
      some ⟨formatVersion, detail, savedAt, nodes, edges⟩

/-- Writes a document. -/
def write (doc : Document) : List UInt8 :=
  Text.bytesOf Document.magic ++ document.encode doc

/-- The greatest number of bytes that the fields of a document may take. -/
def sizeLimit : Nat :=
  Nat.pow 2 32

/-- Reads a document. -/
def read (bytes : List UInt8) : Except DocumentFault Document :=
  if bytes.length < 4 then .error .tooShort
  else if bytes.take 4 ≠ Text.bytesOf Document.magic then .error (.badMagic (bytes.take 4))
  else match document.decode (bytes.drop 4) with
    | some (doc, rest) =>
        if (bytes.drop 4).length - rest.length ≤ sizeLimit then .ok doc else .error .badPayload
    | none => .error .badPayload

end Binary

end CallGraph
