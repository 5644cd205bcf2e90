import CallGraph.Calendar.Reader
import CallGraph.Code.Data
import CallGraph.Document.Basic
import CallGraph.Json.Printer
import CallGraph.Json.Reader
import CallGraph.Xml.Layout

/-!
# GraphML documents

Everything known of a node but its id is written as data under a key, and all keys are declared
before the graph.  The attributes of a node have keys of their own, which begin with `attr.`; a
code object is written as JSON.  What is known of the document as a whole is data of the graph.

A reader goes through the events of an XML text and does not ask where elements stand: data belongs
to the node that is open, or else to the graph.
-/

namespace CallGraph

namespace Graphml

open Xml

/-- What the keys of node attributes begin with. -/
def attributeMark : String := "attr."

/-! ## Writing -/

/-- The declaration of a key. -/
def key (id domain name : String) : Element :=
  .empty "key" [("id", id), ("for", domain), ("attr.name", name), ("attr.type", "string")]

/-- Data under a key. -/
def data (key value : String) : Element :=
  .leaf "data" [("key", key)] value

/-- The element of a node. -/
def node (detail : Detail) (n : Node) : Element :=
  .group "node" [("id", n.id)]
    ([data "name" n.name] ++
      (if n.packageName.isEmpty then [] else [data "package" n.packageName]) ++
      [data "kind" n.kind.name] ++
      (match detail, n.object with
        | .full, some object => [data "code_object" (Json.line object.toData)]
        | _, _ => []) ++
      n.attributes.entries.map fun entry => data (attributeMark ++ entry.1) entry.2)

/-- The element of an edge. -/
def edge (e : Edge) : Element :=
  .empty "edge" [("source", e.caller), ("target", e.callee)]

/-- The element of a document. -/
def root (doc : Document) : Element :=
  .group "graphml" [("xmlns", "http://graphml.graphdrawing.org/xmlns")]
    (["format_version", "mode", "saved_at"].map (fun id => key id "graph" id) ++
      ["name", "package", "kind"].map (fun id => key id "node" id) ++
      (if doc.detail = .full then [key "code_object" "node" "code_object"] else []) ++
      (Document.attributeKeys doc.nodes).map (fun name =>
        key (attributeMark ++ name) "node" name) ++
      [.group "graph" [("id", "callgraph"), ("edgedefault", "directed")]
        ([data "format_version" (toString doc.formatVersion), data "mode" doc.detail.name,
            data "saved_at" (doc.savedAt.toText "+00:00")] ++
          doc.nodes.map (node doc.detail) ++ doc.edges.map edge)])

/-- Writes a document as GraphML. -/
def write (doc : Document) : List UInt8 :=
  Text.bytesOf (root doc).document

/-! ## Reading -/

/-- A node whose end has not been reached, with its data, the latest first. -/
structure OpenNode where
  id : String
  data : List (String × String)

/-- What has been read: whether there was a root, the names of keys, the data of the graph, the
open node, the open data with the texts in it, and nodes and edges.  The latest come first. -/
structure Reading where
  sawRoot : Bool := false
  keys : List (String × String) := []
  graphData : List (String × String) := []
  openNode : Option OpenNode := none
  openData : Option (String × List String) := none
  nodes : List Node := []
  edges : List Edge := []

/-- The text after `attributeMark`, if the text begins with it. -/
def afterMark? (s : String) : Option String :=
  if attributeMark.toList.isPrefixOf s.toList then
    some (String.ofList (s.toList.drop attributeMark.length))
  else none

/-- What a key means, by its declaration if there is one.  Keys of node attributes keep their
mark. -/
def meaning (keys : List (String × String)) (key : String) : String :=
  let declared := (keys.find? (·.1 == key)).map (·.2)
  match afterMark? key with
  | some name => attributeMark ++ declared.getD name
  | none => declared.getD key

/-- Reads a code object from its JSON text. -/
def codeObject? (text : String) : Option CodeObject :=
  (Json.read (Text.bytesOf text)).bind CodeObject.ofData?

/-- Adds one piece of data to a node. -/
def addData (n : Node) (entry : String × String) : Except DocumentFault Node :=
  match entry.1 with
  | "name" => .ok { n with name := entry.2 }
  | "package" => .ok { n with packageName := entry.2 }
  | "kind" => .ok { n with kind := .ofText entry.2 }
  | "code_object" =>
      match codeObject? entry.2 with
      | some object => .ok { n with object := some object }
      | none => .error (.badObject n.id)
  | other => .ok (n.setAttribute ((afterMark? other).getD other) entry.2)

/-- The node with all of its data. -/
def OpenNode.close (n : OpenNode) : Except DocumentFault Node :=
  n.data.reverse.foldlM addData ⟨n.id, n.id, "", .unknown, none, .empty⟩

/-- The value of an attribute that has to be there. -/
def required (element name : String) (attributes : List (List UInt8 × String)) :
    Except DocumentFault String :=
  match valueOf? attributes name with
  | some value => .ok value
  | none => .error (.missingAttribute element name)

/-- The attributes of a tag. -/
def attributesOf (tag : Tag) : Except DocumentFault (List (List UInt8 × String)) :=
  match tag.attributes? with
  | some attributes => .ok attributes
  | none => .error .malformed

namespace Reading

/-- Stores data where it belongs. -/
def store (r : Reading) (key value : String) : Reading :=
  let entry := (meaning r.keys key, value)
  match r.openNode with
  | some n => { r with openNode := some { n with data := entry :: n.data } }
  | none => { r with graphData := entry :: r.graphData }

/-- Takes a start tag, which may also be the end of its element. -/
def openElement (r : Reading) (tag : Tag) (isEmpty : Bool) : Except DocumentFault Reading := do
  let name := localName tag.name
  if name = ascii "graphml" then
    return { r with sawRoot := true }
  else if name = ascii "key" then
    let attributes ← attributesOf tag
    let id ← required "key" "id" attributes
    return { r with keys := (id, (valueOf? attributes "attr.name").getD id) :: r.keys }
  else if name = ascii "node" then
    let id ← required "node" "id" (← attributesOf tag)
    if isEmpty then
      return { r with nodes := (← OpenNode.close ⟨id, []⟩) :: r.nodes }
    return { r with openNode := some ⟨id, []⟩ }
  else if name = ascii "edge" then
    let attributes ← attributesOf tag
    let source ← required "edge" "source" attributes
    let target ← required "edge" "target" attributes
    return { r with edges := ⟨source, target⟩ :: r.edges }
  else if name = ascii "data" then
    let key ← required "data" "key" (← attributesOf tag)
    if isEmpty then
      return r.store key ""
    return { r with openData := some (key, []) }
  else
    return r

/-- Takes an end tag. -/
def closeElement (r : Reading) (tagName : List UInt8) : Except DocumentFault Reading := do
  let name := localName tagName
  if name = ascii "data" then
    match r.openData with
    | some (key, texts) => return { r with openData := none }.store key (String.join texts.reverse)
    | none => return r
  else if name = ascii "node" then
    match r.openNode with
    | some n => return { r with openNode := none, nodes := (← n.close) :: r.nodes }
    | none => return r
  else
    return r

/-- Takes a text. -/
def addText (r : Reading) (text : String) : Reading :=
  match r.openData with
  | some (key, texts) => { r with openData := some (key, text :: texts) }
  | none => r

/-- Takes one event. -/
def step (r : Reading) : Event → Except DocumentFault Reading
  | .start tag => r.openElement tag false
  | .empty tag => r.openElement tag true
  | .finish name => r.closeElement name
  | .text bytes =>
      match unescape? bytes with
      | some text => .ok (r.addText text)
      | none => .error .malformed
  | .verbatim bytes => .ok (r.addText (Text.ofBytesLenient bytes))
  | .other => .ok r
  | .fault => .error .malformed

end Reading

/-- What the data of a graph says of its document. -/
structure Header where
  formatVersion : Nat
  detail : Option Detail
  savedAt : Instant

/-- Reads a number of at most 32 bits, which may have a plus sign. -/
def version? (cs : List Char) : Option Nat :=
  let ds := match cs with
    | '+' :: ds => ds
    | ds => ds
  if ds.isEmpty || !ds.all Char.isDigit then none
  else
    let n := Number.ofDigits ds
    if n < Nat.pow 2 32 then some n else none

/-- Adds one piece of data to what is known of a document. -/
def Header.add (h : Header) (entry : String × String) : Except DocumentFault Header :=
  match entry.1 with
  | "format_version" =>
      match version? (Text.trimChars entry.2.toList) with
      | some version => .ok { h with formatVersion := version }
      | none => .error (.badVersion entry.2)
  | "mode" =>
      match Detail.ofText entry.2 with
      | .ok detail => .ok { h with detail := some detail }
      | .error error => .error (.unknownDetail error)
  | "saved_at" =>
      match Calendar.strict? (Text.trimChars entry.2.toList) with
      | some savedAt => .ok { h with savedAt := savedAt }
      | none => .error .badTime
  | _ => .ok h

/-- The document that has been read. -/
def Reading.finish (r : Reading) : Except DocumentFault Document := do
  if !r.sawRoot then
    throw (.noRoot "GraphML" "graphml")
  let header ← r.graphData.reverse.foldlM Header.add ⟨Document.currentVersion, none, .epoch⟩
  return {
    formatVersion := header.formatVersion
    detail := header.detail.getD (Document.detailOf r.nodes)
    savedAt := header.savedAt
    nodes := r.nodes.reverse
    edges := r.edges.reverse }

/-- Reads a document from GraphML. -/
def read (bytes : List UInt8) : Except DocumentFault Document := do
  let r ← (scan bytes).foldlM Reading.step ({} : Reading)
  r.finish

end Graphml

end CallGraph
