import CallGraph.Document.Graphml

/-!
# GEXF documents

Everything known of a node but its id and label is written as a value of a declared attribute.  The
detail of a document is not written: it is full if an attribute for code objects is declared.
-/

namespace CallGraph

namespace Gexf

open Xml Graphml

/-! ## Writing -/

/-- The declaration of an attribute of nodes. -/
def declaration (id title : String) : Element :=
  .empty "attribute" [("id", id), ("title", title), ("type", "string")]

/-- The value of an attribute. -/
def value (id text : String) : Element :=
  .empty "attvalue" [("for", id), ("value", text)]

/-- The element of a node. -/
def node (detail : Detail) (n : Node) : Element :=
  .group "node" [("id", n.id), ("label", n.name)]
    [.group "attvalues" []
      ([value "package" n.packageName, value "kind" n.kind.name] ++
        (match detail, n.object with
          | .full, some object => [value "code_object" (Json.line object.toData)]
          | _, _ => []) ++
        n.attributes.entries.map fun entry => value (attributeMark ++ entry.1) entry.2)]

/-- The element of an edge, with its place among the edges. -/
def edge (e : Edge) (i : Nat) : Element :=
  .empty "edge" [("id", toString i), ("source", e.caller), ("target", e.callee)]

/-- The element of a document. -/
def root (doc : Document) : Element :=
  .group "gexf" [("xmlns", "http://gexf.net/1.2"), ("version", "1.2")] [
    .group "meta" [("lastmodifieddate", String.ofList doc.savedAt.date.toChars)] [
      .leaf "creator" [] "depgraph",
      .leaf "description" [] "call graph"],
    .group "graph" [("mode", "static"), ("defaultedgetype", "directed")] [
      .group "attributes" [("class", "node")]
        ([declaration "package" "package", declaration "kind" "kind"] ++
          (if doc.detail = .full then [declaration "code_object" "code_object"] else []) ++
          (Document.attributeKeys doc.nodes).map fun name =>
            declaration (attributeMark ++ name) name),
      .group "nodes" [] (doc.nodes.map (node doc.detail)),
      .group "edges" [] (doc.edges.mapIdx fun i e => edge e i)]]

/-- Writes a document as GEXF. -/
def write (doc : Document) : List UInt8 :=
  Text.bytesOf (root doc).document

/-! ## Reading -/

/-- What has been read: whether there was a root, the day, the titles of attributes, the open node,
and nodes and edges.  The latest come first. -/
structure Reading where
  sawRoot : Bool := false
  savedAt : Option Instant := none
  titles : List (String × String) := []
  declaresObject : Bool := false
  openNode : Option Node := none
  nodes : List Node := []
  edges : List Edge := []

namespace Reading

/-- Stores the value of an attribute in the node that is open, if there is one. -/
def store (r : Reading) (key value : String) : Except DocumentFault Reading := do
  match r.openNode with
  | none => return r
  | some n =>
      let title := ((r.titles.find? (·.1 == key)).map (·.2)).getD key
      let n ← match (afterMark? key).isSome, title with
        | false, "package" => .ok { n with packageName := value }
        | false, "kind" => .ok { n with kind := .ofText value }
        | false, "code_object" =>
            match codeObject? value with
            | some object => .ok { n with object := some object }
            | none => .error (.badObject n.id)
        | _, title => .ok (n.setAttribute title value)
      return { r with openNode := some n }

/-- Takes a start tag, which may also be the end of its element. -/
def openElement (r : Reading) (tag : Tag) (isEmpty : Bool) : Except DocumentFault Reading := do
  let name := localName tag.name
  if name = ascii "gexf" then
    return { r with sawRoot := true }
  else if name = ascii "meta" then
    let attributes ← attributesOf tag
    let day := valueOf? attributes "lastmodifieddate"
    return { r with savedAt := day.bind fun text => Calendar.day? text.toList }
  else if name = ascii "attribute" then
    let attributes ← attributesOf tag
    let id ← required "attribute" "id" attributes
    let title := (valueOf? attributes "title").getD id
    return { r with
      titles := (id, title) :: r.titles
      declaresObject := r.declaresObject || title == "code_object" }
  else if name = ascii "node" then
    let attributes ← attributesOf tag
    let id ← required "node" "id" attributes
    let n : Node := ⟨id, (valueOf? attributes "label").getD id, "", .unknown, none, .empty⟩
    if isEmpty then
      return { r with nodes := n :: r.nodes }
    return { r with openNode := some n }
  else if name = ascii "attvalue" then
    let attributes ← attributesOf tag
    let key ← required "attvalue" "for" attributes
    r.store key ((valueOf? attributes "value").getD "")
  else if name = ascii "edge" then
    let attributes ← attributesOf tag
    let source ← required "edge" "source" attributes
    let target ← required "edge" "target" attributes
    return { r with edges := ⟨source, target⟩ :: r.edges }
  else
    return r

/-- Takes an end tag. -/
def closeElement (r : Reading) (tagName : List UInt8) : Reading :=
  if localName tagName = ascii "node" then
    match r.openNode with
    | some n => { r with openNode := none, nodes := n :: r.nodes }
    | none => r
  else r

/-- Takes one event; texts do not count. -/
def step (r : Reading) : Event → Except DocumentFault Reading
  | .start tag => r.openElement tag false
  | .empty tag => r.openElement tag true
  | .finish name => .ok (r.closeElement name)
  | .fault => .error .malformed
  | _ => .ok r

/-- The document that has been read. -/
def finish (r : Reading) : Except DocumentFault Document :=
  if r.sawRoot then
    .ok {
      formatVersion := Document.currentVersion
      detail := if r.declaresObject then .full else .structureOnly
      savedAt := r.savedAt.getD .epoch
      nodes := r.nodes.reverse
      edges := r.edges.reverse }
  else .error (.noRoot "GEXF" "gexf")

end Reading

/-- Reads a document from GEXF. -/
def read (bytes : List UInt8) : Except DocumentFault Document := do
  let r ← (scan bytes).foldlM Reading.step ({} : Reading)
  r.finish

end Gexf

end CallGraph
