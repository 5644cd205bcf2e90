import CallGraph.Calendar.Instant
import CallGraph.Document.Format
import CallGraph.Error
import CallGraph.Graph.Basic

/-!
# Graph documents

A graph document is what a graph file holds, whatever its format: nodes and edges as lists, how
much is known of each node, and when the graph was saved.  Every graph has a document, while a
document that was read need not describe a graph.
-/

namespace CallGraph

/-- What a graph file holds. -/
structure Document where
  formatVersion : Nat
  detail : Detail
  savedAt : Instant
  nodes : List Node
  edges : List Edge
deriving DecidableEq, Repr

/-- Why bytes cannot be read as a document, or a document does not describe a graph. -/
inductive DocumentFault where
  /-- A fault in the language that the format is written in. -/
  | malformed
  | noRoot (language root : String)
  | missingAttribute (element name : String)
  | badVersion (text : String)
  | badTime
  | unknownDetail (error : UnsupportedFormat)
  | badObject (node : String)
  | tooShort
  | badMagic (bytes : List UInt8)
  | badPayload
  | newerVersion (version : Nat)
  | emptyId
  | duplicateId (id : String)
  | badEdge (edge : Edge) (error : GraphError)
deriving DecidableEq, Repr

namespace Document

/-- The newest version of the formats, which is the one that is written. -/
def currentVersion : Nat := 1

/-- The letters that the binary format begins with. -/
def magic : String := "DGB1"

end Document

/-- The text of the fault. -/
def DocumentFault.message : DocumentFault → String
  | malformed => undescribed
  | noRoot language root => s!"not a {language} document (no <{root}> root)"
  | missingAttribute element name =>
      s!"<{element}> is missing its " ++ Text.quoted name ++ " attribute"
  | badVersion text => "bad format_version " ++ Text.quoted text
  | badTime => s!"bad saved_at {undescribed}"
  | unknownDetail error => error.message
  | badObject node => "node " ++ Text.quoted node ++ s!": bad code_object: {undescribed}"
  | tooShort => "file too short for a binary graph"
  | badMagic bytes =>
      "bad magic [" ++ ", ".intercalate (bytes.map fun b => toString b.toNat) ++ "], expected " ++
        Text.quoted Document.magic
  | badPayload => s!"corrupt payload: {undescribed}"
  | newerVersion version =>
      s!"format version {version} is newer than supported version {Document.currentVersion}"
  | emptyId => "node with empty id"
  | duplicateId id => "duplicate node id " ++ Text.quoted id
  | badEdge edge error => "edge " ++ edge.caller ++ " -> " ++ edge.callee ++ ": " ++ error.message

/-- Whether the text describes the fault, rather than leaving a part of it open. -/
def DocumentFault.isDescribed : DocumentFault → Bool
  | malformed | badTime | badObject _ | badPayload => false
  | _ => true

namespace Document

/-- The node as it is written: with its code object only in full. -/
def atDetail (detail : Detail) (node : Node) : Node :=
  match detail with
  | .full => node
  | .structureOnly => node.structureOnly

/-- The document of a graph.  Nodes and edges are in ascending order. -/
def ofGraph (g : Graph) (detail : Detail) (savedAt : Instant) : Document where
  formatVersion := currentVersion
  detail := detail
  savedAt := savedAt
  nodes := g.sortedNodes.map (atDetail detail)
  edges := g.sortedEdges

/-- Adds the node of a document. -/
def addNode (detail : Detail) (g : Graph) (node : Node) : Except DocumentFault Graph :=
  if node.id.isEmpty then .error .emptyId
  else if g.contains node.id then .error (.duplicateId node.id)
  else .ok (g.addNode (atDetail detail node))

/-- Adds the edge of a document. -/
def addEdge (g : Graph) (edge : Edge) : Except DocumentFault Graph :=
  match g.addEdge edge.caller edge.callee with
  | .ok (g, _) => .ok g
  | .error error => .error (.badEdge edge error)

/-- The graph that a document describes.  The version has to be known, ids have to be different and
not empty, and edges have to join nodes. -/
def toGraph (doc : Document) : Except DocumentFault Graph := do
  if currentVersion < doc.formatVersion then
    throw (.newerVersion doc.formatVersion)
  let g ← doc.nodes.foldlM (addNode doc.detail) Graph.empty
  doc.edges.foldlM addEdge g

/-- Whether some node has its code object. -/
def hasObjects (nodes : List Node) : Bool :=
  nodes.any (·.isPopulated)

/-- The detail that loses nothing of these nodes. -/
def detailOf (nodes : List Node) : Detail :=
  if hasObjects nodes then .full else .structureOnly

/-- The keys of all attributes, in ascending order. -/
def attributeKeys (nodes : List Node) : List String :=
  sortDistinct (nodes.flatMap fun node => node.attributes.keys)

end Document

end CallGraph
