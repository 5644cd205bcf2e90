import CallGraph.Code.Object
import CallGraph.Data.Catalogue
import CallGraph.Data.Ordered

/-!
# Call graphs

A call graph has a node for each of a set of ids and an edge from each caller to each of its
callees.  Nodes are kept in the order in which their ids were added, and an index says at which
place the node of an id is; edges are kept between places, with the newest one first, which is the
order in which searches visit neighbours.  Between two nodes there is at most one edge in each
direction; a node may call itself.

All answers that are lists of ids or edges are sorted, so that they do not depend on the order in
which a graph was put together.
-/

namespace CallGraph

/-! ## Nodes -/

/-- A node: what is known of a code object by name, the code object itself if it is loaded, and
free attributes. -/
structure Node where
  id : String
  name : String
  packageName : String
  kind : Kind
  object : Option CodeObject := none
  attributes : TextMap := .empty
deriving DecidableEq, Repr

namespace Node

/-- The node of a code object, without attributes. -/
def ofObject (object : CodeObject) : Node where
  id := object.id
  name := object.name
  packageName := object.packageName
  kind := object.kind
  object := some object

/-- Whether the code object is loaded. -/
def isPopulated (node : Node) : Bool :=
  node.object.isSome

/-- The node with the code object loaded.  Name, package and kind become those of the object; id
and attributes stay. -/
def attach (node : Node) (object : CodeObject) : Node :=
  { node with
    name := object.name
    packageName := object.packageName
    kind := object.kind
    object := some object }

/-- The node without its code object. -/
def structureOnly (node : Node) : Node :=
  { node with object := none }

/-- The node with one attribute set. -/
def setAttribute (node : Node) (key value : String) : Node :=
  { node with attributes := node.attributes.insert key value }

end Node

/-! ## Edges -/

/-- A call of one node by another. -/
structure Edge where
  caller : String
  callee : String
deriving DecidableEq, Repr

/-- Edges are ordered by their callers, and those of one caller by their callees. -/
def Edge.le (a b : Edge) : Bool :=
  decide (a.caller < b.caller) || (a.caller == b.caller && decide (a.callee ≤ b.callee))

/-- A call of one node by another, by the places of the two nodes. -/
structure Arc where
  caller : Nat
  callee : Nat
deriving DecidableEq, Repr

/-! ## Graphs -/

/-- A query named an id that is not in the graph. -/
inductive GraphError where
  | nodeNotFound (id : String)
deriving DecidableEq, Repr

/-- The text of the error. -/
def GraphError.message : GraphError → String
  | nodeNotFound id => s!"Node not found: {id}"

/-- At which place the node of an id is. -/
structure IndexEntry where
  id : String
  place : Nat
deriving DecidableEq, Repr

/-- A call graph: its nodes in the order in which they were added, its edges between the places of
nodes, the newest first, and the index of the places by id. -/
structure Graph where
  nodes : List Node
  arcs : List Arc
  index : Catalogue IndexEntry.id

namespace Graph

/-- The graph without nodes. -/
def empty : Graph where
  nodes := []
  arcs := []
  index := .empty

instance : Inhabited Graph := ⟨empty⟩

/-- The place of an id among the nodes, counted from zero. -/
def indexOf? (g : Graph) (id : String) : Option Nat :=
  (g.index.find? id).map (·.place)

/-- The id of the node at a place. -/
def idAt (g : Graph) (place : Nat) : String :=
  match g.nodes[place]? with
  | some node => node.id
  | none => ""

/-- The node with the given id. -/
def node? (g : Graph) (id : String) : Option Node :=
  (g.indexOf? id).bind fun place => g.nodes[place]?

/-- Whether there is a node with the given id. -/
def contains (g : Graph) (id : String) : Bool :=
  g.index.contains id

/-- The places of the two ends of an edge. -/
def arc? (g : Graph) (caller callee : String) : Option Arc :=
  match g.indexOf? caller, g.indexOf? callee with
  | some i, some j => some ⟨i, j⟩
  | _, _ => none

/-- Whether the first id calls the second. -/
def hasEdge (g : Graph) (caller callee : String) : Bool :=
  match g.arc? caller callee with
  | some arc => g.arcs.contains arc
  | none => false

/-- The place of an id that has to be in the graph. -/
def require (g : Graph) (id : String) : Except GraphError Nat :=
  match g.indexOf? id with
  | some i => .ok i
  | none => .error (.nodeNotFound id)

/-! ## Changing a graph -/

/-- The graph with the node of the given id changed.  The new node keeps its id if `change`
does. -/
def modify (g : Graph) (id : String) (change : Node → Node) : Graph :=
  match g.indexOf? id with
  | some place => { g with nodes := g.nodes.modify place change }
  | none => g

/-- The graph with the node.  A node with the same id is replaced where it stands and keeps its
edges. -/
def addNode (g : Graph) (node : Node) : Graph :=
  match g.indexOf? node.id with
  | some place => { g with nodes := g.nodes.set place node }
  | none =>
      { g with
        nodes := g.nodes ++ [node]
        index := g.index.insert ⟨node.id, g.nodes.length⟩ }

/-- The graph with the edge, and whether the edge is new.  Both ends have to be in the graph, and
the caller is looked for first. -/
def addEdge (g : Graph) (caller callee : String) : Except GraphError (Graph × Bool) := do
  let i ← g.require caller
  let j ← g.require callee
  if g.arcs.contains ⟨i, j⟩ then
    return (g, false)
  return ({ g with arcs := ⟨i, j⟩ :: g.arcs }, true)

/-! ## Contents -/

/-- The number of nodes. -/
def nodeCount (g : Graph) : Nat :=
  g.nodes.length

/-- The number of edges. -/
def edgeCount (g : Graph) : Nat :=
  g.arcs.length

/-- Whether the graph has no node. -/
def isEmpty (g : Graph) : Bool :=
  g.nodes.isEmpty

/-- The ids of the nodes in ascending order. -/
def nodeIds (g : Graph) : List String :=
  g.index.keys

/-- The nodes in ascending order of their ids. -/
def sortedNodes (g : Graph) : List Node :=
  sortByText (·.id) g.nodes

/-- The edges, the newest first. -/
def edges (g : Graph) : List Edge :=
  g.arcs.map fun arc => ⟨g.idAt arc.caller, g.idAt arc.callee⟩

/-- The edges in ascending order. -/
def sortedEdges (g : Graph) : List Edge :=
  g.edges.mergeSort Edge.le

/-- The number of nodes whose code object is loaded. -/
def populatedCount (g : Graph) : Nat :=
  g.nodes.countP (·.isPopulated)

/-- Two graphs are the same if they have the same nodes and the same edges, in whatever order they
were added. -/
def same (g h : Graph) : Bool :=
  g.nodeCount == h.nodeCount && g.edgeCount == h.edgeCount &&
    g.sortedNodes == h.sortedNodes && g.sortedEdges == h.sortedEdges

/-! ## Neighbours -/

/-- The ids that `id` calls, the newest edge first. -/
def calleesOf (g : Graph) (id : String) : List String :=
  match g.indexOf? id with
  | some place => (g.arcs.filter (·.caller == place)).map (g.idAt ·.callee)
  | none => []

/-- The ids that call `id`, the newest edge first. -/
def callersOf (g : Graph) (id : String) : List String :=
  match g.indexOf? id with
  | some place => (g.arcs.filter (·.callee == place)).map (g.idAt ·.caller)
  | none => []

/-- The ids that `id` calls, in ascending order. -/
def successors (g : Graph) (id : String) : Except GraphError (List String) := do
  let _ ← g.require id
  return sortDistinct (g.calleesOf id)

/-- The ids that call `id`, in ascending order. -/
def predecessors (g : Graph) (id : String) : Except GraphError (List String) := do
  let _ ← g.require id
  return sortDistinct (g.callersOf id)

/-- The number of edges that end at `id`. -/
def inDegree (g : Graph) (id : String) : Except GraphError Nat := do
  let _ ← g.require id
  return (g.callersOf id).length

/-- The number of edges that start at `id`. -/
def outDegree (g : Graph) (id : String) : Except GraphError Nat := do
  let _ ← g.require id
  return (g.calleesOf id).length

/-! ## Parts of a graph -/

/-- The part of the graph that consists of the nodes with the given ids and of all edges between
them.  Ids that are not in the graph are ignored. -/
def induced (g : Graph) (ids : List String) : Graph :=
  let part := ((sortDistinct ids).filterMap g.node?).foldl addNode empty
  { part with
    arcs :=
      (g.edges.filter fun edge => ids.contains edge.caller && ids.contains edge.callee).filterMap
        fun edge => part.arc? edge.caller edge.callee }

/-- The graph without the code objects of its nodes. -/
def structureOnly (g : Graph) : Graph :=
  { g with nodes := g.nodes.map Node.structureOnly }

end Graph

end CallGraph
