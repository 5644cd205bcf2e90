import CallGraph.Proofs.Graph.Representation

/-!
# Changing what is known of nodes

Ids and edges do not depend on what else is known of the nodes.  If every node is changed and keeps
its id, the graph that is left has the same ids and the same edges, and nodes and edges can be added
before the change or after it.

Main results:

- Theorem `Graph.edges_of_nodes`: edges stay as they are.
- Theorems `Graph.calleesOf_mapNodes` and `Graph.callersOf_mapNodes`: so do the neighbours.
- Theorem `Graph.WellFormed.modify_eq_mapNodes`: changing one node as a change of all nodes.
- Theorems `Graph.node?_mapNodes`, `Graph.addNode_mapNodes` and `Graph.addEdge_mapNodes`: finding a
  node, adding one and adding an edge commute with a change of all nodes.
-/

namespace CallGraph

namespace Graph

/-- The graph with all nodes changed. -/
def mapNodes (g : Graph) (change : Node → Node) : Graph :=
  { g with nodes := g.nodes.map change }

variable {g : Graph} {change : Node → Node}

/-- The ids at places stay as they are if nodes are changed without their ids. -/
theorem idAt_of_nodes {nodes : List Node} (hids : nodes.map (·.id) = g.nodes.map (·.id)) :
    ({ g with nodes := nodes } : Graph).idAt = g.idAt := by
  have hidAt (h : Graph) (place : Nat) :
      h.idAt place = ((h.nodes.map (·.id))[place]?).getD "" := by
    rw [idAt, List.getElem?_map]
    cases h.nodes[place]? <;> rfl
  funext place
  simp only [hidAt, hids]

/-- Edges stay as they are if nodes are changed without their ids. -/
theorem edges_of_nodes {nodes : List Node} (hids : nodes.map (·.id) = g.nodes.map (·.id)) :
    ({ g with nodes := nodes } : Graph).edges = g.edges := by
  simp only [edges, idAt_of_nodes hids]

/-- Two changes of all nodes, one after the other, are one change. -/
theorem mapNodes_mapNodes (g : Graph) (first second : Node → Node) :
    (g.mapNodes first).mapNodes second = g.mapNodes fun node => second (first node) := by
  simp only [mapNodes, List.map_map, Function.comp_def]

/-- Changes that do the same to the nodes of a graph do the same to the graph. -/
theorem mapNodes_congr {other : Node → Node} (h : ∀ node ∈ g.nodes, change node = other node) :
    g.mapNodes change = g.mapNodes other := by
  rw [mapNodes, mapNodes, List.map_congr_left h]

/-- A change that leaves every node as it is leaves the graph as it is. -/
theorem mapNodes_eq_self (h : ∀ node ∈ g.nodes, change node = node) : g.mapNodes change = g := by
  rw [mapNodes, List.map_congr_left h, List.map_id']

/-- The index does not see what is known of nodes, so every node is found where it was. -/
theorem node?_mapNodes (g : Graph) (change : Node → Node) (id : String) :
    (g.mapNodes change).node? id = (g.node? id).map change := by
  have hindex : (g.mapNodes change).indexOf? id = g.indexOf? id := rfl
  rw [node?, node?, hindex]
  cases g.indexOf? id with
  | none => rfl
  | some place => exact List.getElem?_map

/-- Changing the node with an id is a change of all nodes that leaves those with other ids as they
are. -/
theorem WellFormed.modify_eq_mapNodes (hg : g.WellFormed) (id : String) (change : Node → Node) :
    g.modify id change = g.mapNodes fun node => if node.id = id then change node else node := by
  cases hplace : g.indexOf? id with
  | none =>
    have hother : ∀ node ∈ g.nodes, node.id ≠ id := fun node hnode hid => by
      have hcontains := hg.contains_of_mem_nodes hnode
      rw [hid, indexOf?_eq_none_iff.1 hplace] at hcontains
      cases hcontains
    rw [Graph.modify, hplace, mapNodes_eq_self fun node hnode => if_neg (hother node hnode)]
  | some place =>
    have hnodes : g.nodes.modify place change =
        g.nodes.map fun node => if node.id = id then change node else node := by
      refine List.ext_getElem? fun other => ?_
      rw [List.getElem?_modify, List.getElem?_map]
      cases hnode : g.nodes[other]? with
      | none => rfl
      | some node =>
        -- The index leads from the id of a node to its place, so only one node is at `place`.
        have hindex := hg.index_of_node hnode
        have hsame : place = other ↔ node.id = id := by
          constructor
          · rintro rfl
            exact hg.eq_of_indexOf? hindex hplace
          · intro hid
            rw [hid, hplace, Option.some.injEq] at hindex
            exact hindex
        simp only [Option.map_eq_map, Option.map_some, hsame]
    rw [Graph.modify, hplace, mapNodes, ← hnodes]

theorem nodeCount_mapNodes (g : Graph) (change : Node → Node) :
    (g.mapNodes change).nodeCount = g.nodeCount :=
  List.length_map change

/-- An edge is added to changed nodes as to the nodes before the change. -/
theorem addEdge_mapNodes (g : Graph) (change : Node → Node) (caller callee : String) :
    (g.mapNodes change).addEdge caller callee =
      (g.addEdge caller callee).map fun added => (added.1.mapNodes change, added.2) := by
  have hrequire : (g.mapNodes change).require = g.require := rfl
  have harcs : (g.mapNodes change).arcs = g.arcs := rfl
  rw [addEdge, addEdge, hrequire, harcs]
  cases g.require caller with
  | error error => rfl
  | ok i =>
    cases g.require callee with
    | error error => rfl
    | ok j =>
      by_cases hold : g.arcs.contains ⟨i, j⟩ = true
      · simp only [bind, Except.bind, if_pos hold]
        rfl
      · simp only [bind, Except.bind, if_neg hold]
        rfl

section

variable (hchange : ∀ node, (change node).id = node.id)
include hchange

/-- A change that keeps the ids of nodes keeps them in their places. -/
theorem map_id_mapNodes (g : Graph) :
    (g.mapNodes change).nodes.map (·.id) = g.nodes.map (·.id) := by
  rw [mapNodes, List.map_map]
  exact List.map_congr_left fun node _ => hchange node

/-- A change that keeps ids keeps a graph well-formed. -/
theorem WellFormed.mapNodes (hg : g.WellFormed) : (g.mapNodes change).WellFormed :=
  hg.of_nodes (map_id_mapNodes hchange g)

/-- A change that keeps ids changes no edge. -/
theorem edges_mapNodes (g : Graph) : (g.mapNodes change).edges = g.edges :=
  edges_of_nodes (map_id_mapNodes hchange g)

/-- A change that keeps ids changes no callees. -/
theorem calleesOf_mapNodes (g : Graph) : (g.mapNodes change).calleesOf = g.calleesOf := by
  have hindex : (g.mapNodes change).indexOf? = g.indexOf? := rfl
  have hidAt : (g.mapNodes change).idAt = g.idAt := idAt_of_nodes (map_id_mapNodes hchange g)
  funext id
  rw [calleesOf, calleesOf, hindex, hidAt]
  rfl

/-- A change that keeps ids changes no callers. -/
theorem callersOf_mapNodes (g : Graph) : (g.mapNodes change).callersOf = g.callersOf := by
  have hindex : (g.mapNodes change).indexOf? = g.indexOf? := rfl
  have hidAt : (g.mapNodes change).idAt = g.idAt := idAt_of_nodes (map_id_mapNodes hchange g)
  funext id
  rw [callersOf, callersOf, hindex, hidAt]
  rfl

/-- A node that is changed with the others can be added before or after the change. -/
theorem addNode_mapNodes (g : Graph) (node : Node) :
    (g.mapNodes change).addNode (change node) = (g.addNode node).mapNodes change := by
  have hindex : (g.mapNodes change).indexOf? (change node).id = g.indexOf? node.id := by
    rw [hchange]
    rfl
  cases hplace : g.indexOf? node.id with
  | some place =>
    rw [addNode_of_indexOf?_eq_some hplace, addNode_of_indexOf?_eq_some (hindex.trans hplace)]
    simp only [mapNodes, List.map_set]
  | none =>
    rw [addNode_of_indexOf?_eq_none hplace, addNode_of_indexOf?_eq_none (hindex.trans hplace),
      hchange]
    simp only [mapNodes, List.map_append, List.map_singleton, List.length_map]

/-- Whether the nodes of a list are changed before they are added or with the whole graph is the
same. -/
theorem foldl_addNode_mapNodes (g : Graph) (nodes : List Node) :
    (nodes.map change).foldl addNode (g.mapNodes change) =
      (nodes.foldl addNode g).mapNodes change := by
  induction nodes generalizing g with
  | nil => rfl
  | cons node rest ih =>
    rw [List.map_cons, List.foldl_cons, List.foldl_cons, addNode_mapNodes hchange, ih]

end

end Graph

end CallGraph
