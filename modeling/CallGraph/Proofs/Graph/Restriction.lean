import CallGraph.Proofs.Graph.Nodes
import CallGraph.Proofs.Graph.Operations
import CallGraph.Proofs.Graph.Parts

/-!
# Graphs restricted to a set of ids

Restricting a graph numbers its nodes anew and looks up the ends of each edge among the new places.
No lookup misses, so that nothing is lost: a part lists the nodes of the graph in the order of their
ids, leaving out those with other ids, and the edges in their order, leaving out those with an end
elsewhere.  As a part is determined by these two lists, laws of parts are laws of lists.

Main results:

- Theorems `Graph.WellFormed.nodes_induced_eq_filter` and `Graph.WellFormed.edges_induced`: what a
  part lists.
- Theorem `Graph.WellFormed.induced_eq_induced`: parts that list the same are the same, places
  included.
- Theorems `Graph.WellFormed.induced_induced` and `Graph.induced_mapNodes`: parts of parts, and
  parts of graphs whose nodes were changed.
- Theorem `Graph.restriction_laws`: the laws for graphs that can be reached.
-/

namespace CallGraph

namespace Graph

variable {g h : Graph} {ids others : List String}

/-! ## What a part lists -/

/-- Nodes that are found under ascending ids are ascending. -/
theorem WellFormed.pairwise_filterMap_node? (hg : g.WellFormed) (h : ids.Pairwise (· < ·)) :
    (ids.filterMap g.node?).Pairwise fun a b => a.id < b.id := by
  refine List.Pairwise.filterMap g.node? (fun a b hab node hnode other hother => ?_) h
  rwa [(hg.node?_eq_some_iff.1 hnode).2, (hg.node?_eq_some_iff.1 hother).2]

/-- A part lists its nodes in the order of their ids. -/
theorem WellFormed.nodes_induced_eq_filter (hg : g.WellFormed) (ids : List String) :
    (g.induced ids).nodes = g.sortedNodes.filter fun node => ids.contains node.id := by
  have hpart : (g.induced ids).nodes.Pairwise fun a b => a.id < b.id := by
    rw [hg.nodes_induced]
    exact hg.pairwise_filterMap_node? (pairwise_sortDistinct ids)
  refine eq_of_mem_iff_of_pairwise_lt hpart (hg.pairwise_sortedNodes.filter _) fun node => ?_
  rw [hg.mem_nodes_induced_iff, List.mem_filter, (perm_sortedNodes g).mem_iff,
    List.contains_iff_mem]

/-- The ends of an edge between two ids of a part are found in the part. -/
theorem WellFormed.exists_indexOf?_induced (hg : g.WellFormed) {edge : Edge}
    (hedge : edge ∈ g.edges) (hcaller : edge.caller ∈ ids) (hcallee : edge.callee ∈ ids) :
    ∃ i j, (g.induced ids).indexOf? edge.caller = some i ∧
      (g.induced ids).indexOf? edge.callee = some j ∧ ⟨i, j⟩ ∈ (g.induced ids).arcs := by
  have hpresent := hg.mem_edges_iff.1 hedge
  exact hasEdge_iff.1 (hg.hasEdge_induced_iff.2 ⟨hpresent, hcaller, hcallee⟩)

/-- A part lists its edges in their order in the graph. -/
theorem WellFormed.edges_induced (hg : g.WellFormed) (ids : List String) :
    (g.induced ids).edges =
      g.edges.filter fun edge => ids.contains edge.caller && ids.contains edge.callee := by
  have hpart := hg.induced ids
  have harcs : (g.induced ids).arcs =
      (g.edges.filter fun edge => ids.contains edge.caller && ids.contains edge.callee).filterMap
        fun edge => (g.induced ids).arc? edge.caller edge.callee := rfl
  rw [edges, harcs, List.map_filterMap]
  -- Every lookup succeeds, and going back from the places gives the ids that were looked up.
  refine (List.filterMap_congr fun edge hedge => ?_).trans List.filterMap_some
  simp only [List.mem_filter, Bool.and_eq_true, List.contains_iff_mem] at hedge
  obtain ⟨i, j, hi, hj, -⟩ := hg.exists_indexOf?_induced hedge.1 hedge.2.1 hedge.2.2
  have harc : (g.induced ids).arc? edge.caller edge.callee = some ⟨i, j⟩ :=
    arc?_eq_some_iff.2 ⟨hi, hj⟩
  rw [harc, Option.map_some, hpart.idAt_of_indexOf? hi, hpart.idAt_of_indexOf? hj]

/-! ## Parts that list the same -/

/-- A part is put together from its own nodes. -/
theorem WellFormed.index_induced (hg : g.WellFormed) (ids : List String) :
    (g.induced ids).index = ((g.induced ids).nodes.foldl Graph.addNode Graph.empty).index := by
  rw [hg.nodes_induced]
  rfl

/-- Parts with the same nodes and edges keep these at the same places, be it parts of one graph or
of two. -/
theorem WellFormed.induced_eq_induced (hg : g.WellFormed) (hh : h.WellFormed)
    (hnodes : (g.induced ids).nodes = (h.induced others).nodes)
    (hedges : (g.induced ids).edges = (h.induced others).edges) :
    g.induced ids = h.induced others := by
  have hindex : (g.induced ids).index = (h.induced others).index := by
    rw [hg.index_induced, hh.index_induced, hnodes]
  have harcs {g : Graph} (hg : g.WellFormed) (ids : List String) : (g.induced ids).arcs =
      (g.induced ids).edges.filterMap fun edge =>
        (g.induced ids).arc? edge.caller edge.callee := by
    rw [hg.edges_induced]
    rfl
  have hlookups : (g.induced ids).arc? = (h.induced others).arc? := by
    funext caller callee
    rw [arc?, arc?, indexOf?, indexOf?, indexOf?, indexOf?, hindex]
  have hsame : (g.induced ids).arcs = (h.induced others).arcs := by
    rw [harcs hg, harcs hh, hedges, hlookups]
  exact Graph.mk.injEq .. ▸ ⟨hnodes, hsame, hindex⟩

/-- A part of a part is the part with the ids that both have. -/
theorem WellFormed.induced_induced (hg : g.WellFormed) (ids others : List String) :
    (g.induced ids).induced others = g.induced (ids ∩ others) := by
  have hpart := hg.induced ids
  apply hpart.induced_eq_induced hg
  · have hsorted : (g.induced ids).sortedNodes = (g.induced ids).nodes := by
      refine sortByText_of_pairwise ?_
      rw [hg.nodes_induced_eq_filter]
      exact (hg.pairwise_sortedNodes.filter _).imp le_of_lt
    rw [hpart.nodes_induced_eq_filter, hsorted, hg.nodes_induced_eq_filter,
      hg.nodes_induced_eq_filter, List.filter_filter]
    refine List.filter_congr fun node _ => ?_
    rw [Bool.eq_iff_iff]
    simp [and_comm]
  · rw [hpart.edges_induced, hg.edges_induced, hg.edges_induced, List.filter_filter]
    refine List.filter_congr fun edge _ => ?_
    rw [Bool.eq_iff_iff]
    simp
    tauto

/-- Cutting out a part and changing all nodes, without their ids, can be done in any order. -/
theorem induced_mapNodes {change : Node → Node} (hchange : ∀ node, (change node).id = node.id)
    (g : Graph) (ids : List String) :
    (g.mapNodes change).induced ids = (g.induced ids).mapNodes change := by
  have hnodes : (sortDistinct ids).filterMap (g.mapNodes change).node? =
      ((sortDistinct ids).filterMap g.node?).map change := by
    rw [List.map_filterMap]
    exact List.filterMap_congr fun id _ => node?_mapNodes g change id
  have hempty : empty.mapNodes change = empty := rfl
  have hpart := foldl_addNode_mapNodes hchange empty ((sortDistinct ids).filterMap g.node?)
  rw [hempty] at hpart
  simp only [induced, hnodes, hpart, edges_mapNodes hchange]
  rfl

/-! ## Laws of restriction -/

/-- The part has exactly the nodes of the graph with one of the ids, as they are in the graph, and
exactly the edges between two of the ids, all of whose ends were found. -/
structure Restricts (g : Graph) (ids : List String) (part : Graph) : Prop where
  nodes : part.nodes = g.sortedNodes.filter fun node => ids.contains node.id
  node?_eq : ∀ id, part.node? id = if id ∈ ids then g.node? id else none
  edges : part.edges =
    g.edges.filter fun edge => ids.contains edge.caller && ids.contains edge.callee
  hasEdge_iff : ∀ a b, part.hasEdge a b = true ↔ g.hasEdge a b = true ∧ a ∈ ids ∧ b ∈ ids
  lookups : ∀ edge ∈ g.edges, edge.caller ∈ ids → edge.callee ∈ ids → ∃ i j,
    part.indexOf? edge.caller = some i ∧ part.indexOf? edge.callee = some j ∧ ⟨i, j⟩ ∈ part.arcs

/-- Restricting a graph keeps what lies inside the ids, and nothing else.  Restricting twice is
restricting to the ids in both sets.  With all ids, the same graph is left, its nodes in the order
of their ids.  Code objects can be left out before or after. -/
theorem restriction_laws (hg : g.Reachable) (ids others : List String) :
    g.Restricts ids (g.induced ids) ∧
      (g.induced ids).induced others = g.induced (ids ∩ others) ∧
      (∀ all, (∀ id, g.contains id = true → id ∈ all) →
        g.same (g.induced all) = true ∧ (g.induced all).nodes = g.sortedNodes) ∧
      g.structureOnly.induced ids = (g.induced ids).structureOnly := by
  have hg := hg.wellFormed
  have hid : ∀ node : Node, node.structureOnly.id = node.id := fun _ => rfl
  refine ⟨?_, hg.induced_induced ids others, ?_, induced_mapNodes hid g ids⟩
  · constructor
    · exact hg.nodes_induced_eq_filter ids
    · exact hg.node?_induced ids
    · exact hg.edges_induced ids
    · exact fun a b => hg.hasEdge_induced_iff
    · exact fun edge hedge => hg.exists_indexOf?_induced hedge
  · intro all hall
    refine ⟨hg.same_induced_of_contains hall, ?_⟩
    rw [hg.nodes_induced_eq_filter, List.filter_eq_self]
    intro node hnode
    have hmem := (perm_sortedNodes g).mem_iff.1 hnode
    exact List.contains_iff_mem.2 (hall node.id (hg.contains_of_mem_nodes hmem))

/-- Three nodes in a ring, added in no order, one of which calls itself. -/
def ringWithLoop : List Operation :=
  [.addNode ⟨"c", "c", "", .unknown, none, .empty⟩, .addNode ⟨"a", "a", "", .unknown, none, .empty⟩,
    .addNode ⟨"b", "b", "", .unknown, none, .empty⟩, .addEdge "a" "b", .addEdge "b" "c",
    .addEdge "c" "a", .addEdge "a" "a"]

/-- The laws for a ring of three nodes with a loop, cut down to two of them. -/
theorem restriction_laws_ringWithLoop :
    (∀ id, (after ringWithLoop).contains id = true → id ∈ ["c", "b", "a"]) ∧
      (after ringWithLoop).Restricts ["c", "absent", "a"]
        ((after ringWithLoop).induced ["c", "absent", "a"]) ∧
      ((after ringWithLoop).induced ["c", "absent", "a"]).induced ["b", "a"] =
        (after ringWithLoop).induced ["a"] ∧
      (after ringWithLoop).same ((after ringWithLoop).induced ["c", "b", "a"]) = true ∧
      (after ringWithLoop).nodes ≠ ((after ringWithLoop).induced ["c", "b", "a"]).nodes := by
  have hreachable : (after ringWithLoop).Reachable := ⟨ringWithLoop, rfl⟩
  have hids : (after ringWithLoop).nodeIds = ["a", "b", "c"] := by decide
  have hall : ∀ id, (after ringWithLoop).contains id = true → id ∈ ["c", "b", "a"] := by
    intro id hid
    have hmem := mem_nodeIds_iff.2 hid
    rw [hids] at hmem
    simp only [List.mem_cons, List.not_mem_nil] at hmem ⊢
    tauto
  obtain ⟨hpart, hpartOfPart, hwhole, -⟩ :=
    restriction_laws hreachable ["c", "absent", "a"] ["b", "a"]
  have hboth : ["c", "absent", "a"] ∩ ["b", "a"] = ["a"] := by decide
  have hrenumbered : (after ringWithLoop).nodes ≠ (after ringWithLoop).sortedNodes := by
    intro heq
    have hsorted := pairwise_sortByText (·.id) (after ringWithLoop).nodes
    rw [← sortedNodes, ← heq] at hsorted
    exact absurd hsorted (by decide)
  rw [hboth] at hpartOfPart
  exact ⟨hall, hpart, hpartOfPart, (hwhole _ hall).1, (hwhole _ hall).2 ▸ hrenumbered⟩

end Graph

end CallGraph
