import CallGraph.Proofs.Graph.Equality

/-!
# Parts of a graph

A part of a graph consists of the nodes with given ids and of all edges between them.  Its nodes
stand at other places than in the whole graph, so a part is told by its views: what is found under
an id, and which ids are joined by an edge.  Two graphs with the same views are the same.

Main results:

- Theorem `Graph.WellFormed.same_of_views`: graphs in which the same nodes are found and the same
  edges are present are the same.
- Theorems `Graph.WellFormed.node?_induced`, `Graph.WellFormed.contains_induced_iff` and
  `Graph.WellFormed.hasEdge_induced_iff`: the views of a part.
- Theorem `Graph.WellFormed.same_induced_of_contains`: the part with all ids is the whole graph.
-/

namespace CallGraph

namespace Graph

variable {g h : Graph} {ids : List String} {id a b : String}

/-! ## Graphs with the same views -/

/-- Graphs in which the same node is found under each id and the same edges are present are the
same. -/
theorem WellFormed.same_of_views (hg : g.WellFormed) (hh : h.WellFormed)
    (hnodes : ∀ id, g.node? id = h.node? id)
    (hedges : ∀ caller callee, g.hasEdge caller callee = h.hasEdge caller callee) :
    g.same h = true := by
  apply hg.same_of_perm
  · refine (List.perm_ext_iff_of_nodup hg.nodup_ids.of_map hh.nodup_ids.of_map).2 fun node => ?_
    have hmem {g : Graph} (hg : g.WellFormed) : node ∈ g.nodes ↔ g.node? node.id = some node := by
      rw [hg.node?_eq_some_iff, and_iff_left rfl]
    rw [hmem hg, hmem hh, hnodes]
  · refine (List.perm_ext_iff_of_nodup hg.nodup_edges hh.nodup_edges).2 ?_
    rintro ⟨caller, callee⟩
    rw [hg.mem_edges_iff, hh.mem_edges_iff, hedges]

/-! ## Nodes of a part -/

/-- An id is in a graph if and only if a node is found under it. -/
theorem WellFormed.contains_iff_node? (hg : g.WellFormed) :
    g.contains id = true ↔ ∃ node, g.node? id = some node := by
  rw [contains_iff_indexOf?]
  constructor
  · rintro ⟨place, hplace⟩
    obtain ⟨node, hnode, -⟩ := hg.node_of_index hplace
    exact ⟨node, by rw [node?, hplace, Option.bind_some, hnode]⟩
  · rintro ⟨node, hnode⟩
    obtain ⟨place, hplace, -⟩ := Option.bind_eq_some_iff.1 hnode
    exact ⟨place, hplace⟩

/-- The nodes of a part come in the order of their ids. -/
theorem WellFormed.nodes_induced (hg : g.WellFormed) (ids : List String) :
    (g.induced ids).nodes = (sortDistinct ids).filterMap g.node? := by
  have hids : (((sortDistinct ids).filterMap g.node?).map (·.id)).Nodup := by
    rw [List.map_filterMap]
    refine (nodup_sortDistinct ids).filterMap fun id other found hid hother => ?_
    -- A node that is found under two ids has both of them.
    obtain ⟨node, hnode, rfl⟩ := Option.map_eq_some_iff.1 hid
    obtain ⟨node', hnode', hsame⟩ := Option.map_eq_some_iff.1 hother
    rw [← (hg.node?_eq_some_iff.1 hnode).2, ← (hg.node?_eq_some_iff.1 hnode').2, hsame]
  exact WellFormed.empty.nodes_foldl_addNode hids

/-- The nodes of a part are those with the ids. -/
theorem WellFormed.mem_nodes_induced_iff (hg : g.WellFormed) {node : Node} :
    node ∈ (g.induced ids).nodes ↔ node ∈ g.nodes ∧ node.id ∈ ids := by
  rw [hg.nodes_induced, List.mem_filterMap]
  simp only [mem_sortDistinct, hg.node?_eq_some_iff]
  constructor
  · rintro ⟨id, hid, hnode, rfl⟩
    exact ⟨hnode, hid⟩
  · rintro ⟨hnode, hid⟩
    exact ⟨node.id, hid, hnode, rfl⟩

/-- Under the given ids a part has the nodes of the whole graph, and no others. -/
theorem WellFormed.node?_induced (hg : g.WellFormed) (ids : List String) (id : String) :
    (g.induced ids).node? id = if id ∈ ids then g.node? id else none := by
  refine Option.ext fun node => ?_
  rw [(hg.induced ids).node?_eq_some_iff, hg.mem_nodes_induced_iff]
  split
  · rename_i hid
    rw [hg.node?_eq_some_iff]
    constructor
    · rintro ⟨⟨hnode, -⟩, hsame⟩
      exact ⟨hnode, hsame⟩
    · rintro ⟨hnode, rfl⟩
      exact ⟨⟨hnode, hid⟩, rfl⟩
  · rename_i hid
    constructor
    · rintro ⟨⟨-, hmem⟩, rfl⟩
      exact absurd hmem hid
    · intro hnone
      cases hnone

/-- The ids in a part are those of the given ones that are in the graph. -/
theorem WellFormed.contains_induced_iff (hg : g.WellFormed) :
    (g.induced ids).contains id = true ↔ g.contains id = true ∧ id ∈ ids := by
  rw [(hg.induced ids).contains_iff_node?, hg.contains_iff_node?, hg.node?_induced]
  split
  · rename_i hid
    simp [hid]
  · rename_i hid
    simp [hid]

/-! ## Edges of a part -/

/-- The arcs of a part are those of the edges between two of its ids.  Their places are found in the
part itself, since finding an id takes nothing but its nodes. -/
theorem mem_arcs_induced_iff {arc : Arc} :
    arc ∈ (g.induced ids).arcs ↔ ∃ edge ∈ g.edges, (edge.caller ∈ ids ∧ edge.callee ∈ ids) ∧
      (g.induced ids).indexOf? edge.caller = some arc.caller ∧
        (g.induced ids).indexOf? edge.callee = some arc.callee := by
  have harcs : (g.induced ids).arcs =
      (g.edges.filter fun edge => ids.contains edge.caller && ids.contains edge.callee).filterMap
        fun edge => (g.induced ids).arc? edge.caller edge.callee := rfl
  rw [harcs, List.mem_filterMap]
  simp only [List.mem_filter, Bool.and_eq_true, List.contains_iff_mem, arc?_eq_some_iff, and_assoc]

/-- A part has exactly the edges of the whole graph between two of its ids. -/
theorem WellFormed.hasEdge_induced_iff (hg : g.WellFormed) :
    (g.induced ids).hasEdge a b = true ↔ g.hasEdge a b = true ∧ a ∈ ids ∧ b ∈ ids := by
  have hpart := hg.induced ids
  simp only [hasEdge_iff (g := g.induced ids), mem_arcs_induced_iff]
  constructor
  · rintro ⟨i, j, hi, hj, ⟨caller, callee⟩, hedge, hends, hcaller, hcallee⟩
    obtain rfl := hpart.eq_of_indexOf? hi hcaller
    obtain rfl := hpart.eq_of_indexOf? hj hcallee
    exact ⟨hg.mem_edges_iff.1 hedge, hends⟩
  · rintro ⟨hedge, ha, hb⟩
    obtain ⟨hcaller, hcallee⟩ := contains_of_hasEdge hedge
    obtain ⟨i, hi⟩ := contains_iff_indexOf?.1 (hg.contains_induced_iff.2 ⟨hcaller, ha⟩)
    obtain ⟨j, hj⟩ := contains_iff_indexOf?.1 (hg.contains_induced_iff.2 ⟨hcallee, hb⟩)
    exact ⟨i, j, hi, hj, ⟨a, b⟩, hg.mem_edges_iff.2 hedge, ⟨ha, hb⟩, hi, hj⟩

/-! ## The whole graph -/

/-- The part with all ids of a graph is the same graph, although its nodes stand at other places. -/
theorem WellFormed.same_induced_of_contains (hg : g.WellFormed)
    (hids : ∀ id, g.contains id = true → id ∈ ids) : g.same (g.induced ids) = true := by
  apply hg.same_of_views (hg.induced ids)
  · intro id
    rw [hg.node?_induced]
    split
    · rfl
    · rename_i hid
      rw [Option.eq_none_iff_forall_ne_some]
      intro node hnode
      exact hid (hids id (hg.contains_iff_node?.2 ⟨node, hnode⟩))
  · intro caller callee
    rw [Bool.eq_iff_iff, hg.hasEdge_induced_iff]
    constructor
    · intro hedge
      obtain ⟨hcaller, hcallee⟩ := contains_of_hasEdge hedge
      exact ⟨hedge, hids caller hcaller, hids callee hcallee⟩
    · rintro ⟨hedge, -⟩
      exact hedge

end Graph

end CallGraph
