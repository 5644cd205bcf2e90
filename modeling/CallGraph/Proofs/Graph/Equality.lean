import CallGraph.Proofs.Data.Sorting
import CallGraph.Proofs.Graph.Representation
import Mathlib.Data.List.Sort

/-!
# Graphs that are the same

Two graphs are the same if their sorted nodes and edges are.  Sorting forgets the order in which
nodes and edges were added, since no two nodes of a graph have one id and the order of edges tells
any two of them apart.

Main results:

- Theorem `Graph.sortedEdges_eq_of_perm`: sorted edges do not depend on the order of edges.
- Theorem `Graph.WellFormed.same_of_perm`: graphs with the same nodes and edges are the same.
- Theorems `Graph.Alike.perm_nodes`, `Graph.Alike.perm_edges`, `Graph.Alike.nodeIds_eq`,
  `Graph.Alike.hasEdge_eq` and `Graph.Alike.perm_calleesOf`: what graphs that are the same have in
  common.
- Theorem `Graph.Alike.same_induced`: equal parts of them are the same again.
-/

namespace CallGraph

/-! ## The order of edges -/

/-- Callers are compared first, and callees only if the callers are equal. -/
theorem Edge.le_iff {a b : Edge} :
    a.le b = true ↔ a.caller < b.caller ∨ a.caller = b.caller ∧ a.callee ≤ b.callee := by
  simp [le]

/-- The order of edges is transitive. -/
theorem Edge.le_trans {a b c : Edge} (hab : a.le b = true) (hbc : b.le c = true) :
    a.le c = true := by
  rw [le_iff] at hab hbc ⊢
  rcases hab with hab | ⟨hab, hcallee⟩ <;> rcases hbc with hbc | ⟨hbc, hcallee'⟩
  · exact .inl (hab.trans hbc)
  · exact .inl (hbc ▸ hab)
  · exact .inl (hab ▸ hbc)
  · exact .inr ⟨hab.trans hbc, hcallee.trans hcallee'⟩

/-- Any two edges can be compared. -/
theorem Edge.le_total (a b : Edge) : (a.le b || b.le a) = true := by
  rw [Bool.or_eq_true, le_iff, le_iff]
  rcases lt_trichotomy a.caller b.caller with hlt | heq | hlt
  · exact .inl (.inl hlt)
  · exact (String.le_total a.callee b.callee).imp (fun h => .inr ⟨heq, h⟩)
      fun h => .inr ⟨heq.symm, h⟩
  · exact .inr (.inl hlt)

/-- Only equal edges come each before the other. -/
theorem Edge.le_antisymm {a b : Edge} (hab : a.le b = true) (hba : b.le a = true) : a = b := by
  rw [le_iff] at hab hba
  rcases hab with hab | ⟨hab, hcallee⟩
  · rcases hba with hba | ⟨hba, -⟩
    · exact absurd hab hba.asymm
    · exact absurd hba hab.ne'
  · rcases hba with hba | ⟨-, hcallee'⟩
    · exact absurd hab hba.ne'
    · obtain ⟨caller, callee⟩ := a
      obtain ⟨caller', callee'⟩ := b
      exact Edge.mk.injEq .. ▸ ⟨hab, hcallee.antisymm hcallee'⟩

/-- Sorting edges forgets the order in which they came. -/
theorem Edge.mergeSort_eq_of_perm {edges others : List Edge} (hedges : edges.Perm others) :
    edges.mergeSort Edge.le = others.mergeSort Edge.le := by
  have hsorted (edges : List Edge) :
      (edges.mergeSort Edge.le).Pairwise fun a b => a.le b = true := by
    apply List.pairwise_mergeSort
    · exact fun a b c => Edge.le_trans
    · exact Edge.le_total
  refine List.Perm.eq_of_pairwise ?_ (hsorted edges) (hsorted others) ?_
  · exact fun a b _ _ hab hba => Edge.le_antisymm hab hba
  · exact (List.mergeSort_perm _ _).trans (hedges.trans (List.mergeSort_perm _ _).symm)

namespace Graph

variable {g h : Graph}

/-! ## Sorted views -/

/-- The sorted edges are the edges in another order. -/
theorem perm_sortedEdges (g : Graph) : g.sortedEdges.Perm g.edges :=
  List.mergeSort_perm _ _

/-- The sorted nodes are the nodes in another order. -/
theorem perm_sortedNodes (g : Graph) : g.sortedNodes.Perm g.nodes :=
  perm_sortByText _ _

/-- No two nodes have one id, so sorted nodes are strictly ascending. -/
theorem WellFormed.pairwise_sortedNodes (hg : g.WellFormed) :
    g.sortedNodes.Pairwise fun a b => a.id < b.id := by
  have hnodup : (g.sortedNodes.map (·.id)).Nodup :=
    ((perm_sortedNodes g).map (·.id)).nodup_iff.2 hg.nodup_ids
  have hdistinct : g.sortedNodes.Pairwise fun a b => a.id ≠ b.id := List.pairwise_map.1 hnodup
  have hsorted : g.sortedNodes.Pairwise fun a b => a.id ≤ b.id := pairwise_sortByText _ g.nodes
  exact (hsorted.and hdistinct).imp fun hab => lt_of_le_of_ne hab.1 hab.2

theorem length_sortedEdges (g : Graph) : g.sortedEdges.length = g.edgeCount := by
  rw [(perm_sortedEdges g).length_eq, edges, List.length_map, edgeCount]

/-- Sorted edges do not depend on the order in which the edges were added. -/
theorem sortedEdges_eq_of_perm (hedges : g.edges.Perm h.edges) :
    g.sortedEdges = h.sortedEdges :=
  Edge.mergeSort_eq_of_perm hedges

/-- The same nodes are sorted alike, since no two of them have one id. -/
theorem WellFormed.sortedNodes_eq_of_perm (hg : g.WellFormed) (hnodes : g.nodes.Perm h.nodes) :
    g.sortedNodes = h.sortedNodes :=
  sortByText_eq_of_perm hnodes fun _ ha _ hb hid => List.inj_on_of_nodup_map hg.nodup_ids ha hb hid

/-- Graphs with the same nodes and the same edges are the same, whatever the order of these. -/
theorem WellFormed.same_of_perm (hg : g.WellFormed) (hnodes : g.nodes.Perm h.nodes)
    (hedges : g.edges.Perm h.edges) : g.same h = true := by
  have hcount : g.edgeCount = h.edgeCount := by
    rw [← length_sortedEdges, ← length_sortedEdges, sortedEdges_eq_of_perm hedges]
  simp only [same, nodeCount, hnodes.length_eq, hcount, hg.sortedNodes_eq_of_perm hnodes,
    sortedEdges_eq_of_perm hedges, beq_self_eq_true, Bool.and_self]

/-- The counts of nodes and edges agree if the sorted nodes and edges do. -/
theorem same_iff :
    g.same h = true ↔ g.sortedNodes = h.sortedNodes ∧ g.sortedEdges = h.sortedEdges := by
  constructor
  · intro hsame
    simp only [same, Bool.and_eq_true, beq_iff_eq] at hsame
    exact ⟨hsame.1.2, hsame.2⟩
  · rintro ⟨hnodes, hedges⟩
    have hnodeCount : g.nodeCount = h.nodeCount := by
      rw [nodeCount, ← (perm_sortedNodes g).length_eq, hnodes, (perm_sortedNodes h).length_eq,
        nodeCount]
    have hedgeCount : g.edgeCount = h.edgeCount := by
      rw [← length_sortedEdges, hedges, length_sortedEdges]
    simp only [same, hnodeCount, hedgeCount, hnodes, hedges, beq_self_eq_true, Bool.and_self]

/-! ## What graphs that are the same have in common -/

/-- Graphs that are the same, although their nodes may be at other places and their edges listed in
another order. -/
structure Alike (g h : Graph) : Prop where
  left : g.WellFormed
  right : h.WellFormed
  same : g.same h = true

namespace Alike

variable (halike : Alike g h)

include halike

/-- Graphs that are the same list the same nodes. -/
theorem sortedNodes_eq : g.sortedNodes = h.sortedNodes :=
  (same_iff.1 halike.same).1

/-- Graphs that are the same list the same edges. -/
theorem sortedEdges_eq : g.sortedEdges = h.sortedEdges :=
  (same_iff.1 halike.same).2

/-- Graphs that are the same have the same nodes, in whatever order. -/
theorem perm_nodes : g.nodes.Perm h.nodes :=
  (perm_sortedNodes g).symm.trans (halike.sortedNodes_eq ▸ perm_sortedNodes h)

/-- Graphs that are the same have the same edges, in whatever order. -/
theorem perm_edges : g.edges.Perm h.edges :=
  (perm_sortedEdges g).symm.trans (halike.sortedEdges_eq ▸ perm_sortedEdges h)

theorem nodeCount_eq : g.nodeCount = h.nodeCount :=
  halike.perm_nodes.length_eq

theorem edgeCount_eq : g.edgeCount = h.edgeCount := by
  rw [← length_sortedEdges, halike.sortedEdges_eq, length_sortedEdges]

/-- Graphs that are the same have the same ids. -/
theorem nodeIds_eq : g.nodeIds = h.nodeIds := by
  refine (pairwise_nodeIds g).eq_of_mem_iff (pairwise_nodeIds h) fun id => ?_
  rw [halike.left.mem_nodeIds_iff_mem_map, halike.right.mem_nodeIds_iff_mem_map,
    (halike.perm_nodes.map _).mem_iff]

theorem contains_eq (id : String) : g.contains id = h.contains id := by
  rw [Bool.eq_iff_iff, ← mem_nodeIds_iff, ← mem_nodeIds_iff, halike.nodeIds_eq]

/-- Graphs that are the same join the same ids by edges. -/
theorem hasEdge_eq (caller callee : String) :
    g.hasEdge caller callee = h.hasEdge caller callee := by
  rw [Bool.eq_iff_iff, ← halike.left.mem_edges_iff, ← halike.right.mem_edges_iff,
    halike.perm_edges.mem_iff]

/-- Graphs that are the same find the same node under each id. -/
theorem node?_eq : g.node? = h.node? := by
  funext id
  refine Option.ext fun node => ?_
  rw [halike.left.node?_eq_some_iff, halike.right.node?_eq_some_iff, halike.perm_nodes.mem_iff]

/-- In graphs that are the same each id has the same callees, in whatever order. -/
theorem perm_calleesOf (id : String) : (g.calleesOf id).Perm (h.calleesOf id) := by
  refine (List.perm_ext_iff_of_nodup (halike.left.nodup_calleesOf id)
    (halike.right.nodup_calleesOf id)).2 fun callee => ?_
  rw [halike.left.mem_calleesOf_iff, halike.right.mem_calleesOf_iff, halike.hasEdge_eq]

/-- In graphs that are the same each id has the same callers, in whatever order. -/
theorem perm_callersOf (id : String) : (g.callersOf id).Perm (h.callersOf id) := by
  refine (List.perm_ext_iff_of_nodup (halike.left.nodup_callersOf id)
    (halike.right.nodup_callersOf id)).2 fun caller => ?_
  rw [halike.left.mem_callersOf_iff, halike.right.mem_callersOf_iff, halike.hasEdge_eq]

/-- The parts with given ids are the same: their nodes even stand at the same places. -/
theorem same_induced (ids : List String) : (g.induced ids).same (h.induced ids) = true := by
  have hnodes : (g.induced ids).nodes = (h.induced ids).nodes := by
    rw [induced, induced, halike.node?_eq]
  refine (halike.left.induced ids).same_of_perm (.of_eq hnodes) ?_
  have hplaces : (g.induced ids).idAt = (h.induced ids).idAt := by
    funext place
    rw [idAt, idAt, hnodes]
  simp only [edges, hplaces]
  refine List.Perm.map _ ?_
  simp only [induced, halike.node?_eq]
  exact (halike.perm_edges.filter _).filterMap _

end Alike

end Graph

end CallGraph
