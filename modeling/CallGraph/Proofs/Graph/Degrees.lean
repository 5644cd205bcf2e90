import CallGraph.Analysis.Reach
import CallGraph.Proofs.Data.Grouping
import CallGraph.Proofs.Data.Runs
import CallGraph.Proofs.Graph.Equality
import CallGraph.Proofs.Graph.Operations

/-!
# Neighbours and degrees

The edges of a graph can be looked at one by one, as a list, from the node where they start and from
the node where they end.  Degrees count the edges at a node, while lists of neighbours leave out
repetitions; both agree because no edge is kept twice.  As each edge starts at one node and ends at
one node, the outgoing degrees of all nodes sum to the number of edges, and so do the incoming
degrees.

Main results:

- Theorems `Graph.WellFormed.calleesOf_eq` and `Graph.WellFormed.callersOf_eq`: the neighbours of a
  node are the other ends of its edges.
- Theorems `Graph.WellFormed.sum_outDegrees` and `Graph.WellFormed.sum_inDegrees`: each edge counts
  once on either side.
- Theorems `Graph.WellFormed.entryPoints_eq` and `Graph.WellFormed.terminals_eq`: the ends of a
  graph by degrees.
- Theorem `Graph.edge_views_agree`: all views of the edges agree.
-/

namespace CallGraph

namespace Graph

variable {g : Graph} {a b id : String}

/-! ## Neighbours as ends of edges -/

/-- A place has the id for which the index gives it. -/
theorem WellFormed.idAt_eq_iff (hg : g.WellFormed) {place : Nat} (h : place < g.nodes.length) :
    g.idAt place = id ↔ g.indexOf? id = some place := by
  constructor
  · rintro rfl
    exact hg.indexOf?_idAt h
  · exact hg.idAt_of_indexOf?

/-- The ids that `id` calls are those at the other ends of the edges that start at it. -/
theorem WellFormed.calleesOf_eq (hg : g.WellFormed) (id : String) :
    g.calleesOf id = (g.edges.filter (·.caller == id)).map (·.callee) := by
  rw [edges, List.filter_map, List.map_map, calleesOf]
  split
  · rename_i place hplace
    refine congrArg _ (List.filter_congr fun arc harc => ?_)
    have hstart : g.idAt arc.caller = id ↔ g.indexOf? id = some arc.caller :=
      hg.idAt_eq_iff (hg.arc_inside harc).1
    rw [hplace, Option.some.injEq] at hstart
    simp [hstart, eq_comm]
  · rename_i hmissing
    rw [eq_comm, List.map_eq_nil_iff, List.filter_eq_nil_iff]
    intro arc harc hstart
    have hplace := (hg.idAt_eq_iff (hg.arc_inside harc).1).1 (by simpa using hstart)
    simp [hmissing] at hplace

/-- The ids that call `id` are those at the other ends of the edges that end at it. -/
theorem WellFormed.callersOf_eq (hg : g.WellFormed) (id : String) :
    g.callersOf id = (g.edges.filter (·.callee == id)).map (·.caller) := by
  rw [edges, List.filter_map, List.map_map, callersOf]
  split
  · rename_i place hplace
    refine congrArg _ (List.filter_congr fun arc harc => ?_)
    have hend : g.idAt arc.callee = id ↔ g.indexOf? id = some arc.callee :=
      hg.idAt_eq_iff (hg.arc_inside harc).2
    rw [hplace, Option.some.injEq] at hend
    simp [hend, eq_comm]
  · rename_i hmissing
    rw [eq_comm, List.map_eq_nil_iff, List.filter_eq_nil_iff]
    intro arc harc hend
    have hplace := (hg.idAt_eq_iff (hg.arc_inside harc).2).1 (by simpa using hend)
    simp [hmissing] at hplace

/-- The successors of an id in the graph are its callees in ascending order. -/
theorem successors_eq_ok (h : g.contains id = true) :
    g.successors id = .ok (sortDistinct (g.calleesOf id)) := by
  rw [successors, require_bind, if_pos h]
  rfl

/-- The predecessors of an id in the graph are its callers in ascending order. -/
theorem predecessors_eq_ok (h : g.contains id = true) :
    g.predecessors id = .ok (sortDistinct (g.callersOf id)) := by
  rw [predecessors, require_bind, if_pos h]
  rfl

/-! ## Degrees -/

/-- The outgoing degree of an id in the graph counts its callees. -/
theorem outDegree_eq_ok (h : g.contains id = true) :
    g.outDegree id = .ok (g.calleesOf id).length := by
  rw [outDegree, require_bind, if_pos h]
  rfl

/-- The incoming degree of an id in the graph counts its callers. -/
theorem inDegree_eq_ok (h : g.contains id = true) :
    g.inDegree id = .ok (g.callersOf id).length := by
  rw [inDegree, require_bind, if_pos h]
  rfl

/-- The outgoing degrees of all nodes sum to the number of edges. -/
theorem WellFormed.sum_outDegrees (hg : g.WellFormed) :
    ∃ degrees, g.nodeIds.mapM g.outDegree = .ok degrees ∧ degrees.sum = g.edgeCount := by
  refine ⟨_, mapM_eq_ok_map fun id hid => outDegree_eq_ok (mem_nodeIds_iff.1 hid), ?_⟩
  have hstarts : ∀ edge ∈ g.edges, edge.caller ∈ g.nodeIds := fun edge hedge =>
    mem_nodeIds_iff.2 (contains_of_hasEdge (hg.mem_edges_iff.1 hedge)).1
  simp only [hg.calleesOf_eq, List.length_map]
  rw [sum_length_filter (nodup_nodeIds g) hstarts, edges, List.length_map, edgeCount]

/-- The incoming degrees of all nodes sum to the number of edges. -/
theorem WellFormed.sum_inDegrees (hg : g.WellFormed) :
    ∃ degrees, g.nodeIds.mapM g.inDegree = .ok degrees ∧ degrees.sum = g.edgeCount := by
  refine ⟨_, mapM_eq_ok_map fun id hid => inDegree_eq_ok (mem_nodeIds_iff.1 hid), ?_⟩
  have hends : ∀ edge ∈ g.edges, edge.callee ∈ g.nodeIds := fun edge hedge =>
    mem_nodeIds_iff.2 (contains_of_hasEdge (hg.mem_edges_iff.1 hedge)).2
  simp only [hg.callersOf_eq, List.length_map]
  rw [sum_length_filter (nodup_nodeIds g) hends, edges, List.length_map, edgeCount]

/-! ## Ends of the graph -/

/-- The sorted ids of some of the nodes, as part of all ids. -/
theorem WellFormed.sortTexts_filter (hg : g.WellFormed) {p : Node → Bool} {q : String → Bool}
    (hpq : ∀ node ∈ g.nodes, p node = q node.id) :
    sortTexts ((g.nodes.filter p).map (·.id)) = g.nodeIds.filter q := by
  have hnodup : ((g.nodes.filter p).map (·.id)).Nodup :=
    hg.nodup_ids.sublist (List.filter_sublist.map _)
  refine (pairwise_sortTexts_of_nodup hnodup).eq_of_mem_iff ((pairwise_nodeIds g).filter q) ?_
  intro id
  rw [mem_sortTexts, List.mem_filter, hg.mem_nodeIds_iff_mem_map]
  simp only [List.mem_map, List.mem_filter]
  constructor
  · rintro ⟨node, ⟨hnode, hp⟩, rfl⟩
    exact ⟨⟨node, hnode, rfl⟩, hpq node hnode ▸ hp⟩
  · rintro ⟨⟨node, hnode, rfl⟩, hq⟩
    exact ⟨node, ⟨hnode, (hpq node hnode).trans hq⟩, rfl⟩

/-- The entry points are the ids without incoming edges. -/
theorem WellFormed.entryPoints_eq (hg : g.WellFormed) :
    g.entryPoints = g.nodeIds.filter fun id => g.inDegree id = .ok 0 := by
  refine hg.sortTexts_filter fun node hnode => ?_
  rw [inDegree_eq_ok (hg.contains_of_mem_nodes hnode), Bool.eq_iff_iff]
  simp

/-- The terminals are the ids without outgoing edges, perhaps only those of a known kind. -/
theorem WellFormed.terminals_eq (hg : g.WellFormed) (knownOnly : Bool) :
    g.terminals knownOnly = g.nodeIds.filter fun id =>
      g.outDegree id = .ok 0 && !(knownOnly && (g.node? id).any (·.kind == .unknown)) := by
  refine hg.sortTexts_filter fun node hnode => ?_
  have hfound : g.node? node.id = some node := hg.node?_eq_some_iff.2 ⟨hnode, rfl⟩
  rw [outDegree_eq_ok (hg.contains_of_mem_nodes hnode), hfound, Bool.eq_iff_iff]
  simp

/-! ## All views of the edges -/

/-- The views of the edges of a graph agree.  Between ids of the graph, an edge is there if and only
if it is listed, if and only if its callee is among the successors of its caller, and if and only if
its caller is among the predecessors of its callee.  Degrees are the numbers of neighbours, where a
call of itself counts once on either side; they sum to the number of edges, and tell where the graph
begins and ends. -/
structure EdgeViewsAgree (g : Graph) : Prop where
  edges : ∀ a b, ⟨a, b⟩ ∈ g.sortedEdges ↔ g.hasEdge a b = true
  edgeCount : g.sortedEdges.length = g.edgeCount
  outgoing : ∀ a, g.contains a = true → ∃ callees, g.successors a = .ok callees ∧
    callees.Pairwise (· < ·) ∧ (∀ b, b ∈ callees ↔ g.hasEdge a b = true) ∧
    g.outDegree a = .ok callees.length ∧ (g.hasEdge a a = true → callees.count a = 1)
  incoming : ∀ b, g.contains b = true → ∃ callers, g.predecessors b = .ok callers ∧
    callers.Pairwise (· < ·) ∧ (∀ a, a ∈ callers ↔ g.hasEdge a b = true) ∧
    g.inDegree b = .ok callers.length ∧ (g.hasEdge b b = true → callers.count b = 1)
  outDegrees : ∃ degrees, g.nodeIds.mapM g.outDegree = .ok degrees ∧ degrees.sum = g.edgeCount
  inDegrees : ∃ degrees, g.nodeIds.mapM g.inDegree = .ok degrees ∧ degrees.sum = g.edgeCount
  entryPoints : g.entryPoints = g.nodeIds.filter fun id => g.inDegree id = .ok 0
  terminals : ∀ knownOnly, g.terminals knownOnly = g.nodeIds.filter fun id =>
    g.outDegree id = .ok 0 && !(knownOnly && (g.node? id).any (·.kind == .unknown))

/-- In every graph that can be reached, the views of the edges agree. -/
theorem edge_views_agree (h : g.Reachable) : g.EdgeViewsAgree := by
  have hg := h.wellFormed
  constructor
  · intro a b
    rw [(perm_sortedEdges g).mem_iff, hg.mem_edges_iff]
  · exact length_sortedEdges g
  · intro a ha
    refine ⟨_, successors_eq_ok ha, pairwise_sortDistinct _, fun b => ?_, ?_, fun hself => ?_⟩
    · rw [mem_sortDistinct, hg.mem_calleesOf_iff]
    · rw [outDegree_eq_ok ha, (perm_sortDistinct_of_nodup (hg.nodup_calleesOf a)).length_eq]
    · apply List.count_eq_one_of_mem (nodup_sortDistinct _)
      rwa [mem_sortDistinct, hg.mem_calleesOf_iff]
  · intro b hb
    refine ⟨_, predecessors_eq_ok hb, pairwise_sortDistinct _, fun a => ?_, ?_, fun hself => ?_⟩
    · rw [mem_sortDistinct, hg.mem_callersOf_iff]
    · rw [inDegree_eq_ok hb, (perm_sortDistinct_of_nodup (hg.nodup_callersOf b)).length_eq]
    · apply List.count_eq_one_of_mem (nodup_sortDistinct _)
      rwa [mem_sortDistinct, hg.mem_callersOf_iff]
  · exact hg.sum_outDegrees
  · exact hg.sum_inDegrees
  · exact hg.entryPoints_eq
  · exact hg.terminals_eq

/-- A node that calls itself and a node of unknown kind, each call added twice, after a third node
was left out. -/
def loopWithUnknown : List Operation :=
  [.addNode ⟨"c", "c", "", .function, none, .empty⟩,
    .addNode ⟨"b", "b", "", .unknown, none, .empty⟩,
    .addNode ⟨"a", "a", "", .procedure, none, .empty⟩, .addEdge "a" "a", .addEdge "a" "b",
    .addEdge "c" "a", .addEdge "b" "c", .induced ["a", "b"], .addEdge "a" "b", .addEdge "a" "a"]

/-- The views agree for a graph with a loop and a node of unknown kind. -/
theorem edge_views_agree_loopWithUnknown :
    (after loopWithUnknown).Reachable ∧ (after loopWithUnknown).EdgeViewsAgree :=
  ⟨⟨loopWithUnknown, rfl⟩, edge_views_agree ⟨loopWithUnknown, rfl⟩⟩

example : (after loopWithUnknown).terminals false = ["b"] ∧
    (after loopWithUnknown).terminals true = [] := by cbv

end Graph

end CallGraph
