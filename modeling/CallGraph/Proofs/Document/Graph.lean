import CallGraph.Document.Basic
import CallGraph.Proofs.Document.Range
import CallGraph.Proofs.Graph.Equality
import CallGraph.Proofs.Graph.Operations

/-!
# Documents that describe graphs

A document describes a graph if its version is known, its ids are different and not empty, and its
edges are different and join its nodes.  Such a document is turned into the graph with just these
nodes and edges.  The document of a graph is of this kind, and so is what is left of it when its
lists break off, as long as no edge comes before a node.

Main results:

- Theorem `Document.DescribesGraph.exists_toGraph`: the graph that a document describes.
- Theorem `Document.describesGraph_ofGraph`: the document of a graph without empty id.
- Theorem `Document.DescribesGraph.cut`: lists that break off.
-/

namespace CallGraph

namespace Document

variable {doc : Document} {g : Graph} {detail : Detail}

/-! ## Nodes -/

@[simp]
theorem id_atDetail (detail : Detail) (n : Node) : (atDetail detail n).id = n.id := by
  cases detail <;> rfl

/-- Leaving out the same twice is leaving it out once. -/
@[simp]
theorem atDetail_atDetail (detail : Detail) (n : Node) :
    atDetail detail (atDetail detail n) = atDetail detail n := by
  cases detail <;> rfl

/-- A node without its code object is written in the same way at every level of detail. -/
theorem atDetail_of_object_eq_none {n : Node} (h : n.object = none) (detail : Detail) :
    atDetail detail n = n := by
  cases detail with
  | full => rfl
  | structureOnly =>
    obtain ⟨id, name, packageName, kind, object, attributes⟩ := n
    obtain rfl : object = none := h
    rfl

/-- The detail of a document changes no id. -/
theorem map_id_atDetail (detail : Detail) (nodes : List Node) :
    (nodes.map (atDetail detail)).map (·.id) = nodes.map (·.id) := by
  rw [List.map_map]
  exact List.map_congr_left fun n _ => id_atDetail detail n

/-- Nodes with new and different ids that are not empty are all added. -/
theorem foldlM_addNode (hg : g.WellFormed) {nodes : List Node} (hne : ∀ n ∈ nodes, n.id ≠ "")
    (hnodup : (g.nodes.map (·.id) ++ nodes.map (·.id)).Nodup) :
    nodes.foldlM (addNode detail) g =
      .ok ((nodes.map (atDetail detail)).foldl Graph.addNode g) := by
  induction nodes generalizing g with
  | nil => rfl
  | cons n rest ih =>
    have hempty : ¬ n.id.isEmpty = true := by
      simpa using hne n (by simp)
    have hnew : n.id ∉ g.nodes.map (·.id) := fun hmem =>
      (List.nodup_append.1 hnodup).2.2 _ hmem n.id (by simp) rfl
    have hcontains : ¬ g.contains n.id = true := by
      rwa [← Graph.mem_nodeIds_iff, hg.mem_nodeIds_iff_mem_map]
    have hadd : addNode detail g n = .ok (g.addNode (atDetail detail n)) := by
      rw [addNode, if_neg hempty, if_neg hcontains]
    have hfirst : (g.nodes.map (·.id) ++ [atDetail detail n].map (·.id)).Nodup := by
      rw [List.map_singleton, id_atDetail]
      exact hnodup.sublist ((List.Sublist.refl _).append (by simp))
    have hnodes : (g.addNode (atDetail detail n)).nodes = g.nodes ++ [atDetail detail n] :=
      hg.nodes_foldl_addNode hfirst
    have hrest : ((g.addNode (atDetail detail n)).nodes.map (·.id) ++ rest.map (·.id)).Nodup := by
      rw [hnodes]
      simpa using hnodup
    rw [List.foldlM_cons, hadd]
    exact ih (hg.addNode _) (fun m hm => hne m (List.mem_cons_of_mem _ hm)) hrest

/-! ## Edges -/

/-- Different new edges between nodes are all added, the latest first. -/
theorem exists_foldlM_addEdge (hg : g.WellFormed) {edges : List Edge}
    (hends : ∀ e ∈ edges, g.contains e.caller = true ∧ g.contains e.callee = true)
    (hnodup : (edges.reverse ++ g.edges).Nodup) :
    ∃ h, edges.foldlM addEdge g = .ok h ∧ h.WellFormed ∧ h.nodes = g.nodes ∧
      h.edges = edges.reverse ++ g.edges := by
  induction edges generalizing g with
  | nil => exact ⟨g, rfl, hg, rfl, rfl⟩
  | cons e rest ih =>
    obtain ⟨hcaller, hcallee⟩ := hends e (by simp)
    obtain ⟨h, new, hadd⟩ := Graph.exists_addEdge_eq_ok hcaller hcallee
    have hstep : addEdge g e = .ok h := by
      rw [addEdge, hadd]
    obtain ⟨hnodes, hindex⟩ := (hg.addsEdge e.caller e.callee).frame hadd
    obtain ⟨hnew, hedges, -⟩ := hg.addEdge_added_iff hadd
    rw [List.reverse_cons, List.append_assoc, List.singleton_append] at hnodup
    have hnotMem : e ∉ g.edges := (List.nodup_cons.1 (List.nodup_append.1 hnodup).2.1).1
    have hall : h.edges = e :: g.edges := hedges.1 (hnew.2 hnotMem)
    have hcontains (id : String) : h.contains id = g.contains id := by
      rw [Graph.contains, hindex, Graph.contains]
    obtain ⟨last, hlast, hwell, hlastNodes, hlastEdges⟩ := ih (hg.addEdge hadd)
      (fun other hother => by
        rw [hcontains, hcontains]
        exact hends other (List.mem_cons_of_mem _ hother))
      (by rwa [hall])
    refine ⟨last, ?_, hwell, hlastNodes.trans hnodes, ?_⟩
    · rw [List.foldlM_cons, hstep]
      exact hlast
    · rw [hlastEdges, hall, List.reverse_cons, List.append_assoc, List.singleton_append]

/-! ## Whole documents -/

/-- The version is known, ids are different and not empty, and edges are different and join
nodes. -/
structure DescribesGraph (doc : Document) : Prop where
  version_le : doc.formatVersion ≤ currentVersion
  id_ne : ∀ n ∈ doc.nodes, n.id ≠ ""
  nodup_ids : (doc.nodes.map (·.id)).Nodup
  ends_mem : ∀ e ∈ doc.edges, e.caller ∈ doc.nodes.map (·.id) ∧ e.callee ∈ doc.nodes.map (·.id)
  nodup_edges : doc.edges.Nodup

/-- A document that describes a graph is turned into the graph with its nodes and edges. -/
theorem DescribesGraph.exists_toGraph (h : doc.DescribesGraph) :
    ∃ g, doc.toGraph = .ok g ∧ g.WellFormed ∧
      g.nodes = doc.nodes.map (atDetail doc.detail) ∧ g.edges = doc.edges.reverse := by
  let nodes := (doc.nodes.map (atDetail doc.detail)).foldl Graph.addNode Graph.empty
  have hadded : doc.nodes.foldlM (addNode doc.detail) Graph.empty = .ok nodes :=
    foldlM_addNode .empty h.id_ne h.nodup_ids
  have hwell : nodes.WellFormed := Graph.WellFormed.empty.foldl_addNode _
  have hnodes : nodes.nodes = doc.nodes.map (atDetail doc.detail) :=
    Graph.WellFormed.empty.nodes_foldl_addNode (by
      rw [map_id_atDetail]
      exact h.nodup_ids)
  have hedges : nodes.edges = [] := by
    rw [Graph.edges, Graph.arcs_foldl_addNode]
    rfl
  have hcontains {id : String} (hid : id ∈ doc.nodes.map (·.id)) : nodes.contains id = true := by
    rw [← Graph.mem_nodeIds_iff, hwell.mem_nodeIds_iff_mem_map, hnodes, map_id_atDetail]
    exact hid
  obtain ⟨g, hg, hgwell, hgnodes, hgedges⟩ := exists_foldlM_addEdge hwell
    (fun e he => (h.ends_mem e he).imp hcontains hcontains)
    (by
      rw [hedges, List.append_nil, List.nodup_reverse]
      exact h.nodup_edges)
  refine ⟨g, ?_, hgwell, hgnodes.trans hnodes, by rw [hgedges, hedges, List.append_nil]⟩
  rw [toGraph, if_neg (Nat.not_lt.2 h.version_le)]
  exact (congrArg (· >>= _) hadded).trans hg

/-- The document of a graph describes a graph if no id is empty. -/
theorem describesGraph_ofGraph (hg : g.WellFormed) (hids : ∀ n ∈ g.nodes, n.id ≠ "")
    (detail : Detail) (savedAt : Instant) : (ofGraph g detail savedAt).DescribesGraph := by
  have hperm : ((ofGraph g detail savedAt).nodes.map (·.id)).Perm (g.nodes.map (·.id)) := by
    rw [ofGraph, map_id_atDetail]
    exact (Graph.perm_sortedNodes g).map _
  refine ⟨Nat.le_refl _, fun n hn => ?_, hperm.nodup_iff.2 hg.nodup_ids, fun e he => ?_, ?_⟩
  · obtain ⟨original, horiginal, rfl⟩ := List.mem_map.1 hn
    rw [id_atDetail]
    exact hids original ((Graph.perm_sortedNodes g).mem_iff.1 horiginal)
  · have hedge := hg.mem_edges_iff.1 ((Graph.perm_sortedEdges g).mem_iff.1 he)
    rw [hperm.mem_iff, hperm.mem_iff, ← hg.mem_nodeIds_iff_mem_map, ← hg.mem_nodeIds_iff_mem_map,
      Graph.mem_nodeIds_iff, Graph.mem_nodeIds_iff]
    exact Graph.contains_of_hasEdge hedge
  · exact (Graph.perm_sortedEdges g).nodup_iff.2 hg.nodup_edges

/-- The nodes of a document are in range if those of the graph are, or hold no code objects. -/
theorem nodes_inRange_ofGraph {savedAt : Instant}
    (hrange : detail = .full → ∀ n ∈ g.nodes, n.InRange) :
    ∀ n ∈ (ofGraph g detail savedAt).nodes, n.InRange := by
  intro n hn
  obtain ⟨original, horiginal, rfl⟩ := List.mem_map.1 hn
  cases detail with
  | full => exact hrange rfl original ((Graph.perm_sortedNodes g).mem_iff.1 horiginal)
  | structureOnly => exact fun object hobject => nomatch hobject

/-- The document of a graph is in range if the code objects that it is written with are. -/
theorem inRange_ofGraph {savedAt : Instant} (hrange : detail = .full → ∀ n ∈ g.nodes, n.InRange)
    (hsavedAt : savedAt.InCalendar) : (ofGraph g detail savedAt).InRange where
  formatVersion_lt := by
    change 1 < 2 ^ 32
    decide
  savedAt_inCalendar := hsavedAt
  nodes_inRange := nodes_inRange_ofGraph hrange

/-- Documents of the same version with the same nodes and edges are turned into the same graph, if
their nodes are the same at their levels of detail. -/
theorem toGraph_congr {other : Document} (hversion : doc.formatVersion = other.formatVersion)
    (hnodes : doc.nodes = other.nodes) (hedges : doc.edges = other.edges)
    (hdetail : ∀ n ∈ other.nodes, atDetail doc.detail n = atDetail other.detail n) :
    doc.toGraph = other.toGraph := by
  have hadd : ∀ nodes : List Node, (∀ n ∈ nodes, n ∈ other.nodes) → ∀ g,
      nodes.foldlM (addNode doc.detail) g = nodes.foldlM (addNode other.detail) g := by
    intro nodes
    induction nodes with
    | nil => exact fun _ _ => rfl
    | cons n rest ih =>
      intro hmem g
      have hn : addNode doc.detail g n = addNode other.detail g n := by
        rw [addNode, addNode, hdetail n (hmem n (by simp))]
      rw [List.foldlM_cons, List.foldlM_cons, hn]
      exact congrArg _ (funext fun g => ih (fun m hm => hmem m (List.mem_cons_of_mem _ hm)) g)
  rw [toGraph, toGraph, hversion, hnodes, hedges, hadd other.nodes fun _ h => h]

/-! ## Lists that break off -/

/-- The document with the first nodes and edges only. -/
def cut (doc : Document) (nodes edges : Nat) : Document :=
  { doc with nodes := doc.nodes.take nodes, edges := doc.edges.take edges }

/-- What is left of a document still describes a graph if no edge is left without all nodes. -/
theorem DescribesGraph.cut (h : doc.DescribesGraph) {i j : Nat}
    (hij : j = 0 ∨ doc.nodes.length ≤ i) : (doc.cut i j).DescribesGraph where
  version_le := h.version_le
  id_ne n hn := h.id_ne n (List.mem_of_mem_take hn)
  nodup_ids := h.nodup_ids.sublist ((List.take_sublist _ _).map _)
  ends_mem e he := by
    rcases hij with rfl | hi
    · exact absurd he List.not_mem_nil
    · change e.caller ∈ (doc.nodes.take i).map (·.id) ∧ e.callee ∈ (doc.nodes.take i).map (·.id)
      rw [List.take_of_length_le hi]
      exact h.ends_mem e (List.mem_of_mem_take he)
  nodup_edges := h.nodup_edges.sublist (List.take_sublist _ _)

/-- A document that is cut stays in range. -/
theorem InRange.cut (h : doc.InRange) (i j : Nat) : (doc.cut i j).InRange where
  formatVersion_lt := h.formatVersion_lt
  savedAt_inCalendar := h.savedAt_inCalendar
  nodes_inRange n hn := h.nodes_inRange n (List.mem_of_mem_take hn)

/-- A document that is cut keeps its detail. -/
theorem HasDetail.cut (h : doc.HasDetail) (i j : Nat) : (doc.cut i j).HasDetail :=
  fun n hn => h n (List.mem_of_mem_take hn)

end Document

end CallGraph
