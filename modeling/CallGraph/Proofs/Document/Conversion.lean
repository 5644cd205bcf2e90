import CallGraph.Proofs.Data.Runs
import CallGraph.Proofs.Document.Graph
import CallGraph.Proofs.Graph.Views
import Mathlib.Data.List.Dedup
import Mathlib.Data.List.Induction

/-!
# Documents turned into graphs and back

A document that was read need not come from a graph.  It is turned into one exactly if it is
consistent: its version is known, its ids are different and not empty, and its edges join its nodes.
Otherwise the first thing that is wrong with it is the fault.  Repeated edges do no harm: the graph
has each of them once, so the document of the graph has the nodes and edges of the first document
sorted, and each edge once.

Main results:

- Theorem `Document.exists_toGraph_iff`: the documents that are turned into graphs.
- Theorem `Document.firstFault_of_toGraph`: what is wrong with the others.
- Theorem `Document.Describes.ofGraph_eq`: the document of the graph of a document.
- Theorem `Document.exists_toGraph_ofGraph`: the graph of the document of a graph.
- Theorem `Document.toGraph_and_back`: all of this together.
-/

namespace CallGraph

namespace Document

variable {doc : Document} {g h : Graph} {detail : Detail} {fault : DocumentFault}

/-! ## Nodes -/

/-- What adding a node can do: its id is empty, it is taken, or the node is added. -/
theorem addNode_cases (detail : Detail) (g : Graph) (n : Node) :
    (n.id = "" ∧ addNode detail g n = .error .emptyId) ∨
    (n.id ≠ "" ∧ g.contains n.id = true ∧ addNode detail g n = .error (.duplicateId n.id)) ∨
    (n.id ≠ "" ∧ g.contains n.id = false ∧
      addNode detail g n = .ok (g.addNode (atDetail detail n))) := by
  by_cases hempty : n.id = ""
  · exact .inl ⟨hempty, by simp [addNode, hempty]⟩
  · cases hcontains : g.contains n.id with
    | true => exact .inr (.inl ⟨hempty, rfl, by simp [addNode, hempty, hcontains]⟩)
    | false => exact .inr (.inr ⟨hempty, rfl, by simp [addNode, hempty, hcontains]⟩)

/-- A node is only added with an id that is neither empty nor known. -/
theorem eq_addNode_of_eq_ok {n : Node} (hadd : addNode detail g n = .ok h) :
    n.id ≠ "" ∧ g.contains n.id = false ∧ h = g.addNode (atDetail detail n) := by
  rcases addNode_cases detail g n with ⟨-, heq⟩ | ⟨-, -, heq⟩ | ⟨hne, hnew, heq⟩
  · cases heq.symm.trans hadd
  · cases heq.symm.trans hadd
  · exact ⟨hne, hnew, Except.ok.inj (hadd.symm.trans heq)⟩

/-- No id is empty, and no two ids are equal. -/
structure HaveOwnIds (nodes : List Node) : Prop where
  id_ne : ∀ n ∈ nodes, n.id ≠ ""
  nodup_ids : (nodes.map (·.id)).Nodup

instance (nodes : List Node) : Decidable (HaveOwnIds nodes) :=
  decidable_of_iff ((∀ n ∈ nodes, n.id ≠ "") ∧ (nodes.map (·.id)).Nodup)
    ⟨fun h => ⟨h.1, h.2⟩, fun h => ⟨h.id_ne, h.nodup_ids⟩⟩

/-- The graph has the nodes as a document with the detail writes them, and no edges. -/
structure Lists (detail : Detail) (nodes : List Node) (g : Graph) : Prop where
  wellFormed : g.WellFormed
  nodes_eq : g.nodes = nodes.map (atDetail detail)
  edges_eq : g.edges = []

/-- The ids of nodes are those in the graph. -/
theorem mem_ids_iff (hg : g.WellFormed) {id : String} :
    id ∈ g.nodes.map (·.id) ↔ g.contains id = true := by
  rw [← hg.mem_nodeIds_iff_mem_map, Graph.mem_nodeIds_iff]

/-- A graph with the listed nodes has their ids. -/
theorem Lists.contains_iff {nodes : List Node} (hlists : Lists detail nodes g) {id : String} :
    g.contains id = true ↔ id ∈ nodes.map (·.id) := by
  rw [← mem_ids_iff hlists.wellFormed, hlists.nodes_eq, map_id_atDetail]

/-- Nodes with ids of their own are all added in their order. -/
theorem HaveOwnIds.exists_foldlM {nodes : List Node} (hown : HaveOwnIds nodes) (detail : Detail) :
    ∃ g, nodes.foldlM (addNode detail) Graph.empty = .ok g ∧ Lists detail nodes g := by
  refine ⟨_, foldlM_addNode .empty hown.id_ne hown.nodup_ids, ?_, ?_, ?_⟩
  · exact Graph.WellFormed.empty.foldl_addNode _
  · refine Graph.WellFormed.empty.nodes_foldl_addNode ?_
    rw [map_id_atDetail]
    exact hown.nodup_ids
  · rw [Graph.edges, Graph.arcs_foldl_addNode]
    rfl

/-- Nodes are all added only if they have ids of their own. -/
theorem haveOwnIds_of_foldlM {nodes : List Node}
    (hadded : nodes.foldlM (addNode detail) Graph.empty = .ok g) :
    HaveOwnIds nodes ∧ Lists detail nodes g := by
  have hown : HaveOwnIds nodes := by
    induction nodes using List.reverseRecOn generalizing g with
    | nil => exact ⟨fun n hn => absurd hn List.not_mem_nil, List.nodup_nil⟩
    | append_singleton front n ih =>
      obtain ⟨before, hbefore, hlast⟩ := foldlM_append_eq_ok.1 hadded
      obtain ⟨next, hn, -⟩ := foldlM_cons_eq_ok.1 hlast
      have hown := ih hbefore
      obtain ⟨reached, hreached, hlists⟩ := hown.exists_foldlM detail
      obtain rfl := Except.ok.inj (hreached.symm.trans hbefore)
      obtain ⟨hne, hnew, -⟩ := eq_addNode_of_eq_ok hn
      rw [← Bool.not_eq_true, hlists.contains_iff] at hnew
      constructor
      · intro m hm
        rcases List.mem_append.1 hm with hm | hm
        · exact hown.id_ne m hm
        · exact List.mem_singleton.1 hm ▸ hne
      · rw [List.map_append, List.map_singleton, ← List.concat_eq_append, List.nodup_concat]
        exact ⟨hnew, hown.nodup_ids⟩
  obtain ⟨reached, hreached, hlists⟩ := hown.exists_foldlM detail
  exact ⟨hown, Except.ok.inj (hreached.symm.trans hadded) ▸ hlists⟩

/-! ## Edges -/

/-- The edge joins two of the nodes. -/
def Joins (nodes : List Node) (e : Edge) : Prop :=
  e.caller ∈ nodes.map (·.id) ∧ e.callee ∈ nodes.map (·.id)

instance (nodes : List Node) (e : Edge) : Decidable (Joins nodes e) :=
  inferInstanceAs (Decidable (_ ∧ _))

/-- The second graph is the first one with the edges. -/
structure Adds (edges : List Edge) (g h : Graph) : Prop where
  wellFormed : h.WellFormed
  nodes_eq : h.nodes = g.nodes
  joins : ∀ e ∈ edges, Joins g.nodes e
  mem_edges_iff : ∀ e, e ∈ h.edges ↔ e ∈ edges ∨ e ∈ g.edges

/-- An edge that is added is one edge more, unless it was there. -/
theorem adds_of_addEdge (hg : g.WellFormed) {e : Edge} (hadd : addEdge g e = .ok h) :
    Adds [e] g h := by
  rw [addEdge] at hadd
  split at hadd
  · rename_i found new heq
    obtain rfl : found = h := Except.ok.inj hadd
    have hends := (hg.addsEdge e.caller e.callee).succeeds_iff.1 ⟨found, new, heq⟩
    have hfound : found.WellFormed := hg.addEdge heq
    refine ⟨hfound, ((hg.addsEdge e.caller e.callee).frame heq).1, ?_, ?_⟩
    · rintro other hother
      rw [List.mem_singleton.1 hother, Joins, mem_ids_iff hg, mem_ids_iff hg]
      exact hends
    · rintro ⟨caller, callee⟩
      obtain ⟨caller', callee'⟩ := e
      rw [hfound.mem_edges_iff, hg.hasEdge_addEdge heq, hg.mem_edges_iff]
      simp [or_comm]
  · cases hadd

/-- An edge that cannot be added misses an end, of which the caller is looked for first. -/
theorem missing_of_addEdge (hg : g.WellFormed) {e : Edge} (hadd : addEdge g e = .error fault) :
    ∃ missing, fault = .badEdge e (.nodeNotFound missing) ∧
      (missing = e.caller ∧ e.caller ∉ g.nodes.map (·.id) ∨
        missing = e.callee ∧ e.caller ∈ g.nodes.map (·.id) ∧
          e.callee ∉ g.nodes.map (·.id)) := by
  rw [addEdge] at hadd
  split at hadd
  · cases hadd
  · rename_i error heq
    simp only [mem_ids_iff hg, Bool.not_eq_true]
    rcases Graph.addEdge_eq_error heq with ⟨rfl, hcaller⟩ | ⟨rfl, hcaller, hcallee⟩
    · exact ⟨_, (Except.error.inj hadd).symm, .inl ⟨rfl, hcaller⟩⟩
    · exact ⟨_, (Except.error.inj hadd).symm, .inr ⟨rfl, hcaller, hcallee⟩⟩

/-- After a run of edges these are in the graph, with those that were there before. -/
theorem adds_of_foldlM (hg : g.WellFormed) {edges : List Edge}
    (hadded : edges.foldlM addEdge g = .ok h) : Adds edges g h := by
  induction edges generalizing g with
  | nil =>
    obtain rfl := Except.ok.inj hadded
    exact ⟨hg, rfl, fun e he => absurd he List.not_mem_nil, fun e => by simp⟩
  | cons e rest ih =>
    obtain ⟨next, he, hrest⟩ := foldlM_cons_eq_ok.1 hadded
    have hfirst := adds_of_addEdge hg he
    have hlast := ih hfirst.wellFormed hrest
    refine ⟨hlast.wellFormed, hlast.nodes_eq.trans hfirst.nodes_eq, ?_, ?_⟩
    · intro other hother
      rcases List.mem_cons.1 hother with rfl | hother
      · exact hfirst.joins _ List.mem_cons_self
      · exact hfirst.nodes_eq ▸ hlast.joins other hother
    · intro other
      rw [hlast.mem_edges_iff, hfirst.mem_edges_iff, List.mem_singleton, List.mem_cons,
        or_left_comm, or_assoc]

/-- Edges between nodes of a graph are all added. -/
theorem exists_foldlM_of_joins (hg : g.WellFormed) {edges : List Edge}
    (hjoins : ∀ e ∈ edges, Joins g.nodes e) : ∃ h, edges.foldlM addEdge g = .ok h := by
  cases hadded : edges.foldlM addEdge g with
  | ok h => exact ⟨h, rfl⟩
  | error fault =>
    obtain ⟨before, e, after, reached, rfl, hbefore, he⟩ := exists_first_failure hadded
    have hreached := adds_of_foldlM hg hbefore
    obtain ⟨hcaller, hcallee⟩ := hjoins e (by simp)
    obtain ⟨missing, -, hmissing⟩ := missing_of_addEdge hreached.wellFormed he
    rw [hreached.nodes_eq] at hmissing
    rcases hmissing with ⟨-, hnone⟩ | ⟨-, -, hnone⟩
    · exact absurd hcaller hnone
    · exact absurd hcallee hnone

/-! ## Consistent documents -/

/-- The version is known, ids are different and not empty, and edges join nodes. -/
structure IsConsistent (doc : Document) : Prop where
  version_le : doc.formatVersion ≤ currentVersion
  haveOwnIds : HaveOwnIds doc.nodes
  joins : ∀ e ∈ doc.edges, Joins doc.nodes e

instance (doc : Document) : Decidable doc.IsConsistent :=
  decidable_of_iff (doc.formatVersion ≤ currentVersion ∧ HaveOwnIds doc.nodes ∧
      ∀ e ∈ doc.edges, Joins doc.nodes e)
    ⟨fun h => ⟨h.1, h.2.1, h.2.2⟩, fun h => ⟨h.version_le, h.haveOwnIds, h.joins⟩⟩

/-- The first thing that is wrong with a document: its version, then a node, then an edge.  What
comes before a node or edge is as it has to be. -/
inductive FirstFault (doc : Document) : DocumentFault → Prop
  | newerVersion : currentVersion < doc.formatVersion →
      FirstFault doc (.newerVersion doc.formatVersion)
  | emptyId {before after : List Node} {n : Node} : doc.formatVersion ≤ currentVersion →
      doc.nodes = before ++ n :: after → HaveOwnIds before → n.id = "" →
      FirstFault doc .emptyId
  | duplicateId {before after : List Node} {n : Node} : doc.formatVersion ≤ currentVersion →
      doc.nodes = before ++ n :: after → HaveOwnIds before → n.id ∈ before.map (·.id) →
      FirstFault doc (.duplicateId n.id)
  | badEdge {before after : List Edge} {e : Edge} {missing : String} :
      doc.formatVersion ≤ currentVersion → HaveOwnIds doc.nodes →
      doc.edges = before ++ e :: after → (∀ other ∈ before, Joins doc.nodes other) →
      (missing = e.caller ∧ e.caller ∉ doc.nodes.map (·.id) ∨
        missing = e.callee ∧ e.caller ∈ doc.nodes.map (·.id) ∧
          e.callee ∉ doc.nodes.map (·.id)) →
      FirstFault doc (.badEdge e (.nodeNotFound missing))

/-- The graph has the nodes and edges of the document. -/
structure Describes (doc : Document) (g : Graph) : Prop where
  wellFormed : g.WellFormed
  nodes_eq : g.nodes = doc.nodes.map (atDetail doc.detail)
  mem_edges_iff : ∀ e, e ∈ g.edges ↔ e ∈ doc.edges

/-- A document of a known version is put together node by node and edge by edge. -/
theorem toGraph_of_version_le (h : doc.formatVersion ≤ currentVersion) :
    doc.toGraph =
      doc.nodes.foldlM (addNode doc.detail) Graph.empty >>= doc.edges.foldlM addEdge := by
  rw [toGraph, if_neg (Nat.not_lt.2 h)]

/-- A document of a newer version is refused at once. -/
theorem toGraph_of_version_lt (h : currentVersion < doc.formatVersion) :
    doc.toGraph = .error (.newerVersion doc.formatVersion) := by
  rw [toGraph, if_pos h]
  rfl

/-- Every consistent document describes a graph. -/
theorem IsConsistent.exists_toGraph (h : doc.IsConsistent) : ∃ g, doc.toGraph = .ok g := by
  obtain ⟨drawn, hdrawn, hlists⟩ := h.haveOwnIds.exists_foldlM doc.detail
  have hjoins : ∀ e ∈ doc.edges, Joins drawn.nodes e := by
    simp only [Joins, hlists.nodes_eq, map_id_atDetail]
    exact h.joins
  obtain ⟨g, hg⟩ := exists_foldlM_of_joins hlists.wellFormed hjoins
  exact ⟨g, by rw [toGraph_of_version_le h.version_le, hdrawn, ok_bind, hg]⟩

/-- What a document was turned into, in two runs. -/
theorem runs_of_toGraph (h : doc.toGraph = .ok g) :
    doc.formatVersion ≤ currentVersion ∧ ∃ drawn,
      doc.nodes.foldlM (addNode doc.detail) Graph.empty = .ok drawn ∧
        doc.edges.foldlM addEdge drawn = .ok g := by
  by_cases hversion : doc.formatVersion ≤ currentVersion
  · rw [toGraph_of_version_le hversion, bind_eq_ok] at h
    exact ⟨hversion, h⟩
  · rw [toGraph_of_version_lt (Nat.lt_of_not_le hversion)] at h
    cases h

/-- Only consistent documents describe graphs. -/
theorem isConsistent_of_toGraph (h : doc.toGraph = .ok g) : doc.IsConsistent ∧ doc.Describes g := by
  obtain ⟨hversion, drawn, hdrawn, hg⟩ := runs_of_toGraph h
  obtain ⟨hown, hlists⟩ := haveOwnIds_of_foldlM hdrawn
  have hadds := adds_of_foldlM hlists.wellFormed hg
  have hjoins : ∀ e ∈ doc.edges, Joins doc.nodes e := by
    have hdrawnJoins := hadds.joins
    simp only [Joins, hlists.nodes_eq, map_id_atDetail] at hdrawnJoins
    exact hdrawnJoins
  refine ⟨⟨hversion, hown, hjoins⟩, hadds.wellFormed, hadds.nodes_eq.trans hlists.nodes_eq, ?_⟩
  intro e
  rw [hadds.mem_edges_iff, hlists.edges_eq, or_iff_left List.not_mem_nil]

/-- The documents that are turned into graphs are those that are consistent. -/
theorem exists_toGraph_iff : (∃ g, doc.toGraph = .ok g) ↔ doc.IsConsistent :=
  ⟨fun ⟨_, h⟩ => (isConsistent_of_toGraph h).1, IsConsistent.exists_toGraph⟩

/-- A document that is not turned into a graph is refused for the first thing that is wrong. -/
theorem firstFault_of_toGraph (h : doc.toGraph = .error fault) : doc.FirstFault fault := by
  by_cases hversion : doc.formatVersion ≤ currentVersion
  · rw [toGraph_of_version_le hversion] at h
    cases hnodes : doc.nodes.foldlM (addNode doc.detail) Graph.empty with
    | error other =>
      rw [hnodes] at h
      obtain rfl : other = fault := Except.error.inj h
      obtain ⟨before, n, after, reached, hsplit, hbefore, hn⟩ := exists_first_failure hnodes
      obtain ⟨hown, hlists⟩ := haveOwnIds_of_foldlM hbefore
      rcases addNode_cases doc.detail reached n with
        ⟨hempty, heq⟩ | ⟨-, hcontains, heq⟩ | ⟨-, -, heq⟩
      · obtain rfl := Except.error.inj (heq.symm.trans hn)
        exact .emptyId hversion hsplit hown hempty
      · obtain rfl := Except.error.inj (heq.symm.trans hn)
        exact .duplicateId hversion hsplit hown (hlists.contains_iff.1 hcontains)
      · cases heq.symm.trans hn
    | ok drawn =>
      rw [hnodes, ok_bind] at h
      obtain ⟨hown, hlists⟩ := haveOwnIds_of_foldlM hnodes
      obtain ⟨before, e, after, reached, hsplit, hbefore, he⟩ := exists_first_failure h
      have hadds := adds_of_foldlM hlists.wellFormed hbefore
      obtain ⟨missing, rfl, hmissing⟩ := missing_of_addEdge hadds.wellFormed he
      have hjoins := hadds.joins
      rw [hadds.nodes_eq] at hmissing
      simp only [Joins, hlists.nodes_eq, map_id_atDetail] at hmissing hjoins
      exact .badEdge hversion hown hsplit hjoins hmissing
  · have hnewer := Nat.lt_of_not_le hversion
    rw [toGraph_of_version_lt hnewer] at h
    obtain rfl := Except.error.inj h
    exact .newerVersion hnewer

/-- The graph of a document is put together by operations, one for each node and each edge. -/
theorem reachable_of_toGraph (h : doc.toGraph = .ok g) : g.Reachable := by
  obtain ⟨-, drawn, hdrawn, hg⟩ := runs_of_toGraph h
  have hnode : ∀ {g : Graph} {n : Node} {next}, addNode doc.detail g n = .ok next →
      next = g.apply (.addNode (atDetail doc.detail n)) := fun hadd =>
    (eq_addNode_of_eq_ok hadd).2.2
  have hedge : ∀ {g : Graph} {e : Edge} {next}, addEdge g e = .ok next →
      next = g.apply (.addEdge e.caller e.callee) := fun {g e next} hadd => by
    rw [addEdge] at hadd
    split at hadd
    · rename_i found new heq
      rw [Graph.apply, heq]
      exact (Except.ok.inj hadd).symm
    · cases hadd
  refine ⟨doc.nodes.map (fun n => .addNode (atDetail doc.detail n)) ++
    doc.edges.map (fun e => .addEdge e.caller e.callee), ?_⟩
  rw [Graph.after, List.foldl_append, List.foldl_map, List.foldl_map,
    ← foldlM_eq_ok_foldl hnode hdrawn, ← foldlM_eq_ok_foldl hedge hg]

/-! ## Documents of graphs of documents -/

namespace Describes

variable (hdescribes : doc.Describes g)

include hdescribes

/-- The edges of the graph are those of the document. -/
theorem hasEdge_iff (caller callee : String) :
    g.hasEdge caller callee = true ↔ ⟨caller, callee⟩ ∈ doc.edges := by
  rw [← hdescribes.wellFormed.mem_edges_iff, hdescribes.mem_edges_iff]

/-- Repeated edges are in the graph once. -/
theorem perm_edges : g.edges.Perm doc.edges.dedup := by
  refine (List.perm_ext_iff_of_nodup hdescribes.wellFormed.nodup_edges doc.edges.nodup_dedup).2 ?_
  intro e
  rw [hdescribes.mem_edges_iff, List.mem_dedup]

/-- Edges that are repeated in the document count once. -/
theorem edgeCount_eq : g.edgeCount = doc.edges.dedup.length := by
  rw [← hdescribes.perm_edges.length_eq, Graph.edges, List.length_map, Graph.edgeCount]

/-- The document of the graph has the same nodes and edges, sorted, and each edge once. -/
theorem ofGraph_eq (savedAt : Instant) :
    ofGraph g doc.detail savedAt =
      { formatVersion := currentVersion
        detail := doc.detail
        savedAt := savedAt
        nodes := sortByText (·.id) (doc.nodes.map (atDetail doc.detail))
        edges := doc.edges.dedup.mergeSort Edge.le } := by
  have hnodes : g.sortedNodes.map (atDetail doc.detail) =
      sortByText (·.id) (doc.nodes.map (atDetail doc.detail)) := by
    rw [Graph.sortedNodes, hdescribes.nodes_eq]
    -- Each node is already written at the detail of the document.
    refine (List.map_congr_left fun n hn => ?_).trans (List.map_id _)
    obtain ⟨original, -, rfl⟩ := List.mem_map.1 ((perm_sortByText _ _).mem_iff.1 hn)
    exact atDetail_atDetail _ _
  have hedges : g.sortedEdges = doc.edges.dedup.mergeSort Edge.le :=
    Edge.mergeSort_eq_of_perm hdescribes.perm_edges
  rw [ofGraph, hnodes, hedges]

end Describes

/-! ## Graphs of documents of graphs -/

/-- The graph as it is written: with the code objects of its nodes only in full. -/
def graphAtDetail (detail : Detail) (g : Graph) : Graph :=
  match detail with
  | .full => g
  | .structureOnly => g.structureOnly

/-- The detail of a document is a change of all nodes. -/
theorem graphAtDetail_eq_mapNodes (detail : Detail) (g : Graph) :
    graphAtDetail detail g = g.mapNodes (atDetail detail) := by
  cases detail with
  | full => exact (Graph.mapNodes_eq_self fun _ _ => rfl).symm
  | structureOnly => rfl

/-- The graph of the document of a graph is the same graph, as it was written. -/
theorem exists_toGraph_ofGraph (hg : g.WellFormed) (hids : ∀ n ∈ g.nodes, n.id ≠ "")
    (detail : Detail) (savedAt : Instant) :
    ∃ loaded, (ofGraph g detail savedAt).toGraph = .ok loaded ∧
      loaded.same (graphAtDetail detail g) = true := by
  obtain ⟨loaded, hloaded, hwell, hnodes, hedges⟩ :=
    (describesGraph_ofGraph hg hids detail savedAt).exists_toGraph
  refine ⟨loaded, hloaded, hwell.same_of_perm ?_ ?_⟩
  · rw [hnodes, graphAtDetail_eq_mapNodes, ofGraph, List.map_map]
    refine ((Graph.perm_sortedNodes g).map _).trans (.of_eq ?_)
    exact List.map_congr_left fun n _ => atDetail_atDetail detail n
  · rw [hedges, graphAtDetail_eq_mapNodes, Graph.edges_mapNodes (id_atDetail detail)]
    exact (List.reverse_perm _).trans (Graph.perm_sortedEdges g)

/-- The detail that is chosen for a graph shows whether any of its nodes is populated. -/
theorem detailOf_nodes (g : Graph) :
    detailOf g.nodes = if 0 < g.populatedCount then .full else .structureOnly := by
  simp only [detailOf, hasObjects, Graph.populatedCount, List.countP_pos_iff, List.any_eq_true]

/-- With this detail a graph is written as it is. -/
theorem graphAtDetail_detailOf (g : Graph) : graphAtDetail (detailOf g.nodes) g = g := by
  rw [detailOf_nodes]
  split
  · rfl
  · rename_i hnone
    rw [graphAtDetail_eq_mapNodes]
    refine Graph.mapNodes_eq_self fun n hn => ?_
    have hcount := List.countP_eq_zero.1 (Nat.eq_zero_of_not_pos hnone) n hn
    have hobject : n.object = none := by simpa [Node.isPopulated] using hcount
    exact atDetail_of_object_eq_none hobject _

/-! ## Both ways -/

/-- A document is turned into a graph exactly if it is consistent, and refused for the first thing
that is wrong otherwise.  The graph has the nodes of the document, with code objects only in full,
and its edges, repeated ones once; its document has these sorted.  In turn the document of a graph
without empty id is turned into the same graph as it was written, and into the same graph altogether
at the detail that is chosen for the graph. -/
theorem toGraph_and_back :
    (∀ doc : Document,
      ((∃ g, doc.toGraph = .ok g) ↔ doc.IsConsistent) ∧
      (∀ fault, doc.toGraph = .error fault → doc.FirstFault fault) ∧
      ∀ g, doc.toGraph = .ok g →
        g.Reachable ∧ g.nodes = doc.nodes.map (atDetail doc.detail) ∧
        (∀ caller callee, g.hasEdge caller callee = true ↔ ⟨caller, callee⟩ ∈ doc.edges) ∧
        g.edgeCount = doc.edges.dedup.length ∧
        ∀ savedAt, ofGraph g doc.detail savedAt =
          { formatVersion := currentVersion
            detail := doc.detail
            savedAt := savedAt
            nodes := sortByText (·.id) (doc.nodes.map (atDetail doc.detail))
            edges := doc.edges.dedup.mergeSort Edge.le }) ∧
    ∀ g : Graph, g.Reachable → (∀ n ∈ g.nodes, n.id ≠ "") → ∀ savedAt,
      (∀ detail, ∃ loaded, (ofGraph g detail savedAt).toGraph = .ok loaded ∧
        loaded.same (graphAtDetail detail g) = true) ∧
      ∃ loaded, (ofGraph g (detailOf g.nodes) savedAt).toGraph = .ok loaded ∧
        loaded.same g = true := by
  constructor
  · intro doc
    refine ⟨exists_toGraph_iff, fun fault h => firstFault_of_toGraph h, fun g h => ?_⟩
    obtain ⟨-, hdescribes⟩ := isConsistent_of_toGraph h
    exact ⟨reachable_of_toGraph h, hdescribes.nodes_eq, hdescribes.hasEdge_iff,
      hdescribes.edgeCount_eq, hdescribes.ofGraph_eq⟩
  · intro g hg hids savedAt
    have hback := exists_toGraph_ofGraph hg.wellFormed hids
    refine ⟨fun detail => hback detail savedAt, ?_⟩
    obtain ⟨loaded, hloaded, hsame⟩ := hback (detailOf g.nodes) savedAt
    rw [graphAtDetail_detailOf] at hsame
    exact ⟨loaded, hloaded, hsame⟩

/-- A document that no graph is written as: its nodes and edges are not sorted, one edge is
repeated, and it has a code object although it is said to have none. -/
def unsortedPair : Document where
  formatVersion := 0
  detail := .structureOnly
  savedAt := .epoch
  nodes :=
    [.ofObject { id := "b", name := "B", kind := .function }, ⟨"a", "A", "", .type, none, .empty⟩]
  edges := [⟨"b", "a"⟩, ⟨"a", "a"⟩, ⟨"b", "a"⟩]

/-- The same nodes with an edge to a node that is missing. -/
def danglingPair : Document :=
  { unsortedPair with edges := [⟨"a", "b"⟩, ⟨"a", "ghost"⟩] }

/-- A graph of which one node has its code object. -/
def halfPopulated : List Graph.Operation :=
  [.addNode (.ofObject { id := "b", name := "B", kind := .function }),
    .addNode ⟨"a", "A", "", .type, none, .empty⟩, .addEdge "b" "a", .addEdge "a" "a"]

/-- An unsorted document with a repeated edge, one with a missing end, and a graph with one code
object. -/
theorem pairs_and_back :
    unsortedPair.IsConsistent ∧
      (∃ g, unsortedPair.toGraph = .ok g ∧ g.edgeCount = 2 ∧ g.hasEdge "b" "a" = true ∧
        g.nodes.map (·.object) = [none, none]) ∧
      danglingPair.toGraph = .error (.badEdge ⟨"a", "ghost"⟩ (.nodeNotFound "ghost")) ∧
      danglingPair.FirstFault (.badEdge ⟨"a", "ghost"⟩ (.nodeNotFound "ghost")) ∧
      (Graph.after halfPopulated).Reachable ∧
      (∀ n ∈ (Graph.after halfPopulated).nodes, n.id ≠ "") ∧
      detailOf (Graph.after halfPopulated).nodes = .full ∧
      ∃ loaded, (ofGraph (Graph.after halfPopulated) .full .epoch).toGraph = .ok loaded ∧
        loaded.same (Graph.after halfPopulated) = true := by
  have hconsistent : unsortedPair.IsConsistent := by decide
  obtain ⟨g, hg⟩ := (toGraph_and_back.1 unsortedPair).1.2 hconsistent
  obtain ⟨-, hnodes, hedges, hcount, -⟩ := (toGraph_and_back.1 unsortedPair).2.2 g hg
  have hdangling : danglingPair.toGraph =
      .error (.badEdge ⟨"a", "ghost"⟩ (.nodeNotFound "ghost")) := rfl
  have hreachable : (Graph.after halfPopulated).Reachable := ⟨halfPopulated, rfl⟩
  have hids : ∀ n ∈ (Graph.after halfPopulated).nodes, n.id ≠ "" := by decide
  have hdetail : detailOf (Graph.after halfPopulated).nodes = .full := rfl
  refine ⟨hconsistent, ⟨g, hg, hcount.trans rfl, (hedges _ _).2 (by decide), ?_⟩, hdangling,
    (toGraph_and_back.1 danglingPair).2.1 _ hdangling, hreachable, hids, hdetail, ?_⟩
  · rw [hnodes]
    rfl
  · exact hdetail ▸ (toGraph_and_back.2 _ hreachable hids .epoch).2

end Document

end CallGraph
