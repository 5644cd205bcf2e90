import CallGraph.Analysis.Roles
import CallGraph.Proofs.Analysis.Summary
import CallGraph.Proofs.Data.Runs
import CallGraph.Proofs.Graph.Degrees

/-!
# Measures of nodes

The measures of a node are put together from four computations, each of which answers for all nodes
at once and is looked up by id.  A lookup that misses would not fail but give a default, so this
module shows that none misses: the sums of betweenness and the ranks of a random walk have one entry
for each node, whatever happens to them on the way, and every node lies in a component.

Main results:

- Theorems `Links.size_betweenness` and `Links.size_pageRank`: one value for each node.
- Theorems `Graph.WellFormed.map_fst_betweenness` and `Graph.WellFormed.map_fst_pageRank`: values
  are known under all ids and no others.
- Theorem `Graph.WellFormed.encard_connected`: the size of the component of a node.
- Theorem `Graph.WellFormed.measured`: the measures of a node are its own.
-/

namespace CallGraph

/-! ## One value for each node -/

/-- Adding what depends on a source keeps one sum for each node. -/
theorem ShortestWays.size_addDependencies (s : ShortestWays) (source : Nat) (sums : Array Float) :
    (s.addDependencies source sums).size = sums.size := by
  unfold addDependencies
  refine List.foldlRecOn (motive := fun pair : Array Float × Array Float => pair.2.size = sums.size)
    _ _ rfl ?_
  intro pair hsize w _
  dsimp only
  split
  · exact hsize
  · rw [Array.size_modify, hsize]

namespace Links

/-- The sums of a group of sources. -/
theorem size_foldl_addDependencies (ways : Nat → ShortestWays) (sources : List Nat)
    (sums : Array Float) :
    (sources.foldl (fun sums source => (ways source).addDependencies source sums) sums).size =
      sums.size := by
  refine List.foldlRecOn (motive := fun total : Array Float => total.size = sums.size) _ _ rfl ?_
  intro total hsize source _
  rw [ShortestWays.size_addDependencies, hsize]

/-- There is one value of betweenness for each node. -/
theorem size_betweenness (links : Links) (sources : List Nat) :
    (links.betweenness sources).size = links.size := by
  unfold betweenness
  extract_lets zero partials sums largest
  have hzero : zero.size = links.size := Array.size_replicate
  have hpartials : ∀ part ∈ partials, part.size = links.size := by
    intro part hpart
    obtain ⟨group, -, rfl⟩ := List.mem_map.1 hpart
    rw [size_foldl_addDependencies fun source =>
      (ShortestWays.start links.size source).run links links.size [source], hzero]
  have hsums : sums.size = links.size := by
    refine List.foldlRecOn (motive := fun total : Array Float => total.size = links.size)
      _ _ hzero ?_
    intro total htotal part hpart
    rw [Array.size_zipWith, htotal, hpartials part hpart, min_self]
  split
  · rw [Array.size_map, hsums]
  · exact hsums

/-- A step of the walk keeps one rank for each node. -/
theorem size_walk (links : Links) (damping : Float) (ranks : Array Float) :
    (links.walk damping ranks).size = links.size := by
  simp [walk]

/-- A walk that starts with one rank for each node keeps one for each node. -/
theorem size_pageRank (links : Links) (damping : Float) (steps : Nat) {ranks : Array Float}
    (h : ranks.size = links.size) : (links.pageRank damping steps ranks).size = links.size := by
  induction steps generalizing ranks with
  | zero => exact h
  | succ steps ih => exact ih (size_walk links damping ranks)

end Links

/-! ## Values by id -/

/-- A value that is stored under an id is found. -/
theorem mem_valueOf {values : List (String × Float)} {id : String} (h : id ∈ values.map (·.1)) :
    (id, valueOf values id) ∈ values := by
  obtain ⟨entry, hentry, rfl⟩ := List.mem_map.1 h
  cases hfound : values.find? (·.1 == entry.1) with
  | none => simpa using List.find?_eq_none.1 hfound entry hentry
  | some found =>
    have hid : found.1 = entry.1 := by simpa using List.find?_some hfound
    have hvalue : valueOf values entry.1 = found.2 := by
      rw [valueOf, hfound]
      rfl
    rw [hvalue, ← hid]
    exact List.mem_of_find?_eq_some hfound

namespace Graph

variable {g : Graph} {settings : CentralitySettings} {ranks : List (String × Float)} {id : String}

theorem size_links (g : Graph) : g.links.size = g.nodeCount := by
  simp [links, Links.size, nodeCount]

/-- If there is a value for each node, values are known under all ids and no others. -/
theorem WellFormed.map_fst_valuesById (hg : g.WellFormed) {values : Array Float}
    (h : values.size = g.nodeCount) : (g.valuesById values).map (·.1) = g.nodeIds := by
  have hids : (((g.nodes.map (·.id)).zip values.toList).map (·.1)) = g.nodes.map (·.id) := by
    apply List.map_fst_zip
    simp [h, nodeCount]
  have hperm : ((g.valuesById values).map (·.1)).Perm (g.nodes.map (·.id)) :=
    hids ▸ (perm_sortByText _ _).map _
  have hsorted : ((g.valuesById values).map (·.1)).Pairwise (· ≤ ·) :=
    List.pairwise_map.2 (pairwise_sortByText _ _)
  have hstrict : ((g.valuesById values).map (·.1)).Pairwise (· < ·) :=
    (hsorted.and (hperm.nodup_iff.2 hg.nodup_ids)).imp fun hab => lt_of_le_of_ne hab.1 hab.2
  refine hstrict.eq_of_mem_iff (pairwise_nodeIds g) fun id => ?_
  rw [hperm.mem_iff, hg.mem_nodeIds_iff_mem_map]

/-- Betweenness is listed for each id once, in ascending order. -/
theorem WellFormed.map_fst_betweenness (hg : g.WellFormed) (settings : CentralitySettings) :
    (g.betweenness settings).map (·.1) = g.nodeIds :=
  hg.map_fst_valuesById ((Links.size_betweenness _ _).trans (size_links g))

/-- PageRank is listed for each id once, in ascending order. -/
theorem WellFormed.map_fst_pageRank (hg : g.WellFormed) (h : g.pageRank settings = .ok ranks) :
    ranks.map (·.1) = g.nodeIds := by
  rw [pageRank] at h
  split at h
  · rename_i hempty
    obtain rfl : [] = ranks := Except.ok.inj h
    have hnone : g.nodeIds.length = 0 := by
      rw [hg.length_nodeIds, nodeCount, List.isEmpty_iff.1 hempty, List.length_nil]
    rw [List.length_eq_zero_iff.1 hnone, List.map_nil]
  · split at h
    · obtain rfl := Except.ok.inj h
      apply hg.map_fst_valuesById
      rw [Links.size_pageRank _ _ _ (by rw [Array.size_replicate, size_links]), size_links]
    · cases h

/-! ## Component sizes -/

/-- The size of the component that is found for a node counts what is connected with the node. -/
theorem WellFormed.encard_connected (hg : g.WellFormed) (h : g.contains id = true) :
    {other | g.AreConnected .weak id other}.encard =
      sizeOfComponent (g.components .weak) id := by
  obtain ⟨ids, hids, hmem⟩ := hg.exists_component .weak h
  cases hfound : (g.components .weak).find? (·.contains id) with
  | none => simpa [hmem] using List.find?_eq_none.1 hfound ids hids
  | some component =>
    have hcomponent := List.mem_of_find?_eq_some hfound
    have hself : id ∈ component := by simpa using List.find?_some hfound
    have hconnected : {other | g.AreConnected .weak id other} = ↑component.toFinset := by
      ext other
      rw [Set.mem_ofPred_eq, ← hg.mem_component_iff_of_mem hcomponent hself, Finset.mem_coe,
        List.mem_toFinset]
    obtain ⟨-, -, hsorted, -⟩ := hg.exists_eq_component hcomponent
    rw [hconnected, Set.encard_coe_eq_coe_finsetCard,
      List.toFinset_card_of_nodup (nodup_of_pairwise_lt hsorted), sizeOfComponent, hfound]
    rfl

/-! ## The measures of a node -/

/-- What the measures of a node are, given the ranks of all nodes. -/
def measuresOf (g : Graph) (settings : CentralitySettings) (ranks : List (String × Float))
    (node : Node) : Measures where
  degrees := ⟨(g.callersOf node.id).length, (g.calleesOf node.id).length⟩
  betweenness := valueOf (g.betweenness settings) node.id
  pageRank := valueOf ranks node.id
  complexity := node.object.bind (·.complexity)
  componentSize := sizeOfComponent (g.components .weak) node.id

/-- Measures are found if PageRank is, one entry for each node. -/
theorem measures_eq_ok_iff {measures : List (String × Measures)} :
    g.measures settings = .ok measures ↔ ∃ ranks, g.pageRank settings = .ok ranks ∧
      measures = g.sortedNodes.map fun node => (node.id, g.measuresOf settings ranks node) := by
  rw [Graph.measures, bind_eq_ok]
  constructor
  · rintro ⟨ranks, hranks, heq⟩
    exact ⟨ranks, hranks, (Except.ok.inj heq).symm⟩
  · rintro ⟨ranks, hranks, rfl⟩
    exact ⟨ranks, hranks, rfl⟩

/-- Nothing is measured but the nodes. -/
theorem WellFormed.map_fst_measures (hg : g.WellFormed) {measures : List (String × Measures)}
    (h : g.measures settings = .ok measures) : measures.map (·.1) = g.nodeIds := by
  obtain ⟨ranks, -, rfl⟩ := measures_eq_ok_iff.1 h
  rw [List.map_map]
  have hsorted := List.pairwise_map.2 hg.pairwise_sortedNodes
  refine hsorted.eq_of_mem_iff (pairwise_nodeIds g) fun id => ?_
  rw [hg.mem_nodeIds_iff_mem_map]
  exact ((perm_sortedNodes g).map (·.id)).mem_iff

/-- The measures are those of the node with the id: its degrees, the values that were computed for
it, the size of its source, and the number of nodes that are connected with it. -/
structure Measured (g : Graph) (settings : CentralitySettings) (id : String) (m : Measures) :
    Prop where
  incoming : g.inDegree id = .ok m.degrees.incoming
  outgoing : g.outDegree id = .ok m.degrees.outgoing
  betweenness : (id, m.betweenness) ∈ g.betweenness settings
  pageRank : ∃ ranks, g.pageRank settings = .ok ranks ∧ (id, m.pageRank) ∈ ranks
  complexity : m.complexity = (g.node? id).bind fun node => node.object.bind (·.complexity)
  componentSize : {other | g.AreConnected .weak id other}.encard = m.componentSize

/-- No lookup misses, so that the measures of a node are its own. -/
theorem WellFormed.measured (hg : g.WellFormed) {measures : List (String × Measures)}
    (h : g.measures settings = .ok measures) {m : Measures} (hm : (id, m) ∈ measures) :
    g.Measured settings id m := by
  obtain ⟨ranks, hranks, rfl⟩ := measures_eq_ok_iff.1 h
  obtain ⟨node, hnode, heq⟩ := List.mem_map.1 hm
  obtain ⟨rfl, rfl⟩ := Prod.mk.inj heq
  have hmem : node ∈ g.nodes := (perm_sortedNodes g).mem_iff.1 hnode
  have hcontains := hg.contains_of_mem_nodes hmem
  constructor
  · exact inDegree_eq_ok hcontains
  · exact outDegree_eq_ok hcontains
  · apply mem_valueOf
    rw [hg.map_fst_betweenness, mem_nodeIds_iff]
    exact hcontains
  · refine ⟨ranks, hranks, mem_valueOf ?_⟩
    rw [hg.map_fst_pageRank hranks, mem_nodeIds_iff]
    exact hcontains
  · rw [hg.node?_eq_some_iff.2 ⟨hmem, rfl⟩]
    rfl
  · exact hg.encard_connected hcontains

namespace Measured

variable {m : Measures} (hm : g.Measured settings id m)

include hm

/-- Without incoming edges, nothing calls the node. -/
theorem incoming_eq_zero_iff (hg : g.WellFormed) (h : g.contains id = true) :
    m.degrees.incoming = 0 ↔ ∀ caller, g.hasEdge caller id = false := by
  have hdegree : m.degrees.incoming = (g.callersOf id).length :=
    Except.ok.inj (hm.incoming.symm.trans (inDegree_eq_ok h))
  rw [hdegree, List.length_eq_zero_iff, List.eq_nil_iff_forall_not_mem]
  simp only [hg.mem_callersOf_iff, Bool.not_eq_true]

/-- Without outgoing edges, the node calls nothing. -/
theorem outgoing_eq_zero_iff (hg : g.WellFormed) (h : g.contains id = true) :
    m.degrees.outgoing = 0 ↔ ∀ callee, g.hasEdge id callee = false := by
  have hdegree : m.degrees.outgoing = (g.calleesOf id).length :=
    Except.ok.inj (hm.outgoing.symm.trans (outDegree_eq_ok h))
  rw [hdegree, List.length_eq_zero_iff, List.eq_nil_iff_forall_not_mem]
  simp only [hg.mem_calleesOf_iff, Bool.not_eq_true]

/-- Complexity is known only of source that is loaded. -/
theorem exists_source {complexity : Nat} (h : m.complexity = some complexity) :
    ∃ node object source, g.node? id = some node ∧ node.object = some object ∧
      object.source = some source := by
  rw [hm.complexity, Option.bind_eq_some_iff] at h
  obtain ⟨node, hnode, hobject⟩ := h
  obtain ⟨object, hobject, hcomplexity⟩ := Option.bind_eq_some_iff.1 hobject
  obtain ⟨source, hsource, -⟩ := Option.map_eq_some_iff.1 hcomplexity
  exact ⟨node, object, source, hnode, hobject, hsource⟩

end Measured

end Graph

end CallGraph
