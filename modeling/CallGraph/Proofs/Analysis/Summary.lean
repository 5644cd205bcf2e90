import CallGraph.Analysis.Summary
import CallGraph.Proofs.Analysis.Connection
import CallGraph.Proofs.Analysis.Cycles
import CallGraph.Proofs.Graph.Equality

/-!
# The numbers of a summary

A summary does not look at any cycle.  It takes a strong component to be cyclic if it has more than
one node, or if its only node calls itself.  This is right, since two nodes that reach each other
lie on a closed way, which can be shortened to an elementary cycle, and since the nodes of a cycle
all reach each other and so lie in one component.

Main results:

- Theorem `Graph.IsElementaryCycle.areConnected`: a cycle stays inside a strong component.
- Theorem `Graph.WellFormed.exists_mem_allCycles_of_calls`: an edge that can be gone back lies on a
  cycle.
- Theorem `Graph.WellFormed.isCyclicComponent_iff`: which strong components count as cyclic.
- Theorem `Graph.WellFormed.perm_flatten_components`: components divide the nodes up.
- Theorem `Graph.summary_agrees`: a summary agrees with the analyses that it sums up.
-/

namespace CallGraph

namespace Graph

variable {g : Graph} {a b : String} {ids : List String}

/-! ## Cycles and strong components -/

/-- The nodes of a cycle are strongly connected. -/
theorem IsElementaryCycle.areConnected (h : g.IsElementaryCycle ids) (ha : a ∈ ids)
    (hb : b ∈ ids) : g.AreConnected .strong a b := by
  obtain ⟨first, rest, rfl⟩ := List.exists_cons_of_ne_nil h.ne_nil
  have hclosed : List.IsChain g.Calls (first :: rest ++ [first]) := h.closed
  obtain ⟨htoA, hfromA⟩ := reflTransGen_of_isChain_closed hclosed ha
  obtain ⟨htoB, hfromB⟩ := reflTransGen_of_isChain_closed hclosed hb
  exact ⟨hfromA.trans htoB, hfromB.trans htoA⟩

/-- An edge whose end reaches its start lies on an elementary cycle. -/
theorem WellFormed.exists_isElementaryCycle (hg : g.WellFormed) (hstep : g.Calls a b)
    (hback : Relation.ReflTransGen g.Calls b a) : ∃ ids, g.IsElementaryCycle ids ∧ a ∈ ids := by
  rw [hg.calls_eq, ← exists_hops_iff] at hback
  obtain ⟨n, hway⟩ := hback
  obtain ⟨rest, hchain, hnodup, hlast, -⟩ := hway.exists_nodup_path
  have hedges : List.IsChain g.Calls (b :: rest) := hg.calls_eq ▸ hchain
  refine ⟨b :: rest, ⟨hnodup, ?_⟩, hlast ▸ List.getLast_mem _⟩
  refine List.isChain_append.2 ⟨hedges, List.isChain_singleton b, ?_⟩
  intro last hend first hfirst
  rw [List.getLast?_eq_some_getLast (by simp), hlast] at hend
  obtain rfl : a = last := Option.some.inj hend
  obtain rfl : b = first := by simpa using hfirst
  exact hstep

/-- Every elementary cycle is listed, turned to begin with its least id. -/
theorem WellFormed.exists_mem_allCycles (hg : g.WellFormed) (h : g.IsElementaryCycle ids) :
    ∃ cycle ∈ g.allCycles, ∀ id, id ∈ cycle.nodes ↔ id ∈ ids :=
  ⟨Cycle.canonical ids, hg.mem_allCycles_iff.2
    ⟨Cycle.isElementaryCycle_nodes_canonical h, Cycle.beginsWithLeast_nodes_canonical h.ne_nil⟩,
    fun _ => (Cycle.isRotated_nodes_canonical ids).symm.mem_iff⟩

/-- An edge whose end reaches its start lies on a cycle that is listed. -/
theorem WellFormed.exists_mem_allCycles_of_calls (hg : g.WellFormed) (hstep : g.Calls a b)
    (hback : Relation.ReflTransGen g.Calls b a) : ∃ cycle ∈ g.allCycles, a ∈ cycle.nodes := by
  obtain ⟨ids, hcycle, ha⟩ := hg.exists_isElementaryCycle hstep hback
  obtain ⟨cycle, hmem, hnodes⟩ := hg.exists_mem_allCycles hcycle
  exact ⟨cycle, hmem, (hnodes a).2 ha⟩

/-- Two nodes that reach each other make a cycle through each of them. -/
theorem WellFormed.exists_mem_allCycles_of_areConnected (hg : g.WellFormed) (hne : a ≠ b)
    (h : g.AreConnected .strong a b) : ∃ cycle ∈ g.allCycles, a ∈ cycle.nodes := by
  obtain ⟨hforth, hback⟩ := h
  rcases hforth.cases_head with heq | ⟨c, hstep, hrest⟩
  · exact absurd heq hne
  · exact hg.exists_mem_allCycles_of_calls hstep (hrest.trans hback)

/-- Where a strong component meets a cycle, it contains the cycle. -/
theorem WellFormed.subset_of_mem_component (hg : g.WellFormed) {cycle : Cycle}
    (hcycle : cycle ∈ g.allCycles) (hids : ids ∈ g.components .strong) (ha : a ∈ cycle.nodes)
    (hmem : a ∈ ids) : cycle.nodes ⊆ ids := by
  intro b hb
  have hconnected := (hg.mem_allCycles_iff.1 hcycle).1.areConnected ha hb
  exact (hg.mem_component_iff_of_mem hids hmem).2 hconnected

/-- Every cycle lies inside exactly one strong component. -/
theorem WellFormed.existsUnique_component_of_cycle (hg : g.WellFormed) {cycle : Cycle}
    (hcycle : cycle ∈ g.allCycles) : ∃! ids, ids ∈ g.components .strong ∧ cycle.nodes ⊆ ids := by
  have helementary := (hg.mem_allCycles_iff.1 hcycle).1
  obtain ⟨a, ha⟩ := List.exists_mem_of_ne_nil _ helementary.ne_nil
  have hnode := mem_nodeIds_iff.1 (helementary.mem_nodeIds a ha)
  obtain ⟨ids, hids, hmem⟩ := hg.exists_component .strong hnode
  refine ⟨ids, ⟨hids, hg.subset_of_mem_component hcycle hids ha hmem⟩, ?_⟩
  rintro others ⟨hothers, hsubset⟩
  exact hg.eq_of_mem_components hothers hids (hsubset ha) hmem

/-! ## Cyclic components -/

/-- The loops are the nodes that call themselves. -/
theorem WellFormed.mem_loops_iff (hg : g.WellFormed) :
    a ∈ g.loops ↔ g.hasEdge a a = true := by
  simp only [loops, List.mem_map, List.mem_filter, (perm_sortedEdges g).mem_iff, beq_iff_eq]
  constructor
  · rintro ⟨⟨caller, callee⟩, ⟨hedge, hsame⟩, rfl⟩
    obtain rfl : caller = callee := hsame
    exact hg.mem_edges_iff.1 hedge
  · intro hself
    exact ⟨⟨a, a⟩, ⟨hg.mem_edges_iff.2 hself, rfl⟩, rfl⟩

theorem WellFormed.nodup_loops (hg : g.WellFormed) : g.loops.Nodup := by
  have hedges : g.sortedEdges.Nodup := (perm_sortedEdges g).nodup_iff.2 hg.nodup_edges
  refine (hedges.filter _).map_on ?_
  -- A loop is known from its caller, which is also its callee.
  rintro ⟨caller, callee⟩ hloop ⟨other, callee'⟩ hloop' hsame
  simp only [List.mem_filter, beq_iff_eq] at hloop hloop' hsame
  rw [← hloop.2, ← hloop'.2, hsame]

/-- A cycle that meets only one node is an edge from this node to itself. -/
theorem IsElementaryCycle.hasEdge_of_subset_singleton (h : g.IsElementaryCycle ids)
    (hsubset : ids ⊆ [a]) : g.hasEdge a a = true := by
  have hlength := List.Nodup.length_le_of_subset h.nodup hsubset
  have hpositive := List.length_pos_iff.2 h.ne_nil
  obtain ⟨b, rfl⟩ := List.length_eq_one_iff.1 (le_antisymm hlength hpositive)
  obtain rfl : b = a := by simpa using hsubset
  exact isElementaryCycle_singleton_iff.1 h

/-- The strong components that count as cyclic are those that contain a cycle. -/
theorem WellFormed.isCyclicComponent_iff (hg : g.WellFormed) (hids : ids ∈ g.components .strong) :
    g.isCyclicComponent ids = true ↔ ∃ cycle ∈ g.allCycles, cycle.nodes ⊆ ids := by
  have hcontains : ∀ a ∈ ids, (∃ cycle ∈ g.allCycles, a ∈ cycle.nodes) →
      ∃ cycle ∈ g.allCycles, cycle.nodes ⊆ ids := by
    rintro a ha ⟨cycle, hcycle, hmem⟩
    exact ⟨cycle, hcycle, hg.subset_of_mem_component hcycle hids hmem ha⟩
  match ids, hids with
  | [], _ =>
    simp only [isCyclicComponent, Bool.false_eq_true, false_iff]
    rintro ⟨cycle, hcycle, hsubset⟩
    exact (hg.mem_allCycles_iff.1 hcycle).1.ne_nil (List.subset_nil.1 hsubset)
  | [a], _ =>
    rw [isCyclicComponent, List.contains_iff_mem, hg.mem_loops_iff]
    constructor
    · intro hself
      exact hcontains a (by simp) (hg.exists_mem_allCycles_of_calls hself .refl)
    · rintro ⟨cycle, hcycle, hsubset⟩
      exact (hg.mem_allCycles_iff.1 hcycle).1.hasEdge_of_subset_singleton hsubset
  | a :: b :: rest, hids =>
    simp only [isCyclicComponent, true_iff]
    have ha : a ∈ a :: b :: rest := by simp
    have hb : b ∈ a :: b :: rest := by simp
    have hne : a ≠ b := by
      obtain ⟨-, -, hsorted, -⟩ := hg.exists_eq_component hids
      exact ne_of_lt ((List.pairwise_cons.1 hsorted).1 b (by simp))
    have hconnected := (hg.mem_component_iff_of_mem hids ha).1 hb
    exact hcontains a ha (hg.exists_mem_allCycles_of_areConnected hne hconnected)

/-- As many cycles of one node are listed as there are nodes that call themselves. -/
theorem WellFormed.length_loops (hg : g.WellFormed) :
    g.loops.length = g.allCycles.countP fun cycle => cycle.nodes.length = 1 := by
  have hnodup : g.allCycles.Nodup := (hg.pairwise_cycles {}).imp fun hlt heq => (heq ▸ hlt).false
  have hperm : (g.loops.map fun id => Cycle.mk [id]).Perm
      (g.allCycles.filter fun cycle => cycle.nodes.length = 1) := by
    refine (List.perm_ext_iff_of_nodup (hg.nodup_loops.map ?_) (hnodup.filter _)).2 ?_
    · intro a b heq
      simpa using heq
    · rintro ⟨nodes⟩
      simp only [List.mem_map, List.mem_filter, hg.mem_loops_iff, hg.mem_allCycles_iff,
        decide_eq_true_eq, List.length_eq_one_iff, Cycle.mk.injEq]
      constructor
      · rintro ⟨id, hself, rfl⟩
        exact ⟨⟨isElementaryCycle_singleton_iff.2 hself, by simp [BeginsWithLeast]⟩, id, rfl⟩
      · rintro ⟨⟨hcycle, -⟩, id, rfl⟩
        exact ⟨id, isElementaryCycle_singleton_iff.1 hcycle, rfl⟩
  rw [List.countP_eq_length_filter, ← hperm.length_eq, List.length_map]

/-! ## Weak components -/

/-- Components divide the nodes up. -/
theorem WellFormed.perm_flatten_components (hg : g.WellFormed) (connection : Connection) :
    (g.components connection).flatten.Perm g.nodeIds := by
  have hdisjoint : (g.components connection).Pairwise List.Disjoint :=
    pairwise_disjoint_classes (hg.classifies_component connection).disjoint fun _ => id
  have hnodup : ∀ ids ∈ g.components connection, ids.Nodup := by
    intro ids hids
    obtain ⟨-, -, hsorted, -⟩ := hg.exists_eq_component hids
    exact nodup_of_pairwise_lt hsorted
  refine (List.perm_ext_iff_of_nodup (List.nodup_flatten.2 ⟨hnodup, hdisjoint⟩)
    (nodup_nodeIds g)).2 fun a => ?_
  rw [List.mem_flatten, mem_nodeIds_iff]
  constructor
  · rintro ⟨ids, hids, ha⟩
    obtain ⟨b, hb, -, hmem⟩ := hg.exists_eq_component hids
    exact ((hmem a).1 ha).contains hb
  · exact hg.exists_component connection

/-- The sizes of the components add up to the number of nodes. -/
theorem WellFormed.sum_length_components (hg : g.WellFormed) (connection : Connection) :
    ((g.components connection).map List.length).sum = g.nodeCount := by
  rw [← List.length_flatten, (hg.perm_flatten_components connection).length_eq, hg.length_nodeIds]

/-- The largest length is the length of a member, unless there is none. -/
theorem largest_attained (lists : List (List String)) :
    lists = [] ∧ (lists.map List.length).max?.getD 0 = 0 ∨
      ∃ ids ∈ lists, ids.length = (lists.map List.length).max?.getD 0 := by
  cases hlargest : (lists.map List.length).max? with
  | none =>
    rw [List.max?_eq_none_iff, List.map_eq_nil_iff] at hlargest
    exact .inl ⟨hlargest, rfl⟩
  | some largest => exact .inr (List.mem_map.1 (List.max?_eq_some_iff.1 hlargest).1)

/-! ## Ends of the graph -/

/-- There are as many entry points as nodes that no edge ends at. -/
theorem WellFormed.length_entryPoints (hg : g.WellFormed) :
    g.entryPoints.length = g.nodes.countP fun node => g.inDegree node.id = .ok 0 := by
  rw [entryPoints, (perm_sortTexts _).length_eq, List.length_map, ← List.countP_eq_length_filter]
  refine List.countP_congr fun node hnode => ?_
  rw [inDegree, require_bind, if_pos (hg.contains_of_mem_nodes hnode)]
  simp [pure, Except.pure]

/-- There are as many terminals as nodes that no edge starts at. -/
theorem WellFormed.length_terminals (hg : g.WellFormed) :
    (g.terminals false).length = g.nodes.countP fun node => g.outDegree node.id = .ok 0 := by
  rw [terminals, (perm_sortTexts _).length_eq, List.length_map, ← List.countP_eq_length_filter]
  refine List.countP_congr fun node hnode => ?_
  rw [outDegree, require_bind, if_pos (hg.contains_of_mem_nodes hnode)]
  simp [pure, Except.pure]

/-! ## The summary -/

/-- The numbers of a summary are those of the analyses that it sums up. -/
structure SummedUpBy (g : Graph) (summary : Summary) : Prop where
  nodes : summary.nodes = g.nodeIds.length
  selfLoops : summary.selfLoops = g.allCycles.countP fun cycle => cycle.nodes.length = 1
  entryPoints : summary.entryPoints = g.nodes.countP fun node => g.inDegree node.id = .ok 0
  terminals : summary.terminals = g.nodes.countP fun node => g.outDegree node.id = .ok 0
  cyclicComponents : summary.cyclicComponents =
    (g.components .strong).countP fun ids => ∃ cycle ∈ g.allCycles, cycle.nodes ⊆ ids
  weakComponents : summary.weakComponents = (g.components .weak).length
  weakSizes : ((g.components .weak).map List.length).sum = summary.nodes
  largest_le : ∀ ids ∈ g.components .weak, ids.length ≤ summary.largestWeakComponent
  largest_attained : g.components .weak = [] ∧ summary.largestWeakComponent = 0 ∨
    ∃ ids ∈ g.components .weak, ids.length = summary.largestWeakComponent
  populated : summary.populatedNodes + summary.placeholderNodes = summary.nodes

/-- A summary agrees with the analyses that it sums up, and every cycle lies inside exactly one
strong component. -/
theorem summary_agrees (h : g.Reachable) : g.SummedUpBy g.summary ∧
    ∀ cycle ∈ g.allCycles, ∃! ids, ids ∈ g.components .strong ∧ cycle.nodes ⊆ ids := by
  have hg := h.wellFormed
  refine ⟨?_, fun cycle hcycle => hg.existsUnique_component_of_cycle hcycle⟩
  constructor
  · exact hg.length_nodeIds.symm
  · exact hg.length_loops
  · exact hg.length_entryPoints
  · exact hg.length_terminals
  · rw [summary, ← List.countP_eq_length_filter]
    exact List.countP_congr fun ids hids => by simpa using hg.isCyclicComponent_iff hids
  · rfl
  · exact hg.sum_length_components .weak
  · exact fun ids hids => List.le_max?_getD_of_mem (List.mem_map_of_mem hids)
  · exact largest_attained (g.components .weak)
  · have hle : g.populatedCount ≤ g.nodeCount := List.countP_le_length
    exact Nat.add_sub_cancel' hle

/-- The numbers of a pair with a caller, and the one component around each of its cycles. -/
theorem summary_pairWithCaller :
    (after pairWithCaller).SummedUpBy (after pairWithCaller).summary ∧
      ∀ cycle ∈ (after pairWithCaller).allCycles,
        ∃! ids, ids ∈ (after pairWithCaller).components .strong ∧ cycle.nodes ⊆ ids :=
  summary_agrees ⟨pairWithCaller, rfl⟩

example : ((after pairWithCaller).components .strong).filter
    (after pairWithCaller).isCyclicComponent = [["a", "b"]] := by cbv

end Graph

end CallGraph
