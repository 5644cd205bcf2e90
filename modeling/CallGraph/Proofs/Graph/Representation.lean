import CallGraph.Graph.Basic
import CallGraph.Proofs.Data.Catalogue
import CallGraph.Proofs.Data.Sorting

/-!
# The representation of call graphs

A graph keeps its nodes at places, its edges between places and an index from ids to places.  This
module says when the three fit together, and that each operation on graphs keeps them so.  Later
modules use the views of a graph at the end of this one and do not open the representation.

Main results:

- Definition `Graph.WellFormed`: the index and the nodes agree, and every edge joins two nodes, at
  most once in each direction.
- Theorems `Graph.WellFormed.addNode`, `addEdge`, `modify`, `induced` and `structureOnly`: each
  operation keeps a graph well-formed.
- Theorems `Graph.WellFormed.mem_edges_iff`, `mem_calleesOf_iff`, `mem_callersOf_iff` and
  `mem_nodeIds_iff`: the views of a well-formed graph in terms of ids.
-/

namespace CallGraph
namespace Graph

/-! ## When a graph is well-formed -/

/-- The nodes, the edges and the index of a graph fit together: the index leads to nodes with the
id that was looked up, every node is found under its own id, and edges join places of nodes, none
of them twice. -/
structure WellFormed (g : Graph) : Prop where
  node_of_index : ∀ {id place}, g.indexOf? id = some place →
    ∃ node, g.nodes[place]? = some node ∧ node.id = id
  index_of_node : ∀ {place node}, g.nodes[place]? = some node →
    g.indexOf? node.id = some place
  arc_inside : ∀ {arc}, arc ∈ g.arcs →
    arc.caller < g.nodes.length ∧ arc.callee < g.nodes.length
  nodup_arcs : g.arcs.Nodup

variable {g : Graph}

/-- The graph without nodes is well-formed. -/
theorem WellFormed.empty : Graph.empty.WellFormed where
  node_of_index h := by simp [indexOf?, Graph.empty] at h
  index_of_node h := by simp [Graph.empty] at h
  arc_inside h := by simp [Graph.empty] at h
  nodup_arcs := List.nodup_nil

/-! ## Ids and places -/

theorem idAt_of_getElem? {place : Nat} {node : Node} (h : g.nodes[place]? = some node) :
    g.idAt place = node.id := by
  simp [idAt, h]

/-- At the place of an id stands a node with this id. -/
theorem WellFormed.idAt_of_indexOf? (hg : g.WellFormed) {id : String} {place : Nat}
    (h : g.indexOf? id = some place) : g.idAt place = id := by
  obtain ⟨node, hnode, hid⟩ := hg.node_of_index h
  rw [idAt_of_getElem? hnode, hid]

/-- The place of an id is one of the places of nodes. -/
theorem WellFormed.lt_of_indexOf? (hg : g.WellFormed) {id : String} {place : Nat}
    (h : g.indexOf? id = some place) : place < g.nodes.length := by
  obtain ⟨node, hnode, -⟩ := hg.node_of_index h
  exact (List.getElem?_eq_some_iff.1 hnode).1

/-- The index leads from the id of a node back to its place. -/
theorem WellFormed.indexOf?_idAt (hg : g.WellFormed) {place : Nat}
    (h : place < g.nodes.length) : g.indexOf? (g.idAt place) = some place := by
  have hnode := List.getElem?_eq_getElem h
  rw [idAt_of_getElem? hnode]
  exact hg.index_of_node hnode

/-- Two places with one id are the same place. -/
theorem WellFormed.eq_of_idAt (hg : g.WellFormed) {i j : Nat} (hi : i < g.nodes.length)
    (hj : j < g.nodes.length) (h : g.idAt i = g.idAt j) : i = j := by
  have hplace := hg.indexOf?_idAt hi
  rw [h, hg.indexOf?_idAt hj, Option.some.injEq] at hplace
  exact hplace.symm

/-- Two ids at one place are the same id. -/
theorem WellFormed.eq_of_indexOf? (hg : g.WellFormed) {a b : String} {place : Nat}
    (ha : g.indexOf? a = some place) (hb : g.indexOf? b = some place) : a = b :=
  (hg.idAt_of_indexOf? ha).symm.trans (hg.idAt_of_indexOf? hb)

/-- No two nodes have the same id. -/
theorem WellFormed.nodup_ids (hg : g.WellFormed) : (g.nodes.map (·.id)).Nodup := by
  rw [List.Nodup, List.pairwise_iff_getElem]
  intro i j hi hj hij hsame
  rw [List.length_map] at hi hj
  have hfirst := hg.index_of_node (List.getElem?_eq_getElem hi)
  have hsecond := hg.index_of_node (List.getElem?_eq_getElem hj)
  rw [List.getElem_map, List.getElem_map] at hsame
  rw [hsame, hsecond, Option.some.injEq] at hfirst
  omega

/-- An id is in the graph if the index has a place for it. -/
theorem contains_iff_indexOf? {id : String} :
    g.contains id = true ↔ ∃ place, g.indexOf? id = some place := by
  rw [contains, Catalogue.contains_eq_isSome_find?, Option.isSome_iff_exists]
  simp [indexOf?]

/-- An id is not in the graph if the index has no place for it. -/
theorem indexOf?_eq_none_iff {id : String} : g.indexOf? id = none ↔ g.contains id = false := by
  rw [← Bool.not_eq_true, contains_iff_indexOf?, Option.eq_none_iff_forall_ne_some, not_exists]

/-- What begins with a required id fails exactly if the id is missing. -/
theorem require_bind (g : Graph) (id : String) {α : Type} (answer : Except GraphError α) :
    (g.require id >>= fun _ => answer) =
      if g.contains id = true then answer else .error (.nodeNotFound id) := by
  cases hfound : g.indexOf? id with
  | none =>
    rw [if_neg (by simp [indexOf?_eq_none_iff.1 hfound]), require, hfound]
    rfl
  | some place =>
    rw [if_pos (contains_iff_indexOf?.2 ⟨place, hfound⟩), require, hfound]
    rfl

/-- The node that is found under an id is the node with this id. -/
theorem WellFormed.node?_eq_some_iff (hg : g.WellFormed) {id : String} {node : Node} :
    g.node? id = some node ↔ node ∈ g.nodes ∧ node.id = id := by
  rw [node?, Option.bind_eq_some_iff]
  constructor
  · rintro ⟨place, hplace, hnode⟩
    obtain ⟨other, hother, hid⟩ := hg.node_of_index hplace
    obtain rfl : node = other := Option.some.inj (hnode.symm.trans hother)
    exact ⟨List.mem_of_getElem? hnode, hid⟩
  · rintro ⟨hmem, rfl⟩
    obtain ⟨place, hnode⟩ := List.mem_iff_getElem?.1 hmem
    exact ⟨place, hg.index_of_node hnode, hnode⟩

/-- The ids that are listed are those in the graph. -/
theorem mem_nodeIds_iff {id : String} : id ∈ g.nodeIds ↔ g.contains id = true := by
  rw [nodeIds, Catalogue.mem_keys_iff, contains, Catalogue.contains_eq_isSome_find?,
    Option.isSome_iff_exists]

/-- Ids are listed once each, in ascending order. -/
theorem pairwise_nodeIds (g : Graph) : g.nodeIds.Pairwise (· < ·) :=
  g.index.pairwise_keys

theorem nodup_nodeIds (g : Graph) : g.nodeIds.Nodup :=
  (pairwise_nodeIds g).imp fun h => ne_of_lt h

/-- The ids that are listed are those of the nodes. -/
theorem WellFormed.mem_nodeIds_iff_mem_map (hg : g.WellFormed) {id : String} :
    id ∈ g.nodeIds ↔ id ∈ g.nodes.map (·.id) := by
  rw [mem_nodeIds_iff, contains_iff_indexOf?, List.mem_map]
  constructor
  · rintro ⟨place, h⟩
    obtain ⟨node, hnode, hid⟩ := hg.node_of_index h
    exact ⟨node, List.mem_of_getElem? hnode, hid⟩
  · rintro ⟨node, hmem, rfl⟩
    obtain ⟨place, hnode⟩ := List.mem_iff_getElem?.1 hmem
    exact ⟨place, hg.index_of_node hnode⟩

/-- The id of a node is in the graph. -/
theorem WellFormed.contains_of_mem_nodes (hg : g.WellFormed) {node : Node} (h : node ∈ g.nodes) :
    g.contains node.id = true :=
  mem_nodeIds_iff.1 (hg.mem_nodeIds_iff_mem_map.2 (List.mem_map_of_mem h))

/-- The index has as many entries as there are nodes. -/
theorem WellFormed.size_index (hg : g.WellFormed) : g.index.size = g.nodeCount := by
  have hperm : g.nodeIds.Perm (g.nodes.map (·.id)) :=
    (List.perm_ext_iff_of_nodup (nodup_nodeIds g) hg.nodup_ids).2
      fun _ => hg.mem_nodeIds_iff_mem_map
  have hlength := hperm.length_eq
  rwa [nodeIds, Catalogue.length_keys, List.length_map] at hlength

/-- There are as many ids as nodes. -/
theorem WellFormed.length_nodeIds (hg : g.WellFormed) : g.nodeIds.length = g.nodeCount := by
  rw [nodeIds, Catalogue.length_keys, hg.size_index]

/-! ## Adding a node -/

/-- A node with a known id is put in the place of the node with this id. -/
theorem addNode_of_indexOf?_eq_some {node : Node} {place : Nat}
    (h : g.indexOf? node.id = some place) :
    g.addNode node = { g with nodes := g.nodes.set place node } := by
  simp [addNode, h]

/-- A node with a new id is put after all others. -/
theorem addNode_of_indexOf?_eq_none {node : Node} (h : g.indexOf? node.id = none) :
    g.addNode node = { g with
      nodes := g.nodes ++ [node]
      index := g.index.insert ⟨node.id, g.nodes.length⟩ } := by
  simp [addNode, h]

/-- The index gains the place after all others for a new id, and nothing else. -/
theorem indexOf?_addNode_of_new {node : Node} (h : g.indexOf? node.id = none) (id : String) :
    (g.addNode node).indexOf? id =
      if node.id = id then some g.nodes.length else g.indexOf? id := by
  rw [addNode_of_indexOf?_eq_none h, indexOf?, Catalogue.find?_insert]
  split <;> rfl

/-- Replacing the node at a place by one with the same id keeps a graph well-formed. -/
theorem WellFormed.replace (hg : g.WellFormed) {place : Nat} {node : Node}
    (h : g.indexOf? node.id = some place) :
    ({ g with nodes := g.nodes.set place node } : Graph).WellFormed where
  node_of_index := by
    intro id other hid
    change g.indexOf? id = some other at hid
    have hlt := hg.lt_of_indexOf? hid
    by_cases hplace : place = other
    · subst hplace
      exact ⟨node, List.getElem?_set_self hlt, hg.eq_of_indexOf? h hid⟩
    · obtain ⟨old, hold, hsame⟩ := hg.node_of_index hid
      exact ⟨old, by rw [List.getElem?_set_ne hplace, hold], hsame⟩
  index_of_node := by
    intro other found hfound
    by_cases hplace : place = other
    · subst hplace
      rw [List.getElem?_set_self (hg.lt_of_indexOf? h), Option.some.injEq] at hfound
      exact hfound ▸ h
    · rw [List.getElem?_set_ne hplace] at hfound
      exact hg.index_of_node hfound
  arc_inside := by
    intro arc harc
    rw [List.length_set]
    exact hg.arc_inside harc
  nodup_arcs := hg.nodup_arcs

/-- Appending a node with a new id keeps a graph well-formed. -/
theorem WellFormed.append (hg : g.WellFormed) {node : Node} (h : g.indexOf? node.id = none) :
    (g.addNode node).WellFormed where
  node_of_index := by
    intro id place hid
    rw [indexOf?_addNode_of_new h] at hid
    rw [addNode_of_indexOf?_eq_none h]
    split at hid
    · rename_i hsame
      obtain rfl : g.nodes.length = place := by simpa using hid
      exact ⟨node, by simp, hsame⟩
    · obtain ⟨old, hold, hsame⟩ := hg.node_of_index hid
      exact ⟨old, by rw [List.getElem?_append_left (hg.lt_of_indexOf? hid), hold], hsame⟩
  index_of_node := by
    intro place found hfound
    rw [indexOf?_addNode_of_new h]
    rw [addNode_of_indexOf?_eq_none h] at hfound
    rw [List.getElem?_append] at hfound
    split at hfound
    · have hindex := hg.index_of_node hfound
      have hne : node.id ≠ found.id := by
        intro hsame
        rw [hsame, hindex] at h
        cases h
      rw [if_neg hne, hindex]
    · obtain ⟨hlt, rfl⟩ := List.getElem?_eq_some_iff.1 hfound
      have hplace : place = g.nodes.length := by
        simp only [List.length_singleton] at hlt
        omega
      simp [hplace]
  arc_inside := by
    intro arc harc
    rw [addNode_of_indexOf?_eq_none h] at harc ⊢
    have hinside := hg.arc_inside harc
    simp only [List.length_append, List.length_singleton]
    omega
  nodup_arcs := by
    rw [addNode_of_indexOf?_eq_none h]
    exact hg.nodup_arcs

/-- Adding a node keeps a graph well-formed, whether or not its id is new. -/
theorem WellFormed.addNode (hg : g.WellFormed) (node : Node) : (g.addNode node).WellFormed := by
  cases h : g.indexOf? node.id with
  | none => exact hg.append h
  | some place =>
    rw [addNode_of_indexOf?_eq_some h]
    exact hg.replace h

/-- Adding a node changes no edge. -/
@[simp]
theorem arcs_addNode (g : Graph) (node : Node) : (g.addNode node).arcs = g.arcs := by
  cases h : g.indexOf? node.id with
  | none => rw [addNode_of_indexOf?_eq_none h]
  | some place => rw [addNode_of_indexOf?_eq_some h]

/-- Adding several nodes keeps a graph well-formed. -/
theorem WellFormed.foldl_addNode (hg : g.WellFormed) (nodes : List Node) :
    (nodes.foldl Graph.addNode g).WellFormed := by
  induction nodes generalizing g with
  | nil => exact hg
  | cons node rest ih => exact ih (hg.addNode node)

theorem arcs_foldl_addNode (g : Graph) (nodes : List Node) :
    (nodes.foldl addNode g).arcs = g.arcs := by
  induction nodes generalizing g with
  | nil => rfl
  | cons node rest ih => rw [List.foldl_cons, ih, arcs_addNode]

/-- Nodes with different new ids are appended in their order. -/
theorem WellFormed.nodes_foldl_addNode (hg : g.WellFormed) {nodes : List Node}
    (h : (g.nodes.map (·.id) ++ nodes.map (·.id)).Nodup) :
    (nodes.foldl Graph.addNode g).nodes = g.nodes ++ nodes := by
  induction nodes generalizing g with
  | nil => simp
  | cons node rest ih =>
    have hnew : node.id ∉ g.nodes.map (·.id) := by
      intro hmem
      exact (List.nodup_append.1 h).2.2 _ hmem _ (by simp) rfl
    have hindex : g.indexOf? node.id = none := by
      rw [indexOf?_eq_none_iff, Bool.eq_false_iff]
      intro hcontains
      exact hnew (hg.mem_nodeIds_iff_mem_map.1 (mem_nodeIds_iff.2 hcontains))
    have hnodes : (g.addNode node).nodes = g.nodes ++ [node] := by
      rw [addNode_of_indexOf?_eq_none hindex]
    rw [List.foldl_cons, ih (hg.addNode node)]
    · rw [hnodes, List.append_assoc, List.singleton_append]
    · rw [hnodes]
      simpa using h

/-! ## Adding an edge -/

/-- What adding an edge can do: it adds a new one, it finds the edge, or an end of it is missing,
of which the caller is looked for first. -/
theorem addEdge_cases (g : Graph) (caller callee : String) :
    (∃ i j, g.indexOf? caller = some i ∧ g.indexOf? callee = some j ∧ ⟨i, j⟩ ∉ g.arcs ∧
      g.addEdge caller callee = .ok ({ g with arcs := ⟨i, j⟩ :: g.arcs }, true)) ∨
    (∃ i j, g.indexOf? caller = some i ∧ g.indexOf? callee = some j ∧ ⟨i, j⟩ ∈ g.arcs ∧
      g.addEdge caller callee = .ok (g, false)) ∨
    (g.contains caller = false ∧
      g.addEdge caller callee = .error (.nodeNotFound caller)) ∨
    (g.contains caller = true ∧ g.contains callee = false ∧
      g.addEdge caller callee = .error (.nodeNotFound callee)) := by
  cases hi : g.indexOf? caller with
  | none =>
    right; right; left
    exact ⟨indexOf?_eq_none_iff.1 hi, by simp [addEdge, require, hi, bind, Except.bind]⟩
  | some i =>
    cases hj : g.indexOf? callee with
    | none =>
      right; right; right
      exact ⟨contains_iff_indexOf?.2 ⟨i, hi⟩, indexOf?_eq_none_iff.1 hj,
        by simp [addEdge, require, hi, hj, bind, Except.bind]⟩
    | some j =>
      by_cases harc : ⟨i, j⟩ ∈ g.arcs
      · right; left
        exact ⟨i, j, rfl, rfl, harc,
          by simp [addEdge, require, hi, hj, harc, bind, Except.bind, pure, Except.pure]⟩
      · left
        exact ⟨i, j, rfl, rfl, harc,
          by simp [addEdge, require, hi, hj, harc, bind, Except.bind, pure, Except.pure]⟩

/-- An edge that could be added or found, as arcs. -/
theorem addEdge_eq_ok {caller callee : String} {h : Graph} {new : Bool}
    (hadd : g.addEdge caller callee = .ok (h, new)) :
    ∃ i j, g.indexOf? caller = some i ∧ g.indexOf? callee = some j ∧
      (new = true ∧ ⟨i, j⟩ ∉ g.arcs ∧ h = { g with arcs := ⟨i, j⟩ :: g.arcs } ∨
        new = false ∧ ⟨i, j⟩ ∈ g.arcs ∧ h = g) := by
  rcases addEdge_cases g caller callee with
    ⟨i, j, hi, hj, hnew, heq⟩ | ⟨i, j, hi, hj, hold, heq⟩ | ⟨-, heq⟩ | ⟨-, -, heq⟩
  · rw [heq, Except.ok.injEq, Prod.mk.injEq] at hadd
    exact ⟨i, j, hi, hj, .inl ⟨hadd.2.symm, hnew, hadd.1.symm⟩⟩
  · rw [heq, Except.ok.injEq, Prod.mk.injEq] at hadd
    exact ⟨i, j, hi, hj, .inr ⟨hadd.2.symm, hold, hadd.1.symm⟩⟩
  · rw [heq] at hadd
    cases hadd
  · rw [heq] at hadd
    cases hadd

/-- An edge is refused only if an end is missing, of which the caller is named first. -/
theorem addEdge_eq_error {caller callee : String} {error : GraphError}
    (hadd : g.addEdge caller callee = .error error) :
    error = .nodeNotFound caller ∧ g.contains caller = false ∨
      error = .nodeNotFound callee ∧ g.contains caller = true ∧ g.contains callee = false := by
  rcases addEdge_cases g caller callee with
    ⟨i, j, -, -, -, heq⟩ | ⟨i, j, -, -, -, heq⟩ | ⟨hcaller, heq⟩ | ⟨hcaller, hcallee, heq⟩
  · rw [heq] at hadd
    cases hadd
  · rw [heq] at hadd
    cases hadd
  · rw [heq, Except.error.injEq] at hadd
    exact .inl ⟨hadd.symm, hcaller⟩
  · rw [heq, Except.error.injEq] at hadd
    exact .inr ⟨hadd.symm, hcaller, hcallee⟩

/-- An edge between nodes of the graph is never refused. -/
theorem exists_addEdge_eq_ok {caller callee : String} (hcaller : g.contains caller = true)
    (hcallee : g.contains callee = true) :
    ∃ h new, g.addEdge caller callee = .ok (h, new) := by
  rcases addEdge_cases g caller callee with
    ⟨i, j, -, -, -, heq⟩ | ⟨i, j, -, -, -, heq⟩ | ⟨hmissing, -⟩ | ⟨-, hmissing, -⟩
  · exact ⟨_, _, heq⟩
  · exact ⟨_, _, heq⟩
  · rw [hcaller] at hmissing
    cases hmissing
  · rw [hcallee] at hmissing
    cases hmissing

/-- An edge between known places that is not there yet keeps a graph well-formed. -/
theorem WellFormed.cons_arc (hg : g.WellFormed) {caller callee : String} {i j : Nat}
    (hi : g.indexOf? caller = some i) (hj : g.indexOf? callee = some j) (hnew : ⟨i, j⟩ ∉ g.arcs) :
    ({ g with arcs := ⟨i, j⟩ :: g.arcs } : Graph).WellFormed where
  node_of_index := hg.node_of_index
  index_of_node := hg.index_of_node
  arc_inside := by
    intro arc harc
    rcases List.mem_cons.1 harc with rfl | harc
    · exact ⟨hg.lt_of_indexOf? hi, hg.lt_of_indexOf? hj⟩
    · exact hg.arc_inside harc
  nodup_arcs := List.nodup_cons.2 ⟨hnew, hg.nodup_arcs⟩

/-- Adding an edge keeps a graph well-formed, whether or not the edge is new. -/
theorem WellFormed.addEdge (hg : g.WellFormed) {caller callee : String} {h : Graph} {new : Bool}
    (hadd : g.addEdge caller callee = .ok (h, new)) : h.WellFormed := by
  obtain ⟨i, j, hi, hj, ⟨-, hnew, rfl⟩ | ⟨-, -, rfl⟩⟩ := addEdge_eq_ok hadd
  · exact hg.cons_arc hi hj hnew
  · exact hg

/-! ## Changing nodes -/

/-- Changing nodes where they stand keeps a graph well-formed if no id changes. -/
theorem WellFormed.of_nodes (hg : g.WellFormed) {nodes : List Node}
    (hids : nodes.map (·.id) = g.nodes.map (·.id)) :
    ({ g with nodes := nodes } : Graph).WellFormed := by
  have hlength : nodes.length = g.nodes.length := by
    simpa using congrArg List.length hids
  have hid : ∀ place : Nat, nodes[place]?.map (·.id) = g.nodes[place]?.map (·.id) := by
    intro place
    rw [← List.getElem?_map, ← List.getElem?_map, hids]
  refine ⟨?_, ?_, ?_, hg.nodup_arcs⟩
  · intro id place hindex
    obtain ⟨old, hold, hsame⟩ := hg.node_of_index hindex
    have hnew := hid place
    rw [hold, Option.map_some, Option.map_eq_some_iff] at hnew
    obtain ⟨node, hnode, hnodeId⟩ := hnew
    exact ⟨node, hnode, hnodeId.trans hsame⟩
  · intro place node hnode
    have hold := (hid place).symm
    change nodes[place]? = some node at hnode
    rw [hnode, Option.map_some, Option.map_eq_some_iff] at hold
    obtain ⟨old, hold, holdId⟩ := hold
    change g.indexOf? node.id = some place
    rw [← holdId]
    exact hg.index_of_node hold
  · intro arc harc
    simpa [hlength] using hg.arc_inside harc

/-- Changing a node keeps a graph well-formed if the node keeps its id. -/
theorem WellFormed.modify (hg : g.WellFormed) {change : Node → Node}
    (hchange : ∀ node, (change node).id = node.id) (id : String) :
    (g.modify id change).WellFormed := by
  rw [Graph.modify]
  split
  · refine hg.of_nodes (List.ext_getElem? fun place => ?_)
    rw [List.getElem?_map, List.getElem?_map, List.getElem?_modify]
    cases g.nodes[place]? with
    | none => rfl
    | some node =>
      simp only [Option.map_eq_map, Option.map_some, Option.some.injEq]
      split
      · exact hchange node
      · rfl
  · exact hg

/-- Leaving out the code objects keeps a graph well-formed. -/
theorem WellFormed.structureOnly (hg : g.WellFormed) : g.structureOnly.WellFormed := by
  refine hg.of_nodes ?_
  rw [List.map_map]
  rfl

/-! ## Views of a graph -/

/-- The places of two ends are those that the index gives. -/
theorem arc?_eq_some_iff {caller callee : String} {arc : Arc} :
    g.arc? caller callee = some arc ↔
      g.indexOf? caller = some arc.caller ∧ g.indexOf? callee = some arc.callee := by
  rw [arc?]
  split
  · rename_i i j hi hj
    obtain ⟨m, n⟩ := arc
    simp [hi, hj]
  · rename_i hnone
    constructor
    · intro h
      cases h
    · rintro ⟨hi, hj⟩
      exact absurd hj (hnone _ _ hi)

/-- There is an edge between two ids if there is one between their places. -/
theorem hasEdge_iff {caller callee : String} :
    g.hasEdge caller callee = true ↔
      ∃ i j, g.indexOf? caller = some i ∧ g.indexOf? callee = some j ∧ ⟨i, j⟩ ∈ g.arcs := by
  rw [hasEdge]
  split
  · rename_i arc harc
    obtain ⟨hi, hj⟩ := arc?_eq_some_iff.1 harc
    simp [hi, hj]
  · rename_i hnone
    constructor
    · intro h
      cases h
    · rintro ⟨i, j, hi, hj, -⟩
      have hfound : g.arc? caller callee = some ⟨i, j⟩ := arc?_eq_some_iff.2 ⟨hi, hj⟩
      rw [hnone] at hfound
      cases hfound

/-- Both ends of an edge are in the graph. -/
theorem contains_of_hasEdge {caller callee : String} (h : g.hasEdge caller callee = true) :
    g.contains caller = true ∧ g.contains callee = true := by
  obtain ⟨i, j, hi, hj, -⟩ := hasEdge_iff.1 h
  exact ⟨contains_iff_indexOf?.2 ⟨i, hi⟩, contains_iff_indexOf?.2 ⟨j, hj⟩⟩

/-- The edges that are listed are those that are found between two ids. -/
theorem WellFormed.mem_edges_iff (hg : g.WellFormed) {caller callee : String} :
    ⟨caller, callee⟩ ∈ g.edges ↔ g.hasEdge caller callee = true := by
  rw [hasEdge_iff, edges, List.mem_map]
  constructor
  · rintro ⟨arc, harc, heq⟩
    rw [Edge.mk.injEq] at heq
    obtain ⟨rfl, rfl⟩ := heq
    obtain ⟨hi, hj⟩ := hg.arc_inside harc
    exact ⟨arc.caller, arc.callee, hg.indexOf?_idAt hi, hg.indexOf?_idAt hj, harc⟩
  · rintro ⟨i, j, hi, hj, harc⟩
    exact ⟨⟨i, j⟩, harc, by rw [hg.idAt_of_indexOf? hi, hg.idAt_of_indexOf? hj]⟩

/-- No edge is listed twice. -/
theorem WellFormed.nodup_edges (hg : g.WellFormed) : g.edges.Nodup := by
  refine hg.nodup_arcs.map_on ?_
  intro arc harc other hother heq
  obtain ⟨hi, hj⟩ := hg.arc_inside harc
  obtain ⟨hk, hl⟩ := hg.arc_inside hother
  rw [Edge.mk.injEq] at heq
  have hcaller := hg.eq_of_idAt hi hk heq.1
  have hcallee := hg.eq_of_idAt hj hl heq.2
  cases arc
  cases other
  exact Arc.mk.injEq .. ▸ ⟨hcaller, hcallee⟩

/-- The ids that `id` calls, as ends of edges. -/
theorem WellFormed.mem_calleesOf_iff (hg : g.WellFormed) {caller callee : String} :
    callee ∈ g.calleesOf caller ↔ g.hasEdge caller callee = true := by
  rw [hasEdge_iff, calleesOf]
  split
  · rename_i i hi
    simp only [List.mem_map, List.mem_filter, beq_iff_eq]
    constructor
    · rintro ⟨arc, ⟨harc, rfl⟩, rfl⟩
      exact ⟨arc.caller, arc.callee, hi, hg.indexOf?_idAt (hg.arc_inside harc).2, harc⟩
    · rintro ⟨k, j, hk, hj, harc⟩
      obtain rfl : i = k := by simpa [hi] using hk
      exact ⟨⟨i, j⟩, ⟨harc, rfl⟩, hg.idAt_of_indexOf? hj⟩
  · rename_i hnone
    simp [hnone]

/-- The ids that call `id`, as ends of edges. -/
theorem WellFormed.mem_callersOf_iff (hg : g.WellFormed) {caller callee : String} :
    caller ∈ g.callersOf callee ↔ g.hasEdge caller callee = true := by
  rw [hasEdge_iff, callersOf]
  split
  · rename_i j hj
    simp only [List.mem_map, List.mem_filter, beq_iff_eq]
    constructor
    · rintro ⟨arc, ⟨harc, rfl⟩, rfl⟩
      exact ⟨arc.caller, arc.callee, hg.indexOf?_idAt (hg.arc_inside harc).1, hj, harc⟩
    · rintro ⟨i, k, hi, hk, harc⟩
      obtain rfl : j = k := by simpa [hj] using hk
      exact ⟨⟨i, j⟩, ⟨harc, rfl⟩, hg.idAt_of_indexOf? hi⟩
  · rename_i hnone
    simp [hnone]

/-- No callee is listed twice. -/
theorem WellFormed.nodup_calleesOf (hg : g.WellFormed) (id : String) : (g.calleesOf id).Nodup := by
  rw [calleesOf]
  split
  · refine (hg.nodup_arcs.filter _).map_on ?_
    rintro ⟨i, j⟩ harc ⟨k, l⟩ hother hsame
    simp only [List.mem_filter, beq_iff_eq] at harc hother hsame
    have hcallee := hg.eq_of_idAt (hg.arc_inside harc.1).2 (hg.arc_inside hother.1).2 hsame
    exact Arc.mk.injEq .. ▸ ⟨harc.2.trans hother.2.symm, hcallee⟩
  · exact List.nodup_nil

/-- No caller is listed twice. -/
theorem WellFormed.nodup_callersOf (hg : g.WellFormed) (id : String) : (g.callersOf id).Nodup := by
  rw [callersOf]
  split
  · refine (hg.nodup_arcs.filter _).map_on ?_
    rintro ⟨i, j⟩ harc ⟨k, l⟩ hother hsame
    simp only [List.mem_filter, beq_iff_eq] at harc hother hsame
    have hcaller := hg.eq_of_idAt (hg.arc_inside harc.1).1 (hg.arc_inside hother.1).1 hsame
    exact Arc.mk.injEq .. ▸ ⟨hcaller, harc.2.trans hother.2.symm⟩
  · exact List.nodup_nil

/-! ## Parts of a graph -/

/-- A part of a well-formed graph is well-formed. -/
theorem WellFormed.induced (hg : g.WellFormed) (ids : List String) :
    (g.induced ids).WellFormed := by
  have hpart := WellFormed.empty.foldl_addNode ((sortDistinct ids).filterMap g.node?)
  refine ⟨hpart.node_of_index, hpart.index_of_node, ?_, ?_⟩
  · intro arc harc
    obtain ⟨edge, -, hfound⟩ := List.mem_filterMap.1 harc
    obtain ⟨hcaller, hcallee⟩ := arc?_eq_some_iff.1 hfound
    exact ⟨hpart.lt_of_indexOf? hcaller, hpart.lt_of_indexOf? hcallee⟩
  · refine List.Nodup.filterMap ?_ (hg.nodup_edges.filter _)
    -- Distinct edges have distinct arcs, since a place has only one id.
    intro edge other arc hedge hother
    obtain ⟨hcaller, hcallee⟩ := arc?_eq_some_iff.1 hedge
    obtain ⟨hcaller', hcallee'⟩ := arc?_eq_some_iff.1 hother
    cases edge
    cases other
    rw [Edge.mk.injEq]
    exact ⟨hpart.eq_of_indexOf? hcaller hcaller', hpart.eq_of_indexOf? hcallee hcallee'⟩

end Graph
end CallGraph
