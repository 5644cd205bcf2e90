import CallGraph.Proofs.Graph.Nodes
import CallGraph.Proofs.Graph.Operations
import CallGraph.Proofs.Graph.Parts

/-!
# What a graph says

Which node is found under each id, and which ids are joined by an edge, is all that a graph says:
places, and the order in which nodes and edges were added, are not part of it.  Each operation can
be told by what it does to this view alone, so a run of operations leads to a view that can be
computed without any graph, and two runs give the same graph if and only if they lead to one view.

Main results:

- Theorem `Graph.WellFormed.view_apply`: what an operation does to the view of a graph.
- Theorem `Graph.view_after`: the view that a run of operations leads to.
- Theorem `Graph.WellFormed.same_iff_view_eq`: graphs are the same if and only if their views are.
- Theorem `Graph.same_iff_same_views`: the same for graphs that can be reached and for runs, and
  that being the same is an equivalence.
-/

namespace CallGraph

namespace Graph

variable {g h : Graph}

/-! ## Finding nodes and edges after an operation -/

/-- An added node is found under its id, and nothing else changes. -/
theorem WellFormed.node?_addNode (hg : g.WellFormed) (node : Node) (id : String) :
    (g.addNode node).node? id = if id = node.id then some node else g.node? id := by
  by_cases hold : g.contains node.id = true
  · split
    · rename_i hid
      rw [hid, (hg.replacesNode hold).node?_self]
    · rename_i hid
      exact (hg.replacesNode hold).node?_other id hid
  · have hnew : g.indexOf? node.id = none := indexOf?_eq_none_iff.2 (by simpa using hold)
    have hnodes : (g.addNode node).nodes = g.nodes ++ [node] := by
      rw [addNode_of_indexOf?_eq_none hnew]
    refine Option.ext fun found => ?_
    rw [(hg.addNode node).node?_eq_some_iff, hnodes, List.mem_append, List.mem_singleton]
    split
    · rename_i hid
      rw [Option.some.injEq]
      constructor
      · rintro ⟨hmem | rfl, hsame⟩
        · -- A node with this id would be in the graph already.
          exact absurd (hsame.trans hid ▸ hg.contains_of_mem_nodes hmem) hold
        · rfl
      · rintro rfl
        exact ⟨.inr rfl, hid.symm⟩
    · rename_i hid
      rw [hg.node?_eq_some_iff]
      constructor
      · rintro ⟨hmem | rfl, hsame⟩
        · exact ⟨hmem, hsame⟩
        · exact absurd hsame.symm hid
      · rintro ⟨hmem, hsame⟩
        exact ⟨.inl hmem, hsame⟩

/-- A node that is new has a new place, where no edge begins or ends. -/
theorem WellFormed.hasEdge_addNode (hg : g.WellFormed) (node : Node) (a b : String) :
    (g.addNode node).hasEdge a b = g.hasEdge a b := by
  rw [Bool.eq_iff_iff, hasEdge_iff, hasEdge_iff, arcs_addNode]
  cases hplace : g.indexOf? node.id with
  | some place => rw [addNode_of_indexOf?_eq_some hplace]; rfl
  | none =>
    have hold {id : String} {i : Nat} (hi : i < g.nodes.length) :
        (g.addNode node).indexOf? id = some i ↔ g.indexOf? id = some i := by
      rw [indexOf?_addNode_of_new hplace]
      split
      · rename_i hid
        rw [← hid, hplace, Option.some.injEq]
        exact iff_of_false hi.ne' nofun
      · rfl
    constructor
    · rintro ⟨i, j, hi, hj, harc⟩
      obtain ⟨hcaller, hcallee⟩ := hg.arc_inside harc
      exact ⟨i, j, (hold hcaller).1 hi, (hold hcallee).1 hj, harc⟩
    · rintro ⟨i, j, hi, hj, harc⟩
      obtain ⟨hcaller, hcallee⟩ := hg.arc_inside harc
      exact ⟨i, j, (hold hcaller).2 hi, (hold hcallee).2 hj, harc⟩

/-- After an edge was added, it is there with all others. -/
theorem WellFormed.hasEdge_addEdge (hg : g.WellFormed) {caller callee : String} {new : Bool}
    (hadd : g.addEdge caller callee = .ok (h, new)) (a b : String) :
    h.hasEdge a b = (g.hasEdge a b || (a == caller && b == callee)) := by
  have hh : h.WellFormed := hg.addEdge hadd
  obtain ⟨hnew, hedges, hsame⟩ := hg.addEdge_added_iff hadd
  have hmem : ⟨a, b⟩ ∈ h.edges ↔ ⟨a, b⟩ ∈ g.edges ∨ a = caller ∧ b = callee := by
    cases new with
    | true =>
      rw [hedges.1 rfl, List.mem_cons, Edge.mk.injEq, or_comm]
    | false =>
      obtain rfl : h = g := hsame.1 rfl
      have hold : (⟨caller, callee⟩ : Edge) ∈ h.edges := by simpa using hnew
      refine (or_iff_left_of_imp ?_).symm
      rintro ⟨rfl, rfl⟩
      exact hold
  rw [Bool.eq_iff_iff, ← hh.mem_edges_iff, hmem, hg.mem_edges_iff]
  simp

/-- Adding an edge changes no node. -/
theorem node?_addEdge {caller callee : String} {new : Bool}
    (hadd : g.addEdge caller callee = .ok (h, new)) (id : String) : h.node? id = g.node? id := by
  obtain ⟨i, j, -, -, ⟨-, -, rfl⟩ | ⟨-, -, rfl⟩⟩ := addEdge_eq_ok hadd
  · rfl
  · rfl

/-- A changed node is found where it was, and nothing else changes. -/
theorem WellFormed.node?_modify (hg : g.WellFormed) (id : String) (change : Node → Node)
    (other : String) :
    (g.modify id change).node? other =
      if other = id then (g.node? other).map change else g.node? other := by
  rw [hg.modify_eq_mapNodes, node?_mapNodes]
  cases hfound : g.node? other with
  | none => simp
  | some node =>
    obtain ⟨-, rfl⟩ := hg.node?_eq_some_iff.1 hfound
    simp only [Option.map_some]
    split
    · rfl
    · rfl

/-- Changing a node changes no edge. -/
theorem hasEdge_modify (g : Graph) (id : String) (change : Node → Node) (a b : String) :
    (g.modify id change).hasEdge a b = g.hasEdge a b := by
  rw [modify]
  split
  · rfl
  · rfl

/-! ## Views -/

/-- Which node is found under each id, and which ids are joined by an edge. -/
@[ext]
structure View where
  node? : String → Option Node
  hasEdge : String → String → Bool

/-- The view of a graph without nodes. -/
def View.empty : View where
  node? _ := none
  hasEdge _ _ := false

/-- What an operation does to a view.  An edge between nodes is there afterwards, and an edge that
misses an end leaves everything as it was. -/
def View.apply (v : View) : Operation → View
  | .addNode node => { v with node? := fun id => if id = node.id then some node else v.node? id }
  | .addEdge caller callee =>
      if (v.node? caller).isSome && (v.node? callee).isSome then
        { v with hasEdge := fun a b => v.hasEdge a b || (a == caller && b == callee) }
      else v
  | .modify id change _ =>
      { v with node? := fun other => if other = id then (v.node? other).map change
                                     else v.node? other }
  | .induced ids =>
      { node? := fun id => if id ∈ ids then v.node? id else none
        hasEdge := fun a b => v.hasEdge a b && (ids.contains a && ids.contains b) }
  | .structureOnly => { v with node? := fun id => (v.node? id).map Node.structureOnly }

/-- The view of a graph. -/
def view (g : Graph) : View where
  node? := g.node?
  hasEdge := g.hasEdge

/-- Two views are the same if the same is found in them. -/
theorem view_eq_iff : g.view = h.view ↔
    (∀ id, g.node? id = h.node? id) ∧ ∀ a b, g.hasEdge a b = h.hasEdge a b := by
  simp only [View.ext_iff, view, funext_iff]

/-- A node is found under the ids in the graph. -/
theorem WellFormed.isSome_node? (hg : g.WellFormed) (id : String) :
    (g.node? id).isSome = g.contains id := by
  rw [Bool.eq_iff_iff, Option.isSome_iff_exists, hg.contains_iff_node?]

/-- Adding an edge shows in the view, whether or not both ends are there. -/
theorem WellFormed.view_addEdge (hg : g.WellFormed) (caller callee : String) :
    (g.apply (.addEdge caller callee)).view = g.view.apply (.addEdge caller callee) := by
  have hends : ((g.view.node? caller).isSome && (g.view.node? callee).isSome) =
      (g.contains caller && g.contains callee) := by
    rw [view, hg.isSome_node?, hg.isSome_node?]
  rw [Graph.apply, View.apply, hends]
  cases hadd : g.addEdge caller callee with
  | ok added =>
    obtain ⟨h, new⟩ := added
    obtain ⟨hcaller, hcallee⟩ := (hg.addsEdge caller callee).succeeds_iff.1 ⟨h, new, hadd⟩
    rw [hcaller, hcallee, Bool.and_self, if_pos rfl]
    exact View.ext (funext (node?_addEdge hadd)) (funext₂ (hg.hasEdge_addEdge hadd))
  | error error =>
    have hmissing : (g.contains caller && g.contains callee) = false := by
      rcases addEdge_eq_error hadd with ⟨-, hcaller⟩ | ⟨-, -, hcallee⟩
      · rw [hcaller, Bool.false_and]
      · rw [hcallee, Bool.and_false]
    rw [hmissing, if_neg Bool.false_ne_true]

/-- What an operation does to a graph shows in its view, and depends on nothing else. -/
theorem WellFormed.view_apply (hg : g.WellFormed) (operation : Operation) :
    (g.apply operation).view = g.view.apply operation := by
  cases operation with
  | addNode node =>
    exact View.ext (funext (hg.node?_addNode node)) (funext₂ (hg.hasEdge_addNode node))
  | addEdge caller callee => exact hg.view_addEdge caller callee
  | modify id change keepsId =>
    exact View.ext (funext (hg.node?_modify id change)) (funext₂ (hasEdge_modify g id change))
  | induced ids =>
    refine View.ext (funext (hg.node?_induced ids)) (funext₂ fun a b => ?_)
    have hedge : (g.induced ids).hasEdge a b = true ↔
        (g.hasEdge a b && (ids.contains a && ids.contains b)) = true := by
      simpa using hg.hasEdge_induced_iff
    exact Bool.eq_iff_iff.2 hedge
  | structureOnly =>
    exact View.ext (funext (node?_mapNodes g Node.structureOnly)) rfl

/-- A run of operations leads from view to view. -/
theorem WellFormed.view_foldl_apply (hg : g.WellFormed) (operations : List Operation) :
    (operations.foldl Graph.apply g).view = operations.foldl View.apply g.view := by
  induction operations generalizing g with
  | nil => rfl
  | cons operation rest ih =>
    rw [List.foldl_cons, List.foldl_cons, ih (hg.apply operation), hg.view_apply]

/-- The view that a run of operations leads to is computed from the operations alone. -/
theorem view_after (operations : List Operation) :
    (after operations).view = operations.foldl View.apply .empty :=
  WellFormed.empty.view_foldl_apply operations

/-! ## Graphs with one view -/

/-- Graphs are the same if and only if the same nodes are found and the same edges are present in
both. -/
theorem WellFormed.same_iff_view_eq (hg : g.WellFormed) (hh : h.WellFormed) :
    g.same h = true ↔ g.view = h.view := by
  constructor
  · intro hsame
    have halike : Alike g h := ⟨hg, hh, hsame⟩
    exact View.ext halike.node?_eq (funext₂ halike.hasEdge_eq)
  · intro hview
    obtain ⟨hnodes, hedges⟩ := view_eq_iff.1 hview
    exact hg.same_of_views hh hnodes hedges

/-- Being the same is reflexive, symmetric and transitive, since it is to have equal views. -/
theorem equivalence_same : Equivalence fun g h : Graph => g.same h = true where
  refl g := same_iff.2 ⟨rfl, rfl⟩
  symm hsame := by
    obtain ⟨hnodes, hedges⟩ := same_iff.1 hsame
    exact same_iff.2 ⟨hnodes.symm, hedges.symm⟩
  trans hfirst hsecond := by
    obtain ⟨hnodes, hedges⟩ := same_iff.1 hfirst
    obtain ⟨hnodes', hedges'⟩ := same_iff.1 hsecond
    exact same_iff.2 ⟨hnodes.trans hnodes', hedges.trans hedges'⟩

/-- Two graphs that can be reached are the same if and only if the same node, or none, is found
under each id and the same ids are joined by edges.  So two runs of operations give the same graph
if and only if they lead to one view, in whatever order they add nodes and edges; and being the same
is an equivalence. -/
theorem same_iff_same_views :
    (∀ g h : Graph, g.Reachable → h.Reachable → (g.same h = true ↔
      (∀ id, g.node? id = h.node? id) ∧ ∀ a b, g.hasEdge a b = h.hasEdge a b)) ∧
    (∀ operations others : List Operation, (after operations).same (after others) = true ↔
      operations.foldl View.apply .empty = others.foldl View.apply .empty) ∧
    Equivalence fun g h : Graph => g.same h = true := by
  refine ⟨fun g h hg hh => ?_, fun operations others => ?_, equivalence_same⟩
  · rw [hg.wellFormed.same_iff_view_eq hh.wellFormed, view_eq_iff]
  · have hg : (after operations).Reachable := ⟨operations, rfl⟩
    have hh : (after others).Reachable := ⟨others, rfl⟩
    rw [hg.wellFormed.same_iff_view_eq hh.wellFormed, view_after, view_after]

/-- A caller of a node that calls itself. -/
def drawn : List Operation :=
  [.addNode ⟨"a", "A", "", .procedure, none, .empty⟩,
    .addNode ⟨"b", "B", "", .function, none, .empty⟩, .addEdge "a" "b", .addEdge "b" "b"]

/-- The same nodes and edges in another order.  An edge is tried before its caller is there, another
one is added twice, and a node is replaced. -/
def redrawn : List Operation :=
  [.addNode ⟨"b", "B", "", .function, none, .empty⟩, .addEdge "b" "b", .addEdge "a" "b",
    .addNode ⟨"a", "later", "", .unknown, none, .empty⟩, .addEdge "b" "b", .addEdge "a" "b",
    .addNode ⟨"a", "A", "", .procedure, none, .empty⟩]

/-- The two runs put the nodes into different places, and lead to the same graph. -/
theorem same_drawn_redrawn :
    (after drawn).Reachable ∧ (after redrawn).Reachable ∧
      (after drawn).nodes ≠ (after redrawn).nodes ∧
      (∀ id, (after drawn).node? id = (after redrawn).node? id) ∧
      (∀ a b, (after drawn).hasEdge a b = (after redrawn).hasEdge a b) ∧
      (after drawn).same (after redrawn) = true := by
  have hdrawn : (after drawn).Reachable := ⟨drawn, rfl⟩
  have hredrawn : (after redrawn).Reachable := ⟨redrawn, rfl⟩
  have hplaces : (after drawn).nodes ≠ (after redrawn).nodes := by decide
  have hview : (after drawn).view = (after redrawn).view := by
    rw [view_after, view_after]
    refine View.ext (funext fun id => ?_) (funext₂ fun a b => ?_)
    · by_cases ha : id = "a" <;> simp [drawn, redrawn, View.apply, View.empty, ha]
    · simp [drawn, redrawn, View.apply, View.empty, Bool.or_comm]
  obtain ⟨hnodes, hedges⟩ := view_eq_iff.1 hview
  exact ⟨hdrawn, hredrawn, hplaces, hnodes, hedges,
    (same_iff_same_views.1 _ _ hdrawn hredrawn).2 ⟨hnodes, hedges⟩⟩

end Graph

end CallGraph
