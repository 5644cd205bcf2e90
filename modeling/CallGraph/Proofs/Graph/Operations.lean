import CallGraph.Proofs.Graph.Representation

/-!
# Graphs put together by operations

A call graph comes about by operations on the empty graph.  Each operation keeps a graph
well-formed, so every graph that can be reached is, in whatever order its operations came.

Main results:

- Theorem `Graph.WellFormed.apply`: one operation keeps a graph well-formed.
- Theorem `Graph.Reachable.wellFormed`: so does every run of operations.
- Theorem `Graph.after_keeps_representation`: after every run the index, the nodes and the edges
  fit together, a node with a known id is replaced where it stands, and adding an edge tells
  whether it did.
-/

namespace CallGraph
namespace Graph

/-! ## Runs of operations -/

/-- What can be done to a graph.  A change of a node, such as loading its code object or setting an
attribute, leaves its id alone. -/
inductive Operation where
  | addNode (node : Node)
  | addEdge (caller callee : String)
  | modify (id : String) (change : Node → Node) (keepsId : ∀ node, (change node).id = node.id)
  | induced (ids : List String)
  | structureOnly

/-- The graph after an operation.  An edge that cannot be added leaves the graph as it was. -/
def apply (g : Graph) : Operation → Graph
  | .addNode node => g.addNode node
  | .addEdge caller callee =>
      match g.addEdge caller callee with
      | .ok (h, _) => h
      | .error _ => g
  | .modify id change _ => g.modify id change
  | .induced ids => g.induced ids
  | .structureOnly => g.structureOnly

/-- The graph after a run of operations on the empty graph. -/
def after (operations : List Operation) : Graph :=
  operations.foldl apply empty

/-- A graph that some run of operations arrives at. -/
def Reachable (g : Graph) : Prop :=
  ∃ operations, after operations = g

variable {g : Graph}

/-- Every operation keeps a graph well-formed. -/
theorem WellFormed.apply (hg : g.WellFormed) (operation : Operation) :
    (g.apply operation).WellFormed := by
  cases operation with
  | addNode node => exact hg.addNode node
  | addEdge caller callee =>
    rw [Graph.apply]
    split
    · rename_i hadd
      exact hg.addEdge hadd
    · exact hg
  | modify id change keepsId => exact hg.modify keepsId id
  | induced ids => exact hg.induced ids
  | structureOnly => exact hg.structureOnly

/-- So does every run of operations, by induction on the run. -/
theorem WellFormed.foldl_apply (hg : g.WellFormed) (operations : List Operation) :
    (operations.foldl Graph.apply g).WellFormed := by
  induction operations generalizing g with
  | nil => exact hg
  | cons operation rest ih => exact ih (hg.apply operation)

/-- Every graph that can be reached is well-formed. -/
theorem Reachable.wellFormed (h : g.Reachable) : g.WellFormed := by
  obtain ⟨operations, rfl⟩ := h
  exact WellFormed.empty.foldl_apply operations

/-! ## Replacing a node -/

/-- Adding the node puts it in the place of the node with its id, and changes nothing else. -/
structure ReplacesNode (g : Graph) (node : Node) : Prop where
  index_eq : (g.addNode node).index = g.index
  arcs_eq : (g.addNode node).arcs = g.arcs
  edges_eq : (g.addNode node).edges = g.edges
  nodes_eq : ∃ place, g.indexOf? node.id = some place ∧
    (g.addNode node).nodes = g.nodes.set place node
  node?_self : (g.addNode node).node? node.id = some node
  node?_other : ∀ id, id ≠ node.id → (g.addNode node).node? id = g.node? id

/-- A node with a known id is replaced where it stands. -/
theorem WellFormed.replacesNode (hg : g.WellFormed) {node : Node}
    (h : g.contains node.id = true) : g.ReplacesNode node := by
  obtain ⟨place, hplace⟩ := contains_iff_indexOf?.1 h
  have hlt := hg.lt_of_indexOf? hplace
  have heq := addNode_of_indexOf?_eq_some hplace
  have hid : ∀ other, (g.addNode node).idAt other = g.idAt other := by
    intro other
    rw [heq]
    by_cases hother : place = other
    · subst hother
      rw [idAt_of_getElem? (List.getElem?_set_self hlt), hg.idAt_of_indexOf? hplace]
    · simp only [idAt, List.getElem?_set_ne hother]
  refine ⟨by rw [heq], by rw [heq], ?_, ⟨place, hplace, by rw [heq]⟩, ?_, ?_⟩
  · simp only [edges, arcs_addNode, hid]
  · rw [heq]
    change (g.indexOf? node.id).bind (fun other => (g.nodes.set place node)[other]?) = some node
    rw [hplace]
    exact List.getElem?_set_self hlt
  · intro id hne
    rw [heq]
    change (g.indexOf? id).bind (fun other => (g.nodes.set place node)[other]?) =
      (g.indexOf? id).bind (fun other => g.nodes[other]?)
    cases hother : g.indexOf? id with
    | none => rfl
    | some other =>
      refine List.getElem?_set_ne ?_
      rintro rfl
      exact hne (hg.eq_of_indexOf? hother hplace)

/-! ## Adding an edge -/

/-- Adding the edge succeeds exactly if both ends are in the graph, and tells whether the edge was
added; otherwise the first end that is missing is named, and nothing changes. -/
structure AddsEdge (g : Graph) (caller callee : String) : Prop where
  succeeds_iff : (∃ h new, g.addEdge caller callee = .ok (h, new)) ↔
    g.contains caller = true ∧ g.contains callee = true
  frame : ∀ {h new}, g.addEdge caller callee = .ok (h, new) →
    h.nodes = g.nodes ∧ h.index = g.index
  added_iff : ∀ {h new}, g.addEdge caller callee = .ok (h, new) →
    (new = true ↔ ⟨caller, callee⟩ ∉ g.edges) ∧
      (new = true ↔ h.edges = ⟨caller, callee⟩ :: g.edges) ∧ (new = false ↔ h = g)
  fails : ∀ {error}, g.addEdge caller callee = .error error →
    (error = .nodeNotFound caller ∧ g.contains caller = false ∨
      error = .nodeNotFound callee ∧ g.contains caller = true ∧ g.contains callee = false) ∧
      g.apply (.addEdge caller callee) = g

/-- The edges after a new one was added. -/
theorem WellFormed.edges_cons_arc (hg : g.WellFormed) {caller callee : String} {i j : Nat}
    (hi : g.indexOf? caller = some i) (hj : g.indexOf? callee = some j) :
    ({ g with arcs := ⟨i, j⟩ :: g.arcs } : Graph).edges = ⟨caller, callee⟩ :: g.edges := by
  have hcaller : g.idAt i = caller := hg.idAt_of_indexOf? hi
  have hcallee : g.idAt j = callee := hg.idAt_of_indexOf? hj
  subst hcaller hcallee
  rfl

/-- Whether an edge is new shows in the edges of the graph. -/
theorem WellFormed.addEdge_added_iff (hg : g.WellFormed) {caller callee : String} {h : Graph}
    {new : Bool} (hadd : g.addEdge caller callee = .ok (h, new)) :
    (new = true ↔ ⟨caller, callee⟩ ∉ g.edges) ∧
      (new = true ↔ h.edges = ⟨caller, callee⟩ :: g.edges) ∧ (new = false ↔ h = g) := by
  obtain ⟨i, j, hi, hj, ⟨rfl, hnew, rfl⟩ | ⟨rfl, hold, rfl⟩⟩ := addEdge_eq_ok hadd
  · have hnotMem : ⟨caller, callee⟩ ∉ g.edges := by
      rw [hg.mem_edges_iff, hasEdge_iff]
      rintro ⟨k, l, hk, hl, harc⟩
      rw [hi, Option.some.injEq] at hk
      rw [hj, Option.some.injEq] at hl
      exact hnew (hk ▸ hl ▸ harc)
    have hchanged : ({ g with arcs := ⟨i, j⟩ :: g.arcs } : Graph) ≠ g := by
      intro hsame
      have hlength := congrArg (fun graph => graph.arcs.length) hsame
      simp at hlength
    simp [hnotMem, hg.edges_cons_arc hi hj, hchanged]
  · have hmem : ⟨caller, callee⟩ ∈ h.edges :=
      hg.mem_edges_iff.2 (hasEdge_iff.2 ⟨i, j, hi, hj, hold⟩)
    simp [hmem]

/-- Adding an edge does what it tells. -/
theorem WellFormed.addsEdge (hg : g.WellFormed) (caller callee : String) :
    g.AddsEdge caller callee where
  succeeds_iff := by
    constructor
    · rintro ⟨h, new, hadd⟩
      obtain ⟨i, j, hi, hj, -⟩ := addEdge_eq_ok hadd
      exact ⟨contains_iff_indexOf?.2 ⟨i, hi⟩, contains_iff_indexOf?.2 ⟨j, hj⟩⟩
    · rintro ⟨hcaller, hcallee⟩
      exact exists_addEdge_eq_ok hcaller hcallee
  frame := by
    intro h new hadd
    obtain ⟨i, j, -, -, ⟨-, -, rfl⟩ | ⟨-, -, rfl⟩⟩ := addEdge_eq_ok hadd
    · exact ⟨rfl, rfl⟩
    · exact ⟨rfl, rfl⟩
  added_iff := hg.addEdge_added_iff
  fails := by
    intro error hadd
    exact ⟨addEdge_eq_error hadd, by rw [Graph.apply, hadd]⟩

/-! ## The representation after a run -/

/-- After every run of operations, the index, the nodes and the edges fit together. -/
theorem after_keeps_representation (operations : List Operation) :
    let g := after operations
    g.WellFormed ∧ (g.nodes.map (·.id)).Nodup ∧ g.index.size = g.nodeCount ∧
      (∀ node, g.contains node.id = true → g.ReplacesNode node) ∧
      ∀ caller callee, g.AddsEdge caller callee := by
  intro g
  have hg : g.WellFormed := Reachable.wellFormed ⟨operations, rfl⟩
  exact ⟨hg, hg.nodup_ids, hg.size_index, fun _ h => hg.replacesNode h, hg.addsEdge⟩

/-- A node that calls another one. -/
def oneCall : List Operation :=
  [.addNode ⟨"a", "A", "", .procedure, none, .empty⟩,
    .addNode ⟨"b", "B", "", .function, none, .empty⟩, .addEdge "a" "b"]

/-- A node that is added again is replaced and keeps its edge, an edge that is added again is not
new, an edge to a node that is missing fails, and the edge the other way round is new. -/
theorem after_oneCall_keeps_representation :
    let g := after oneCall
    let renamed : Node := ⟨"a", "Renamed", "", .package, none, .empty⟩
    (∃ place, g.indexOf? "a" = some place ∧
      (g.addNode renamed).nodes = g.nodes.set place renamed) ∧
      (g.addNode renamed).node? "a" = some renamed ∧
      (g.addNode renamed).node? "b" = g.node? "b" ∧
      (g.addNode renamed).edges = [⟨"a", "b"⟩] ∧
      g.addEdge "a" "b" = .ok (g, false) ∧
      g.addEdge "a" "c" = .error (.nodeNotFound "c") ∧ g.apply (.addEdge "a" "c") = g ∧
      ∃ h, g.addEdge "b" "a" = .ok (h, true) ∧ h.nodes = g.nodes ∧
        h.edges = [⟨"b", "a"⟩, ⟨"a", "b"⟩] := by
  intro g renamed
  obtain ⟨-, -, -, hreplaces, hadds⟩ := after_keeps_representation oneCall
  have hnode : g.ReplacesNode renamed := hreplaces renamed rfl
  have hedges : g.edges = [⟨"a", "b"⟩] := rfl
  have hagain : g.addEdge "a" "b" = .ok (g, false) := by
    obtain ⟨h, new, hadd⟩ := (hadds "a" "b").succeeds_iff.2 ⟨rfl, rfl⟩
    obtain ⟨hnew, -, hsame⟩ := (hadds "a" "b").added_iff hadd
    have hold : new = false := by
      rw [← Bool.not_eq_true, hnew, hedges]
      decide
    rw [hadd, hold, hsame.1 hold]
  have hmissing : g.addEdge "a" "c" = .error (.nodeNotFound "c") ∧
      g.apply (.addEdge "a" "c") = g := by
    cases hadd : g.addEdge "a" "c" with
    | ok result => cases ((hadds "a" "c").succeeds_iff.1 ⟨result.1, result.2, hadd⟩).2
    | error error =>
      obtain ⟨⟨-, habsent⟩ | ⟨rfl, -, -⟩, hsame⟩ := (hadds "a" "c").fails hadd
      · cases habsent
      · exact ⟨rfl, hsame⟩
  have hback : ∃ h, g.addEdge "b" "a" = .ok (h, true) ∧ h.nodes = g.nodes ∧
      h.edges = [⟨"b", "a"⟩, ⟨"a", "b"⟩] := by
    obtain ⟨h, new, hadd⟩ := (hadds "b" "a").succeeds_iff.2 ⟨rfl, rfl⟩
    obtain ⟨hnew, hcons, -⟩ := (hadds "b" "a").added_iff hadd
    have htrue : new = true := hnew.2 (by rw [hedges]; decide)
    exact ⟨h, htrue ▸ hadd, ((hadds "b" "a").frame hadd).1, hedges ▸ hcons.1 htrue⟩
  exact ⟨hnode.nodes_eq, hnode.node?_self, hnode.node?_other "b" (by decide),
    hnode.edges_eq.trans hedges, hagain, hmissing.1, hmissing.2, hback⟩

end Graph
end CallGraph
