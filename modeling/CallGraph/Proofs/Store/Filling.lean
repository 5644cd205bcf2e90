import CallGraph.Proofs.Data.Catalogue
import CallGraph.Proofs.Graph.Equality
import CallGraph.Proofs.Graph.Nodes
import CallGraph.Store.Populate

/-!
# Placeholders filled in place

A graph is populated where it is: the placeholders are gone through in the order of their ids, the
object of each is taken out of what the store has found, and is attached to the node that the index
leads to.  Since no two nodes have one id, each object meets the node that it was looked for, and
the loop does the same as a change of all nodes at once, which gives each placeholder its object.

Main results:

- Definition `Graph.fill`: a node with its object, if it has none and there is one.
- Definition `Populating.Follows`: where the loop over the placeholders stands.
- Theorem `Populating.Follows.step`: what one placeholder adds to it.
- Theorem `Graph.WellFormed.populate_of_findAll`: all placeholders are filled at once.
- Theorem `Graph.populateInPlace_eq`: what becomes of the graph itself, also if the store fails.
-/

namespace CallGraph

open ObjectStore

variable {σ : Type} [ObjectStore σ] {store : σ} {g : Graph} {found : Catalogue CodeObject.id}

namespace Graph

/-! ## Filled nodes -/

/-- The node with the object of its id, if it is a placeholder and there is one. -/
def fill (found : Catalogue CodeObject.id) (node : Node) : Node :=
  if node.isPopulated then node
  else match found.find? node.id with
    | some object => node.attach object
    | none => node

/-- A node whose object is loaded is left as it is. -/
theorem fill_of_isPopulated {node : Node} (h : node.isPopulated = true) : fill found node = node :=
  if_pos h

/-- A node whose object is not found is left as it is. -/
theorem fill_of_find?_eq_none {node : Node} (h : found.find? node.id = none) :
    fill found node = node := by
  rw [fill, h]
  exact ite_self node

/-- A placeholder whose object is found receives it. -/
theorem fill_of_find?_eq_some {node : Node} {object : CodeObject}
    (hplaceholder : node.isPopulated = false) (h : found.find? node.id = some object) :
    fill found node = node.attach object := by
  rw [fill, hplaceholder, h]
  exact if_neg Bool.false_ne_true

/-- A node is left as it is, or has an object attached. -/
theorem fill_cases (found : Catalogue CodeObject.id) (node : Node) :
    fill found node = node ∨ ∃ object, fill found node = node.attach object := by
  cases hnode : node.isPopulated with
  | true => exact .inl (fill_of_isPopulated hnode)
  | false =>
    cases hobject : found.find? node.id with
    | none => exact .inl (fill_of_find?_eq_none hobject)
    | some object => exact .inr ⟨object, fill_of_find?_eq_some hnode hobject⟩

/-- A node that is filled keeps its id. -/
@[simp]
theorem id_fill (found : Catalogue CodeObject.id) (node : Node) :
    (fill found node).id = node.id := by
  rcases fill_cases found node with h | ⟨object, h⟩
  · rw [h]
  · rw [h, Node.attach]

/-- A node that is filled keeps its attributes. -/
@[simp]
theorem attributes_fill (found : Catalogue CodeObject.id) (node : Node) :
    (fill found node).attributes = node.attributes := by
  rcases fill_cases found node with h | ⟨object, h⟩
  · rw [h]
  · rw [h, Node.attach]

/-- The nodes that stay placeholders are those whose object is not found. -/
theorem isPopulated_fill_eq_false_iff {node : Node} : (fill found node).isPopulated = false ↔
    node.isPopulated = false ∧ found.find? node.id = none := by
  cases hnode : node.isPopulated with
  | true =>
    rw [fill_of_isPopulated hnode, hnode]
    simp
  | false =>
    cases hobject : found.find? node.id with
    | none =>
      rw [fill_of_find?_eq_none hobject, hnode]
      simp
    | some object =>
      rw [fill_of_find?_eq_some hnode hobject]
      simp [Node.isPopulated, Node.attach]

/-! ## Placeholders -/

/-- The placeholders are the ids of the nodes without code object. -/
theorem mem_placeholders_iff {id : String} :
    id ∈ g.placeholders ↔ ∃ n ∈ g.nodes, n.isPopulated = false ∧ n.id = id := by
  simp [placeholders, (perm_sortedNodes g).mem_iff, and_assoc]

/-- There are as many placeholders as nodes without code object. -/
theorem length_placeholders (g : Graph) :
    g.placeholders.length = g.nodes.countP (!·.isPopulated) := by
  rw [placeholders, List.length_map, ← List.countP_eq_length_filter,
    (perm_sortedNodes g).countP_eq]

/-- A placeholder is found under its id as a node without code object. -/
theorem WellFormed.mem_placeholders_iff_node? (hg : g.WellFormed) {id : String} :
    id ∈ g.placeholders ↔ ∃ node, g.node? id = some node ∧ node.isPopulated = false := by
  simp only [mem_placeholders_iff, hg.node?_eq_some_iff]
  exact exists_congr fun node => by rw [and_right_comm, and_assoc]

/-- Ids are unique, so a node whose id is that of a placeholder is the placeholder. -/
theorem WellFormed.id_mem_placeholders_iff (hg : g.WellFormed) {node : Node}
    (hnode : node ∈ g.nodes) : node.id ∈ g.placeholders ↔ node.isPopulated = false := by
  have hfound : g.node? node.id = some node := hg.node?_eq_some_iff.2 ⟨hnode, rfl⟩
  simp [hg.mem_placeholders_iff_node?, hfound]

/-- Placeholders are listed once each, in ascending order. -/
theorem WellFormed.pairwise_placeholders (hg : g.WellFormed) :
    g.placeholders.Pairwise (· < ·) := by
  have hstrict : (g.sortedNodes.map (·.id)).Pairwise (· < ·) :=
    List.pairwise_map.2 hg.pairwise_sortedNodes
  exact hstrict.sublist (List.filter_sublist.map _)

/-- The ids of the placeholders for which nothing was found, in ascending order. -/
def gaps (g : Graph) (found : Catalogue CodeObject.id) : List String :=
  g.placeholders.filter (!found.contains ·)

/-- The gaps are the placeholders for which nothing was found. -/
theorem mem_gaps_iff {id : String} :
    id ∈ g.gaps found ↔ id ∈ g.placeholders ∧ found.find? id = none := by
  rw [gaps, List.mem_filter, Catalogue.contains_eq_isSome_find?, Bool.not_eq_true',
    Option.isSome_eq_false_iff, Option.isNone_iff_eq_none]

/-- Gaps are listed once each, in ascending order. -/
theorem WellFormed.pairwise_gaps (hg : g.WellFormed) (found : Catalogue CodeObject.id) :
    (g.gaps found).Pairwise (· < ·) :=
  hg.pairwise_placeholders.filter _

/-- The placeholders that are left are those for which nothing was found. -/
theorem WellFormed.placeholders_fill (hg : g.WellFormed) (found : Catalogue CodeObject.id) :
    (g.mapNodes (fill found)).placeholders = g.gaps found := by
  have hfilled := hg.mapNodes (id_fill found)
  refine hfilled.pairwise_placeholders.eq_of_mem_iff (hg.pairwise_gaps found) fun id => ?_
  rw [mem_gaps_iff, mem_placeholders_iff, mem_placeholders_iff]
  constructor
  · rintro ⟨_, hfilled, hempty, rfl⟩
    obtain ⟨node, hnode, rfl⟩ := List.mem_map.1 hfilled
    obtain ⟨hplaceholder, hmissing⟩ := isPopulated_fill_eq_false_iff.1 hempty
    rw [id_fill]
    exact ⟨⟨node, hnode, hplaceholder, rfl⟩, hmissing⟩
  · rintro ⟨⟨node, hnode, hplaceholder, rfl⟩, hmissing⟩
    exact ⟨fill found node, List.mem_map_of_mem hnode,
      isPopulated_fill_eq_false_iff.2 ⟨hplaceholder, hmissing⟩, id_fill found node⟩

/-- Filling the nodes whose ids are those of placeholders fills all nodes. -/
theorem WellFormed.fill_placeholders (hg : g.WellFormed) (found : Catalogue CodeObject.id) :
    (g.mapNodes fun node => if node.id ∈ g.placeholders then fill found node else node) =
      g.mapNodes (fill found) := by
  refine mapNodes_congr fun node hnode => ?_
  split
  · rfl
  · rename_i hfull
    rw [hg.id_mem_placeholders_iff hnode, Bool.not_eq_false] at hfull
    exact (fill_of_isPopulated hfull).symm

/-- A placeholder receives its object or is a gap. -/
theorem countP_placeholders (g : Graph) (found : Catalogue CodeObject.id) :
    g.placeholders.countP (found.contains ·) =
      g.placeholders.length - (g.gaps found).length := by
  have htotal : g.placeholders.length =
      g.placeholders.countP (found.contains ·) + (g.gaps found).length := by
    simpa [gaps, List.countP_eq_length_filter] using
      List.length_eq_countP_add_countP (found.contains ·) (l := g.placeholders)
  omega

end Graph

/-! ## The loop -/

namespace Populating

variable {done ids : List String} {id : String} {s : Populating}

/-- After the ids in `done`, the nodes with these ids are filled, and nothing that was found for
them is left. -/
structure Follows (g : Graph) (found : Catalogue CodeObject.id) (done : List String)
    (s : Populating) : Prop where
  graph_eq : s.graph = g.mapNodes fun node =>
    if node.id ∈ done then Graph.fill found node else node
  find?_eq : ∀ id, s.found.find? id = if id ∈ done then none else found.find? id
  populated_eq : s.populated = done.countP (found.contains ·)
  gaps_eq : s.gaps = done.filter (!found.contains ·)

/-- Before the first id, nothing is done. -/
theorem follows_start (g : Graph) (found : Catalogue CodeObject.id) :
    Follows g found [] (.start g found) where
  graph_eq := (Graph.mapNodes_eq_self fun _ _ => if_neg List.not_mem_nil).symm
  find?_eq _ := (if_neg List.not_mem_nil).symm
  populated_eq := rfl
  gaps_eq := rfl

/-- Whatever nodes are filled, ids stay as they are. -/
theorem id_fillDone (node : Node) :
    (if node.id ∈ done then Graph.fill found node else node).id = node.id := by
  split
  · exact Graph.id_fill found node
  · rfl

/-- The node that is changed is the one with the id, and it was not filled before. -/
theorem Follows.graph_modify (hg : g.WellFormed) (hs : Follows g found done s)
    (hid : id ∈ g.placeholders) (hnew : id ∉ done) {object : CodeObject}
    (hobject : found.find? id = some object) :
    s.graph.modify id (·.attach object) = g.mapNodes fun node =>
      if node.id ∈ done ++ [id] then Graph.fill found node else node := by
  rw [hs.graph_eq, (hg.mapNodes id_fillDone).modify_eq_mapNodes, Graph.mapNodes_mapNodes]
  refine Graph.mapNodes_congr fun node hnode => ?_
  by_cases hsame : node.id = id
  · subst hsame
    have hempty : node.isPopulated = false := (hg.id_mem_placeholders_iff hnode).1 hid
    simp [hnew, Graph.fill_of_find?_eq_some hempty hobject]
  · simp [hsame, id_fillDone]

/-- Taking out the object of an id leaves those of the ids that are not done yet. -/
theorem find?_erase_done (hs : Follows g found done s) (id other : String) :
    (s.found.erase id).find? other =
      if other ∈ done ++ [id] then none else found.find? other := by
  rw [Catalogue.find?_erase, hs.find?_eq]
  by_cases hsame : id = other
  · simp [hsame]
  · simp [hsame, Ne.symm hsame]

/-- One placeholder more is filled, or is one gap more. -/
theorem Follows.step (hg : g.WellFormed) (hs : Follows g found done s) (hid : id ∈ g.placeholders)
    (hnew : id ∉ done) : Follows g found (done ++ [id]) (s.step id) := by
  have hleft : s.found.find? id = found.find? id := by rw [hs.find?_eq, if_neg hnew]
  have hnode : ∃ node, s.graph.node? id = some node := by
    obtain ⟨node, hnode, -⟩ := hg.mem_placeholders_iff_node?.1 hid
    rw [hs.graph_eq, Graph.node?_mapNodes, hnode]
    exact ⟨_, rfl⟩
  obtain ⟨node, hnode⟩ := hnode
  cases hobject : found.find? id with
  | some object =>
    have hcontains : found.contains id = true := by
      rw [Catalogue.contains_eq_isSome_find?, hobject, Option.isSome_some]
    have hstep : s.step id =
        ⟨s.graph.modify id (·.attach object), s.found.erase id, s.populated + 1, s.gaps⟩ := by
      simp only [Populating.step, hleft, hobject, hnode]
    rw [hstep]
    refine ⟨hs.graph_modify hg hid hnew hobject, find?_erase_done hs id, ?_, ?_⟩
    · simp [hs.populated_eq, hcontains]
    · simp [hs.gaps_eq, hcontains]
  | none =>
    have hcontains : found.contains id = false := by
      rw [Catalogue.contains_eq_isSome_find?, hobject, Option.isSome_none]
    have hstep : s.step id = ⟨s.graph, s.found.erase id, s.populated, s.gaps ++ [id]⟩ := by
      simp only [Populating.step, hleft, hobject]
    rw [hstep]
    refine ⟨?_, find?_erase_done hs id, ?_, ?_⟩
    · -- The node with this id is a placeholder that nothing was found for.
      rw [hs.graph_eq]
      refine Graph.mapNodes_congr fun node _ => ?_
      by_cases hsame : node.id = id
      · subst hsame
        rw [Graph.fill_of_find?_eq_none hobject, ite_self, ite_self]
      · simp [hsame]
    · simp [hs.populated_eq, hcontains]
    · simp [hs.gaps_eq, hcontains]

/-- Each placeholder in turn is filled, or is one gap more. -/
theorem Follows.foldl (hg : g.WellFormed) (hs : Follows g found done s)
    (hids : ∀ id ∈ ids, id ∈ g.placeholders) (hnodup : (done ++ ids).Nodup) :
    Follows g found (done ++ ids) (ids.foldl Populating.step s) := by
  induction ids generalizing done s with
  | nil => simpa using hs
  | cons id rest ih =>
    obtain ⟨hid, hrest⟩ := List.forall_mem_cons.1 hids
    rw [List.append_cons] at hnodup ⊢
    have hnew : id ∉ done := fun hold =>
      (List.nodup_append.1 (List.nodup_append.1 hnodup).1).2.2 id hold id (by simp) rfl
    exact ih (hs.step hg hid hnew) hrest hnodup

end Populating

/-! ## Whole graphs -/

namespace Graph

/-- If the store answers, all placeholders of the graph are filled. -/
theorem WellFormed.populateInPlace_of_findAll (hg : g.WellFormed)
    (h : findAll store g.placeholders = .ok found) :
    g.populateInPlace store =
      (.ok ⟨g.placeholders.length, g.placeholders.length - (g.gaps found).length, g.gaps found⟩,
        g.mapNodes (fill found)) := by
  rw [populateInPlace, h]
  dsimp only
  split
  · rename_i hnone
    have hempty : g.placeholders = [] := List.isEmpty_iff.1 hnone
    have hgaps : g.gaps found = [] := by rw [gaps, hempty, List.filter_nil]
    rw [← hg.fill_placeholders, hgaps, hempty,
      mapNodes_eq_self fun _ _ => if_neg List.not_mem_nil]
    rfl
  · have hlast := (Populating.follows_start g found).foldl hg (fun id hid => hid)
      (hg.pairwise_placeholders.imp fun hab => ne_of_lt hab)
    simp only [hlast.graph_eq, hlast.populated_eq, hlast.gaps_eq, List.nil_append,
      hg.fill_placeholders, countP_placeholders, gaps]

/-- If the store fails, nothing is done to the graph. -/
theorem populateInPlace_of_findAll_eq_error {error : StoreError}
    (h : findAll store g.placeholders = .error error) :
    g.populateInPlace store = (.error error, g) := by
  rw [populateInPlace, h]
  refine if_neg fun hnone => ?_
  -- Without placeholders the store is not asked, and so it does not fail.
  rw [List.isEmpty_iff.1 hnone] at h
  cases h

/-- If the store answers, the graph is given back with all placeholders filled. -/
theorem WellFormed.populate_of_findAll (hg : g.WellFormed)
    (h : findAll store g.placeholders = .ok found) :
    g.populate store = .ok (g.mapNodes (fill found),
      { requested := g.placeholders.length
        populated := g.placeholders.length - (g.gaps found).length
        gaps := g.gaps found }) := by
  rw [populate, hg.populateInPlace_of_findAll h]

/-- If the store fails, so does populating. -/
theorem populate_of_findAll_eq_error {error : StoreError}
    (h : findAll store g.placeholders = .error error) : g.populate store = .error error := by
  rw [populate, populateInPlace_of_findAll_eq_error h]

/-- A graph that is populated in place becomes the graph that is given back, or stays as it is. -/
theorem populateInPlace_eq (g : Graph) (store : σ) :
    g.populateInPlace store =
      match g.populate store with
      | .ok (h, stats) => (.ok stats, h)
      | .error error => (.error error, g) := by
  cases hfound : findAll store g.placeholders with
  | error error =>
    rw [populateInPlace_of_findAll_eq_error hfound, populate_of_findAll_eq_error hfound]
  | ok found =>
    rw [populate, populateInPlace, hfound]
    dsimp only
    split
    · rfl
    · rfl

end Graph

end CallGraph
