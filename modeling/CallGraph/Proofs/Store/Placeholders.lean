import CallGraph.Proofs.Graph.Operations
import CallGraph.Proofs.Store.Populate

/-!
# What populating does to a graph

Populating gives a placeholder the object that the store has for it, and changes nothing else: ids,
edges, attributes and the nodes that have their object already stay as they are.  What is left are
the placeholders that the store does not know, and populating again changes nothing.

Main results:

- Definition `Graph.Populates`: what is done to nodes and edges, and what is left alone.
- Theorem `Graph.WellFormed.populates`: this is what filling the placeholders does.
- Theorem `Graph.WellFormed.populate_again`: a second time, nothing is done.
- Theorem `Graph.populate_fills_placeholders`: the same for graphs that can be reached, with the
  numbers that are answered and with stores that fail.
-/

namespace CallGraph

open ObjectStore

variable {σ : Type} [ObjectStore σ] {store : σ} {known : String → Option CodeObject}
  {g h : Graph} {found : Catalogue CodeObject.id}

namespace Graph

/-! ## What is done to a graph -/

/-- Ids, edges, attributes and nodes with a code object stay as they are.  A placeholder whose
object is known gets it, and its name, package and kind from it; any other placeholder is left
alone. -/
structure Populates (known : String → Option CodeObject) (g h : Graph) : Prop where
  nodeIds_eq : h.nodeIds = g.nodeIds
  edges_eq : h.edges = g.edges
  attributes_eq : ∀ id, (h.node? id).map (·.attributes) = (g.node? id).map (·.attributes)
  keeps : ∀ id node, g.node? id = some node → node.isPopulated = true → h.node? id = some node
  receives : ∀ id node object, g.node? id = some node → node.isPopulated = false →
    known id = some object → h.node? id = some { node with
      name := object.name
      packageName := object.packageName
      kind := object.kind
      object := some object }
  leaves : ∀ id node, g.node? id = some node → node.isPopulated = false → known id = none →
    h.node? id = some node

/-- This is what filling the placeholders does, if for each of them what is known was found. -/
theorem WellFormed.populates (hg : g.WellFormed)
    (hfound : ∀ id ∈ g.placeholders, found.find? id = known id) :
    Populates known g (g.mapNodes (fill found)) := by
  have hnode {id : String} {node : Node} (h : g.node? id = some node) :
      (g.mapNodes (fill found)).node? id = some (fill found node) := by
    rw [node?_mapNodes, h, Option.map_some]
  have hlookup {id : String} {node : Node} (h : g.node? id = some node)
      (hempty : node.isPopulated = false) : found.find? node.id = known id := by
    rw [(hg.node?_eq_some_iff.1 h).2]
    exact hfound id (hg.mem_placeholders_iff_node?.2 ⟨node, h, hempty⟩)
  refine ⟨rfl, edges_mapNodes (id_fill found) g, fun id => ?_, ?_, ?_, ?_⟩
  · rw [node?_mapNodes, Option.map_map]
    simp only [Function.comp_def, attributes_fill]
  · intro id node h hfull
    rw [hnode h, fill_of_isPopulated hfull]
  · intro id node object h hempty hobject
    rw [hnode h, fill_of_find?_eq_some hempty ((hlookup h hempty).trans hobject)]
    rfl
  · intro id node h hempty hmissing
    rw [hnode h, fill_of_find?_eq_none ((hlookup h hempty).trans hmissing)]

end Graph

/-- Whenever the store answers a request for several ids, it gives the object of each id that it
knows. -/
def ObjectStore.Gives (store : σ) (known : String → Option CodeObject) : Prop :=
  ∀ ids found, findAll store ids = .ok found → ∀ id ∈ ids, found.find? id = known id

/-- A store gives what it finds under single ids. -/
theorem ObjectStore.gives_of_find
    (hknown : ∀ id answer, find store id = .ok answer → answer = known id)
    (hid : ∀ id object, known id = some object → object.id = id) : Gives store known :=
  fun _ _ hfound id hmem => (find?_findAll hknown hid hfound id).trans (if_pos hmem)

/-- A store gives what it holds. -/
theorem ObjectStore.Holds.gives {contents : MemoryStore} (h : Holds store contents) :
    Gives store contents.find? :=
  gives_of_find (fun _ _ => h.eq_of_find) Catalogue.key_eq_of_find?

namespace Graph

/-- A graph that was populated is not changed if this is done again, and the store is asked for the
gaps alone. -/
theorem WellFormed.populate_again (hg : g.WellFormed) (hstore : Gives store known)
    (hfound : findAll store g.placeholders = .ok found) :
    (g.mapNodes (fill found)).populate store =
      .ok (g.mapNodes (fill found), ⟨(g.gaps found).length, 0, g.gaps found⟩) := by
  have hleft := hg.placeholders_fill found
  obtain ⟨again, hagain⟩ :
      ∃ again, findAll store (g.mapNodes (fill found)).placeholders = .ok again := by
    refine exists_findAll_iff.2 fun id hid => ?_
    rw [hleft, mem_gaps_iff] at hid
    exact exists_findAll_iff.1 ⟨found, hfound⟩ id hid.1
  have hmissing : ∀ id ∈ (g.mapNodes (fill found)).placeholders, again.find? id = none := by
    intro id hid
    rw [hstore _ _ hagain id hid]
    rw [hleft, mem_gaps_iff] at hid
    rw [← hstore _ _ hfound id hid.1, hid.2]
  have hnodes : (g.mapNodes (fill found)).mapNodes (fill again) = g.mapNodes (fill found) := by
    refine mapNodes_eq_self fun node hnode => ?_
    cases hfull : node.isPopulated with
    | true => exact fill_of_isPopulated hfull
    | false =>
      have hid := ((hg.mapNodes (id_fill found)).id_mem_placeholders_iff hnode).2 hfull
      exact fill_of_find?_eq_none (hmissing node.id hid)
  have hgaps : (g.mapNodes (fill found)).gaps again = g.gaps found := by
    rw [← hleft, gaps, List.filter_eq_self]
    intro id hid
    rw [Catalogue.contains_eq_isSome_find?, hmissing id hid]
    rfl
  rw [(hg.mapNodes (id_fill found)).populate_of_findAll hagain, hnodes, hgaps, hleft, Nat.sub_self]

/-- The placeholders of a graph that can be reached receive what the store gives, and nothing else
changes.  The others are counted and listed, and are all that is asked for when the graph is
populated again.  If the store fails, the graph stays as it is.  All this holds alike for a graph
that is populated in place. -/
theorem populate_fills_placeholders (hg : g.Reachable) (hstore : Gives store known) :
    (∀ found, findAll store g.placeholders = .ok found → ∃ h stats,
      g.populate store = .ok (h, stats) ∧ g.populateInPlace store = (.ok stats, h) ∧
      Populates known g h ∧
      stats.gaps.Pairwise (· < ·) ∧
      (∀ id, id ∈ stats.gaps ↔
        ∃ node, g.node? id = some node ∧ node.isPopulated = false ∧ known id = none) ∧
      stats.requested = stats.populated + stats.gaps.length ∧
      stats.requested = g.nodes.countP (!·.isPopulated) ∧
      h.placeholders = stats.gaps ∧
      h.populate store = .ok (h, ⟨stats.gaps.length, 0, stats.gaps⟩) ∧
      h.populateInPlace store = (.ok ⟨stats.gaps.length, 0, stats.gaps⟩, h)) ∧
    ∀ error, findAll store g.placeholders = .error error →
      g.populate store = .error error ∧ g.populateInPlace store = (.error error, g) := by
  have hwell := hg.wellFormed
  constructor
  · intro found hfound
    have hpopulate := hwell.populate_of_findAll hfound
    have hagain := hwell.populate_again hstore hfound
    refine ⟨_, _, hpopulate, ?_, hwell.populates (hstore _ _ hfound),
      hwell.pairwise_gaps found, fun id => ?_, ?_, length_placeholders g,
      hwell.placeholders_fill found, hagain, ?_⟩
    · rw [populateInPlace_eq, hpopulate]
    · rw [mem_gaps_iff]
      constructor
      · rintro ⟨hid, hmissing⟩
        obtain ⟨node, hnode, hempty⟩ := hwell.mem_placeholders_iff_node?.1 hid
        exact ⟨node, hnode, hempty, (hstore _ _ hfound id hid).symm.trans hmissing⟩
      · rintro ⟨node, hnode, hempty, hmissing⟩
        have hid := hwell.mem_placeholders_iff_node?.2 ⟨node, hnode, hempty⟩
        exact ⟨hid, (hstore _ _ hfound id hid).trans hmissing⟩
    · exact (Nat.sub_add_cancel (List.length_filter_le _ _)).symm
    · rw [populateInPlace_eq, hagain]
  · intro error hfault
    exact ⟨populate_of_findAll_eq_error hfault, populateInPlace_of_findAll_eq_error hfault⟩

/-- Objects of which one has another name in the graph, and one is in the graph already. -/
def renamed : List CodeObject :=
  [{ id := "known", name := "Known", packageName := "team", kind := .function },
    { id := "loaded", name := "other", kind := .package },
    { id := "damaged", name := "Damaged", kind := .type }]

/-- A database with these objects, one of which cannot be read. -/
def damaged : Database :=
  (putAll Database.empty renamed).overwrite "damaged" .overloaded "?"

/-- A node with its code object, a placeholder that is in the store, and one that is not. -/
def withGap : List Operation :=
  [.addNode (.ofObject { id := "loaded", name := "Loaded", kind := .procedure }),
    .addNode ⟨"known", "known", "", .unknown, none, .ofList [("role", "entry")]⟩,
    .addNode ⟨"gone", "Gone", "", .type, none, .empty⟩,
    .addEdge "known" "loaded", .addEdge "gone" "known"]

/-- The same with a placeholder whose object cannot be read. -/
def withDamaged : List Operation :=
  withGap ++ [.addNode ⟨"damaged", "Damaged", "", .type, none, .empty⟩]

/-- A gap stays, and an object that cannot be read leaves the graph as it is. -/
theorem populate_withGap_withDamaged :
    (after withGap).Reachable ∧ (after withDamaged).Reachable ∧
      Gives damaged (putAll (.empty : MemoryStore) renamed).find? ∧
      (∃ h stats, (after withGap).populate damaged = .ok (h, stats) ∧
        h.node? "known" = some ⟨"known", "Known", "team", .function, renamed[0]?,
          .ofList [("role", "entry")]⟩ ∧
        h.node? "loaded" = (after withGap).node? "loaded" ∧
        stats.requested = 2 ∧ stats.populated = 1 ∧ stats.gaps = ["gone"] ∧
        h.populate damaged = .ok (h, ⟨1, 0, ["gone"]⟩)) ∧
      ∃ error, (after withDamaged).populateInPlace damaged = (.error error, after withDamaged) := by
  have hreachable : (after withGap).Reachable := ⟨withGap, rfl⟩
  have hdamaged : (after withDamaged).Reachable := ⟨withDamaged, rfl⟩
  have hrange : ∀ object ∈ renamed, object.InRange := by
    simp only [renamed, List.forall_mem_cons, CodeObject.InRange, List.not_mem_nil, false_imp_iff,
      implies_true, and_true]
  have hholds := (Database.mirrors_empty.putAll hrange).holds
  have hfind : ∀ id, find damaged id = if id = "damaged" then .error .database
      else find (putAll Database.empty renamed) id := Database.find_overwrite rfl rfl
  have hgives : Gives damaged (putAll (.empty : MemoryStore) renamed).find? := by
    refine gives_of_find (fun id answer h => ?_) Catalogue.key_eq_of_find?
    rw [hfind] at h
    split at h
    · cases h
    · exact hholds.eq_of_find h
  refine ⟨hreachable, hdamaged, hgives, ?_, ?_⟩
  · have hwanted : ∀ id ∈ (after withGap).placeholders,
        ∃ answer, find damaged id = .ok answer := fun id hid => by
      obtain ⟨node, hnode, -, rfl⟩ := mem_placeholders_iff.1 hid
      have hreadable : ∀ node ∈ (after withGap).nodes, node.id ≠ "damaged" := by decide
      rw [hfind, if_neg (hreadable node hnode), hholds.find_eq]
      exact ⟨_, rfl⟩
    obtain ⟨found, hfound⟩ := exists_findAll_iff.2 hwanted
    obtain ⟨h, stats, hpopulate, -, hdone, hascending, hgaps, hsum, hrequested, -, hagain, -⟩ :=
      (populate_fills_placeholders hreachable hgives).1 found hfound
    have hmissing : ∀ node ∈ (after withGap).nodes, node.isPopulated = false →
        (putAll (.empty : MemoryStore) renamed).find? node.id = none → node.id = "gone" := by decide
    have hall : stats.gaps = ["gone"] := by
      refine hascending.eq_of_mem_iff (List.pairwise_singleton _ _) fun id => ?_
      rw [hgaps, List.mem_singleton]
      constructor
      · rintro ⟨node, hnode, hempty, hunknown⟩
        obtain ⟨hmem, rfl⟩ := hreachable.wellFormed.node?_eq_some_iff.1 hnode
        exact hmissing node hmem hempty hunknown
      · rintro rfl
        exact ⟨⟨"gone", "Gone", "", .type, none, .empty⟩, rfl, rfl, rfl⟩
    rw [hall] at hsum hagain
    have htwo : stats.requested = 2 := hrequested
    have hone : stats.populated = 1 := Nat.add_right_cancel (hsum.symm.trans htwo)
    exact ⟨h, stats, hpopulate, hdone.receives "known" _ _ rfl rfl rfl,
      hdone.keeps "loaded" _ rfl rfl, htwo, hone, hall, hagain⟩
  · cases hfound : findAll damaged (after withDamaged).placeholders with
    | error error =>
      exact ⟨error, ((populate_fills_placeholders hdamaged hgives).2 error hfound).2⟩
    | ok found =>
      have hwanted : "damaged" ∈ (after withDamaged).placeholders :=
        mem_placeholders_iff.2
          ⟨⟨"damaged", "Damaged", "", .type, none, .empty⟩, by decide, rfl, rfl⟩
      obtain ⟨answer, hanswer⟩ := exists_findAll_iff.1 ⟨found, hfound⟩ _ hwanted
      rw [hfind, if_pos rfl] at hanswer
      cases hanswer

end Graph

end CallGraph
