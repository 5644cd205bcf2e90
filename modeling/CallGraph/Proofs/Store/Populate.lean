import CallGraph.Proofs.Construction.InputOrder
import CallGraph.Proofs.Files.Contents
import CallGraph.Proofs.Store.Contents
import CallGraph.Proofs.Store.Filling

/-!
# Graphs populated from the store they were built from

A graph that is saved without its code objects loses just what the store gives back: the nodes of a
built graph are those of accepted objects, which the store holds under their own ids, and everything
else about such a node comes from its object.

Main results:

- Theorem `ObjectStore.Holds.exists_populate`: which placeholders receive their code object.
- Theorem `Construction.populate_structureOnly`: a built graph without its code objects gets them
  back.
- Theorem `Graph.built_saved_loaded_populated`: so does one that was saved and loaded.
-/

namespace CallGraph

open ObjectStore InFiles

variable {σ : Type} [ObjectStore σ] {store : σ} {contents : MemoryStore}

/-- A placeholder receives the object that the store holds under its id; the ids of those for which
there is none are the gaps. -/
theorem ObjectStore.Holds.exists_populate (hstore : Holds store contents) {g : Graph}
    (hg : g.WellFormed) :
    ∃ found : Catalogue CodeObject.id,
      (∀ id ∈ g.placeholders, found.find? id = contents.find? id) ∧
      g.populate store = .ok ({ g with nodes := g.nodes.map (Graph.fill found) },
        let gaps := g.placeholders.filter fun id => (contents.find? id).isNone
        { requested := g.placeholders.length
          populated := g.placeholders.length - gaps.length
          gaps := gaps }) := by
  obtain ⟨found, hfound, hfind⟩ := hstore.exists_findAll g.placeholders
  have hsame : ∀ id ∈ g.placeholders, found.find? id = contents.find? id := fun id hid => by
    rw [hfind, if_pos hid]
  have hgaps : g.gaps found =
      g.placeholders.filter fun id => (contents.find? id).isNone :=
    List.filter_congr fun id hid => by
      rw [Catalogue.contains_eq_isSome_find?, hsame id hid, Option.not_isSome]
  refine ⟨found, hsame, ?_⟩
  rw [hg.populate_of_findAll hfound, hgaps]
  rfl

/-- A node that was left without its code object gets it back. -/
theorem Graph.fill_structureOnly {found : Catalogue CodeObject.id} {object : CodeObject}
    (h : found.find? object.id = some object) :
    fill found (Node.ofObject object).structureOnly = .ofObject object :=
  fill_of_find?_eq_some rfl h

/-! ## Built graphs -/

namespace Construction

/-- The ids of accepted objects are not empty. -/
theorem id_ne_of_mem_accepted {objects : List CodeObject} {object : CodeObject}
    (h : object ∈ accepted objects) : object.id ≠ "" := by
  obtain ⟨hblank, -⟩ := mem_accepted_iff_find?.1 h
  intro hempty
  rw [hempty] at hblank
  cases hblank

/-- An accepted object is what a store with the objects finds under its id. -/
theorem find?_of_mem_accepted {object : CodeObject} (h : object ∈ accepted contents.items) :
    contents.find? object.id = some object :=
  Catalogue.find?_eq_some_iff.2
    ⟨List.mem_of_find?_eq_some (mem_accepted_iff_find?.1 h).2.1, rfl⟩

/-- A built graph without its code objects gets them back from a store with the objects that it was
built from. -/
theorem populate_structureOnly (hstore : Holds store contents) {g : Graph} (hg : g.WellFormed)
    (hnodes : g.nodes = (accepted contents.items).map fun object =>
      (Node.ofObject object).structureOnly)
    (hedges : g.edges.Perm (ofObjects contents.items).graph.edges) :
    ∃ populated, g.populate store = .ok (populated,
        { requested := (ofObjects contents.items).graph.nodeCount
          populated := (ofObjects contents.items).graph.nodeCount
          gaps := [] }) ∧
      populated.same (ofObjects contents.items).graph = true := by
  have hbuilt := (draws_ofObjects contents.items).nodes
  obtain ⟨found, hfound, hpopulate⟩ := hstore.exists_populate hg
  have hnode : ∀ n ∈ g.nodes, ∃ object ∈ accepted contents.items,
      (Node.ofObject object).structureOnly = n := fun n hn => by
    rw [hnodes] at hn
    exact List.mem_map.1 hn
  have hgaps : g.placeholders.filter (fun id => (contents.find? id).isNone) = [] := by
    rw [List.filter_eq_nil_iff]
    intro id hid
    obtain ⟨n, hn, -, rfl⟩ := Graph.mem_placeholders_iff.1 hid
    obtain ⟨object, hobject, rfl⟩ := hnode n hn
    change ¬ (contents.find? object.id).isNone = true
    rw [find?_of_mem_accepted hobject]
    exact Bool.false_ne_true
  have hcount : g.placeholders.length = (ofObjects contents.items).graph.nodeCount := by
    have hempty : ∀ n ∈ g.nodes, (!n.isPopulated) = true := fun n hn => by
      obtain ⟨object, -, rfl⟩ := hnode n hn
      rfl
    rw [Graph.length_placeholders, List.countP_eq_length.2 hempty, hnodes, Graph.nodeCount, hbuilt,
      List.length_map, List.length_map]
  have hfilled : g.nodes.map (Graph.fill found) = (ofObjects contents.items).graph.nodes := by
    rw [hnodes, hbuilt, List.map_map]
    refine List.map_congr_left fun object hobject => Graph.fill_structureOnly ?_
    have hwanted : object.id ∈ g.placeholders := Graph.mem_placeholders_iff.2
      ⟨_, hnodes ▸ List.mem_map_of_mem hobject, rfl, rfl⟩
    rw [hfound _ hwanted, find?_of_mem_accepted hobject]
  have hids : (ofObjects contents.items).graph.nodes.map (·.id) = g.nodes.map (·.id) := by
    rw [hbuilt, hnodes, List.map_map, List.map_map]
    rfl
  refine ⟨{ g with nodes := (ofObjects contents.items).graph.nodes }, ?_, ?_⟩
  · rw [hpopulate, hgaps, hfilled, hcount]
    rfl
  · exact (hg.of_nodes hids).same_of_perm (List.Perm.refl _)
      (by rw [Graph.edges_of_nodes hids]; exact hedges)

/-- A file without code objects gives a built graph without its code objects. -/
theorem exists_ofFile (objects : List CodeObject) {savedAt : Instant} {format : Format}
    (h : savedAt.InCalendar)
    (hfits : (Document.ofGraph (ofObjects objects).graph .structureOnly savedAt).FitsInto format) :
    ∃ g, Graph.ofFile format
        ((Document.ofGraph (ofObjects objects).graph .structureOnly savedAt).write format) = .ok g ∧
      g.WellFormed ∧
      g.nodes = (accepted objects).map (fun object => (Node.ofObject object).structureOnly) ∧
      g.edges.Perm (ofObjects objects).graph.edges := by
  have hdraws := draws_ofObjects objects
  have hids : ∀ n ∈ (ofObjects objects).graph.nodes, n.id ≠ "" := by
    rw [hdraws.nodes]
    intro n hn
    obtain ⟨object, hobject, rfl⟩ := List.mem_map.1 hn
    exact id_ne_of_mem_accepted hobject
  obtain ⟨g, hg, hwell, hnodes, hedges⟩ :=
    (Document.describesGraph_ofGraph hdraws.wellFormed hids .structureOnly savedAt).exists_toGraph
  refine ⟨g, ?_, hwell, ?_, ?_⟩
  · have hrange : (Document.ofGraph (ofObjects objects).graph .structureOnly savedAt).InRange :=
      Document.inRange_ofGraph (fun hfull => nomatch hfull) h
    rw [Graph.ofFile_write hrange (Document.hasDetail_ofGraph _ _ _) rfl hfits, hg]
  · rw [hnodes, Document.ofGraph, sortedNodes_ofObjects, List.map_map, List.map_map]
    rfl
  · rw [hedges]
    exact (List.reverse_perm _).trans (Graph.perm_sortedEdges _)

end Construction

/-! ## From the store to a file and back -/

namespace Graph

/-- A graph is built from all objects of a store, saved without them, loaded from the file and
populated from the same store: it is the same graph again, and nothing is missing. -/
theorem built_saved_loaded_populated (format : Format) (path : String)
    (hstore : Holds store contents) {clock : Instant} (hclock : clock.InCalendar)
    {tree : FileTree} (hroot : tree.isDirectory [] = true) :
    ∃ built : Construction, build store true = .ok built ∧
      ((Document.ofGraph built.graph .structureOnly clock).FitsInto format →
        ∀ saved after, runAt clock tree (built.graph.save path format .structureOnly) =
            (.ok saved, after) →
          ∃ loaded populated stats,
            runAt clock after (load path format) = (.ok loaded, after) ∧
            loaded.populate store = .ok (populated, stats) ∧
            populated.same built.graph = true ∧
            stats.requested = built.graph.nodeCount ∧ stats.populated = built.graph.nodeCount ∧
            stats.gaps = []) := by
  have hbuild : build store true = .ok (.ofObjects contents.items) := by
    rw [build, hstore.load_eq]
    rfl
  refine ⟨_, hbuild, fun hfits saved after hsave => ?_⟩
  obtain ⟨loaded, hfile, hwell, hnodes, hedges⟩ :=
    Construction.exists_ofFile contents.items hclock hfits
  obtain ⟨populated, hpopulate, hsame⟩ :=
    Construction.populate_structureOnly hstore hwell hnodes hedges
  refine ⟨loaded, populated, _, ?_, hpopulate, hsame, rfl, rfl, rfl⟩
  rw [runAt_load_of_save hroot hsave, hfile]
  rfl

/-- Objects of which two have ids that differ only in case, and one has a blank id. -/
def alikeIds : List CodeObject :=
  [{ id := "b", name := "B", kind := .procedure, source := some "a;"
     calls := [{ callee := "a" }] },
    { id := "a", name := "lower", kind := .function },
    { id := "A", name := "upper", kind := .function },
    { id := " ", name := "blank", kind := .type }]

/-- Objects whose ids look alike come back from a file without them and the database. -/
theorem alikeIds_built_saved_loaded_populated :
    Holds (putAll Database.empty alikeIds) (putAll (.empty : MemoryStore) alikeIds) ∧
    ∃ built saved after loaded populated stats,
      build (putAll Database.empty alikeIds) true = .ok built ∧
      runAt .epoch .empty (built.graph.save "graph.json" .json .structureOnly) =
        (.ok saved, after) ∧
      runAt .epoch after (load "graph.json" .json) = (.ok loaded, after) ∧
      loaded.populate (putAll Database.empty alikeIds) = .ok (populated, stats) ∧
      populated.same built.graph = true ∧ stats.requested = built.graph.nodeCount ∧
      stats.gaps = [] := by
  have hrange : ∀ object ∈ alikeIds, object.InRange := by
    simp only [alikeIds, List.forall_mem_cons, CodeObject.InRange, List.not_mem_nil, false_imp_iff,
      implies_true, and_true]
    exact ⟨by decide, by decide, by decide⟩
  have hstore := (Database.mirrors_empty.putAll hrange).holds
  have hclock : Instant.epoch.InCalendar := ⟨by decide, by decide, by decide⟩
  have hroot : FileTree.empty.isDirectory [] = true := rfl
  obtain ⟨built, hbuild, hback⟩ :=
    built_saved_loaded_populated .json "graph.json" hstore hclock hroot
  have hreplace : FileTree.empty.replace "graph.json"
      ((Document.ofGraph built.graph .structureOnly .epoch).write .json) =
      (.directory [("graph.json", .file _)], true) := rfl
  obtain ⟨saved, hsave⟩ := Graph.save_iff_replace.2 hreplace
  obtain ⟨loaded, populated, stats, hload, hpopulate, hsame, hrequested, -, hgaps⟩ :=
    hback trivial saved _ hsave
  exact ⟨hstore, built, saved, _, loaded, populated, stats, hbuild, hsave, hload, hpopulate, hsame,
    hrequested, hgaps⟩

end Graph

end CallGraph
