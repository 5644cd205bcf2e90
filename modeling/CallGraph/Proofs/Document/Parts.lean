import CallGraph.Proofs.Document.GexfParts
import CallGraph.Proofs.Document.GraphmlParts
import CallGraph.Proofs.Graph.Operations

/-!
# Graph files that break off

A graph file in XML that breaks off need not be refused.  The graphs that are loaded from its parts
are those of the first nodes, and those of all nodes and the first edges; a node that is loaded has
all of its data.  Only the file of a graph without nodes gives no other graph where it breaks off.

Main results:

- Theorem `Graph.loadedFromPart_iff`: the graphs that are loaded from parts of a file.
- Theorem `Graph.parts_of_xml_loaded`: the same for the file of a graph, with what is lost.
-/

namespace CallGraph

namespace Document.DescribesGraph

variable {doc : Document} {i j : Nat}

/-- The graph of the first nodes and edges has just these of the whole graph. -/
theorem exists_toGraph_cut (h : doc.DescribesGraph) {whole : Graph}
    (hwhole : doc.toGraph = .ok whole) (hij : j = 0 ∨ doc.nodes.length ≤ i) :
    ∃ loaded, (doc.cut i j).toGraph = .ok loaded ∧ loaded.nodes = whole.nodes.take i ∧
      loaded.edges.reverse = whole.edges.reverse.take j := by
  obtain ⟨g, hg, -, hnodes, hedges⟩ := h.exists_toGraph
  obtain rfl : g = whole := Except.ok.inj (hg.symm.trans hwhole)
  obtain ⟨loaded, hloaded, -, hfirst, hfirstEdges⟩ := (h.cut hij).exists_toGraph
  refine ⟨loaded, hloaded, ?_, ?_⟩
  · rw [hfirst, hnodes, ← List.map_take]
    rfl
  · rw [hfirstEdges, hedges, List.reverse_reverse, List.reverse_reverse]
    rfl

/-- Without nodes there is nothing to break off. -/
theorem cut_eq_self (h : doc.DescribesGraph) (hnone : doc.nodes = []) : doc.cut i j = doc := by
  have hedges : doc.edges = [] := by
    refine List.eq_nil_iff_forall_not_mem.2 fun e he => ?_
    have hcaller := (h.ends_mem e he).1
    rw [hnone] at hcaller
    exact absurd hcaller List.not_mem_nil
  rw [Document.cut, hnone, hedges, List.take_nil, List.take_nil, ← hnone, ← hedges]

end Document.DescribesGraph

namespace Graph

open Document

variable {g : Graph} {detail : Detail} {savedAt : Instant} {format : Format}

/-- Some part of the file, but not all of it, is loaded as this graph. -/
def LoadedFromPart (format : Format) (file : List UInt8) (g : Graph) : Prop :=
  ∃ part, part <+: file ∧ part ≠ file ∧ ofFile format part = .ok g

section Documents

variable {doc : Document} (hxml : format = .graphml ∨ format = .gexf) (h : doc.InRange)
  (hdetail : doc.HasDetail) (hversion : doc.formatVersion = currentVersion)
  (hfits : doc.FitsInto format)

include hxml h hdetail hversion hfits

/-- The graphs that are loaded from parts of a file are those of the first nodes and edges, as long
as no edge is left without all nodes. -/
theorem loadedFromPart_iff {loaded : Graph} :
    LoadedFromPart format (doc.write format) loaded ↔
      ∃ i j, (j = 0 ∨ doc.nodes.length ≤ i) ∧ (doc.cut i j).toGraph = .ok loaded := by
  rcases hxml with rfl | rfl
  · exact (Graphml.readsCuts h hdetail hversion hfits).exists_part_toGraph_iff
      (Xml.head?_document _)
  · exact (Gexf.readsCuts h.nodes_inRange hdetail hversion).exists_part_toGraph_iff
      (Xml.head?_document _)

/-- All parts that are loaded give the whole graph only if it has no nodes: otherwise some part is
loaded as a graph without nodes. -/
theorem loadedFromPart_eq_iff (hdescribes : doc.DescribesGraph) {whole : Graph}
    (hwhole : doc.toGraph = .ok whole) :
    (∀ loaded, LoadedFromPart format (doc.write format) loaded → loaded = whole) ↔
      doc.nodes = [] := by
  constructor
  · intro hall
    obtain ⟨loaded, hloaded, hfirst, -⟩ :=
      hdescribes.exists_toGraph_cut (i := 0) hwhole (.inl rfl)
    have hsame := hall loaded
      ((loadedFromPart_iff hxml h hdetail hversion hfits).2 ⟨0, 0, .inl rfl, hloaded⟩)
    obtain ⟨g, hg, -, hnodes, -⟩ := hdescribes.exists_toGraph
    rw [hwhole] at hg
    obtain rfl := Except.ok.inj hg
    rw [hsame, List.take_zero, hnodes] at hfirst
    exact List.map_eq_nil_iff.1 hfirst
  · intro hnone loaded hpart
    obtain ⟨i, j, -, hloaded⟩ := (loadedFromPart_iff hxml h hdetail hversion hfits).1 hpart
    rw [hdescribes.cut_eq_self hnone, hwhole] at hloaded
    exact (Except.ok.inj hloaded).symm

end Documents

/-- The file of a graph without empty id is loaded, and so are some of its parts: for every number
of nodes there is a part that is loaded as the graph of just the first nodes, and for every number
of edges one that is loaded as the graph of all nodes and just the first edges.  No part is loaded
as any other graph, and all of them give the graph of the whole file only if there are no nodes. -/
theorem parts_of_xml_loaded (hxml : format = .graphml ∨ format = .gexf) (hg : g.WellFormed)
    (hids : ∀ n ∈ g.nodes, n.id ≠ "") (hrange : ∀ n ∈ g.nodes, n.InRange)
    (hsavedAt : savedAt.InCalendar) (hfits : (ofGraph g detail savedAt).FitsInto format) :
    ∃ whole, ofFile format ((ofGraph g detail savedAt).write format) = .ok whole ∧
      whole.nodes.Perm (g.nodes.map (atDetail detail)) ∧ whole.edges.Perm g.edges ∧
      (∀ loaded, LoadedFromPart format ((ofGraph g detail savedAt).write format) loaded ↔
        ∃ i j, (j = 0 ∨ g.nodes.length ≤ i) ∧
          ((ofGraph g detail savedAt).cut i j).toGraph = .ok loaded) ∧
      (∀ i j, (j = 0 ∨ g.nodes.length ≤ i) → ∃ loaded,
        ((ofGraph g detail savedAt).cut i j).toGraph = .ok loaded ∧
        loaded.nodes = whole.nodes.take i ∧ loaded.edges.reverse = whole.edges.reverse.take j) ∧
      ((∀ loaded, LoadedFromPart format ((ofGraph g detail savedAt).write format) loaded →
          loaded = whole) ↔ g.nodes = []) := by
  have hdescribes := describesGraph_ofGraph hg hids detail savedAt
  have hinRange : (ofGraph g detail savedAt).InRange := inRange_ofGraph (fun _ => hrange) hsavedAt
  have hdetail := hasDetail_ofGraph g detail savedAt
  have hperm : (ofGraph g detail savedAt).nodes.Perm (g.nodes.map (atDetail detail)) :=
    (perm_sortedNodes g).map _
  have hlength : g.nodes.length = (ofGraph g detail savedAt).nodes.length := by
    rw [hperm.length_eq, List.length_map]
  obtain ⟨whole, hwhole, -, hnodes, hedges⟩ := hdescribes.exists_toGraph
  have hwholeNodes : whole.nodes.Perm (g.nodes.map (atDetail detail)) := by
    have hagain : (g.nodes.map (atDetail detail)).map (atDetail detail) =
        g.nodes.map (atDetail detail) := by
      rw [List.map_map]
      exact List.map_congr_left fun n _ => atDetail_atDetail detail n
    rw [hnodes, ← hagain]
    exact hperm.map _
  have hwholeEdges : whole.edges.Perm g.edges := by
    rw [hedges]
    exact (List.reverse_perm _).trans (perm_sortedEdges g)
  rw [hlength, ← List.length_eq_zero_iff, hlength, List.length_eq_zero_iff]
  exact ⟨whole, (ofFile_write hinRange hdetail rfl hfits).trans hwhole, hwholeNodes, hwholeEdges,
    fun _ => loadedFromPart_iff hxml hinRange hdetail rfl hfits,
    fun _ _ => hdescribes.exists_toGraph_cut hwhole,
    loadedFromPart_eq_iff hxml hinRange hdetail rfl hfits hdescribes hwhole⟩

/-- A procedure of a team that calls another one. -/
def teamPair : Graph :=
  after [
    .addNode {
      id := "a", name := "A", packageName := "", kind := .procedure
      attributes := TextMap.empty.insert "team" "core" },
    .addNode { id := "b", name := "B", packageName := "", kind := .procedure },
    .addEdge "a" "b"]

/-- Where the file of two nodes breaks off, the first one is loaded without the second one and
without their edge. -/
theorem teamPair_loaded_from_part :
    ∃ whole loaded,
      ofFile .graphml ((ofGraph teamPair .full .epoch).write .graphml) = .ok whole ∧
      whole.nodes.length = 2 ∧ whole.edges = [⟨"a", "b"⟩] ∧
      LoadedFromPart .graphml ((ofGraph teamPair .full .epoch).write .graphml) loaded ∧
      loaded.nodes.length = 1 ∧ loaded.edges = [] := by
  have hwell : teamPair.WellFormed := Reachable.wellFormed ⟨_, rfl⟩
  have hids : ∀ n ∈ teamPair.nodes, n.id ≠ "" := by decide
  have hobject : ∀ n ∈ teamPair.nodes, n.object = none := by decide
  have hrange : ∀ n ∈ teamPair.nodes, n.InRange := by
    intro n hn object hmem
    rw [hobject n hn] at hmem
    cases hmem
  have hsavedAt : Instant.epoch.InCalendar := ⟨by decide, by decide, by decide⟩
  have hfits : (ofGraph teamPair .full .epoch).FitsInto .graphml := by
    change 0 ≤ Instant.epoch.date.year ∧ Instant.epoch.date.year ≤ 9999
    decide
  obtain ⟨whole, hfile, hnodes, hedges, hparts, hcut, -⟩ :=
    parts_of_xml_loaded (.inl rfl) hwell hids hrange hsavedAt hfits
  obtain ⟨loaded, hloaded, hfirst, hnone⟩ := hcut 1 0 (.inl rfl)
  have htwo : whole.nodes.length = 2 := hnodes.length_eq
  refine ⟨whole, loaded, hfile, htwo, hedges.eq_singleton,
    (hparts loaded).2 ⟨1, 0, .inl rfl, hloaded⟩, ?_, ?_⟩
  · rw [hfirst, List.length_take, htwo]
    rfl
  · simpa using hnone

end Graph

end CallGraph
