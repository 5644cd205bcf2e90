import CallGraph.Proofs.Document.Cuts
import CallGraph.Proofs.Document.Graphml
import CallGraph.Proofs.Document.Openings

/-!
# GraphML documents that break off

A reader of GraphML only ever adds to what it has read, and does not ask at the end whether all
elements are closed.  Where a document breaks off, it has therefore read the first nodes and edges
of the document; edges only after all nodes, and nodes only after all that is written of the
document as a whole.  What it makes of them is a document.

Main results:

- Theorem `Graphml.Reading.grows_step`: an event does not take back what has been read.
- Theorem `Graphml.Reading.foldlM_eventsUpTo`: what has been read where the nodes or edges break
  off.
- Theorem `Graphml.readsCuts`: what a reader makes of documents that break off.
-/

namespace CallGraph

namespace Graphml

open Xml

namespace Reading

variable {r s : Reading}

/-! ## Growing -/

/-- The second reading has all data of the graph, nodes and edges of the first, and perhaps later
ones. -/
structure Grows (r s : Reading) : Prop where
  graphData : r.graphData <:+ s.graphData
  nodes : r.nodes <:+ s.nodes
  edges : r.edges <:+ s.edges

namespace Grows

/-- A reader with the same data, nodes and edges has grown. -/
theorem of_eq (hgraphData : r.graphData = s.graphData) (hnodes : r.nodes = s.nodes)
    (hedges : r.edges = s.edges) : r.Grows s :=
  ⟨hgraphData ▸ List.suffix_refl _, hnodes ▸ List.suffix_refl _, hedges ▸ List.suffix_refl _⟩

/-- Growing goes on from reader to reader. -/
theorem trans {t : Reading} (h : r.Grows s) (hnext : s.Grows t) : r.Grows t :=
  ⟨h.graphData.trans hnext.graphData, h.nodes.trans hnext.nodes, h.edges.trans hnext.edges⟩

/-- A reader with one node more has grown. -/
theorem addNode (n : Node) (hgraphData : r.graphData = s.graphData)
    (hnodes : n :: r.nodes = s.nodes) (hedges : r.edges = s.edges) : r.Grows s :=
  ⟨hgraphData ▸ List.suffix_refl _, hnodes ▸ List.suffix_cons _ _, hedges ▸ List.suffix_refl _⟩

end Grows

theorem grows_store (r : Reading) (key value : String) : r.Grows (r.store key value) := by
  rw [store]
  split
  · exact .of_eq rfl rfl rfl
  · exact ⟨List.suffix_cons _ _, List.suffix_refl _, List.suffix_refl _⟩

/-- A start tag loses nothing that was read. -/
theorem grows_openElement {tag : Tag} {isEmpty : Bool}
    (h : r.openElement tag isEmpty = .ok s) : r.Grows s := by
  cases opened_of_openElement h with
  | root | key | openNode | openData | other => exact .of_eq rfl rfl rfl
  | emptyNode => exact .addNode _ rfl rfl rfl
  | edge => exact ⟨List.suffix_refl _, List.suffix_refl _, List.suffix_cons _ _⟩
  | emptyData => exact grows_store r _ ""

/-- Neither does an end tag. -/
theorem grows_closeElement {name : List UInt8} (h : r.closeElement name = .ok s) : r.Grows s := by
  simp only [closeElement] at h
  split at h
  · split at h
    · have hclosed : r.Grows { r with openData := none } := .of_eq rfl rfl rfl
      cases h
      exact hclosed.trans (grows_store _ _ _)
    · cases h
      exact .of_eq rfl rfl rfl
  split at h
  · split at h
    · obtain ⟨n, -, hadd⟩ := bind_eq_ok.1 h
      cases hadd
      exact .addNode n rfl rfl rfl
    · cases h
      exact .of_eq rfl rfl rfl
  · cases h
    exact .of_eq rfl rfl rfl

theorem grows_addText (r : Reading) (text : String) : r.Grows (r.addText text) := by
  rw [addText]
  split <;> exact .of_eq rfl rfl rfl

/-- An event does not take back what has been read. -/
theorem grows_step {event : Event} (h : r.step event = .ok s) : r.Grows s := by
  cases event with
  | start tag => exact grows_openElement h
  | empty tag => exact grows_openElement h
  | finish name => exact grows_closeElement h
  | text bytes =>
    rw [step] at h
    split at h
    · cases h
      exact grows_addText r _
    · cases h
  | verbatim bytes =>
    cases h
    exact grows_addText r _
  | other =>
    cases h
    exact .of_eq rfl rfl rfl
  | fault => cases h

/-- What is read of more events has grown. -/
theorem grows_foldlM {first more : List Event} (hbegin : first <+: more)
    (hfirst : first.foldlM step ({} : Reading) = .ok r)
    (hmore : more.foldlM step ({} : Reading) = .ok s) : r.Grows s :=
  foldlM_monotone (fun _ => .of_eq rfl rfl rfl) Grows.trans grows_step hbegin hfirst hmore

end Reading

/-! ## Elements that break off -/

variable {doc : Document}

/-- The events of a document as far as some elements in its graph. -/
def eventsUpTo (doc : Document) (elements : List Element) : List Event :=
  .other :: lineEvent 0 ::
    .start (tag "graphml" [("xmlns", "http://graphml.graphdrawing.org/xmlns")]) ::
      (Element.allEvents 1 ((declarations doc).map fun entry => key entry.1 entry.2.1 entry.2.2) ++
        lineEvent 1 :: .start (tag "graph" [("id", "callgraph"), ("edgedefault", "directed")]) ::
          Element.allEvents 2 elements)

/-- They are the first events of the document, but not all of them. -/
theorem eventsUpTo_breaksOff {elements : List Element} (h : elements <+: graphElements doc) :
    eventsUpTo doc elements <+: scan (write doc) ∧ eventsUpTo doc elements ≠ scan (write doc) := by
  have hroot : Element.allEvents 1 ((declarations doc).map
        fun entry => key entry.1 entry.2.1 entry.2.2) ++
      lineEvent 1 :: .start (tag "graph" [("id", "callgraph"), ("edgedefault", "directed")]) ::
        Element.allEvents 2 elements <+:
      Element.allEvents 1 ((declarations doc).map (fun entry => key entry.1 entry.2.1 entry.2.2) ++
        [.group "graph" [("id", "callgraph"), ("edgedefault", "directed")]
          (graphElements doc)]) := by
    rw [Element.allEvents_append, List.prefix_append_right_inj, Element.allEvents,
      Element.allEvents, List.append_nil]
    exact Element.prefix_events_group (Element.allEvents_first h 2)
  rw [write, scan_document (isWellNamed_root doc), root_eq, eventsUpTo, List.prefix_cons_inj]
  exact ⟨Element.prefix_events_group hroot,
    fun heq => Element.ne_events_group hroot (List.cons.inj heq).2⟩

/-- The elements of a document whose lists break off come first, if no edge is left without all
nodes. -/
theorem graphElements_cut_first {i j : Nat} (hij : j = 0 ∨ doc.nodes.length ≤ i) :
    graphElements (doc.cut i j) <+: graphElements doc := by
  have hheader : headerData (doc.cut i j) = headerData doc := rfl
  rw [graphElements, graphElements, hheader, List.append_assoc, List.append_assoc,
    List.prefix_append_right_inj]
  rcases hij with rfl | hi
  · have hnodes := (List.take_prefix i doc.nodes).map (node doc.detail)
    simpa [Document.cut] using List.prefix_append_of_prefix hnodes
  · have hedges := (List.take_prefix j doc.edges).map edge
    simpa [Document.cut, List.take_of_length_le hi, List.prefix_append_right_inj] using hedges

namespace Reading

variable {r : Reading} {i j : Nat}

/-- What has been read of a document where its nodes or edges break off. -/
def afterCut (doc : Document) (i j : Nat) : Reading :=
  { ofDocument (doc.cut i j) with keys := declaredKeys doc }

/-- The events before a cut are read as the nodes and edges before it. -/
theorem foldlM_eventsUpTo (hrange : ∀ n ∈ doc.nodes, n.InRange) (hdetail : doc.HasDetail)
    (i j : Nat) :
    (eventsUpTo doc (graphElements (doc.cut i j))).foldlM step ({} : Reading) =
      .ok (afterCut doc i j) := by
  have hother : step ({} : Reading) .other = .ok {} := rfl
  have hroot : step ({} : Reading) (.start (tag "graphml"
    [("xmlns", "http://graphml.graphdrawing.org/xmlns")])) = .ok { sawRoot := true } := rfl
  have hgraph : step (afterKeys doc) (.start (tag "graph" [("id", "callgraph"),
    ("edgedefault", "directed")])) = .ok (afterKeys doc) := rfl
  rw [eventsUpTo, foldlM_cons_ok hother, foldlM_cons_ok (step_lineEvent rfl 0),
    foldlM_cons_ok hroot, foldlM_append_ok (foldlM_keys doc 1),
    foldlM_cons_ok (step_lineEvent rfl 1), foldlM_cons_ok hgraph]
  exact foldlM_graphElements (isFaithful_declaredKeys doc)
    (fun n hn => hrange n (List.mem_of_mem_take hn)) (hdetail.cut i j) 2

/-- A reading of first events has all of a document up to a place, or nothing from after it. -/
theorem grows_afterCut_or {first : List Event} (hrange : ∀ n ∈ doc.nodes, n.InRange)
    (hdetail : doc.HasDetail) (hij : j = 0 ∨ doc.nodes.length ≤ i)
    (hfirst : first <+: scan (write doc)) (hread : first.foldlM step ({} : Reading) = .ok r) :
    r.Grows (afterCut doc i j) ∨ (afterCut doc i j).Grows r := by
  have hplace := foldlM_eventsUpTo hrange hdetail i j
  have hbegin := (eventsUpTo_breaksOff (graphElements_cut_first hij)).1
  exact (List.prefix_or_prefix_of_prefix hfirst hbegin).imp
    (fun h => grows_foldlM h hread hplace) (fun h => grows_foldlM h hplace hread)

/-- Texts do not count at the end. -/
theorem finish_eq_of_text (r s : Reading) (text : List UInt8) (h : r.step (.text text) = .ok s) :
    s.finish = r.finish := by
  rw [step] at h
  split at h
  · cases h
    rw [addText]
    split <;> rfl
  · cases h

/-- What a reading makes of the data of a graph. -/
theorem exists_header_of_finish {d : Document} (h : r.finish = .ok d) :
    ∃ header, r.graphData.reverse.foldlM Header.add ⟨Document.currentVersion, none, .epoch⟩ =
        .ok header ∧
      d = {
        formatVersion := header.formatVersion
        detail := header.detail.getD (Document.detailOf r.nodes)
        savedAt := header.savedAt
        nodes := r.nodes.reverse
        edges := r.edges.reverse } := by
  rw [finish] at h
  split at h
  · cases h
  · obtain ⟨header, hheader, hdocument⟩ := bind_eq_ok.1 h
    cases hdocument
    exact ⟨header, hheader, rfl⟩

end Reading

/-- No entry of what is written of a document names another version. -/
theorem formatVersion_of_add (hbound : doc.formatVersion < 2 ^ 32) {entry : String × String}
    (hentry : entry ∈ headerData doc) {before after : Header}
    (hbefore : before.formatVersion = doc.formatVersion) (h : before.add entry = .ok after) :
    after.formatVersion = doc.formatVersion := by
  simp only [headerData, List.mem_cons, List.not_mem_nil, or_false] at hentry
  rcases hentry with rfl | rfl | rfl
  · simp only [Header.add, version?_toString hbound] at h
    cases h
    rfl
  · simp only [Header.add, ofText_detailName] at h
    cases h
    exact hbefore
  · simp only [Header.add] at h
    split at h
    · cases h
      exact hbefore
    · cases h

/-- The version that a header has stays as it is, for the document states one version only. -/
theorem formatVersion_of_foldlM (hbound : doc.formatVersion < 2 ^ 32)
    {entries : List (String × String)} (hentries : ∀ entry ∈ entries, entry ∈ headerData doc)
    {before after : Header} (hbefore : before.formatVersion = doc.formatVersion)
    (h : entries.foldlM Header.add before = .ok after) :
    after.formatVersion = doc.formatVersion := by
  induction entries generalizing before with
  | nil =>
    cases h
    exact hbefore
  | cons entry rest ih =>
    rw [List.foldlM_cons] at h
    obtain ⟨next, hnext, hrest⟩ := bind_eq_ok.1 h
    exact ih (fun other hother => hentries other (List.mem_cons_of_mem _ hother))
      (formatVersion_of_add hbound (hentries entry (by simp)) hbefore hnext) hrest

/-- What is read of a document that breaks off describes the graph of its first nodes and edges. -/
theorem Reading.exists_cut_of_finish {r : Reading} {first : List Event} {d : Document}
    (h : doc.InRange) (hdetail : doc.HasDetail)
    (hversion : doc.formatVersion = Document.currentVersion) (hfirst : first <+: scan (write doc))
    (hread : first.foldlM step ({} : Reading) = .ok r) (hfinish : r.finish = .ok d) :
    ∃ i j, (j = 0 ∨ doc.nodes.length ≤ i) ∧ d.toGraph = (doc.cut i j).toGraph := by
  have hwhole : r.Grows (ofDocument doc) :=
    grows_foldlM hfirst hread (foldlM_write h.nodes_inRange hdetail)
  have hnodes : r.nodes.reverse = doc.nodes.take r.nodes.length :=
    Document.reverse_eq_take hwhole.nodes
  have hedges : r.edges.reverse = doc.edges.take r.edges.length :=
    Document.reverse_eq_take hwhole.edges
  have hdata : r.graphData.reverse <+: headerData doc := by
    have hbegin := hwhole.graphData.reverse
    rwa [ofDocument, afterNodes, afterHeader, List.reverse_reverse] at hbegin
  obtain ⟨header, hheader, rfl⟩ := exists_header_of_finish hfinish
  have hsame : header.formatVersion = doc.formatVersion :=
    formatVersion_of_foldlM h.formatVersion_lt (fun _ => hdata.mem) hversion.symm hheader
  refine ⟨r.nodes.length, r.edges.length, ?_, Document.toGraph_congr hsame hnodes hedges ?_⟩
  · -- No edge comes before the place where all nodes have been read.
    rcases grows_afterCut_or (i := doc.nodes.length) (j := 0) h.nodes_inRange hdetail (.inl rfl)
      hfirst hread with hbefore | hafter
    · left
      simpa [afterCut, ofDocument, Document.cut] using hbefore.edges
    · right
      simpa [afterCut, ofDocument, afterNodes, Document.cut] using hafter.nodes.length_le
  · -- No node comes before the detail, so that it is not guessed where it matters.
    rcases grows_afterCut_or (i := 0) (j := 0) h.nodes_inRange hdetail (.inl rfl) hfirst hread
      with hbefore | hafter
    · have hnone : r.nodes = [] := by
        simpa [afterCut, ofDocument, afterNodes, Document.cut] using hbefore.nodes
      simp [Document.cut, hnone]
    · have hall : r.graphData.reverse = headerData doc := by
        refine hdata.eq_of_length_le ?_
        have hle : (headerData doc).reverse.length ≤ r.graphData.length :=
          hafter.graphData.length_le
        simpa using hle
      rw [hall, foldlM_headerData h.formatVersion_lt h.savedAt_inCalendar] at hheader
      split at hheader
      · cases hheader
        exact fun _ _ => rfl
      · cases hheader

/-- A reader of GraphML makes the first nodes and edges of documents that break off. -/
theorem readsCuts (h : doc.InRange) (hdetail : doc.HasDetail)
    (hversion : doc.formatVersion = Document.currentVersion)
    (hyear : 0 ≤ doc.savedAt.date.year ∧ doc.savedAt.date.year ≤ 9999) :
    Document.ReadsCuts Reading.step Reading.finish {} (scan (write doc)) doc where
  fault_ne _ _ := nofun
  finish_text := Reading.finish_eq_of_text
  exists_cut _ _ _ := Reading.exists_cut_of_finish h hdetail hversion
  exists_first i j hij := by
    obtain ⟨hfirst, hne⟩ := eventsUpTo_breaksOff (graphElements_cut_first hij)
    have hcut := h.cut i j
    have hfinish : (Reading.afterCut doc i j).finish = .ok (doc.cut i j).settled :=
      (finish_ofDocument hcut.formatVersion_lt hcut.savedAt_inCalendar).trans (if_pos hyear)
    exact ⟨_, _, _, hfirst, hne, Reading.foldlM_eventsUpTo h.nodes_inRange hdetail i j, hfinish,
      rfl⟩

end Graphml

end CallGraph
