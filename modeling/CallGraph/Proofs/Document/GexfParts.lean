import CallGraph.Proofs.Document.Cuts
import CallGraph.Proofs.Document.File
import CallGraph.Proofs.Document.Openings

/-!
# GEXF documents that break off

As in GraphML, a reader only ever adds to what it has read and does not ask at the end whether all
elements are closed.  Where a document breaks off, it has read the first nodes and edges; edges only
after all nodes, and nodes only after all declarations, from which the detail is guessed.

Main results:

- Theorem `Gexf.Reading.grows_step`: an event does not take back what has been read.
- Theorem `Gexf.Reading.exists_events_afterCut`: what has been read where the nodes or edges break
  off.
- Theorem `Gexf.readsCuts`: what a reader makes of documents that break off.
-/

namespace CallGraph

namespace Gexf

open Xml Graphml

namespace Reading

variable {r s : Reading}

/-! ## Growing -/

/-- The second reading has all nodes and edges of the first, and perhaps later ones, and declares
code objects if the first does. -/
structure Grows (r s : Reading) : Prop where
  declaresObject : r.declaresObject = true → s.declaresObject = true
  nodes : r.nodes <:+ s.nodes
  edges : r.edges <:+ s.edges

namespace Grows

/-- A reader with the same declaration, nodes and edges has grown. -/
theorem of_eq (hdeclares : r.declaresObject = s.declaresObject) (hnodes : r.nodes = s.nodes)
    (hedges : r.edges = s.edges) : r.Grows s :=
  ⟨fun h => hdeclares ▸ h, hnodes ▸ List.suffix_refl _, hedges ▸ List.suffix_refl _⟩

/-- Growing goes on from reader to reader. -/
theorem trans {t : Reading} (h : r.Grows s) (hnext : s.Grows t) : r.Grows t :=
  ⟨hnext.declaresObject ∘ h.declaresObject, h.nodes.trans hnext.nodes, h.edges.trans hnext.edges⟩

end Grows

/-- Storing a value loses nothing that was read. -/
theorem grows_store {key value : String} (h : r.store key value = .ok s) : r.Grows s := by
  obtain ⟨-, rfl⟩ | ⟨n, m, -, -, rfl⟩ := stored_cases h
  · exact .of_eq rfl rfl rfl
  · exact .of_eq rfl rfl rfl

/-- Neither does a start tag. -/
theorem grows_openElement {tag : Tag} {isEmpty : Bool}
    (h : r.openElement tag isEmpty = .ok s) : r.Grows s := by
  cases opened_of_openElement h with
  | root | day | openNode | other => exact .of_eq rfl rfl rfl
  | declaration =>
    exact ⟨fun hdeclares => by simp [hdeclares], List.suffix_refl _, List.suffix_refl _⟩
  | emptyNode => exact ⟨id, List.suffix_cons _ _, List.suffix_refl _⟩
  | value _ _ _ hstore => exact grows_store hstore
  | edge => exact ⟨id, List.suffix_refl _, List.suffix_cons _ _⟩

/-- Neither does an end tag. -/
theorem grows_closeElement (r : Reading) (name : List UInt8) : r.Grows (r.closeElement name) := by
  rw [closeElement]
  split
  · split
    · exact ⟨id, List.suffix_cons _ _, List.suffix_refl _⟩
    · exact .of_eq rfl rfl rfl
  · exact .of_eq rfl rfl rfl

/-- An event does not take back what has been read. -/
theorem grows_step {event : Event} (h : r.step event = .ok s) : r.Grows s := by
  cases event with
  | start tag => exact grows_openElement h
  | empty tag => exact grows_openElement h
  | finish name =>
    cases h
    exact grows_closeElement r name
  | fault => cases h
  | text bytes | verbatim bytes | other =>
    cases h
    exact .of_eq rfl rfl rfl

/-- What is read of more events has grown. -/
theorem grows_foldlM {first more : List Event} (hbegin : first <+: more)
    (hfirst : first.foldlM step ({} : Reading) = .ok r)
    (hmore : more.foldlM step ({} : Reading) = .ok s) : r.Grows s :=
  foldlM_monotone (fun _ => .of_eq rfl rfl rfl) Grows.trans grows_step hbegin hfirst hmore

end Reading

/-! ## Elements that break off -/

variable {doc : Document}

/-- The events of a document as far as some events in its graph. -/
def eventsUpTo (doc : Document) (inside : List Event) : List Event :=
  .other :: lineEvent 0 ::
    .start (tag "gexf" [("xmlns", "http://gexf.net/1.2"), ("version", "1.2")]) ::
      ((Element.group "meta" [("lastmodifieddate", String.ofList doc.savedAt.date.toChars)]
          descriptionElements).events 1 ++
        lineEvent 1 ::
          .start (tag "graph" [("mode", "static"), ("defaultedgetype", "directed")]) :: inside)

/-- They are the first events of the document, but not all of them. -/
theorem eventsUpTo_breaksOff {inside : List Event}
    (h : inside <+: Element.allEvents 2 (graphElements doc)) :
    eventsUpTo doc inside <+: scan (write doc) ∧ eventsUpTo doc inside ≠ scan (write doc) := by
  have hroot : (Element.group "meta" [("lastmodifieddate", String.ofList doc.savedAt.date.toChars)]
        descriptionElements).events 1 ++
      lineEvent 1 ::
        .start (tag "graph" [("mode", "static"), ("defaultedgetype", "directed")]) :: inside <+:
      Element.allEvents 1 [
        .group "meta" [("lastmodifieddate", String.ofList doc.savedAt.date.toChars)]
          descriptionElements,
        .group "graph" [("mode", "static"), ("defaultedgetype", "directed")]
          (graphElements doc)] := by
    rw [Element.allEvents, List.prefix_append_right_inj, Element.allEvents, Element.allEvents,
      List.append_nil]
    exact Element.prefix_events_group h
  rw [write, scan_document (isWellNamed_root doc), root_eq, eventsUpTo, List.prefix_cons_inj]
  exact ⟨Element.prefix_events_group hroot,
    fun heq => Element.ne_events_group hroot (List.cons.inj heq).2⟩

/-- The events before those of the graph are read as the root and the date. -/
theorem foldlM_eventsUpTo (doc : Document) (inside : List Event) :
    (eventsUpTo doc inside).foldlM Reading.step {} =
      inside.foldlM Reading.step
        { sawRoot := true, savedAt := Calendar.day? doc.savedAt.date.toChars } := by
  have hother : Reading.step {} .other = .ok {} := rfl
  have hroot : Reading.step {} (.start (tag "gexf" [("xmlns", "http://gexf.net/1.2"),
    ("version", "1.2")])) = .ok { sawRoot := true } := rfl
  rw [eventsUpTo, foldlM_cons_ok hother, foldlM_cons_ok (Reading.step_lineEvent _ 0),
    foldlM_cons_ok hroot, foldlM_append_ok (Reading.foldlM_meta doc 1),
    foldlM_cons_ok (Reading.step_lineEvent _ 1)]
  rfl

namespace Reading

variable {r : Reading} {i j : Nat}

/-- What has been read of a document where its nodes or edges break off. -/
def afterCut (doc : Document) (i j : Nat) : Reading :=
  { afterDeclarations doc with
    nodes := (doc.nodes.take i).reverse, edges := (doc.edges.take j).reverse }

/-- The nodes break off in some first events of the graph. -/
theorem exists_events_of_nodes (hrange : ∀ n ∈ doc.nodes, n.InRange) (hdetail : doc.HasDetail)
    (i : Nat) :
    ∃ inside, inside <+: Element.allEvents 2 (graphElements doc) ∧
      inside.foldlM step { sawRoot := true, savedAt := Calendar.day? doc.savedAt.date.toChars } =
        .ok (afterCut doc i 0) := by
  have hopen : step (afterDeclarations doc) (.start (tag "nodes" [])) =
      .ok (afterDeclarations doc) := rfl
  have hnodes : (Element.allEvents 3 ((doc.nodes.take i).map (node doc.detail))).foldlM step
      (afterDeclarations doc) = .ok (afterCut doc i 0) := by
    rw [foldlM_nodes (isFaithful_declarations doc) rfl
      (fun n hn => hrange n (List.mem_of_mem_take hn))
      (fun n hn => hdetail n (List.mem_of_mem_take hn))
      fun n hn name => mem_declarations (List.mem_of_mem_take hn)]
    simp [afterCut, afterDeclarations]
  refine ⟨(Element.group "attributes" [("class", "node")] ((declarations doc).map
      fun entry => declaration entry.1 entry.2)).events 2 ++
        lineEvent 2 :: .start (tag "nodes" []) ::
          Element.allEvents 3 ((doc.nodes.take i).map (node doc.detail)), ?_, ?_⟩
  · rw [graphElements, Element.allEvents, List.prefix_append_right_inj, Element.allEvents]
    exact List.prefix_append_of_prefix (Element.prefix_events_group
      (Element.allEvents_first ((List.take_prefix i doc.nodes).map _) 3))
  · rw [foldlM_append_ok (foldlM_attributesGroup doc 2), foldlM_cons_ok (step_lineEvent _ 2),
      foldlM_cons_ok hopen, hnodes]

/-- The edges break off in some first events of the graph, after all nodes. -/
theorem exists_events_of_edges (hrange : ∀ n ∈ doc.nodes, n.InRange) (hdetail : doc.HasDetail)
    (hi : doc.nodes.length ≤ i) (j : Nat) :
    ∃ inside, inside <+: Element.allEvents 2 (graphElements doc) ∧
      inside.foldlM step { sawRoot := true, savedAt := Calendar.day? doc.savedAt.date.toChars } =
        .ok (afterCut doc i j) := by
  let nodes := { afterDeclarations doc with nodes := doc.nodes.reverse }
  have hopen : step nodes (.start (tag "edges" [])) = .ok nodes := rfl
  have hedges : (Element.allEvents 3 ((doc.edges.take j).zipIdx.map
      fun entry => edge entry.1 entry.2)).foldlM step nodes = .ok (afterCut doc i j) := by
    rw [foldlM_edges]
    simp [nodes, afterCut, afterDeclarations, List.take_of_length_le hi]
  have hfirst : (doc.edges.take j).zipIdx <+: doc.edges.zipIdx := by
    conv_rhs => rw [← List.take_append_drop j doc.edges, List.zipIdx_append]
    exact List.prefix_append _ _
  refine ⟨(Element.group "attributes" [("class", "node")] ((declarations doc).map
      fun entry => declaration entry.1 entry.2)).events 2 ++
        ((Element.group "nodes" [] (doc.nodes.map (node doc.detail))).events 2 ++
          lineEvent 2 :: .start (tag "edges" []) :: Element.allEvents 3
            ((doc.edges.take j).zipIdx.map fun entry => edge entry.1 entry.2)), ?_, ?_⟩
  · rw [graphElements, Element.allEvents, List.prefix_append_right_inj, Element.allEvents,
      List.prefix_append_right_inj, Element.allEvents]
    exact List.prefix_append_of_prefix (Element.prefix_events_group
      (Element.allEvents_first (hfirst.map _) 3))
  · rw [foldlM_append_ok (foldlM_attributesGroup doc 2),
      foldlM_append_ok (foldlM_nodesGroup hrange hdetail 2), foldlM_cons_ok (step_lineEvent _ 2),
      foldlM_cons_ok hopen, hedges]

/-- Where nodes or edges break off, some first events of the document have been read, as long as no
edge is left without all nodes. -/
theorem exists_events_afterCut (hrange : ∀ n ∈ doc.nodes, n.InRange) (hdetail : doc.HasDetail)
    (hij : j = 0 ∨ doc.nodes.length ≤ i) :
    ∃ events, events <+: scan (write doc) ∧ events ≠ scan (write doc) ∧
      events.foldlM step ({} : Reading) = .ok (afterCut doc i j) := by
  have hgraph : ∃ inside, inside <+: Element.allEvents 2 (graphElements doc) ∧
      inside.foldlM step { sawRoot := true, savedAt := Calendar.day? doc.savedAt.date.toChars } =
        .ok (afterCut doc i j) := by
    rcases hij with rfl | hi
    · exact exists_events_of_nodes hrange hdetail i
    · exact exists_events_of_edges hrange hdetail hi j
  obtain ⟨inside, hinside, hread⟩ := hgraph
  obtain ⟨hbegin, hne⟩ := eventsUpTo_breaksOff hinside
  exact ⟨_, hbegin, hne, (foldlM_eventsUpTo doc inside).trans hread⟩

/-- A reading of first events has all of a document up to a place, or nothing from after it. -/
theorem grows_afterCut_or {first : List Event} (hrange : ∀ n ∈ doc.nodes, n.InRange)
    (hdetail : doc.HasDetail) (hij : j = 0 ∨ doc.nodes.length ≤ i)
    (hfirst : first <+: scan (write doc)) (hread : first.foldlM step ({} : Reading) = .ok r) :
    r.Grows (afterCut doc i j) ∨ (afterCut doc i j).Grows r := by
  obtain ⟨events, hbegin, -, hplace⟩ := exists_events_afterCut hrange hdetail hij
  exact (List.prefix_or_prefix_of_prefix hfirst hbegin).imp
    (fun h => grows_foldlM h hread hplace) (fun h => grows_foldlM h hplace hread)

/-- What a reading makes of nodes and edges. -/
theorem exists_savedAt_of_finish {d : Document} (h : r.finish = .ok d) :
    ∃ savedAt, d = {
      formatVersion := Document.currentVersion
      detail := if r.declaresObject then .full else .structureOnly
      savedAt := savedAt
      nodes := r.nodes.reverse
      edges := r.edges.reverse } := by
  rw [finish] at h
  split at h
  · cases h
    exact ⟨_, rfl⟩
  · cases h

/-- What is read of a document that breaks off describes the graph of its first nodes and edges. -/
theorem exists_cut_of_finish {first : List Event} {d : Document}
    (hrange : ∀ n ∈ doc.nodes, n.InRange) (hdetail : doc.HasDetail)
    (hversion : doc.formatVersion = Document.currentVersion) (hfirst : first <+: scan (write doc))
    (hread : first.foldlM step ({} : Reading) = .ok r) (hfinish : r.finish = .ok d) :
    ∃ i j, (j = 0 ∨ doc.nodes.length ≤ i) ∧ d.toGraph = (doc.cut i j).toGraph := by
  have hwhole : r.Grows (ofDocument doc) :=
    grows_foldlM hfirst hread (foldlM_write hrange hdetail)
  have hnodes : r.nodes.reverse = doc.nodes.take r.nodes.length :=
    Document.reverse_eq_take hwhole.nodes
  have hedges : r.edges.reverse = doc.edges.take r.edges.length :=
    Document.reverse_eq_take hwhole.edges
  obtain ⟨savedAt, rfl⟩ := exists_savedAt_of_finish hfinish
  refine ⟨r.nodes.length, r.edges.length, ?_,
    Document.toGraph_congr hversion.symm hnodes hedges ?_⟩
  · -- No edge comes before the place where all nodes have been read.
    rcases grows_afterCut_or (i := doc.nodes.length) (j := 0) hrange hdetail (.inl rfl) hfirst hread
      with hbefore | hafter
    · left
      simpa [afterCut] using hbefore.edges
    · right
      simpa [afterCut] using hafter.nodes.length_le
  · -- No node comes before the declarations, by which the detail is guessed.
    rcases grows_afterCut_or (i := 0) (j := 0) hrange hdetail (.inl rfl) hfirst hread
      with hbefore | hafter
    · have hnone : r.nodes = [] := by
        simpa [afterCut] using hbefore.nodes
      simp [Document.cut, hnone]
    · intro n hn
      refine hdetail.atDetail_eq (fun hfull => if_pos (hafter.declaresObject ?_))
        (List.mem_of_mem_take hn)
      simp [afterCut, afterDeclarations, declarations, hfull]

/-- What was read before a cut is completed: the nodes and edges before it, and the day. -/
theorem finish_afterCut (doc : Document) (i j : Nat) :
    (afterCut doc i j).finish = .ok {
      formatVersion := Document.currentVersion
      detail := if (declarations doc).any (·.2 == "code_object") then .full else .structureOnly
      savedAt := (Calendar.day? doc.savedAt.date.toChars).getD .epoch
      nodes := doc.nodes.take i
      edges := doc.edges.take j } := by
  have hroot : (afterCut doc i j).sawRoot = true := rfl
  rw [finish, if_pos hroot]
  simp only [afterCut, List.reverse_reverse]
  rfl

end Reading

/-- A reader of GEXF makes the first nodes and edges of documents that break off. -/
theorem readsCuts (hrange : ∀ n ∈ doc.nodes, n.InRange) (hdetail : doc.HasDetail)
    (hversion : doc.formatVersion = Document.currentVersion) :
    Document.ReadsCuts Reading.step Reading.finish {} (scan (write doc)) doc where
  fault_ne _ _ := nofun
  finish_text r s text hstep := by
    cases hstep
    rfl
  exists_cut _ _ _ := Reading.exists_cut_of_finish hrange hdetail hversion
  exists_first i j hij := by
    obtain ⟨events, hfirst, hne, hread⟩ := Reading.exists_events_afterCut hrange hdetail hij
    refine ⟨events, _, _, hfirst, hne, hread, Reading.finish_afterCut doc i j, ?_⟩
    refine Document.toGraph_congr hversion.symm rfl rfl fun n hn => ?_
    refine hdetail.atDetail_eq (fun hfull => if_pos ?_) (List.mem_of_mem_take hn)
    simp [declarations, hfull]

end Gexf

end CallGraph
