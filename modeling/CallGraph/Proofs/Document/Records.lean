import CallGraph.Proofs.Document.GexfParts
import CallGraph.Proofs.Document.GraphmlParts
import CallGraph.Proofs.Document.Openings

/-!
# The records of a document in XML

A reader keeps one node open at a time.  The start tag of a node inside another node therefore takes
the place of the other one, which is left out of the document without a fault.  Nothing else is left
out: there is one record for each edge, and one for each node but those with a node inside that has
an end tag.  Nodes are recorded at their ends, and edges at their starts.

What both readers keep of nodes and edges is described by one roll of tags, for which this is shown
by induction on the forest of elements.

Main results:

- Theorem `Roll.foldl_events`: the roll of the tags of a forest.
- Theorem `Roll.describes_foldlM`: readers that keep to the roll for each event keep to it for all
  events of a text.
- Theorem `Document.records_of_elements`: the records of the elements of a document, and when none
  of its nodes is left out.
-/

namespace CallGraph

open Xml

/-! ## Rolls of tags -/

/-- The tags of the node that is open, and of the nodes and edges that have been recorded. -/
structure Roll where
  openNode : Option Tag := none
  nodes : List Tag := []
  edges : List Tag := []

namespace Roll

/-- Takes the tag of an edge, and no other tag. -/
def addEdge (roll : Roll) (tag : Tag) : Roll :=
  if tag.isNamed "edge" then { roll with edges := roll.edges ++ [tag] } else roll

/-- Takes one event.  There is room for one open node. -/
def take (roll : Roll) : Event → Roll
  | .start tag =>
      if tag.isNamed "node" then { roll with openNode := some tag } else roll.addEdge tag
  | .empty tag =>
      if tag.isNamed "node" then { roll with nodes := roll.nodes ++ [tag] } else roll.addEdge tag
  | .finish name =>
      if localName name = ascii "node" then
        { roll with openNode := none, nodes := roll.nodes ++ roll.openNode.toList }
      else roll
  | .text _ | .verbatim _ | .other | .fault => roll

end Roll

/-- Whether a record is made of the element: it is a node, with no node inside that has an end
tag. -/
def Xml.Tree.isRecorded (tree : Tree) : Bool :=
  tree.tag.isNamed "node" && !tree.hasPairInside "node"

namespace Xml.Forest

/-- The nodes that are recorded, in the order of their ends. -/
def recordedNodes (forest : Forest) : List Tree :=
  forest.ended.filter Tree.isRecorded

/-- The edges, in the order of their starts. -/
def edgeElements (forest : Forest) : List Tree :=
  forest.opened.filter (·.tag.isNamed "edge")

/-- The elements in an element are recorded before it.  A node is left out if another one opens and
closes in it. -/
theorem recordedNodes_element (tag : Tag) (inside after : Forest) :
    (element tag inside after).recordedNodes =
      inside.recordedNodes ++
        (if tag.isNamed "node" && !inside.hasPair "node" then [⟨tag, some inside⟩] else []) ++
        after.recordedNodes := by
  have hrecorded : Tree.isRecorded ⟨tag, some inside⟩ =
      (tag.isNamed "node" && !inside.hasPair "node") := rfl
  rw [recordedNodes, ended, List.filter_append, List.filter_cons, hrecorded, List.append_assoc]
  split <;> rfl

/-- An empty node is recorded. -/
theorem recordedNodes_empty (tag : Tag) (after : Forest) :
    (empty tag after).recordedNodes =
      (if tag.isNamed "node" then [⟨tag, none⟩] else []) ++ after.recordedNodes := by
  have hrecorded : Tree.isRecorded ⟨tag, none⟩ = tag.isNamed "node" := Bool.and_true _
  rw [recordedNodes, ended, List.filter_cons, hrecorded]
  split <;> rfl

/-- An edge is recorded before the elements in it. -/
theorem edgeElements_element (tag : Tag) (inside after : Forest) :
    (element tag inside after).edgeElements =
      (if tag.isNamed "edge" then [⟨tag, some inside⟩] else []) ++ inside.edgeElements ++
        after.edgeElements := by
  rw [edgeElements, opened, List.filter_cons, List.filter_append]
  split <;> rfl

/-- An empty edge is recorded. -/
theorem edgeElements_empty (tag : Tag) (after : Forest) :
    (empty tag after).edgeElements =
      (if tag.isNamed "edge" then [⟨tag, none⟩] else []) ++ after.edgeElements := by
  rw [edgeElements, opened, List.filter_cons]
  split <;> rfl

end Xml.Forest

namespace Roll

/-- Nothing but the tag of an edge is added to the edges. -/
theorem addEdge_eq (roll : Roll) (tag : Tag) :
    roll.addEdge tag =
      { roll with edges := roll.edges ++ if tag.isNamed "edge" then [tag] else [] } := by
  rw [addEdge]
  split
  · rfl
  · rw [List.append_nil]

/-- Events between tags record nothing. -/
theorem take_of_isPlain {event : Event} (h : event.isPlain = true) (roll : Roll) :
    roll.take event = roll := by
  cases event with
  | text | verbatim | other => rfl
  | start | empty | finish | fault => cases h

/-- After the events of a forest, what is recorded of it has been added.  A node that was open is
open no more if a node with an end tag took its place. -/
theorem foldl_events (forest : Forest) (roll : Roll) :
    forest.events.foldl take roll = {
      openNode := if forest.hasPair "node" then none else roll.openNode
      nodes := roll.nodes ++ forest.recordedNodes.map Tree.tag
      edges := roll.edges ++ forest.edgeElements.map Tree.tag } := by
  induction forest generalizing roll with
  | nil =>
    change roll = ⟨roll.openNode, roll.nodes ++ [], roll.edges ++ []⟩
    rw [List.append_nil, List.append_nil]
  | element tag inside after ihInside ihAfter =>
    rw [Forest.events, List.foldl_cons, List.foldl_append, List.foldl_cons, ihInside, ihAfter,
      Forest.recordedNodes_element, Forest.edgeElements_element, Forest.hasPair_element]
    by_cases hnode : tag.isNamed "node" = true
    · have hedge : tag.isNamed "edge" = false := Tag.isNamed_of_ne hnode (by decide)
      have hname : localName tag.name = ascii "node" := Tag.isNamed_iff.1 hnode
      -- It is recorded at its end tag, unless a node inside has taken its place by then.
      by_cases hpair : inside.hasPair "node" = true
      · simp [take, hnode, hedge, hname, hpair]
      · simp [take, hnode, hedge, hname, hpair]
    · have hname : localName tag.name ≠ ascii "node" := fun h => hnode (Tag.isNamed_iff.2 h)
      by_cases hpair : inside.hasPair "node" = true
      · simp [take, hnode, hname, hpair, addEdge_eq, apply_ite (List.map Tree.tag)]
      · simp [take, hnode, hname, hpair, addEdge_eq, apply_ite (List.map Tree.tag)]
  | empty tag after ih =>
    rw [Forest.events, List.foldl_cons, ih, Forest.recordedNodes_empty, Forest.edgeElements_empty,
      Forest.hasPair_empty]
    by_cases hnode : tag.isNamed "node" = true
    · have hedge : tag.isNamed "edge" = false := Tag.isNamed_of_ne hnode (by decide)
      simp [take, hnode, hedge]
    · simp [take, hnode, addEdge_eq, apply_ite (List.map Tree.tag)]
  | plain event hplain after ih =>
    rw [Forest.events, List.foldl_cons, take_of_isPlain hplain, ih, Forest.hasPair_plain]
    rfl

/-! ## What readers keep -/

/-- The open node, the nodes and the edges are those of the tags, of which they have the ids and the
ends. -/
structure Describes (roll : Roll) (openId : Option String) (ids : List String) (edges : List Edge) :
    Prop where
  openNode : roll.openNode.map (·.attribute? "id") = openId.map some
  nodes : roll.nodes.map (·.attribute? "id") = ids.map some
  edges : roll.edges.map (fun tag => (tag.attribute? "source", tag.attribute? "target")) =
    edges.map fun e => (some e.caller, some e.callee)

namespace Describes

variable {roll : Roll} {openId : Option String} {ids : List String} {edges : List Edge} {tag : Tag}

/-- Before the first event, nothing is recorded. -/
theorem nothing : Describes {} none [] [] :=
  ⟨rfl, rfl, rfl⟩

/-- The start tag of a node opens it, in place of any node that was open. -/
theorem start_node (h : roll.Describes openId ids edges) (hname : tag.isNamed "node" = true)
    {id : String} (hid : tag.attribute? "id" = some id) :
    (roll.take (.start tag)).Describes (some id) ids edges := by
  rw [take, if_pos hname]
  exact ⟨congrArg some hid, h.nodes, h.edges⟩

/-- An empty node is recorded, and leaves a node around it open. -/
theorem empty_node (h : roll.Describes openId ids edges) (hname : tag.isNamed "node" = true)
    {id : String} (hid : tag.attribute? "id" = some id) :
    (roll.take (.empty tag)).Describes openId (ids ++ [id]) edges := by
  rw [take, if_pos hname]
  exact ⟨h.openNode, by simp [h.nodes, hid], h.edges⟩

/-- An edge is recorded with its two ends, whether or not its tag is empty. -/
theorem edge (h : roll.Describes openId ids edges) (hname : tag.isNamed "edge" = true)
    (isEmpty : Bool) {e : Edge} (hsource : tag.attribute? "source" = some e.caller)
    (htarget : tag.attribute? "target" = some e.callee) :
    (roll.take (.ofTag tag isEmpty)).Describes openId ids (edges ++ [e]) := by
  have hnode : tag.isNamed "node" = false := Tag.isNamed_of_ne hname (by decide)
  have htake : roll.take (.ofTag tag isEmpty) = { roll with edges := roll.edges ++ [tag] } := by
    cases isEmpty <;> simp [Event.ofTag, take, hnode, addEdge, hname]
  rw [htake]
  exact ⟨h.openNode, h.nodes, by simp [h.edges, hsource, htarget]⟩

/-- No other element is recorded. -/
theorem other (h : roll.Describes openId ids edges) (hnode : tag.isNamed "node" = false)
    (hedge : tag.isNamed "edge" = false) (isEmpty : Bool) :
    (roll.take (.ofTag tag isEmpty)).Describes openId ids edges := by
  have htake : roll.take (.ofTag tag isEmpty) = roll := by
    cases isEmpty <;> simp [Event.ofTag, take, hnode, addEdge, hedge]
  rw [htake]
  exact h

/-- Nor is an element with a name that is neither of the two. -/
theorem named (h : roll.Describes openId ids edges) {name : String}
    (hname : tag.isNamed name = true) (hnode : ascii name ≠ ascii "node")
    (hedge : ascii name ≠ ascii "edge") (isEmpty : Bool) :
    (roll.take (.ofTag tag isEmpty)).Describes openId ids edges :=
  h.other (Tag.isNamed_of_ne hname hnode) (Tag.isNamed_of_ne hname hedge) isEmpty

/-- The end tag of a node records the node that is open, if there still is one. -/
theorem finish_node (h : roll.Describes openId ids edges) {name : List UInt8}
    (hname : localName name = ascii "node") :
    (roll.take (.finish name)).Describes none (ids ++ openId.toList) edges := by
  have hopen : roll.openNode.toList.map (·.attribute? "id") = openId.toList.map some := by
    rw [← Option.toList_map, ← Option.toList_map, h.openNode]
  rw [take, if_pos hname]
  exact ⟨rfl, by rw [List.map_append, List.map_append, h.nodes, hopen], h.edges⟩

/-- The end tags of other elements record nothing. -/
theorem finish_other (h : roll.Describes openId ids edges) {name : List UInt8}
    (hname : localName name ≠ ascii "node") :
    (roll.take (.finish name)).Describes openId ids edges := by
  rw [take, if_neg hname]
  exact h

end Describes

/-- A relation to rolls that a reader keeps to with each event, it keeps to with all events. -/
theorem describes_foldlM {step : σ → Event → Except ε σ} {Keeps : Roll → σ → Prop}
    (hstep : ∀ {roll r s event}, Keeps roll r → step r event = .ok s → Keeps (roll.take event) s)
    {roll : Roll} {r s : σ} {events : List Event} (hstart : Keeps roll r)
    (hread : events.foldlM step r = .ok s) : Keeps (events.foldl take roll) s := by
  induction events generalizing roll r with
  | nil =>
    cases hread
    exact hstart
  | cons event events ih =>
    rw [List.foldlM_cons] at hread
    obtain ⟨next, hnext, hrest⟩ := bind_eq_ok.1 hread
    exact ih (hstep hstart hnext) hrest

end Roll

/-! ## Readers of GraphML -/

namespace Graphml

/-- The data of a node does not change its id. -/
theorem id_addData {n m : Node} {entry : String × String} (h : addData n entry = .ok m) :
    m.id = n.id := by
  rw [addData] at h
  split at h
  · cases h
    rfl
  · cases h
    rfl
  · cases h
    rfl
  · split at h
    · cases h
      rfl
    · cases h
  · cases h
    rfl

/-- Data does not change the id of a node. -/
theorem id_foldlM_addData {n m : Node} {entries : List (String × String)}
    (h : entries.foldlM addData n = .ok m) : m.id = n.id := by
  induction entries generalizing n with
  | nil =>
    cases h
    rfl
  | cons entry entries ih =>
    rw [List.foldlM_cons] at h
    obtain ⟨next, hnext, hrest⟩ := bind_eq_ok.1 h
    rw [ih hrest, id_addData hnext]

namespace Reading

variable {roll : Roll} {r s : Reading}

/-- The roll has the tags of the nodes and edges that have been read. -/
def Keeps (roll : Roll) (r : Reading) : Prop :=
  roll.Describes (r.openNode.map (·.id)) (r.nodes.reverse.map (·.id)) r.edges.reverse

/-- Nothing has been read at the start. -/
theorem keeps_start : Keeps {} {} :=
  Roll.Describes.nothing

/-- Storing data records nothing. -/
theorem Keeps.store (h : Keeps roll r) (key value : String) : Keeps roll (r.store key value) := by
  rw [Reading.store]
  cases hopen : r.openNode with
  | none => simpa [Keeps, hopen] using h
  | some n => simpa [Keeps, hopen] using h

/-- The roll stays true over a tag that the reader accepts. -/
theorem Keeps.opened {tag : Tag} {isEmpty : Bool} (h : Keeps roll r)
    (hopened : r.Opened tag isEmpty s) : Keeps (roll.take (.ofTag tag isEmpty)) s := by
  cases hopened with
  | root hname | key hname | openData hname =>
    exact Roll.Describes.named h hname (by decide) (by decide) isEmpty
  | emptyData hname =>
    exact Roll.Describes.named (h.store _ _) hname (by decide) (by decide) isEmpty
  | emptyNode hname hempty hid =>
    subst hempty
    rw [Keeps, List.reverse_cons, List.map_append]
    exact Roll.Describes.empty_node h hname hid
  | openNode hname hempty hid =>
    subst hempty
    exact Roll.Describes.start_node h hname hid
  | edge hname hsource htarget =>
    rw [Keeps, List.reverse_cons]
    exact Roll.Describes.edge h hname isEmpty hsource htarget
  | other hnames =>
    exact Roll.Describes.other h (hnames _ (by simp)) (hnames _ (by simp)) isEmpty

/-- The roll stays true over an end tag. -/
theorem Keeps.closed {name : List UInt8} (h : Keeps roll r)
    (hclosed : r.closeElement name = .ok s) : Keeps (roll.take (.finish name)) s := by
  simp only [closeElement] at hclosed
  split at hclosed
  · rename_i hdata
    have hother : localName name ≠ ascii "node" := fun hnode => by
      rw [hdata] at hnode
      exact absurd hnode (by decide)
    split at hclosed
    · cases hclosed
      have hkept : Keeps roll { r with openData := none } := h
      exact Roll.Describes.finish_other (hkept.store _ _) hother
    · cases hclosed
      exact Roll.Describes.finish_other h hother
  split at hclosed
  · rename_i hnode
    have hnext := Roll.Describes.finish_node h hnode
    split at hclosed
    · rename_i n hopen
      obtain ⟨m, hm, hadd⟩ := bind_eq_ok.1 hclosed
      cases hadd
      have hid : m.id = n.id := id_foldlM_addData hm
      rw [Keeps, List.reverse_cons, List.map_append]
      rw [hopen] at hnext
      simpa [hid] using hnext
    · rename_i hopen
      cases hclosed
      rw [hopen] at hnext
      simpa [Keeps, hopen] using hnext
  · rename_i hother
    cases hclosed
    exact Roll.Describes.finish_other h hother

/-- Texts are not recorded. -/
theorem Keeps.addText (h : Keeps roll r) (text : String) : Keeps roll (r.addText text) := by
  rw [Reading.addText]
  split <;> exact h

/-- The roll stays true over every event. -/
theorem Keeps.step {event : Event} (h : Keeps roll r) (hstep : r.step event = .ok s) :
    Keeps (roll.take event) s := by
  cases event with
  | start tag =>
    have hopened : r.Opened tag false s := opened_of_openElement hstep
    exact h.opened hopened
  | empty tag =>
    have hopened : r.Opened tag true s := opened_of_openElement hstep
    exact h.opened hopened
  | finish name => exact h.closed hstep
  | text bytes =>
    rw [Reading.step] at hstep
    split at hstep
    · cases hstep
      exact h.addText _
    · cases hstep
  | verbatim bytes =>
    cases hstep
    exact h.addText _
  | other =>
    cases hstep
    exact h
  | fault => cases hstep

end Reading

end Graphml

/-! ## Readers of GEXF -/

namespace Gexf

open Graphml

namespace Reading

variable {roll : Roll} {r s : Reading}

/-- The roll has the tags of the nodes and edges that have been read. -/
def Keeps (roll : Roll) (r : Reading) : Prop :=
  roll.Describes (r.openNode.map (·.id)) (r.nodes.reverse.map (·.id)) r.edges.reverse

/-- Nothing has been read at the start. -/
theorem keeps_start : Keeps {} {} :=
  Roll.Describes.nothing

/-- Storing a value records nothing. -/
theorem Keeps.store (h : Keeps roll r) {key value : String} (hstore : r.store key value = .ok s) :
    Keeps roll s := by
  obtain ⟨-, rfl⟩ | ⟨n, m, hopen, hid, rfl⟩ := stored_cases hstore
  · exact h
  · simpa [Keeps, hopen, hid] using h

/-- The roll stays true over a tag that the reader accepts. -/
theorem Keeps.opened {tag : Tag} {isEmpty : Bool} (h : Keeps roll r)
    (hopened : r.Opened tag isEmpty s) : Keeps (roll.take (.ofTag tag isEmpty)) s := by
  cases hopened with
  | root hname | day hname | declaration hname =>
    exact Roll.Describes.named h hname (by decide) (by decide) isEmpty
  | value hname hkey htext hstore =>
    exact Roll.Describes.named (h.store hstore) hname (by decide) (by decide) isEmpty
  | emptyNode hname hempty hid =>
    subst hempty
    rw [Keeps, List.reverse_cons, List.map_append]
    exact Roll.Describes.empty_node h hname hid
  | openNode hname hempty hid =>
    subst hempty
    exact Roll.Describes.start_node h hname hid
  | edge hname hsource htarget =>
    rw [Keeps, List.reverse_cons]
    exact Roll.Describes.edge h hname isEmpty hsource htarget
  | other hnames =>
    exact Roll.Describes.other h (hnames _ (by simp)) (hnames _ (by simp)) isEmpty

/-- The roll stays true over an end tag. -/
theorem Keeps.closed (h : Keeps roll r) (name : List UInt8) :
    Keeps (roll.take (.finish name)) (r.closeElement name) := by
  rw [closeElement]
  split
  · rename_i hnode
    have hnext := Roll.Describes.finish_node h hnode
    split
    · rename_i n hopen
      rw [Keeps, List.reverse_cons, List.map_append]
      rw [hopen] at hnext
      exact hnext
    · rename_i hopen
      rw [hopen] at hnext
      simpa [Keeps, hopen] using hnext
  · rename_i hother
    exact Roll.Describes.finish_other h hother

/-- The roll stays true over every event. -/
theorem Keeps.step {event : Event} (h : Keeps roll r) (hstep : r.step event = .ok s) :
    Keeps (roll.take event) s := by
  cases event with
  | start tag =>
    have hopened : r.Opened tag false s := opened_of_openElement hstep
    exact h.opened hopened
  | empty tag =>
    have hopened : r.Opened tag true s := opened_of_openElement hstep
    exact h.opened hopened
  | finish name =>
    cases hstep
    exact h.closed name
  | text | verbatim | other =>
    cases hstep
    exact h
  | fault => cases hstep

end Reading

end Gexf

/-! ## Documents -/

/-- The document has one record for each of the elements: the nodes, by their ids, in the order of
their ends, without those that hold a node with an end tag, and the edges, by their ends, in the
order in which they start. -/
structure Document.RecordsElements (doc : Document) (forest : Forest) : Prop where
  nodes : doc.nodes.map (fun n => some n.id) =
    forest.recordedNodes.map (·.tag.attribute? "id")
  edges : doc.edges.map (fun e => (some e.caller, some e.callee)) =
    forest.edgeElements.map fun tree => (tree.tag.attribute? "source", tree.tag.attribute? "target")

namespace Document

variable {doc : Document} {forest : Forest}

/-- The roll of a whole text is that of the records of its document. -/
theorem recordsElements_of_describes {openId : Option String}
    (h : (forest.events.foldl Roll.take {}).Describes openId (doc.nodes.map (·.id)) doc.edges) :
    doc.RecordsElements forest := by
  rw [Roll.foldl_events] at h
  constructor
  · have hnodes : (forest.recordedNodes.map Tree.tag).map (·.attribute? "id") =
        (doc.nodes.map (·.id)).map some := h.nodes
    rw [List.map_map, List.map_map] at hnodes
    exact hnodes.symm
  · have hedges : (forest.edgeElements.map Tree.tag).map
        (fun tag => (tag.attribute? "source", tag.attribute? "target")) =
          doc.edges.map fun e => (some e.caller, some e.callee) := h.edges
    rw [List.map_map] at hedges
    exact hedges.symm

/-- A document that is read from GraphML has the recorded elements. -/
theorem recordsElements_of_graphml {bytes : List UInt8} (hscan : scan bytes = forest.events)
    (hread : Graphml.read bytes = .ok doc) : doc.RecordsElements forest := by
  obtain ⟨r, hr, hfinish⟩ := bind_eq_ok.1 hread
  rw [hscan] at hr
  have hkeeps : Graphml.Reading.Keeps (forest.events.foldl Roll.take {}) r :=
    Roll.describes_foldlM Graphml.Reading.Keeps.step Graphml.Reading.keeps_start hr
  obtain ⟨header, -, rfl⟩ := Graphml.Reading.exists_header_of_finish hfinish
  exact recordsElements_of_describes hkeeps

/-- So has a document that is read from GEXF. -/
theorem recordsElements_of_gexf {bytes : List UInt8} (hscan : scan bytes = forest.events)
    (hread : Gexf.read bytes = .ok doc) : doc.RecordsElements forest := by
  obtain ⟨r, hr, hfinish⟩ := bind_eq_ok.1 hread
  rw [hscan] at hr
  have hkeeps : Gexf.Reading.Keeps (forest.events.foldl Roll.take {}) r :=
    Roll.describes_foldlM Gexf.Reading.Keeps.step Gexf.Reading.keeps_start hr
  obtain ⟨savedAt, rfl⟩ := Gexf.Reading.exists_savedAt_of_finish hfinish
  exact recordsElements_of_describes hkeeps

/-- A document has as many nodes as were recorded. -/
theorem RecordsElements.length_nodes (h : doc.RecordsElements forest) :
    doc.nodes.length = forest.recordedNodes.length := by
  have hlength := congrArg List.length h.nodes
  rwa [List.length_map, List.length_map] at hlength

end Document

/-- All nodes of a forest are recorded if none has a node inside that has an end tag. -/
theorem Xml.Forest.length_recordedNodes_eq_iff (forest : Forest) :
    forest.recordedNodes.length = (forest.opened.filter (·.tag.isNamed "node")).length ↔
      ∀ tree ∈ forest.opened, tree.tag.isNamed "node" = true →
        tree.hasPairInside "node" = false := by
  have hrecorded : forest.opened.filter Tree.isRecorded =
      (forest.opened.filter (·.tag.isNamed "node")).filter (!·.hasPairInside "node") := by
    rw [List.filter_filter]
    exact List.filter_congr fun tree _ => Bool.and_comm _ _
  rw [recordedNodes, (forest.perm_ended.filter _).length_eq, hrecorded,
    List.length_filter_eq_length_iff]
  simp only [List.mem_filter, Bool.not_eq_true', and_imp]

namespace Document

variable {format : Format} {bytes : List UInt8}

/-- A well-formed text is the text of a forest.  If it is read as a document, there is one record
for each edge, and one for each node but those with a node inside that has an end tag; so there are
as many records of nodes as nodes exactly if no node has such a node inside. -/
theorem records_of_elements (hxml : format = .graphml ∨ format = .gexf)
    (h : IsWellFormed bytes) :
    (∃ forest : Forest, scan bytes = forest.events) ∧
      ∀ (forest : Forest) (doc : Document), scan bytes = forest.events →
        read format bytes = .ok doc →
        doc.RecordsElements forest ∧
          (doc.nodes.length = (forest.opened.filter (·.tag.isNamed "node")).length ↔
            ∀ tree ∈ forest.opened, tree.tag.isNamed "node" = true →
              tree.hasPairInside "node" = false) := by
  refine ⟨isWellFormed_iff.1 h, fun forest doc hscan hread => ?_⟩
  have hrecords : doc.RecordsElements forest := by
    rcases hxml with rfl | rfl
    · exact recordsElements_of_graphml hscan hread
    · exact recordsElements_of_gexf hscan hread
  rw [hrecords.length_nodes]
  exact ⟨hrecords, forest.length_recordedNodes_eq_iff⟩

/-- A node inside another one, both with end tags. -/
def nodeInsideNode : Forest :=
  .element ⟨ascii "graphml", []⟩
    (.element ⟨ascii "node", ascii " id=\"a\""⟩
      (.element ⟨ascii "node", ascii " id=\"b\""⟩ .nil .nil) .nil) .nil

/-- Its text. -/
def nodeInsideNodeText : List UInt8 :=
  ascii "<graphml><node id=\"a\"><node id=\"b\"></node></node></graphml>"

/-- The outer one of two nodes is left out, and the document is read without a fault. -/
theorem outer_of_nodeInsideNode_left_out :
    IsWellFormed nodeInsideNodeText ∧ scan nodeInsideNodeText = nodeInsideNode.events ∧
      (nodeInsideNode.opened.filter (·.tag.isNamed "node")).length = 2 ∧
      ∃ doc, read .graphml nodeInsideNodeText = .ok doc ∧ doc.nodes.map (·.id) = ["b"] ∧
        doc.RecordsElements nodeInsideNode ∧
        ¬ ∀ tree ∈ nodeInsideNode.opened, tree.tag.isNamed "node" = true →
          tree.hasPairInside "node" = false := by
  have hwell : IsWellFormed nodeInsideNodeText := ⟨by decide, by decide⟩
  have hscan : scan nodeInsideNodeText = nodeInsideNode.events := by decide
  have htwo : (nodeInsideNode.opened.filter (·.tag.isNamed "node")).length = 2 := by decide
  have hread : read .graphml nodeInsideNodeText =
      .ok ⟨currentVersion, .structureOnly, .epoch, [⟨"b", "b", "", .unknown, none, .empty⟩], []⟩ :=
    rfl
  obtain ⟨hrecords, hcount⟩ :=
    (records_of_elements (.inl rfl) hwell).2 nodeInsideNode _ hscan hread
  refine ⟨hwell, hscan, htwo, _, hread, rfl, hrecords, fun hnone => ?_⟩
  have hone := hcount.2 hnone
  rw [htwo] at hone
  exact absurd hone (by decide)

end Document

end CallGraph
