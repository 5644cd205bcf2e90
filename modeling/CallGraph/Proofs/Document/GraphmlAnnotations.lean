import CallGraph.Proofs.Document.GraphmlParts
import CallGraph.Proofs.Document.Openings
import CallGraph.Proofs.Xml.Pruning

/-!
# Data of edges in GraphML

The data of an edge is stored like data of the graph, since no node is open there.  Most of it does
no harm.  But what is known of a document as a whole is looked for in the data of the graph, by the
names of keys; if the key of an edge has one of these names, what is said of the edge is taken for
what is said of the document.

Main results:

- Definition `Graphml.annotations`: data of edges as what is left out of a forest.
- Theorem `Graphml.preserves_annotations`: the data of edges comes to the data of the graph, and
  nothing else depends on it.
- Theorem `Graphml.read_of_bares`: what the data of edges does to the document that is read.
-/

namespace CallGraph

open Xml

namespace Graphml

/-! ## The data of edges -/

/-- The names of the elements that are read. -/
def readNames : List String :=
  ["graphml", "key", "node", "edge", "data"]

/-- The key that a tag declares, with its name. -/
def declaredKey? (tag : Tag) : Option (String × String) :=
  if tag.isNamed "key" then
    (tag.attribute? "id").map fun id => (id, (tag.attribute? "attr.name").getD id)
  else none

/-- The text that an event adds to open data. -/
def eventText : Event → Option String
  | .text bytes => unescape? bytes
  | .verbatim bytes => some (Text.ofBytesLenient bytes)
  | _ => none

/-- Whether an event does nothing but add its text to open data. -/
def isPassive : Event → Bool
  | .start tag | .empty tag => isNoneOf readNames tag.name
  | .finish name => isNoneOf readNames name
  | .text bytes => (unescape? bytes).isSome
  | .verbatim _ | .other => true
  | .fault => false

/-- Where an element stands: right inside an edge, anywhere inside a node, or inside data. -/
structure Surroundings where
  inEdge : Bool := false
  inNode : Bool := false
  inData : Bool := false

/-- The names of the keys that have been declared, and the data of edges with what their keys mean.
The latest come first. -/
structure EdgeData where
  keys : List (String × String) := []
  stated : List (String × String) := []

/-- The key of an element and the text inside. -/
def keyAndText (tree : Tree) : String × String :=
  ((tree.tag.attribute? "key").getD "", String.join (tree.innerEvents.filterMap eventText))

/-- The data of edges is left out, with the texts around it.  It is looked at only outside of nodes
and of other data; it has to have a key, and to hold nothing else that is read. -/
def annotations : Pruning Surroundings EdgeData where
  enter place tag :=
    { inEdge := tag.isNamed "edge"
      inNode := place.inNode || tag.isNamed "node"
      inData := place.inData || tag.isNamed "data" }
  drops place tag := place.inEdge && tag.isNamed "data"
  dropsPlain place _ := place.inEdge
  learn memory tag := { memory with keys := (declaredKey? tag).toList ++ memory.keys }
  note memory tree :=
    let (key, text) := keyAndText tree
    { memory with stated := (meaning memory.keys key, text) :: memory.stated }
  admits _ _ _ := true
  spares place _ tree :=
    !place.inNode && !place.inData && (tree.tag.attribute? "key").isSome &&
      tree.innerEvents.all isPassive
  sparesPlain place event := !place.inData && isPassive event

/-- The data of all edges, with what their keys mean, the latest first. -/
def edgeData (forest : Forest) : List (String × String) :=
  (annotations.remember {} {} forest).stated

namespace Reading

variable {r s t : Reading} {tag : Tag} {isEmpty : Bool} {place : Surroundings}
  {keys stated own : List (String × String)} {key text : String} {texts : List String}

/-! ## Passive events -/

/-- An element that is not read changes nothing. -/
theorem openElement_of_isNoneOf (h : isNoneOf readNames tag.name = true) (r : Reading)
    (isEmpty : Bool) : r.openElement tag isEmpty = .ok r := by
  simp only [isNoneOf, readNames, List.all_cons, List.all_nil, Bool.and_true, Bool.and_eq_true,
    bne_iff_ne] at h
  obtain ⟨hgraphml, hkey, hnode, hedge, hdata⟩ := h
  simp only [openElement, if_neg hgraphml, if_neg hkey, if_neg hnode, if_neg hedge, if_neg hdata]
  rfl

/-- Neither does its end tag. -/
theorem closeElement_of_isNoneOf {name : List UInt8} (h : isNoneOf readNames name = true)
    (r : Reading) : r.closeElement name = .ok r := by
  simp only [isNoneOf, readNames, List.all_cons, List.all_nil, Bool.and_true, Bool.and_eq_true,
    bne_iff_ne] at h
  obtain ⟨-, -, hnode, -, hdata⟩ := h
  simp only [closeElement, if_neg hnode, if_neg hdata]
  rfl

/-- A passive event does nothing while no data is open. -/
theorem step_of_isPassive {event : Event} (h : isPassive event = true)
    (hopen : r.openData = none) : r.step event = .ok r := by
  cases event with
  | start | empty => exact openElement_of_isNoneOf h r _
  | finish => exact closeElement_of_isNoneOf h r
  | text bytes =>
    obtain ⟨text, htext⟩ := Option.isSome_iff_exists.1 h
    simp only [step, htext, addText, hopen]
  | verbatim => simp only [step, addText, hopen]
  | other => rfl
  | fault => cases h

/-- While data is open, a passive event adds its text. -/
theorem step_openData {event : Event} (h : isPassive event = true)
    (hopen : r.openData = some (key, texts)) :
    r.step event =
      .ok { r with openData := some (key, (eventText event).toList ++ texts) } := by
  have hsame : { r with openData := some (key, texts) } = r := by
    rw [← hopen]
  cases event with
  | start | empty => exact (openElement_of_isNoneOf h r _).trans (congrArg _ hsame.symm)
  | finish => exact (closeElement_of_isNoneOf h r).trans (congrArg _ hsame.symm)
  | text bytes =>
    obtain ⟨text, htext⟩ := Option.isSome_iff_exists.1 h
    simp only [step, htext, addText, hopen, eventText, Option.toList_some, List.singleton_append]
  | verbatim =>
    simp only [step, addText, hopen, eventText, Option.toList_some, List.singleton_append]
  | other => exact congrArg _ hsame.symm
  | fault => cases h

/-- While data is open, texts are added to it, and no other event counts. -/
theorem foldlM_openData {events : List Event} (h : events.all isPassive = true)
    (hopen : r.openData = some (key, texts)) :
    events.foldlM step r =
      .ok { r with openData := some (key, (events.filterMap eventText).reverse ++ texts) } := by
  induction events generalizing r texts with
  | nil =>
    have hsame : { r with openData := some (key, texts) } = r := by
      rw [← hopen]
    exact congrArg _ hsame.symm
  | cons event events ih =>
    rw [List.all_cons, Bool.and_eq_true] at h
    rw [foldlM_cons_ok (step_openData h.1 hopen), ih h.2 rfl]
    cases htext : eventText event <;> simp [htext]

/-! ## Where a reading stands -/

/-- The keys that have been declared, and that nothing is open which is not around the place. -/
structure Stands (r : Reading) (place : Surroundings) (keys : List (String × String)) : Prop where
  keys_eq : r.keys = keys
  openNode_eq : place.inNode = false → r.openNode = none
  openData_eq : place.inData = false → r.openData = none

/-- In an element the reader stands where the element is. -/
theorem Stands.enter (h : r.Stands place keys) (tag : Tag) (isEmpty : Bool) :
    r.Stands (if isEmpty then place else annotations.enter place tag) keys := by
  cases isEmpty with
  | true => exact h
  | false =>
    refine ⟨h.keys_eq, fun hnode => h.openNode_eq ?_, fun hdata => h.openData_eq ?_⟩
    · exact (Bool.or_eq_false_iff.1 hnode).1
    · exact (Bool.or_eq_false_iff.1 hdata).1

/-- Storing data moves the reader nowhere. -/
theorem Stands.store (h : r.Stands place keys) (key text : String) :
    (r.store key text).Stands place keys := by
  cases hopen : r.openNode with
  | none =>
    simp only [Reading.store, hopen]
    exact ⟨h.keys_eq, fun _ => rfl, h.openData_eq⟩
  | some n =>
    simp only [Reading.store, hopen]
    refine ⟨h.keys_eq, fun hnode => ?_, h.openData_eq⟩
    cases hopen.symm.trans (h.openNode_eq hnode)

/-- After the start tag of an element the reader stands in it, and knows its key. -/
theorem Stands.openElement (h : r.Stands place keys) (hopen : r.openElement tag isEmpty = .ok t) :
    t.Stands (if isEmpty then place else annotations.enter place tag)
      ((declaredKey? tag).toList ++ keys) := by
  have hsame := h.enter tag isEmpty
  have hnokey (hkey : tag.isNamed "key" = false) : (declaredKey? tag).toList ++ keys = keys := by
    simp [declaredKey?, hkey]
  cases opened_of_openElement hopen with
  | root hname =>
    rw [hnokey (Tag.isNamed_of_ne hname (by decide))]
    exact ⟨hsame.keys_eq, hsame.openNode_eq, hsame.openData_eq⟩
  | key hname hid hkey =>
    simp only [declaredKey?, hname, hid, hkey, if_true, Option.map_some, Option.toList_some,
      List.singleton_append]
    exact ⟨congrArg _ hsame.keys_eq, hsame.openNode_eq, hsame.openData_eq⟩
  | emptyNode hname =>
    rw [hnokey (Tag.isNamed_of_ne hname (by decide))]
    exact ⟨hsame.keys_eq, hsame.openNode_eq, hsame.openData_eq⟩
  | openNode hname hempty =>
    rw [hnokey (Tag.isNamed_of_ne hname (by decide))]
    refine ⟨hsame.keys_eq, fun hnode => ?_, hsame.openData_eq⟩
    simp [hempty, annotations, hname] at hnode
  | edge hname =>
    rw [hnokey (Tag.isNamed_of_ne hname (by decide))]
    exact ⟨hsame.keys_eq, hsame.openNode_eq, hsame.openData_eq⟩
  | emptyData hname =>
    rw [hnokey (Tag.isNamed_of_ne hname (by decide))]
    exact hsame.store _ _
  | openData hname hempty =>
    rw [hnokey (Tag.isNamed_of_ne hname (by decide))]
    refine ⟨hsame.keys_eq, hsame.openNode_eq, fun hdata => ?_⟩
    simp [hempty, annotations, hname] at hdata
  | other hnames =>
    rw [hnokey (hnames "key" (by simp))]
    exact hsame

/-- After the end tag of an element the reader stands around it. -/
theorem Stands.closeElement (h : r.Stands (annotations.enter place tag) keys)
    (hclose : r.closeElement tag.name = .ok t) : t.Stands place keys := by
  have hopenNode (hother : tag.isNamed "node" = false) (hout : place.inNode = false) :
      r.openNode = none := h.openNode_eq (by simp [annotations, hout, hother])
  have hopenData (hother : tag.isNamed "data" = false) (hout : place.inData = false) :
      r.openData = none := h.openData_eq (by simp [annotations, hout, hother])
  simp only [Reading.closeElement, ← Tag.isNamed_iff] at hclose
  split at hclose
  · rename_i hdata
    have hnode := hopenNode (Tag.isNamed_of_ne hdata (by decide))
    split at hclose
    · cases hclose
      have hclosed : Stands { r with openData := none } place keys :=
        ⟨h.keys_eq, hnode, fun _ => rfl⟩
      exact hclosed.store _ _
    · rename_i hnone
      cases hclose
      exact ⟨h.keys_eq, hnode, fun _ => hnone⟩
  rename_i hdata
  rw [Bool.not_eq_true] at hdata
  split at hclose
  · split at hclose
    · obtain ⟨n, -, hn⟩ := bind_eq_ok.1 hclose
      cases hn
      exact ⟨h.keys_eq, fun _ => rfl, hopenData hdata⟩
    · rename_i hnone
      cases hclose
      exact ⟨h.keys_eq, fun _ => hnone, hopenData hdata⟩
  · rename_i hnode
    rw [Bool.not_eq_true] at hnode
    cases hclose
    exact ⟨h.keys_eq, hopenNode hnode, hopenData hdata⟩

/-- A text moves the reader nowhere. -/
theorem Stands.addText (h : r.Stands place keys) (text : String) :
    (r.addText text).Stands place keys := by
  cases hopen : r.openData with
  | none =>
    simp only [Reading.addText, hopen]
    exact h
  | some data =>
    simp only [Reading.addText, hopen]
    refine ⟨h.keys_eq, h.openNode_eq, fun hdata => ?_⟩
    cases hopen.symm.trans (h.openData_eq hdata)

/-! ## Two readings -/

/-- The second reading lacks some data of the graph, and is the same otherwise. -/
structure Adds (stated : List (String × String)) (r s : Reading) : Prop where
  eq : s = { r with graphData := s.graphData }
  sublist : s.graphData.Sublist r.graphData
  perm : r.graphData.Perm (stated ++ s.graphData)

namespace Adds

/-- It is enough to look at a reading and the same one with other data of the graph. -/
theorem alike (h : r.Adds stated s) (next : Reading → Except DocumentFault Reading)
    (hnext : ∀ own, own.Sublist r.graphData → r.graphData.Perm (stated ++ own) →
      Alike (Adds stated) (next r) (next { r with graphData := own })) :
    Alike (Adds stated) (next r) (next s) := by
  have hsame := hnext s.graphData h.sublist h.perm
  rwa [← h.eq] at hsame

/-- Both readers store the same data. -/
theorem store (hsublist : own.Sublist r.graphData) (hperm : r.graphData.Perm (stated ++ own))
    (key text : String) :
    (r.store key text).Adds stated ({ r with graphData := own }.store key text) := by
  cases hopen : r.openNode with
  | none =>
    simp only [Reading.store, hopen]
    exact ⟨rfl, hsublist.cons_cons _, (hperm.cons _).trans List.perm_middle.symm⟩
  | some n =>
    simp only [Reading.store, hopen]
    exact ⟨rfl, hsublist, hperm⟩

/-- Both readers accept the same start tags, and stay as far apart as they were. -/
theorem openElement (h : r.Adds stated s) (tag : Tag) (isEmpty : Bool) :
    Alike (Adds stated) (r.openElement tag isEmpty) (s.openElement tag isEmpty) := by
  refine h.alike (fun r => r.openElement tag isEmpty) fun own hsublist hperm => ?_
  -- The root, keys, nodes, edges and data come in this order, and last what is not read.
  simp only [Reading.openElement]
  split
  · exact .ok ⟨rfl, hsublist, hperm⟩
  split
  · refine .bind_same fun attributes _ => .bind_same fun id _ => ?_
    exact .ok ⟨rfl, hsublist, hperm⟩
  split
  · refine .bind_same fun attributes _ => .bind_same fun id _ => ?_
    split
    · exact .bind_same fun n _ => .ok ⟨rfl, hsublist, hperm⟩
    · exact .ok ⟨rfl, hsublist, hperm⟩
  split
  · refine .bind_same fun attributes _ => .bind_same fun source _ => .bind_same fun target _ => ?_
    exact .ok ⟨rfl, hsublist, hperm⟩
  split
  · refine .bind_same fun attributes _ => .bind_same fun key _ => ?_
    split
    · exact .ok (store hsublist hperm key "")
    · exact .ok ⟨rfl, hsublist, hperm⟩
  · exact .ok ⟨rfl, hsublist, hperm⟩

/-- Both readers accept the same end tags. -/
theorem closeElement (h : r.Adds stated s) (name : List UInt8) :
    Alike (Adds stated) (r.closeElement name) (s.closeElement name) := by
  refine h.alike (fun r => r.closeElement name) fun own hsublist hperm => ?_
  simp only [Reading.closeElement]
  split
  · split
    · rename_i key texts hopen
      exact .ok (store (r := { r with openData := none }) hsublist hperm key _)
    · exact .ok ⟨rfl, hsublist, hperm⟩
  split
  · split
    · exact .bind_same fun n _ => .ok ⟨rfl, hsublist, hperm⟩
    · exact .ok ⟨rfl, hsublist, hperm⟩
  · exact .ok ⟨rfl, hsublist, hperm⟩

/-- Both readers take the same texts. -/
theorem addText (h : r.Adds stated s) (text : String) :
    Alike (Adds stated) (.ok (r.addText text) : Except DocumentFault Reading)
      (.ok (s.addText text)) := by
  refine h.alike (fun r => .ok (r.addText text)) fun own hsublist hperm => ?_
  simp only [Reading.addText]
  split
  · exact .ok ⟨rfl, hsublist, hperm⟩
  · exact .ok ⟨rfl, hsublist, hperm⟩

end Adds

/-! ## Data of an edge -/

/-- Data is opened with its key, or stored at once if its element is empty. -/
theorem openElement_of_data (hname : tag.isNamed "data" = true)
    (hkey : tag.attribute? "key" = some key) (r : Reading) (isEmpty : Bool) :
    r.openElement tag isEmpty =
      .ok (if isEmpty then r.store key "" else { r with openData := some (key, []) }) := by
  obtain ⟨attributes, hattributes, hvalue⟩ := Option.bind_eq_some_iff.1 hkey
  have hother := Tag.not_isNamed hname
  simp only [openElement, ← Tag.isNamed_iff, if_neg (hother "graphml" (by decide)),
    if_neg (hother "key" (by decide)), if_neg (hother "node" (by decide)),
    if_neg (hother "edge" (by decide)), if_pos hname, attributesOf_eq_ok.2 hattributes, ok_bind,
    required_eq_ok.2 hvalue]
  cases isEmpty <;> rfl

/-- Data that stands in no node and in no other data is stored with the data of the graph. -/
theorem foldlM_annotation {tree : Tree} (hname : tree.tag.isNamed "data" = true)
    (hkey : (tree.tag.attribute? "key").isSome = true)
    (hinside : tree.innerEvents.all isPassive = true) (hnode : r.openNode = none)
    (hdata : r.openData = none) :
    tree.events.foldlM step r =
      .ok { r with graphData :=
        (meaning r.keys (keyAndText tree).1, (keyAndText tree).2) :: r.graphData } := by
  obtain ⟨tag, inside⟩ := tree
  obtain ⟨key, hkey⟩ := Option.isSome_iff_exists.1 hkey
  have hopen (isEmpty : Bool) := openElement_of_data hname hkey r isEmpty
  cases inside with
  | none =>
    have hstep : step r (.empty tag) = .ok (r.store key "") := hopen true
    rw [Tree.events, foldlM_cons_ok hstep]
    simp only [store, hnode, keyAndText, hkey, Tree.innerEvents]
    rfl
  | some inside =>
    -- The data is opened, collects the texts inside, and is stored when it is closed.
    have hstart : step r (.start tag) = .ok { r with openData := some (key, []) } := hopen false
    have hfinish :
        step { r with openData := some (key, (inside.events.filterMap eventText).reverse) }
          (.finish tag.name) =
        .ok (store { r with openData := none } key
          (String.join (inside.events.filterMap eventText))) := by
      simp only [step, closeElement, ← Tag.isNamed_iff, if_pos hname, List.reverse_reverse]
      rfl
    have hinner : inside.events.foldlM step { r with openData := some (key, []) } = .ok _ :=
      foldlM_openData hinside rfl
    rw [List.append_nil] at hinner
    rw [Tree.events, foldlM_cons_ok hstart, foldlM_append_ok hinner, foldlM_cons_ok hfinish]
    simp only [store, hnode, keyAndText, hkey, Tree.innerEvents, Option.getD_some, ← hdata]
    rfl

/-- How a reading stands to the same one without the data of edges. -/
def Annotates (place : Surroundings) (memory : EdgeData) (r s : Reading) : Prop :=
  r.Stands place memory.keys ∧ r.Adds memory.stated s

end Reading

open Reading in
/-- The data of edges comes to the data of the graph, and nothing else depends on it. -/
theorem preserves_annotations : annotations.Preserves Reading.step Reading.Annotates where
  start h _ _ := (h.2.openElement _ false).and_left fun _ ht => h.1.openElement ht
  empty h _ _ := (h.2.openElement _ true).and_left fun _ ht => h.1.openElement ht
  finish h _ := (h.2.closeElement _).and_left fun _ ht => h.1.closeElement ht
  plain {place memory r s event} h hplain hdrops := by
    cases event with
    | start | empty | finish | fault => cases hplain
    | other => exact .ok h
    | verbatim bytes =>
      exact (h.2.addText _).and_left fun t ht => Except.ok.inj ht ▸ h.1.addText _
    | text bytes =>
      simp only [step]
      split
      · exact (h.2.addText _).and_left fun t ht => Except.ok.inj ht ▸ h.1.addText _
      · exact .error _
  element {place memory r s} tree h hdrops hspares := by
    simp only [annotations, Bool.and_eq_true, Bool.not_eq_true'] at hdrops hspares
    obtain ⟨⟨⟨hnode, hdata⟩, hkey⟩, hinside⟩ := hspares
    obtain ⟨hstands, hadds⟩ := h
    refine ⟨_, foldlM_annotation hdrops.2 hkey hinside (hstands.openNode_eq hnode)
      (hstands.openData_eq hdata), ⟨hstands.keys_eq, hstands.openNode_eq, hstands.openData_eq⟩,
      hadds.eq, hadds.sublist.cons _, ?_⟩
    rw [hstands.keys_eq]
    exact hadds.perm.cons _
  between {place memory r s event} h _ _ hspares := by
    simp only [annotations, Bool.and_eq_true, Bool.not_eq_true'] at hspares
    exact ⟨r, step_of_isPassive hspares.2 (h.1.openData_eq hspares.1), h⟩

/-! ## What is said of the document -/

/-- The names of keys by which a document is described. -/
def Header.names : List String :=
  ["format_version", "mode", "saved_at"]

/-- Whether the data can be read, as what it says of a document if it says something. -/
def Header.Accepts (entry : String × String) : Prop :=
  ∀ h : Header, ∃ after, h.add entry = .ok after

namespace Header

variable {entry : String × String}

/-- Data with a name that no header has is left out of it. -/
theorem add_of_not_mem (hentry : entry.1 ∉ names) (h : Header) : h.add entry = .ok h := by
  simp only [names, List.mem_cons, List.not_mem_nil, or_false, not_or] at hentry
  obtain ⟨hversion, hmode, hsavedAt⟩ := hentry
  rw [add]
  split
  · exact absurd ‹_› hversion
  · exact absurd ‹_› hmode
  · exact absurd ‹_› hsavedAt
  · rfl

/-- What is known already has no part in whether data can be read. -/
theorem accepts_iff (h : Header) : Accepts entry ↔ ∃ after, h.add entry = .ok after := by
  refine ⟨fun haccepts => haccepts h, fun ⟨after, hafter⟩ other => ?_⟩
  simp only [add] at hafter ⊢
  split at hafter
  · split at hafter
    · exact ⟨_, rfl⟩
    · cases hafter
  · split at hafter
    · exact ⟨_, rfl⟩
    · cases hafter
  · split at hafter
    · exact ⟨_, rfl⟩
    · cases hafter
  · exact ⟨_, rfl⟩

/-- A header is made of data that it accepts, whatever stands before. -/
theorem exists_foldlM_add_iff (entries : List (String × String)) (h : Header) :
    (∃ after, entries.foldlM add h = .ok after) ↔ ∀ entry ∈ entries, Accepts entry := by
  induction entries generalizing h with
  | nil => exact ⟨fun _ => by simp, fun _ => ⟨h, rfl⟩⟩
  | cons entry rest ih =>
    rw [List.forall_mem_cons, accepts_iff h]
    constructor
    · rintro ⟨after, hafter⟩
      obtain ⟨mid, hmid, hrest⟩ := foldlM_cons_eq_ok.1 hafter
      exact ⟨⟨mid, hmid⟩, (ih mid).1 ⟨after, hrest⟩⟩
    · rintro ⟨⟨mid, hmid⟩, hrest⟩
      obtain ⟨after, hafter⟩ := (ih mid).2 hrest
      exact ⟨after, foldlM_cons_eq_ok.2 ⟨mid, hmid, hafter⟩⟩

/-- Only data with names of the header counts. -/
theorem foldlM_add_filter (entries : List (String × String)) (h : Header) :
    entries.foldlM add h = (entries.filter (·.1 ∈ names)).foldlM add h := by
  induction entries generalizing h with
  | nil => rfl
  | cons entry rest ih =>
    by_cases hentry : entry.1 ∈ names
    · rw [List.filter_cons_of_pos (by simpa using hentry), List.foldlM_cons, List.foldlM_cons]
      exact congrArg _ (funext ih)
    · rw [List.filter_cons_of_neg (by simpa using hentry),
        foldlM_cons_ok (add_of_not_mem hentry h), ih]

end Header

namespace Reading

variable {r s : Reading} {stated : List (String × String)}

/-- A document is read if there was a root and its header accepts all data of the graph. -/
theorem exists_finish_iff :
    (∃ doc, r.finish = .ok doc) ↔
      r.sawRoot = true ∧ ∀ entry ∈ r.graphData, Header.Accepts entry := by
  have hall := Header.exists_foldlM_add_iff r.graphData.reverse
    ⟨Document.currentVersion, none, .epoch⟩
  simp only [List.mem_reverse] at hall
  rw [← hall]
  constructor
  · rintro ⟨doc, hdoc⟩
    obtain ⟨header, hheader, -⟩ := exists_header_of_finish hdoc
    cases hroot : r.sawRoot with
    | true => exact ⟨rfl, header, hheader⟩
    | false =>
      simp only [finish, hroot] at hdoc
      cases hdoc
  · rintro ⟨hroot, header, hheader⟩
    simp only [finish, hroot, hheader]
    exact ⟨_, rfl⟩

namespace Adds

/-- A reader that has read nothing more is the same reader. -/
theorem eq_of_nil (h : r.Adds [] s) : r = s := by
  rw [h.eq, h.sublist.eq_of_length h.perm.length_eq.symm]

/-- What is added makes no difference if none of it describes a document. -/
theorem finish_eq (h : r.Adds stated s) (hstated : ∀ entry ∈ stated, entry.1 ∉ Header.names) :
    r.finish = s.finish := by
  -- Of what the readings have stored, the same entries count, in the same order.
  have hnone : stated.filter (·.1 ∈ Header.names) = [] :=
    List.filter_eq_nil_iff.2 fun entry hentry => by simpa using hstated entry hentry
  have hlength : (s.graphData.filter (·.1 ∈ Header.names)).length =
      (r.graphData.filter (·.1 ∈ Header.names)).length := by
    rw [(h.perm.filter _).length_eq, List.filter_append, hnone, List.nil_append]
  have hfilter := (h.sublist.filter (·.1 ∈ Header.names)).eq_of_length hlength
  have hheader : r.graphData.reverse.foldlM Header.add ⟨Document.currentVersion, none, .epoch⟩ =
      s.graphData.reverse.foldlM Header.add ⟨Document.currentVersion, none, .epoch⟩ := by
    rw [Header.foldlM_add_filter, List.filter_reverse, ← hfilter, ← List.filter_reverse,
      ← Header.foldlM_add_filter]
  rw [h.eq]
  simp only [finish, hheader]

/-- With what is added, a document is read if one is read without, and all that is added can be
read. -/
theorem exists_finish_iff (h : r.Adds stated s) :
    (∃ doc, r.finish = .ok doc) ↔
      (∃ doc, s.finish = .ok doc) ∧ ∀ entry ∈ stated, Header.Accepts entry := by
  have hroot : s.sawRoot = r.sawRoot := by
    rw [h.eq]
  simp only [Reading.exists_finish_iff, hroot, h.perm.mem_iff, List.mem_append, or_imp,
    forall_and]
  exact ⟨fun ⟨hroot, hadded, hkept⟩ => ⟨⟨hroot, hkept⟩, hadded⟩,
    fun ⟨⟨hroot, hkept⟩, hadded⟩ => ⟨hroot, hadded, hkept⟩⟩

/-- What is added has no part in nodes and edges. -/
theorem nodes_and_edges_eq (h : r.Adds stated s) {doc other : Document}
    (hdoc : r.finish = .ok doc) (hother : s.finish = .ok other) :
    doc.nodes = other.nodes ∧ doc.edges = other.edges := by
  obtain ⟨-, -, rfl⟩ := exists_header_of_finish hdoc
  obtain ⟨-, -, rfl⟩ := exists_header_of_finish hother
  rw [h.eq]
  exact ⟨rfl, rfl⟩

end Adds

end Reading

/-! ## The document that is read -/

/-- What the data of edges does to a document that is read, compared with the same document without
such data.  As long as it has no name that describes documents, it does nothing.  Otherwise it has
to be in order, or no document is read.  Nodes and edges are the same in any case. -/
structure ReadsAnnotated (stated : List (String × String))
    (annotated bare : Except DocumentFault Document) : Prop where
  eq_of_not_mem : (∀ entry ∈ stated, entry.1 ∉ Header.names) → annotated = bare
  exists_iff : (∃ doc, annotated = .ok doc) ↔
    (∃ doc, bare = .ok doc) ∧ ∀ entry ∈ stated, Header.Accepts entry
  nodes_and_edges_eq : ∀ doc other, annotated = .ok doc → bare = .ok other →
    doc.nodes = other.nodes ∧ doc.edges = other.edges

/-- A text with annotations is read as the one without them, with the data of edges among the data
of the graph. -/
theorem read_of_bares {bytes other : List UInt8} {forest otherForest : Forest}
    (hscan : scan bytes = forest.events) (hother : scan other = otherForest.events)
    (hbares : annotations.Bares {} {} forest otherForest) :
    ReadsAnnotated (edgeData forest) (read bytes) (read other) := by
  have hstart : ({} : Reading).Annotates {} {} {} :=
    ⟨⟨rfl, fun _ => rfl, fun _ => rfl⟩, rfl, List.Sublist.refl _, List.Perm.refl _⟩
  have hnone : (annotations.remember {} {} otherForest).stated = [] :=
    Pruning.remember_of_isBare (P := fun memory => memory.stated = []) (fun _ _ h => h)
      hbares.other_isBare rfl
  have halike := preserves_annotations.alike_of_bares hstart hbares
  rw [read, read, hscan, hother]
  generalize forest.events.foldlM Reading.step {} = annotated at halike ⊢
  generalize otherForest.events.foldlM Reading.step {} = bare at halike ⊢
  cases halike with
  | error fault =>
    have hnone : ¬ ∃ doc, (Except.error fault >>= Reading.finish) = .ok doc := by
      rintro ⟨doc, hdoc⟩
      cases hdoc
    exact ⟨fun _ => rfl, ⟨fun h => absurd h hnone, fun h => absurd h.1 hnone⟩,
      fun doc _ hdoc => absurd ⟨doc, hdoc⟩ hnone⟩
  | ok h =>
    obtain ⟨t, ⟨-, hadds⟩, -, hbare⟩ := h
    rw [hnone] at hbare
    obtain rfl := hbare.eq_of_nil
    exact ⟨hadds.finish_eq, hadds.exists_finish_iff, fun _ _ => hadds.nodes_and_edges_eq⟩

end Graphml

end CallGraph
