import CallGraph.Document.Graphml
import CallGraph.Proofs.Calendar.Reader
import CallGraph.Proofs.Code.Data
import CallGraph.Proofs.Document.Range
import CallGraph.Proofs.Xml.Scanner

/-!
# GraphML documents read back

A reader of GraphML is followed through the events of a document that was written: keys, then what
is known of the document as a whole, then nodes, each put together from its data, and edges.  Keys
keep their meanings because the mark of node attributes separates their keys from all others.

Only the time a document was saved at can be lost.  It is written for every year, but read in the
strict spelling, which has years of four digits.

Main results:

- Theorem `Graphml.meaning_eq_self`: a key that is declared as it is written means itself.
- Theorem `Graphml.foldlM_addData_nodeData`: a node is put together from what is written of it.
- Theorem `Graphml.Reading.foldlM_write`: what has been read at the end of a document.
- Theorem `Graphml.reads_back_iff_four_digit_year`: the documents that are read back.
-/

namespace CallGraph

namespace Graphml

open Xml

/-! ## Keys -/

/-- The mark of a node attribute is cut off. -/
theorem afterMark?_append (name : String) : afterMark? (attributeMark ++ name) = some name := by
  have hmark : (attributeMark ++ name).toList = attributeMark.toList ++ name.toList :=
    String.toList_append
  rw [afterMark?, hmark, if_pos (List.isPrefixOf_iff_prefix.2 (List.prefix_append ..)),
    List.drop_left' (by rfl), String.ofList_toList]

/-- A key from which the mark is cut off began with it. -/
theorem append_of_afterMark? {key name : String} (h : afterMark? key = some name) :
    key = attributeMark ++ name := by
  rw [afterMark?] at h
  split at h
  · rename_i hstart
    obtain ⟨rest, hrest⟩ := List.isPrefixOf_iff_prefix.1 hstart
    have hname : String.ofList rest = name := by
      rw [← hrest, List.drop_left' (by rfl)] at h
      exact Option.some.inj h
    apply String.toList_injective
    rw [String.toList_append, ← hname, String.toList_ofList, hrest]
  · cases h

/-- Every key that is declared names itself, apart from the mark of node attributes. -/
def IsFaithful (keys : List (String × String)) : Prop :=
  ∀ entry ∈ keys, entry.1 = attributeMark ++ entry.2 ∨
    (entry.1 = entry.2 ∧ afterMark? entry.1 = none)

/-- Under faithful declarations every key means itself. -/
theorem meaning_eq_self {keys : List (String × String)} (h : IsFaithful keys) (key : String) :
    meaning keys key = key := by
  have hdeclared : ∀ entry ∈ keys.find? (·.1 == key), entry ∈ keys ∧ entry.1 = key :=
    fun entry hentry => ⟨List.mem_of_find?_eq_some hentry, by simpa using List.find?_some hentry⟩
  unfold meaning
  cases hmark : afterMark? key with
  | some name =>
    have hkey := append_of_afterMark? hmark
    cases hfind : keys.find? (·.1 == key) with
    | none => exact hkey.symm
    | some entry =>
      obtain ⟨hmem, hentry⟩ := hdeclared entry hfind
      rcases h entry hmem with hnamed | ⟨-, hnone⟩
      · exact hnamed.symm.trans hentry
      · rw [hentry, hmark] at hnone
        cases hnone
  | none =>
    cases hfind : keys.find? (·.1 == key) with
    | none => rfl
    | some entry =>
      obtain ⟨hmem, hentry⟩ := hdeclared entry hfind
      rcases h entry hmem with hnamed | ⟨hself, -⟩
      · rw [← hentry, hnamed, afterMark?_append] at hmark
        cases hmark
      · exact hself.symm.trans hentry

/-! ## Tags -/

/-- The attributes of a tag are read back. -/
theorem attributesOf_tag {name : String} {attributes : List (String × String)}
    (h : WellNamed name attributes) :
    attributesOf (tag name attributes) =
      .ok (attributes.map fun entry => (ascii entry.1, entry.2)) := by
  rw [attributesOf, attributes?_tag h]

theorem wellNamed_key (id domain name : String) :
    WellNamed "key" [("id", id), ("for", domain), ("attr.name", name), ("attr.type", "string")] :=
  .of_names ["id", "for", "attr.name", "attr.type"] rfl (by decide)

theorem wellNamed_data (key : String) : WellNamed "data" [("key", key)] :=
  .of_names ["key"] rfl (by decide)

theorem wellNamed_node (id : String) : WellNamed "node" [("id", id)] :=
  .of_names ["id"] rfl (by decide)

theorem wellNamed_edge (e : Edge) : WellNamed "edge" [("source", e.caller), ("target", e.callee)] :=
  .of_names ["source", "target"] rfl (by decide)

namespace Reading

variable (r : Reading)

/-- The declaration of a key adds its name. -/
theorem openElement_key (id domain name : String) :
    r.openElement (tag "key"
        [("id", id), ("for", domain), ("attr.name", name), ("attr.type", "string")]) true =
      .ok { r with keys := (id, name) :: r.keys } := by
  have hname : localName (ascii "key") = ascii "key" := rfl
  have hattributes := attributesOf_tag (wellNamed_key id domain name)
  simp only [List.map_cons, List.map_nil] at hattributes
  simp +decide only [openElement, tag_name, hname, hattributes, ↓reduceIte]
  rfl

/-- Data is opened with its key. -/
theorem openElement_data (key : String) :
    r.openElement (tag "data" [("key", key)]) false =
      .ok { r with openData := some (key, []) } := by
  have hname : localName (ascii "data") = ascii "data" := rfl
  have hattributes := attributesOf_tag (wellNamed_data key)
  simp only [List.map_cons, List.map_nil] at hattributes
  simp +decide only [openElement, tag_name, hname, hattributes, ↓reduceIte]
  rfl

/-- The start tag of a node opens a node with its id. -/
theorem openElement_node (id : String) :
    r.openElement (tag "node" [("id", id)]) false = .ok { r with openNode := some ⟨id, []⟩ } := by
  have hname : localName (ascii "node") = ascii "node" := rfl
  have hattributes := attributesOf_tag (wellNamed_node id)
  simp only [List.map_cons, List.map_nil] at hattributes
  simp +decide only [openElement, tag_name, hname, hattributes, ↓reduceIte]
  rfl

/-- An edge adds its two ends. -/
theorem openElement_edge (e : Edge) :
    r.openElement (tag "edge" [("source", e.caller), ("target", e.callee)]) true =
      .ok { r with edges := e :: r.edges } := by
  have hname : localName (ascii "edge") = ascii "edge" := rfl
  have hattributes := attributesOf_tag (wellNamed_edge e)
  simp only [List.map_cons, List.map_nil] at hattributes
  simp +decide only [openElement, tag_name, hname, hattributes, ↓reduceIte]
  rfl

/-! ## Elements without elements in them -/

variable {r}

/-- The text before an element does not count. -/
theorem step_lineEvent (h : r.openData = none) (depth : Nat) :
    r.step (lineEvent depth) = .ok r := by
  rw [lineEvent, step, unescape?_newLine]
  simp only [addText, h]

/-- A declaration is read back. -/
theorem foldlM_key (h : r.openData = none) (depth : Nat) (id domain name : String) :
    ((key id domain name).events depth).foldlM step r =
      .ok { r with keys := (id, name) :: r.keys } := by
  have hempty : r.step (.empty (tag "key" [("id", id), ("for", domain), ("attr.name", name),
      ("attr.type", "string")])) = .ok { r with keys := (id, name) :: r.keys } :=
    r.openElement_key id domain name
  exact Element.foldlM_empty (step_lineEvent h depth) hempty

/-- An edge is read back. -/
theorem foldlM_edge (h : r.openData = none) (depth : Nat) (e : Edge) :
    ((edge e).events depth).foldlM step r = .ok { r with edges := e :: r.edges } := by
  have hempty : r.step (.empty (tag "edge" [("source", e.caller), ("target", e.callee)])) =
      .ok { r with edges := e :: r.edges } := r.openElement_edge e
  exact Element.foldlM_empty (step_lineEvent h depth) hempty

/-- Data is stored where it belongs, whatever its text is. -/
theorem foldlM_data (h : r.openData = none) (depth : Nat) (key value : String) :
    ((data key value).events depth).foldlM step r = .ok (r.store key value) := by
  have hopen : r.step (.start (tag "data" [("key", key)])) =
      .ok { r with openData := some (key, []) } := r.openElement_data key
  have htexts : (textEvents value).foldlM step { r with openData := some (key, []) } =
      .ok { r with openData := some (key, if value.isEmpty then [] else [value]) } := by
    rw [textEvents]
    split
    · rfl
    · simp only [List.foldlM_cons, step, unescape?_escape, addText]
      rfl
  have hjoin : String.join (if value.isEmpty then [] else [value]).reverse = value := by
    split
    · rename_i hempty
      rw [String.isEmpty_iff] at hempty
      rw [hempty]
      rfl
    · simp [String.join]
  have hsame : { r with openData := none } = r := by
    rw [← h]
  have hfinish : step { r with openData := some (key, if value.isEmpty then [] else [value]) }
      (.finish (ascii "data")) = .ok (r.store key value) := by
    have hname : localName (ascii "data") = ascii "data" := rfl
    simp only [step, closeElement, hname, ↓reduceIte, hjoin, hsame]
    rfl
  rw [data, Element.events, foldlM_cons_ok (step_lineEvent h depth), foldlM_cons_ok hopen,
    foldlM_append_ok htexts, foldlM_cons_ok hfinish]
  rfl

/-! ## Elements with elements in them -/

/-- Between elements, nothing is open, and all keys mean themselves. -/
structure IsIdle (r : Reading) : Prop where
  openNode : r.openNode = none
  openData : r.openData = none
  keys : IsFaithful r.keys

/-- In a node, data goes to the node. -/
theorem foldlM_nodeData (h : r.openData = none) (hkeys : IsFaithful r.keys) (id : String)
    (entries : List (String × String)) (depth : Nat) :
    (Element.allEvents depth (entries.map fun entry => data entry.1 entry.2)).foldlM step
        { r with openNode := some ⟨id, []⟩ } =
      .ok { r with openNode := some ⟨id, entries.reverse⟩ } := by
  have hentry : ∀ entry ∈ entries, ∀ found,
      ((data entry.1 entry.2).events depth).foldlM step { r with openNode := some ⟨id, found⟩ } =
        .ok { r with openNode := some ⟨id, entry :: found⟩ } := by
    intro entry _ found
    have hstore : store { r with openNode := some ⟨id, found⟩ } entry.1 entry.2 =
        { r with openNode := some ⟨id, entry :: found⟩ } := by
      simp only [store, meaning_eq_self hkeys]
    have hread := foldlM_data (r := { r with openNode := some ⟨id, found⟩ }) h depth entry.1 entry.2
    rwa [hstore] at hread
  have hall := Element.foldlM_allEvents (fun found => { r with openNode := some ⟨id, found⟩ })
    (fun entry => entry) hentry []
  rwa [List.map_id', List.append_nil] at hall

/-- Outside of nodes, data goes to the graph. -/
theorem foldlM_graphData (h : r.IsIdle) (entries : List (String × String)) (depth : Nat) :
    (Element.allEvents depth (entries.map fun entry => data entry.1 entry.2)).foldlM step r =
      .ok { r with graphData := entries.reverse ++ r.graphData } := by
  have hentry : ∀ entry ∈ entries, ∀ found,
      ((data entry.1 entry.2).events depth).foldlM step { r with graphData := found } =
        .ok { r with graphData := entry :: found } := by
    intro entry _ found
    have hstore : store { r with graphData := found } entry.1 entry.2 =
        { r with graphData := entry :: found } := by
      simp only [store, h.openNode, meaning_eq_self h.keys]
    have hread := foldlM_data (r := { r with graphData := found }) h.openData depth entry.1 entry.2
    rwa [hstore] at hread
  have hall := Element.foldlM_allEvents (fun found => { r with graphData := found })
    (fun entry => entry) hentry r.graphData
  rwa [List.map_id'] at hall

end Reading

/-! ## Nodes -/

/-- What is written of a code object. -/
def objectData : Detail → Option CodeObject → List (String × String)
  | .full, some object => [("code_object", Json.line object.toData)]
  | _, _ => []

/-- What is written of a node, by key. -/
def nodeData (detail : Detail) (n : Node) : List (String × String) :=
  [("name", n.name)] ++ (if n.packageName.isEmpty then [] else [("package", n.packageName)]) ++
    [("kind", n.kind.name)] ++ objectData detail n.object ++
    n.attributes.entries.map fun entry => (attributeMark ++ entry.1, entry.2)

/-- Every piece of data about a node is an element of its own. -/
theorem node_eq (detail : Detail) (n : Node) :
    node detail n =
      .group "node" [("id", n.id)] ((nodeData detail n).map fun entry => data entry.1 entry.2) := by
  obtain ⟨id, name, packageName, kind, object, attributes⟩ := n
  cases detail <;> cases object <;> cases hempty : packageName.isEmpty <;>
    simp [node, nodeData, objectData, hempty]

/-- Data with the mark of node attributes becomes an attribute. -/
theorem addData_attribute (n : Node) (key value : String) :
    addData n (attributeMark ++ key, value) = .ok (n.setAttribute key value) := by
  have hmark := afterMark?_append key
  have hne {other : String} (hother : afterMark? other = none) : attributeMark ++ key ≠ other := by
    intro heq
    rw [heq, hother] at hmark
    cases hmark
  unfold addData
  simp only
  split
  · exact absurd ‹_› (hne (by decide))
  · exact absurd ‹_› (hne (by decide))
  · exact absurd ‹_› (hne (by decide))
  · exact absurd ‹_› (hne (by decide))
  · rw [hmark, Option.getD_some]

/-- Data with the mark becomes the attributes, one after the other. -/
theorem foldlM_addData_attributes (n : Node) (entries : List (String × String)) :
    (entries.map fun entry => (attributeMark ++ entry.1, entry.2)).foldlM addData n =
      .ok { n with
        attributes := entries.foldl (fun m entry => m.insert entry.1 entry.2) n.attributes } := by
  induction entries generalizing n with
  | nil => rfl
  | cons entry entries ih =>
    rw [List.map_cons, List.foldlM_cons, addData_attribute]
    exact ih (n.setAttribute entry.1 entry.2)

/-- A code object is read back from its line. -/
theorem codeObject?_line {object : CodeObject} (h : object.InRange) :
    codeObject? (Json.line object.toData) = some object :=
  CodeObject.read_line_toData h

/-- A node is put together again from what is written of it. -/
theorem foldlM_addData_nodeData {detail : Detail} {n : Node} (hrange : n.InRange)
    (hobject : detail = .full ∨ n.object = none) :
    (nodeData detail n).foldlM addData ⟨n.id, n.id, "", .unknown, none, .empty⟩ = .ok n := by
  obtain ⟨id, name, packageName, kind, object, attributes⟩ := n
  have hname : addData ⟨id, id, "", .unknown, none, .empty⟩ ("name", name) =
      .ok ⟨id, name, "", .unknown, none, .empty⟩ := rfl
  have hpackage : (if packageName.isEmpty then [] else [("package", packageName)]).foldlM addData
      ⟨id, name, "", .unknown, none, .empty⟩ =
      .ok ⟨id, name, packageName, .unknown, none, .empty⟩ := by
    split
    · rename_i hempty
      rw [String.isEmpty_iff] at hempty
      rw [hempty]
      rfl
    · rfl
  have hkind : addData ⟨id, name, packageName, .unknown, none, .empty⟩ ("kind", kind.name) =
      .ok ⟨id, name, packageName, kind, none, .empty⟩ := by
    simp only [addData, Kind.ofText_name]
  have hcode : (objectData detail object).foldlM addData
      ⟨id, name, packageName, kind, none, .empty⟩ =
      .ok ⟨id, name, packageName, kind, object, .empty⟩ := by
    cases object with
    | none => cases detail <;> rfl
    | some object =>
      obtain rfl : detail = .full := hobject.resolve_right (by simp)
      have hread := codeObject?_line (hrange object rfl)
      simp only [objectData, List.foldlM_cons, addData, hread]
      rfl
  have hattributes := foldlM_addData_attributes ⟨id, name, packageName, kind, object, .empty⟩
    attributes.entries
  have hentries : attributes.entries.foldl (fun m entry => m.insert entry.1 entry.2) TextMap.empty =
      attributes := attributes.ofList_entries
  rw [hentries] at hattributes
  simp only [nodeData, List.append_assoc, List.cons_append, List.nil_append]
  rw [foldlM_cons_ok hname, foldlM_append_ok hpackage, foldlM_cons_ok hkind, foldlM_append_ok hcode,
    hattributes]

namespace Reading

variable {r : Reading}

/-- A node is read as it was written. -/
theorem foldlM_node (h : r.IsIdle) {detail : Detail} {n : Node} (hrange : n.InRange)
    (hobject : detail = .full ∨ n.object = none) (depth : Nat) :
    ((node detail n).events depth).foldlM step r = .ok { r with nodes := n :: r.nodes } := by
  have hopen : r.step (.start (tag "node" [("id", n.id)])) =
      .ok { r with openNode := some ⟨n.id, []⟩ } := r.openElement_node n.id
  have hdata := foldlM_nodeData h.openData h.keys n.id (nodeData detail n) (depth + 1)
  have hnode : OpenNode.close ⟨n.id, (nodeData detail n).reverse⟩ = .ok n := by
    rw [OpenNode.close, List.reverse_reverse, foldlM_addData_nodeData hrange hobject]
  have hclose : step { r with openNode := some ⟨n.id, (nodeData detail n).reverse⟩ }
      (.finish (ascii "node")) = .ok { r with openNode := none, nodes := n :: r.nodes } := by
    simp +decide only [step, closeElement, hnode, ↓reduceIte]
    rfl
  have hend := step_lineEvent (r := { r with
    openNode := some ⟨n.id, (nodeData detail n).reverse⟩ }) h.openData depth
  rw [node_eq, Element.foldlM_group (step_lineEvent h.openData depth) hopen hdata hend hclose,
    ← h.openNode]

end Reading

/-! ## Documents -/

/-- The declarations of the keys that all documents have: the key, what it is of, and its name. -/
def fixedDeclarations (detail : Detail) : List (String × String × String) :=
  ["format_version", "mode", "saved_at"].map (fun id => (id, "graph", id)) ++
    ["name", "package", "kind"].map (fun id => (id, "node", id)) ++
    (if detail = .full then [("code_object", "node", "code_object")] else [])

/-- The declarations of all keys of a document. -/
def declarations (doc : Document) : List (String × String × String) :=
  fixedDeclarations doc.detail ++
    (Document.attributeKeys doc.nodes).map fun name => (attributeMark ++ name, "node", name)

/-- What is written of a document as a whole, by key. -/
def headerData (doc : Document) : List (String × String) :=
  [("format_version", toString doc.formatVersion), ("mode", doc.detail.name),
    ("saved_at", doc.savedAt.toText "+00:00")]

/-- The elements in the graph of a document. -/
def graphElements (doc : Document) : List Element :=
  (headerData doc).map (fun entry => data entry.1 entry.2) ++ doc.nodes.map (node doc.detail) ++
    doc.edges.map edge

/-- The root holds the declarations and the graph. -/
theorem root_eq (doc : Document) :
    root doc =
      .group "graphml" [("xmlns", "http://graphml.graphdrawing.org/xmlns")]
        ((declarations doc).map (fun entry => key entry.1 entry.2.1 entry.2.2) ++
          [.group "graph" [("id", "callgraph"), ("edgedefault", "directed")]
            (graphElements doc)]) := by
  rw [root, declarations, fixedDeclarations, graphElements, headerData]
  cases doc.detail <;> simp

/-- The keys of a document with their names, the latest first. -/
def declaredKeys (doc : Document) : List (String × String) :=
  ((declarations doc).map fun entry => (entry.1, entry.2.2)).reverse

/-- Keys of node attributes are declared with their names, all others with themselves. -/
theorem isFaithful_declaredKeys (doc : Document) : IsFaithful (declaredKeys doc) := by
  have hfixed (detail : Detail) :
      ∀ entry ∈ (fixedDeclarations detail).map fun entry => (entry.1, entry.2.2),
        entry.1 = attributeMark ++ entry.2 ∨ (entry.1 = entry.2 ∧ afterMark? entry.1 = none) := by
    cases detail <;> decide
  intro entry hentry
  rw [declaredKeys, List.mem_reverse, declarations, List.map_append, List.mem_append, List.map_map]
    at hentry
  rcases hentry with hfixedKey | hnamed
  · exact hfixed doc.detail entry hfixedKey
  · obtain ⟨name, -, rfl⟩ := List.mem_map.1 hnamed
    exact .inl rfl

/-- All names in a document are plain. -/
theorem isWellNamed_root (doc : Document) : (root doc).IsWellNamed := by
  have hnode (n : Node) : (node doc.detail n).IsWellNamed := by
    rw [node_eq]
    exact ⟨wellNamed_node n.id, Element.areWellNamed_map fun entry _ => wellNamed_data entry.1⟩
  have hgraph : Element.AreWellNamed (graphElements doc) :=
    Element.areWellNamed_append
      (Element.areWellNamed_append (Element.areWellNamed_map fun entry _ => wellNamed_data entry.1)
        (Element.areWellNamed_map fun n _ => hnode n))
      (Element.areWellNamed_map fun e _ => wellNamed_edge e)
  rw [root_eq]
  refine ⟨.of_names ["xmlns"] rfl (by decide), Element.areWellNamed_append
    (Element.areWellNamed_map fun entry _ => wellNamed_key entry.1 entry.2.1 entry.2.2) ?_⟩
  exact ⟨⟨.of_names ["id", "edgedefault"] rfl (by decide), hgraph⟩, trivial⟩

namespace Reading

variable {r : Reading}

/-- All declarations are read back, the latest first. -/
theorem foldlM_declarations (h : r.openData = none) (entries : List (String × String × String))
    (depth : Nat) :
    (Element.allEvents depth (entries.map fun entry => key entry.1 entry.2.1 entry.2.2)).foldlM
        step r =
      .ok { r with keys := (entries.map fun entry => (entry.1, entry.2.2)).reverse ++ r.keys } :=
  Element.foldlM_allEvents (fun found => { r with keys := found }) _ (fun entry _ found =>
    foldlM_key (r := { r with keys := found }) h depth entry.1 entry.2.1 entry.2.2) r.keys

/-- All nodes are read back, the latest first. -/
theorem foldlM_nodes (h : r.IsIdle) {detail : Detail} {nodes : List Node}
    (hrange : ∀ n ∈ nodes, n.InRange) (hobject : ∀ n ∈ nodes, detail = .full ∨ n.object = none)
    (depth : Nat) :
    (Element.allEvents depth (nodes.map (node detail))).foldlM step r =
      .ok { r with nodes := nodes.reverse ++ r.nodes } := by
  have hnode : ∀ n ∈ nodes, ∀ found,
      ((node detail n).events depth).foldlM step { r with nodes := found } =
        .ok { r with nodes := n :: found } := fun n hn found =>
    foldlM_node (r := { r with nodes := found }) ⟨h.openNode, h.openData, h.keys⟩ (hrange n hn)
      (hobject n hn) depth
  have hall := Element.foldlM_allEvents (fun found => { r with nodes := found }) (fun n => n) hnode
    r.nodes
  rwa [List.map_id'] at hall

/-- All edges are read back, the latest first. -/
theorem foldlM_edges (h : r.openData = none) (edges : List Edge) (depth : Nat) :
    (Element.allEvents depth (edges.map edge)).foldlM step r =
      .ok { r with edges := edges.reverse ++ r.edges } := by
  have hedge : ∀ e ∈ edges, ∀ found,
      ((edge e).events depth).foldlM step { r with edges := found } =
        .ok { r with edges := e :: found } := fun e _ found =>
    foldlM_edge (r := { r with edges := found }) h depth e
  have hall := Element.foldlM_allEvents (fun found => { r with edges := found }) (fun e => e) hedge
    r.edges
  rwa [List.map_id'] at hall

/-- What has been read when the keys of a document are declared. -/
def afterKeys (doc : Document) : Reading where
  sawRoot := true
  keys := declaredKeys doc

/-- What has been read when the nodes of a document come next. -/
def afterHeader (doc : Document) : Reading :=
  { afterKeys doc with graphData := (headerData doc).reverse }

/-- What has been read when the edges of a document come next. -/
def afterNodes (doc : Document) : Reading :=
  { afterHeader doc with nodes := doc.nodes.reverse }

/-- What has been read of a document when its end is reached. -/
def ofDocument (doc : Document) : Reading :=
  { afterNodes doc with edges := doc.edges.reverse }

/-- The keys of a document are declared before its graph. -/
theorem foldlM_keys (doc : Document) (depth : Nat) :
    (Element.allEvents depth ((declarations doc).map
      fun entry => key entry.1 entry.2.1 entry.2.2)).foldlM step { sawRoot := true } =
      .ok (afterKeys doc) := by
  rw [foldlM_declarations rfl, ← declaredKeys, List.append_nil]
  rfl

variable {doc : Document}

/-- The graph of a document is read in the same way under all faithful declarations. -/
theorem foldlM_graphElements {keys : List (String × String)} (hkeys : IsFaithful keys)
    (hrange : ∀ n ∈ doc.nodes, n.InRange) (hdetail : doc.HasDetail) (depth : Nat) :
    (Element.allEvents depth (graphElements doc)).foldlM step { afterKeys doc with keys := keys } =
      .ok { ofDocument doc with keys := keys } := by
  have hheader : (Element.allEvents depth ((headerData doc).map
      fun entry => data entry.1 entry.2)).foldlM step { afterKeys doc with keys := keys } =
      .ok { afterHeader doc with keys := keys } := by
    rw [foldlM_graphData ⟨rfl, rfl, hkeys⟩]
    simp [afterHeader, afterKeys]
  have hnodes : (Element.allEvents depth (doc.nodes.map (node doc.detail))).foldlM step
      { afterHeader doc with keys := keys } = .ok { afterNodes doc with keys := keys } := by
    rw [foldlM_nodes ⟨rfl, rfl, hkeys⟩ hrange hdetail]
    simp [afterNodes, afterHeader, afterKeys]
  have hedges : (Element.allEvents depth (doc.edges.map edge)).foldlM step
      { afterNodes doc with keys := keys } = .ok { ofDocument doc with keys := keys } := by
    rw [foldlM_edges rfl]
    simp [ofDocument, afterNodes, afterHeader, afterKeys]
  rw [graphElements, Element.allEvents_append, Element.allEvents_append, List.append_assoc,
    foldlM_append_ok hheader, foldlM_append_ok hnodes, hedges]

/-- A document that was written is read to its end. -/
theorem foldlM_write (hrange : ∀ n ∈ doc.nodes, n.InRange) (hdetail : doc.HasDetail) :
    (scan (write doc)).foldlM step ({} : Reading) = .ok (ofDocument doc) := by
  have hgraph : ((Element.group "graph" [("id", "callgraph"), ("edgedefault", "directed")]
      (graphElements doc)).events 1).foldlM step (afterKeys doc) = .ok (ofDocument doc) :=
    Element.foldlM_group (step_lineEvent rfl 1) rfl
      (foldlM_graphElements (isFaithful_declaredKeys doc) hrange hdetail 2)
      (step_lineEvent rfl 1) rfl
  have hother : step ({} : Reading) .other = .ok {} := rfl
  rw [write, scan_document (isWellNamed_root doc), root_eq, foldlM_cons_ok hother]
  refine Element.foldlM_group (step_lineEvent rfl 0) rfl ?_ (step_lineEvent rfl 0) rfl
  rw [Element.allEvents_append, foldlM_append_ok (foldlM_keys doc 1), Element.allEvents,
    Element.allEvents, List.append_nil]
  exact hgraph

end Reading

/-! ## What is known of the document as a whole -/

/-- Digits have no blank ends. -/
theorem trimChars_digits (n : Nat) : Text.trimChars (Number.digits n) = Number.digits n := by
  have hdigit : ∀ d ∈ Number.digits n, Text.isBlank d = false := fun d hd =>
    Calendar.isBlank_of_isDigit (Number.isDigit_of_mem_digits hd)
  exact Text.trimChars_eq_self (fun d hd => hdigit d (List.mem_of_mem_head? hd))
    fun d hd => hdigit d (List.mem_of_mem_getLast? hd)

/-- Digits are read as a version if the number is not too large. -/
theorem version?_of_isDigit {ds : List Char} (hne : ds ≠ []) (hall : ∀ c ∈ ds, c.isDigit = true) :
    version? ds =
      if Number.ofDigits ds < Nat.pow 2 32 then some (Number.ofDigits ds) else none := by
  unfold version?
  split
  · exact absurd (hall '+' (by simp)) (by decide)
  · have hdigits : ds.all Char.isDigit = true := List.all_eq_true.2 hall
    have hempty : ds.isEmpty = false := by simpa using hne
    have haccepted : ¬ (ds.isEmpty || !ds.all Char.isDigit) = true := by
      rw [hdigits, hempty]
      decide
    exact if_neg haccepted

/-- A version is read from its digits. -/
theorem version?_toString {n : Nat} (h : n < 2 ^ 32) :
    version? (Text.trimChars (toString n).toList) = some n := by
  have htext : (toString n).toList = Number.digits n := by
    rw [Nat.toString_eq_ofList_toDigits, String.toList_ofList, Number.digits]
  rw [htext, trimChars_digits, version?_of_isDigit (Number.digits_ne_nil n)
    fun c => Number.isDigit_of_mem_digits, Number.ofDigits_digits]
  exact if_pos h

/-- The name of a detail means that detail. -/
theorem ofText_detailName (detail : Detail) : Detail.ofText detail.name = .ok detail := by
  cases detail <;> rfl

/-- What is written of a document as a whole is known again, if the year has four digits. -/
theorem foldlM_headerData {doc : Document} (hversion : doc.formatVersion < 2 ^ 32)
    (hsavedAt : doc.savedAt.InCalendar) :
    (headerData doc).foldlM Header.add ⟨Document.currentVersion, none, .epoch⟩ =
      if 0 ≤ doc.savedAt.date.year ∧ doc.savedAt.date.year ≤ 9999 then
        .ok ⟨doc.formatVersion, some doc.detail, doc.savedAt.settled⟩
      else .error .badTime := by
  have hversion : Header.add ⟨Document.currentVersion, none, .epoch⟩
      ("format_version", toString doc.formatVersion) = .ok ⟨doc.formatVersion, none, .epoch⟩ := by
    simp only [Header.add, version?_toString hversion]
  have hdetail : Header.add ⟨doc.formatVersion, none, .epoch⟩ ("mode", doc.detail.name) =
      .ok ⟨doc.formatVersion, some doc.detail, .epoch⟩ := by
    simp only [Header.add, ofText_detailName]
  rw [headerData, foldlM_cons_ok hversion, foldlM_cons_ok hdetail, List.foldlM_cons]
  simp only [Header.add, Calendar.strict?_toText hsavedAt]
  by_cases hyear : 0 ≤ doc.savedAt.date.year ∧ doc.savedAt.date.year ≤ 9999
  · rw [if_pos hyear, if_pos hyear]
    rfl
  · rw [if_neg hyear, if_neg hyear]
    rfl

/-- What was read of a document is completed if its year has four digits. -/
theorem finish_ofDocument {doc : Document} (hversion : doc.formatVersion < 2 ^ 32)
    (hsavedAt : doc.savedAt.InCalendar) :
    (Reading.ofDocument doc).finish =
      if 0 ≤ doc.savedAt.date.year ∧ doc.savedAt.date.year ≤ 9999 then .ok doc.settled
      else .error .badTime := by
  have hgraph : (Reading.ofDocument doc).graphData.reverse = headerData doc :=
    List.reverse_reverse _
  have hfinish : (Reading.ofDocument doc).finish = (do
      let header ← (headerData doc).foldlM Header.add ⟨Document.currentVersion, none, .epoch⟩
      return {
        formatVersion := header.formatVersion
        detail := header.detail.getD (Document.detailOf doc.nodes.reverse)
        savedAt := header.savedAt
        nodes := doc.nodes.reverse.reverse
        edges := doc.edges.reverse.reverse }) := by
    rw [← hgraph]
    rfl
  rw [hfinish, foldlM_headerData hversion hsavedAt]
  simp only [List.reverse_reverse]
  split <;> rfl

/-- A document is read back from GraphML exactly if the year it was saved in has four digits: the
times of all other years are written with a sign, and refused where they are read. -/
theorem read_write {doc : Document} (h : doc.InRange) (hdetail : doc.HasDetail) :
    read (write doc) =
      if 0 ≤ doc.savedAt.date.year ∧ doc.savedAt.date.year ≤ 9999 then .ok doc.settled
      else .error .badTime := by
  rw [read, Reading.foldlM_write h.nodes_inRange hdetail, ok_bind,
    finish_ofDocument h.formatVersion_lt h.savedAt_inCalendar]

/-- A document comes back from GraphML, up to the spelling of the time it was saved at, exactly if
the year of that time has four digits.  Every other document is refused because of its time. -/
theorem reads_back_iff_four_digit_year {doc : Document} (h : doc.InRange)
    (hdetail : doc.HasDetail) :
    ((∃ savedAt, read (write doc) = .ok { doc with savedAt := savedAt }) ↔
      0 ≤ doc.savedAt.date.year ∧ doc.savedAt.date.year ≤ 9999) ∧
    ((0 ≤ doc.savedAt.date.year ∧ doc.savedAt.date.year ≤ 9999) →
      read (write doc) = .ok doc.settled) ∧
    (¬ (0 ≤ doc.savedAt.date.year ∧ doc.savedAt.date.year ≤ 9999) →
      read (write doc) = .error .badTime) := by
  rw [read_write h hdetail]
  refine ⟨⟨?_, fun hyear => ⟨doc.savedAt.settled, if_pos hyear⟩⟩, fun hyear => if_pos hyear,
    fun hyear => if_neg hyear⟩
  rintro ⟨savedAt, hread⟩
  by_contra hyear
  rw [if_neg hyear] at hread
  cases hread

/-- A document in full whose node has attributes named like other data, and signs of markup in its
texts, saved on the given day. -/
def awkward (days : Int) : Document where
  formatVersion := 1
  detail := .full
  savedAt := ⟨days, 0, 0⟩
  nodes := [{
    id := "a<b>&\"c\"", name := "", packageName := " ", kind := .trigger
    object := some { id := "a", name := "\n]]>", kind := .trigger, calls := [{ callee := "b" }] }
    attributes := ((TextMap.empty.insert "code_object" "{}").insert "attr.name" "").insert "" "x" }]
  edges := [⟨"a<b>&\"c\"", "z"⟩]

theorem inRange_awkward (days : Int) : ∀ n ∈ (awkward days).nodes, n.InRange := by
  simp only [awkward, List.mem_singleton, forall_eq, Node.InRange, CodeObject.InRange,
    Option.mem_some_iff, forall_eq']
  exact ⟨by decide, by decide, by decide⟩

/-- The document is read back if it was saved in 2026, and refused if it was saved in 10000. -/
theorem awkward_read_write :
    (awkward 20455).InRange ∧ (awkward 20455).HasDetail ∧
    read (write (awkward 20455)) = .ok (awkward 20455) ∧
    (awkward 2932897).InRange ∧ (awkward 2932897).HasDetail ∧
    read (write (awkward 2932897)) = .error .badTime := by
  have hnear : (awkward 20455).InRange :=
    ⟨by decide, ⟨by decide, by decide, by decide⟩, inRange_awkward _⟩
  have hfar : (awkward 2932897).InRange :=
    ⟨by decide, ⟨by decide, by decide, by decide⟩, inRange_awkward _⟩
  have hdetail (days : Int) : (awkward days).HasDetail := fun _ _ => .inl rfl
  have hsettled : (awkward 20455).settled = awkward 20455 := by
    rw [Document.settled, Instant.settled_eq_self (.inr (by decide))]
  have hback := (reads_back_iff_four_digit_year hnear (hdetail _)).2.1 (by decide)
  rw [hsettled] at hback
  exact ⟨hnear, hdetail _, hback, hfar, hdetail _,
    (reads_back_iff_four_digit_year hfar (hdetail _)).2.2 (by decide)⟩

end Graphml

end CallGraph
