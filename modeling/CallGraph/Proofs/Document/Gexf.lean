import CallGraph.Document.Gexf
import CallGraph.Proofs.Data.Sorting
import CallGraph.Proofs.Document.Graphml

/-!
# GEXF documents read back

A reader of GEXF is followed through the events of a document that was written.  Everything of a
node but its id and label is a value of a declared attribute; the declarations have titles, among
which names that users choose stand beside the fixed ones, but the mark in the ids of the former
keeps their values apart.

Nodes and edges come back whatever they hold.  The version and all of the time but the day are not
written, and the detail has to be guessed from the titles.

Main results:

- Theorem `Gexf.Reading.storeAll_nodeValues`: a node is put together from what is written of it.
- Theorem `Gexf.read_write`: all that is read of a document that was written.
- Theorem `Gexf.reads_nodes_and_edges_back`: its nodes and edges are read back.
-/

namespace CallGraph

namespace Gexf

open Xml Graphml

/-! ## Tags -/

theorem wellNamed_declaration (id title : String) :
    WellNamed "attribute" [("id", id), ("title", title), ("type", "string")] :=
  .of_names ["id", "title", "type"] rfl (by decide)

theorem wellNamed_value (id text : String) : WellNamed "attvalue" [("for", id), ("value", text)] :=
  .of_names ["for", "value"] rfl (by decide)

theorem wellNamed_node (id label : String) : WellNamed "node" [("id", id), ("label", label)] :=
  .of_names ["id", "label"] rfl (by decide)

theorem wellNamed_edge (id source target : String) :
    WellNamed "edge" [("id", id), ("source", source), ("target", target)] :=
  .of_names ["id", "source", "target"] rfl (by decide)

theorem wellNamed_meta (day : String) : WellNamed "meta" [("lastmodifieddate", day)] :=
  .of_names ["lastmodifieddate"] rfl (by decide)

namespace Reading

variable (r : Reading)

/-- The declaration of an attribute adds its title. -/
theorem openElement_attribute (id title : String) :
    r.openElement (tag "attribute" [("id", id), ("title", title), ("type", "string")]) true =
      .ok { r with
        titles := (id, title) :: r.titles
        declaresObject := r.declaresObject || title == "code_object" } := by
  have hname : localName (ascii "attribute") = ascii "attribute" := rfl
  have hattributes := attributesOf_tag (wellNamed_declaration id title)
  simp only [List.map_cons, List.map_nil] at hattributes
  simp +decide only [openElement, tag_name, hname, hattributes, ↓reduceIte]
  rfl

/-- A value is stored under the id that it is for. -/
theorem openElement_attvalue (id text : String) :
    r.openElement (tag "attvalue" [("for", id), ("value", text)]) true = r.store id text := by
  have hname : localName (ascii "attvalue") = ascii "attvalue" := rfl
  have hattributes := attributesOf_tag (wellNamed_value id text)
  simp only [List.map_cons, List.map_nil] at hattributes
  simp +decide only [openElement, tag_name, hname, hattributes, ↓reduceIte]
  rfl

/-- The start tag of a node opens a node with its id and label. -/
theorem openElement_node (id label : String) :
    r.openElement (tag "node" [("id", id), ("label", label)]) false =
      .ok { r with openNode := some ⟨id, label, "", .unknown, none, .empty⟩ } := by
  have hname : localName (ascii "node") = ascii "node" := rfl
  have hattributes := attributesOf_tag (wellNamed_node id label)
  simp only [List.map_cons, List.map_nil] at hattributes
  simp +decide only [openElement, tag_name, hname, hattributes, ↓reduceIte]
  rfl

/-- An edge adds its two ends. -/
theorem openElement_edge (id source target : String) :
    r.openElement (tag "edge" [("id", id), ("source", source), ("target", target)]) true =
      .ok { r with edges := ⟨source, target⟩ :: r.edges } := by
  have hname : localName (ascii "edge") = ascii "edge" := rfl
  have hattributes := attributesOf_tag (wellNamed_edge id source target)
  simp only [List.map_cons, List.map_nil] at hattributes
  simp +decide only [openElement, tag_name, hname, hattributes, ↓reduceIte]
  rfl

/-- The date of the description is read. -/
theorem openElement_meta (day : String) :
    r.openElement (tag "meta" [("lastmodifieddate", day)]) false =
      .ok { r with savedAt := Calendar.day? day.toList } := by
  have hname : localName (ascii "meta") = ascii "meta" := rfl
  have hattributes := attributesOf_tag (wellNamed_meta day)
  simp only [List.map_cons, List.map_nil] at hattributes
  simp +decide only [openElement, tag_name, hname, hattributes, ↓reduceIte]
  rfl

end Reading

/-! ## Values of nodes -/

/-- A value without the mark of node attributes belongs to its own title. -/
theorem title_of_unmarked {titles : List (String × String)} (h : IsFaithful titles) (key : String)
    (hkey : afterMark? key = none) :
    ((titles.find? (·.1 == key)).map (·.2)).getD key = key := by
  have hself := meaning_eq_self h key
  rwa [meaning, hkey] at hself

/-- A value with the mark belongs to the title that is declared for it. -/
theorem title_of_marked {titles : List (String × String)} (h : IsFaithful titles) {name : String}
    (hname : (attributeMark ++ name, name) ∈ titles) :
    ((titles.find? (·.1 == attributeMark ++ name)).map (·.2)).getD (attributeMark ++ name) =
      name := by
  have hself := meaning_eq_self h (attributeMark ++ name)
  rw [meaning, afterMark?_append] at hself
  cases hfind : titles.find? (·.1 == attributeMark ++ name) with
  | none => exact absurd (List.find?_eq_none.1 hfind _ hname) (by simp)
  | some entry =>
    rw [hfind] at hself
    have htitle := congrArg afterMark? hself
    exact Option.some.inj ((afterMark?_append entry.2).symm.trans
      (htitle.trans (afterMark?_append name)))

/-- The values that are written of a node. -/
def nodeValues (detail : Detail) (n : Node) : List (String × String) :=
  [("package", n.packageName), ("kind", n.kind.name)] ++ objectData detail n.object ++
    n.attributes.entries.map fun entry => (attributeMark ++ entry.1, entry.2)

/-- Every value of a node is an element of its own. -/
theorem node_eq (detail : Detail) (n : Node) :
    node detail n =
      .group "node" [("id", n.id), ("label", n.name)] [.group "attvalues" []
        ((nodeValues detail n).map fun entry => value entry.1 entry.2)] := by
  obtain ⟨id, name, packageName, kind, object, attributes⟩ := n
  cases detail <;> cases object <;> simp [node, nodeValues, objectData]

namespace Reading

variable {r : Reading}

/-- The value for the package becomes the package. -/
theorem store_package (h : IsFaithful r.titles) (m : Node) (text : String) :
    store { r with openNode := some m } "package" text =
      .ok { r with openNode := some { m with packageName := text } } := by
  have htitle := title_of_unmarked h "package" (by decide)
  have hmark : (afterMark? "package").isSome = false := by decide
  simp only [store, htitle, hmark]
  rfl

/-- The value for the kind becomes the kind. -/
theorem store_kind (h : IsFaithful r.titles) (m : Node) (text : String) :
    store { r with openNode := some m } "kind" text =
      .ok { r with openNode := some { m with kind := .ofText text } } := by
  have htitle := title_of_unmarked h "kind" (by decide)
  have hmark : (afterMark? "kind").isSome = false := by decide
  simp only [store, htitle, hmark]
  rfl

/-- The value for the code object becomes the code object. -/
theorem store_object (h : IsFaithful r.titles) (m : Node) {object : CodeObject}
    (hobject : object.InRange) :
    store { r with openNode := some m } "code_object" (Json.line object.toData) =
      .ok { r with openNode := some { m with object := some object } } := by
  have htitle := title_of_unmarked h "code_object" (by decide)
  have hmark : (afterMark? "code_object").isSome = false := by decide
  simp only [store, htitle, hmark, codeObject?_line hobject]
  rfl

/-- The value for a marked title becomes an attribute. -/
theorem store_attribute (h : IsFaithful r.titles) (m : Node) {name : String}
    (hname : (attributeMark ++ name, name) ∈ r.titles) (text : String) :
    store { r with openNode := some m } (attributeMark ++ name) text =
      .ok { r with openNode := some (m.setAttribute name text) } := by
  have htitle := title_of_marked h hname
  have hmark : (afterMark? (attributeMark ++ name)).isSome = true := by
    rw [afterMark?_append]
    rfl
  simp only [store, htitle, hmark]
  rfl

/-- Values that are stored one after the other. -/
def storeAll (r : Reading) (entries : List (String × String)) : Except DocumentFault Reading :=
  entries.foldlM (fun r entry => r.store entry.1 entry.2) r

/-- The values for attributes become the attributes, one after the other. -/
theorem storeAll_attributes (h : IsFaithful r.titles) (m : Node) {entries : List (String × String)}
    (hentries : ∀ entry ∈ entries, (attributeMark ++ entry.1, entry.1) ∈ r.titles) :
    storeAll { r with openNode := some m }
        (entries.map fun entry => (attributeMark ++ entry.1, entry.2)) =
      .ok { r with openNode := some { m with
        attributes := entries.foldl (fun m entry => m.insert entry.1 entry.2) m.attributes } } := by
  induction entries generalizing m with
  | nil => rfl
  | cons entry entries ih =>
    have hfirst := store_attribute h m (hentries entry (by simp)) entry.2
    rw [storeAll, List.map_cons, foldlM_cons_ok hfirst]
    exact ih (m.setAttribute entry.1 entry.2) fun other hother =>
      hentries other (List.mem_cons_of_mem _ hother)

/-- A node is put together from what is written of it. -/
theorem storeAll_nodeValues (h : IsFaithful r.titles) {detail : Detail} {n : Node}
    (hrange : n.InRange) (hobject : detail = .full ∨ n.object = none)
    (hnames : ∀ name ∈ n.attributes.keys, (attributeMark ++ name, name) ∈ r.titles) :
    storeAll { r with openNode := some ⟨n.id, n.name, "", .unknown, none, .empty⟩ }
        (nodeValues detail n) = .ok { r with openNode := some n } := by
  obtain ⟨id, name, packageName, kind, object, attributes⟩ := n
  have hpackage := store_package h ⟨id, name, "", .unknown, none, .empty⟩ packageName
  have hkind := store_kind h ⟨id, name, packageName, .unknown, none, .empty⟩ kind.name
  rw [Kind.ofText_name] at hkind
  have hcode : (objectData detail object).foldlM (fun r entry => r.store entry.1 entry.2)
      { r with openNode := some ⟨id, name, packageName, kind, none, .empty⟩ } =
      .ok { r with openNode := some ⟨id, name, packageName, kind, object, .empty⟩ } := by
    cases object with
    | none => cases detail <;> rfl
    | some object =>
      obtain rfl : detail = .full := hobject.resolve_right (by simp)
      have hstore := store_object h ⟨id, name, packageName, kind, none, .empty⟩ (hrange object rfl)
      rw [objectData, foldlM_cons_ok hstore]
      rfl
  have hattributes := storeAll_attributes h ⟨id, name, packageName, kind, object, .empty⟩
    (fun entry hentry => hnames entry.1 (List.mem_map_of_mem hentry))
  have hentries : attributes.entries.foldl (fun m entry => m.insert entry.1 entry.2) TextMap.empty =
      attributes := attributes.ofList_entries
  rw [hentries] at hattributes
  simp only [storeAll, nodeValues, List.cons_append, List.nil_append]
  rw [foldlM_cons_ok hpackage, foldlM_cons_ok hkind, foldlM_append_ok hcode]
  exact hattributes

/-! ## Elements -/

/-- Texts do not count. -/
theorem step_lineEvent (r : Reading) (depth : Nat) : r.step (lineEvent depth) = .ok r :=
  rfl

/-- A declaration is read back. -/
theorem foldlM_declaration (r : Reading) (depth : Nat) (id title : String) :
    ((declaration id title).events depth).foldlM step r =
      .ok { r with
        titles := (id, title) :: r.titles
        declaresObject := r.declaresObject || title == "code_object" } := by
  have hempty : r.step (.empty (tag "attribute" [("id", id), ("title", title),
      ("type", "string")])) = .ok _ := r.openElement_attribute id title
  exact Element.foldlM_empty (step_lineEvent r depth) hempty

/-- An edge is read back. -/
theorem foldlM_edge (r : Reading) (depth : Nat) (e : Edge) (i : Nat) :
    ((edge e i).events depth).foldlM step r = .ok { r with edges := e :: r.edges } := by
  have hempty : r.step (.empty (tag "edge" [("id", toString i), ("source", e.caller),
      ("target", e.callee)])) = .ok _ := r.openElement_edge (toString i) e.caller e.callee
  exact Element.foldlM_empty (step_lineEvent r depth) hempty

/-- Values in a row are stored one after the other. -/
theorem foldlM_allValues (r : Reading) (depth : Nat) (entries : List (String × String)) :
    (Element.allEvents depth (entries.map fun entry => value entry.1 entry.2)).foldlM step r =
      r.storeAll entries := by
  induction entries generalizing r with
  | nil => rfl
  | cons entry entries ih =>
    have hempty : r.step (.empty (tag "attvalue" [("for", entry.1), ("value", entry.2)])) =
        r.store entry.1 entry.2 := r.openElement_attvalue entry.1 entry.2
    rw [List.map_cons, Element.allEvents, value, Element.events, List.cons_append,
      foldlM_cons_ok (step_lineEvent r depth), List.cons_append, List.nil_append, List.foldlM_cons,
      hempty, storeAll, List.foldlM_cons]
    cases r.store entry.1 entry.2 with
    | error fault => rfl
    | ok after => exact ih after

/-- A node is read as it was written, if the names of its attributes are declared. -/
theorem foldlM_node (h : IsFaithful r.titles) (hopen : r.openNode = none) {detail : Detail}
    {n : Node} (hrange : n.InRange) (hobject : detail = .full ∨ n.object = none)
    (hnames : ∀ name ∈ n.attributes.keys, (attributeMark ++ name, name) ∈ r.titles)
    (depth : Nat) :
    ((node detail n).events depth).foldlM step r = .ok { r with nodes := n :: r.nodes } := by
  have hstart : r.step (.start (tag "node" [("id", n.id), ("label", n.name)])) = .ok _ :=
    r.openElement_node n.id n.name
  have hvalues : ((Element.group "attvalues" [] ((nodeValues detail n).map
      fun entry => value entry.1 entry.2)).events (depth + 1)).foldlM step
      { r with openNode := some ⟨n.id, n.name, "", .unknown, none, .empty⟩ } =
      .ok { r with openNode := some n } := by
    refine Element.foldlM_group (step_lineEvent _ _) rfl ?_ (step_lineEvent _ _) rfl
    rw [foldlM_allValues]
    exact storeAll_nodeValues h hrange hobject hnames
  have hclose : step { r with openNode := some n } (.finish (ascii "node")) =
      .ok { r with openNode := none, nodes := n :: r.nodes } := by
    simp +decide only [step, closeElement, ↓reduceIte]
  rw [node_eq, Element.foldlM_group (step_lineEvent r depth) hstart ?_ (step_lineEvent _ depth)
    hclose, ← hopen]
  rw [Element.allEvents, Element.allEvents, List.append_nil, hvalues]

end Reading

/-! ## Documents -/

/-- The declarations of a document: ids of attributes with their titles. -/
def declarations (doc : Document) : List (String × String) :=
  [("package", "package"), ("kind", "kind")] ++
    (if doc.detail = .full then [("code_object", "code_object")] else []) ++
    (Document.attributeKeys doc.nodes).map fun name => (attributeMark ++ name, name)

/-- The elements of the description of a document. -/
def descriptionElements : List Element :=
  [.leaf "creator" [] "depgraph", .leaf "description" [] "call graph"]

/-- The elements of the graph of a document. -/
def graphElements (doc : Document) : List Element :=
  [.group "attributes" [("class", "node")]
      ((declarations doc).map fun entry => declaration entry.1 entry.2),
    .group "nodes" [] (doc.nodes.map (node doc.detail)),
    .group "edges" [] (doc.edges.zipIdx.map fun entry => edge entry.1 entry.2)]

/-- The root holds the description and the graph. -/
theorem root_eq (doc : Document) :
    root doc =
      .group "gexf" [("xmlns", "http://gexf.net/1.2"), ("version", "1.2")] [
        .group "meta" [("lastmodifieddate", String.ofList doc.savedAt.date.toChars)]
          descriptionElements,
        .group "graph" [("mode", "static"), ("defaultedgetype", "directed")]
          (graphElements doc)] := by
  rw [root, graphElements, declarations, List.mapIdx_eq_zipIdx_map]
  cases doc.detail <;> simp [descriptionElements]

/-- The declarations give every id its own title. -/
theorem isFaithful_declarations (doc : Document) : IsFaithful (declarations doc).reverse := by
  have hfixed (detail : Detail) : ∀ entry ∈ [("package", "package"), ("kind", "kind")] ++
      (if detail = .full then [("code_object", "code_object")] else []),
      entry.1 = attributeMark ++ entry.2 ∨ (entry.1 = entry.2 ∧ afterMark? entry.1 = none) := by
    cases detail <;> decide
  intro entry hentry
  rw [List.mem_reverse, declarations, List.mem_append] at hentry
  rcases hentry with hkey | hnamed
  · exact hfixed doc.detail entry hkey
  · obtain ⟨name, -, rfl⟩ := List.mem_map.1 hnamed
    exact .inl rfl

/-- The name of every attribute is declared. -/
theorem mem_declarations {doc : Document} {n : Node} (hn : n ∈ doc.nodes) {name : String}
    (hname : name ∈ n.attributes.keys) :
    (attributeMark ++ name, name) ∈ (declarations doc).reverse := by
  have hkey : name ∈ Document.attributeKeys doc.nodes :=
    mem_sortDistinct.2 (List.mem_flatMap.2 ⟨n, hn, hname⟩)
  rw [List.mem_reverse, declarations]
  exact List.mem_append_right _
    (List.mem_map_of_mem (f := fun name => (attributeMark ++ name, name)) hkey)

/-- All names in a document are plain. -/
theorem isWellNamed_root (doc : Document) : (root doc).IsWellNamed := by
  have hnode (n : Node) : (node doc.detail n).IsWellNamed := by
    rw [node_eq]
    exact ⟨wellNamed_node n.id n.name, ⟨⟨.of_names [] rfl (by decide),
      Element.areWellNamed_map fun entry _ => wellNamed_value entry.1 entry.2⟩, trivial⟩⟩
  rw [root_eq]
  refine ⟨.of_names ["xmlns", "version"] rfl (by decide), ⟨wellNamed_meta _, ?_⟩, ⟨?_, ?_⟩, trivial⟩
  · exact ⟨.of_names [] rfl (by decide), .of_names [] rfl (by decide), trivial⟩
  · exact .of_names ["mode", "defaultedgetype"] rfl (by decide)
  · exact ⟨⟨.of_names ["class"] rfl (by decide),
        Element.areWellNamed_map fun entry _ => wellNamed_declaration entry.1 entry.2⟩,
      ⟨.of_names [] rfl (by decide), Element.areWellNamed_map fun n _ => hnode n⟩,
      ⟨.of_names [] rfl (by decide),
        Element.areWellNamed_map fun entry _ => wellNamed_edge _ _ _⟩, trivial⟩

namespace Reading

variable {r : Reading} {doc : Document}

/-- All declarations are read back, the latest first. -/
theorem foldlM_declarations (r : Reading) (entries : List (String × String)) (depth : Nat)
    (htitles : r.titles = []) (hobject : r.declaresObject = false) :
    (Element.allEvents depth (entries.map fun entry => declaration entry.1 entry.2)).foldlM step r =
      .ok { r with
        titles := entries.reverse
        declaresObject := entries.any (·.2 == "code_object") } := by
  have hentry : ∀ entry ∈ entries, ∀ found : List (String × String),
      ((declaration entry.1 entry.2).events depth).foldlM step { r with
        titles := found, declaresObject := found.any (·.2 == "code_object") } =
      .ok { r with
        titles := entry :: found
        declaresObject := (entry :: found).any (·.2 == "code_object") } := by
    intro entry _ found
    rw [foldlM_declaration, List.any_cons, Bool.or_comm]
  have hall := Element.foldlM_allEvents (fun found => { r with
    titles := found, declaresObject := found.any (·.2 == "code_object") }) (fun entry => entry)
    hentry []
  have hstart : { r with titles := [], declaresObject := false } = r := by
    rw [← htitles, ← hobject]
  rw [List.map_id', List.append_nil, List.any_reverse, List.any_nil, hstart] at hall
  exact hall

/-- All nodes are read back, the latest first. -/
theorem foldlM_nodes (h : IsFaithful r.titles) (hopen : r.openNode = none) {detail : Detail}
    {nodes : List Node} (hrange : ∀ n ∈ nodes, n.InRange)
    (hobject : ∀ n ∈ nodes, detail = .full ∨ n.object = none)
    (hnames : ∀ n ∈ nodes, ∀ name ∈ n.attributes.keys, (attributeMark ++ name, name) ∈ r.titles)
    (depth : Nat) :
    (Element.allEvents depth (nodes.map (node detail))).foldlM step r =
      .ok { r with nodes := nodes.reverse ++ r.nodes } := by
  have hnode : ∀ n ∈ nodes, ∀ found,
      ((node detail n).events depth).foldlM step { r with nodes := found } =
        .ok { r with nodes := n :: found } := fun n hn found =>
    foldlM_node (r := { r with nodes := found }) h hopen (hrange n hn) (hobject n hn) (hnames n hn)
      depth
  have hall := Element.foldlM_allEvents (fun found => { r with nodes := found }) (fun n => n) hnode
    r.nodes
  rwa [List.map_id'] at hall

/-- All edges are read back, the latest first. -/
theorem foldlM_edges (r : Reading) (edges : List Edge) (depth : Nat) :
    (Element.allEvents depth (edges.zipIdx.map fun entry => edge entry.1 entry.2)).foldlM step r =
      .ok { r with edges := edges.reverse ++ r.edges } := by
  have hedge : ∀ entry ∈ edges.zipIdx, ∀ found,
      ((edge entry.1 entry.2).events depth).foldlM step { r with edges := found } =
        .ok { r with edges := entry.1 :: found } := fun entry _ found =>
    foldlM_edge { r with edges := found } depth entry.1 entry.2
  have hall := Element.foldlM_allEvents (fun found => { r with edges := found }) Prod.fst hedge
    r.edges
  rwa [List.zipIdx_map_fst] at hall

/-- What has been read when the nodes of a document come next. -/
def afterDeclarations (doc : Document) : Reading where
  sawRoot := true
  savedAt := Calendar.day? doc.savedAt.date.toChars
  titles := (declarations doc).reverse
  declaresObject := (declarations doc).any (·.2 == "code_object")

/-- What has been read of a document when its end is reached. -/
def ofDocument (doc : Document) : Reading :=
  { afterDeclarations doc with nodes := doc.nodes.reverse, edges := doc.edges.reverse }

/-- The description of a document holds nothing but its day. -/
theorem foldlM_meta (doc : Document) (depth : Nat) :
    ((Element.group "meta" [("lastmodifieddate", String.ofList doc.savedAt.date.toChars)]
      descriptionElements).events depth).foldlM step { sawRoot := true } =
      .ok { sawRoot := true, savedAt := Calendar.day? doc.savedAt.date.toChars } := by
  have hopen : step { sawRoot := true } (.start (tag "meta"
      [("lastmodifieddate", String.ofList doc.savedAt.date.toChars)])) = .ok _ :=
    openElement_meta _ _
  rw [String.toList_ofList] at hopen
  exact Element.foldlM_group (step_lineEvent _ _) hopen rfl (step_lineEvent _ _) rfl

/-- The declarations of a document are read before its nodes. -/
theorem foldlM_attributesGroup (doc : Document) (depth : Nat) :
    ((Element.group "attributes" [("class", "node")]
      ((declarations doc).map fun entry => declaration entry.1 entry.2)).events depth).foldlM step
      { sawRoot := true, savedAt := Calendar.day? doc.savedAt.date.toChars } =
      .ok (afterDeclarations doc) := by
  refine Element.foldlM_group (step_lineEvent _ _) rfl ?_ (step_lineEvent _ _) rfl
  rw [foldlM_declarations _ _ _ rfl rfl]

/-- The nodes of a document are read back after its declarations. -/
theorem foldlM_nodesGroup (hrange : ∀ n ∈ doc.nodes, n.InRange) (hdetail : doc.HasDetail)
    (depth : Nat) :
    ((Element.group "nodes" [] (doc.nodes.map (node doc.detail))).events depth).foldlM step
      (afterDeclarations doc) =
      .ok { afterDeclarations doc with nodes := doc.nodes.reverse } := by
  refine Element.foldlM_group (step_lineEvent _ _) rfl ?_ (step_lineEvent _ _) rfl
  rw [foldlM_nodes (isFaithful_declarations doc) rfl hrange hdetail
    fun n hn name => mem_declarations hn]
  simp [afterDeclarations]

/-- Declarations, nodes and edges of a document are read back. -/
theorem foldlM_graphElements (hrange : ∀ n ∈ doc.nodes, n.InRange) (hdetail : doc.HasDetail)
    (depth : Nat) :
    (Element.allEvents depth (graphElements doc)).foldlM step
        { sawRoot := true, savedAt := Calendar.day? doc.savedAt.date.toChars } =
      .ok (ofDocument doc) := by
  have hedges : ((Element.group "edges" []
      (doc.edges.zipIdx.map fun entry => edge entry.1 entry.2)).events depth).foldlM step
      { afterDeclarations doc with nodes := doc.nodes.reverse } = .ok (ofDocument doc) := by
    refine Element.foldlM_group (step_lineEvent _ _) rfl ?_ (step_lineEvent _ _) rfl
    rw [foldlM_edges]
    simp [afterDeclarations]
  rw [graphElements, Element.allEvents, foldlM_append_ok (foldlM_attributesGroup doc depth),
    Element.allEvents, foldlM_append_ok (foldlM_nodesGroup hrange hdetail depth), Element.allEvents,
    foldlM_append_ok hedges]
  rfl

/-- A document that was written is read to its end. -/
theorem foldlM_write (hrange : ∀ n ∈ doc.nodes, n.InRange) (hdetail : doc.HasDetail) :
    (scan (write doc)).foldlM step ({} : Reading) = .ok (ofDocument doc) := by
  have hgraph : ((Element.group "graph" [("mode", "static"), ("defaultedgetype", "directed")]
      (graphElements doc)).events 1).foldlM step
      { sawRoot := true, savedAt := Calendar.day? doc.savedAt.date.toChars } =
      .ok (ofDocument doc) :=
    Element.foldlM_group (step_lineEvent _ _) rfl (foldlM_graphElements hrange hdetail 2)
      (step_lineEvent _ _) rfl
  have hother : step ({} : Reading) .other = .ok {} := rfl
  rw [write, scan_document (isWellNamed_root doc), root_eq, foldlM_cons_ok hother]
  refine Element.foldlM_group (step_lineEvent _ _) rfl ?_ (step_lineEvent _ _) rfl
  rw [Element.allEvents, foldlM_append_ok (foldlM_meta doc 1), Element.allEvents,
    foldlM_append_ok hgraph]
  rfl

end Reading

/-- All that is read of a document that was written.  The detail is full if some title is that of
code objects, and the day is all that is left of the time. -/
theorem read_write {doc : Document} (hrange : ∀ n ∈ doc.nodes, n.InRange)
    (hdetail : doc.HasDetail) :
    read (write doc) = .ok {
      formatVersion := Document.currentVersion
      detail := if doc.detail = .full ∨ "code_object" ∈ Document.attributeKeys doc.nodes then .full
        else .structureOnly
      savedAt := (Calendar.day? doc.savedAt.date.toChars).getD .epoch
      nodes := doc.nodes
      edges := doc.edges } := by
  have hdeclares : (declarations doc).any (·.2 == "code_object") =
      decide (doc.detail = .full ∨ "code_object" ∈ Document.attributeKeys doc.nodes) := by
    rw [Bool.eq_iff_iff]
    cases hfull : doc.detail <;> simp [declarations, hfull]
  rw [read, Reading.foldlM_write hrange hdetail, ok_bind, Reading.finish]
  simp only [Reading.ofDocument, Reading.afterDeclarations, hdeclares, if_true,
    List.reverse_reverse, decide_eq_true_eq]

/-- The nodes of a document and its edges come back from GEXF in the same order, whatever texts
they hold. -/
theorem reads_nodes_and_edges_back {doc : Document} (hrange : ∀ n ∈ doc.nodes, n.InRange)
    (hdetail : doc.HasDetail) :
    ∃ other, read (write doc) = .ok other ∧ other.nodes = doc.nodes ∧ other.edges = doc.edges :=
  ⟨_, read_write hrange hdetail, rfl, rfl⟩

/-- Texts with signs of markup are read back, and so are attributes named like fields. -/
theorem reads_awkward_back :
    (∀ n ∈ (awkward 20455).nodes, n.InRange) ∧ (awkward 20455).HasDetail ∧
    ∃ other, read (write (awkward 20455)) = .ok other ∧
      other.nodes = (awkward 20455).nodes ∧ other.edges = [⟨"a<b>&\"c\"", "z"⟩] :=
  have hdetail : (awkward 20455).HasDetail := fun _ _ => .inl rfl
  ⟨inRange_awkward 20455, hdetail, reads_nodes_and_edges_back (inRange_awkward 20455) hdetail⟩

end Gexf

end CallGraph
