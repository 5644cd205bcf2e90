import CallGraph.Proofs.Analysis.Roles
import CallGraph.Proofs.Data.TextMap
import CallGraph.Proofs.Graph.Nodes

/-!
# Roles among the attributes of nodes

Roles are written into a graph one node after the other, and ids that the graph does not have are
passed over.  As no two entries of a classification have one id, it makes no difference in which
order this is done: every node is changed by its own entry, if it has one.  What is written does not
depend on the attributes that the node had before, so writing it again changes nothing; and as
nothing that is measured depends on attributes, the nodes keep their roles.

Main results:

- Theorem `Graph.WellFormed.foldl_annotateStep`: a run over some of the entries.
- Theorem `Graph.WellFormed.annotate_eq`: the graph with the roles, and how many there are.
- Theorem `Graph.classify_mapNodes`: roles depend on ids, edges and code objects only.
- Theorem `Graph.annotation_laws`: what annotating a graph changes, and that nothing depends on it.
-/

namespace CallGraph

namespace Graph

variable {g : Graph} {c : Classification} {entries : List Classified} {entry : Classified}
  {node : Node}

/-! ## One node -/

/-- The attributes that are written. -/
def roleKeys : List String :=
  ["role", "betweenness", "pagerank"]

/-- The node after its entry was written into it: the three attributes are those of the entry, and
everything else is as before. -/
structure Annotated (entry : Classified) (before after : Node) : Prop where
  rest : { after with attributes := before.attributes } = before
  role : after.attributes.get? "role" = some entry.role.name
  betweenness : after.attributes.get? "betweenness" =
    some (Number.fixed 6 entry.measures.betweenness)
  pageRank : after.attributes.get? "pagerank" = some (Number.fixed 6 entry.measures.pageRank)
  others : ∀ key, key ∉ roleKeys → after.attributes.get? key = before.attributes.get? key

/-- An entry writes its role and centrality into a node, and changes nothing else. -/
theorem annotated_annotateNode (entry : Classified) (node : Node) :
    Annotated entry node (annotateNode entry node) where
  rest := rfl
  role := by simp [annotateNode, Node.setAttribute, TextMap.get?_insert]
  betweenness := by simp [annotateNode, Node.setAttribute, TextMap.get?_insert]
  pageRank := by simp [annotateNode, Node.setAttribute, TextMap.get?_insert]
  others := by
    intro key hkey
    simp only [roleKeys, List.mem_cons, List.not_mem_nil, or_false, not_or] at hkey
    obtain ⟨hrole, hbetweenness, hpageRank⟩ := hkey
    simp only [annotateNode, Node.setAttribute, TextMap.get?_insert, if_neg (Ne.symm hrole),
      if_neg (Ne.symm hbetweenness), if_neg (Ne.symm hpageRank)]

/-- What has been written already is written once more without a change. -/
theorem Annotated.annotateNode_eq {before after : Node} (h : Annotated entry before after) :
    annotateNode entry after = after := by
  simp only [annotateNode, Node.setAttribute, TextMap.insert_of_get?_eq_some h.role,
    TextMap.insert_of_get?_eq_some h.betweenness, TextMap.insert_of_get?_eq_some h.pageRank]

/-! ## One entry after the other -/

/-- The node with the entry for its id written into it, if there is one. -/
def annotateBy (entries : List Classified) (node : Node) : Node :=
  match entries.find? (·.id == node.id) with
  | some entry => annotateNode entry node
  | none => node

theorem id_annotateBy (entries : List Classified) (node : Node) :
    (annotateBy entries node).id = node.id := by
  rw [annotateBy]
  split <;> rfl

theorem object_annotateBy (entries : List Classified) (node : Node) :
    (annotateBy entries node).object = node.object := by
  rw [annotateBy]
  split <;> rfl

/-- Annotating a node twice is annotating it once. -/
theorem annotateBy_annotateBy (entries : List Classified) (node : Node) :
    annotateBy entries (annotateBy entries node) = annotateBy entries node := by
  rw [annotateBy, id_annotateBy, annotateBy]
  cases entries.find? (·.id == node.id) with
  | none => rfl
  | some entry => exact (annotated_annotateNode entry node).annotateNode_eq

/-- An entry annotates the node with its id alone. -/
theorem annotateBy_singleton (entry : Classified) (node : Node) :
    annotateBy [entry] node = if node.id = entry.id then annotateNode entry node else node := by
  by_cases hid : node.id = entry.id
  · simp [annotateBy, hid]
  · simp [annotateBy, hid, Ne.symm hid]

/-- Writing the first entry and then the others, none of which has its id. -/
theorem annotateBy_cons (hnew : entry.id ∉ entries.map (·.id)) (node : Node) :
    annotateBy entries (annotateBy [entry] node) = annotateBy (entry :: entries) node := by
  rw [annotateBy_singleton]
  by_cases hid : node.id = entry.id
  · have hmissing : entries.find? (·.id == entry.id) = none := by
      rw [List.find?_eq_none]
      intro other hother hsame
      have hsame : other.id = entry.id := by simpa using hsame
      exact hnew (hsame ▸ List.mem_map_of_mem hother)
    have hkept : (annotateNode entry node).id = entry.id := hid
    have hfirst : (entry :: entries).find? (·.id == node.id) = some entry := by simp [hid]
    rw [if_pos hid, annotateBy, hkept, hmissing, annotateBy, hfirst]
  · have hfirst : (entry :: entries).find? (·.id == node.id) =
        entries.find? (·.id == node.id) := List.find?_cons_of_neg (by simpa using Ne.symm hid)
    rw [if_neg hid, annotateBy, annotateBy, hfirst]

/-- One step: the graph with one more entry, and how many there are. -/
def annotateStep (state : Graph × Nat) (entry : Classified) : Graph × Nat :=
  if state.1.contains entry.id then
    (state.1.modify entry.id (annotateNode entry), state.2 + 1)
  else state

/-- The loop over the classification, step by step. -/
theorem annotate_eq_foldl (g : Graph) (c : Classification) :
    g.annotate c = c.nodes.foldl annotateStep (g, 0) :=
  rfl

/-- A step changes the node with the id of the entry, and counts if there is one. -/
theorem WellFormed.annotateStep_eq (hg : g.WellFormed) (entry : Classified) (updated : Nat) :
    annotateStep (g, updated) entry =
      (g.mapNodes (annotateBy [entry]), updated + if g.contains entry.id then 1 else 0) := by
  rw [mapNodes_congr fun node _ => annotateBy_singleton entry node, ← hg.modify_eq_mapNodes,
    annotateStep]
  by_cases hpresent : g.contains entry.id = true
  · rw [if_pos hpresent, if_pos hpresent]
  · have hmissing : g.indexOf? entry.id = none :=
      indexOf?_eq_none_iff.2 (Bool.eq_false_iff.2 hpresent)
    rw [if_neg hpresent, if_neg hpresent, Graph.modify, hmissing]
    rfl

/-- A run over entries with different ids changes every node by its own entry, and counts the
entries whose ids are in the graph. -/
theorem WellFormed.foldl_annotateStep (hg : g.WellFormed) (hentries : (entries.map (·.id)).Nodup)
    (updated : Nat) :
    entries.foldl annotateStep (g, updated) =
      (g.mapNodes (annotateBy entries),
        updated + (entries.filter fun entry => g.contains entry.id).length) := by
  induction entries generalizing g updated with
  | nil =>
    have hsame : g.mapNodes (annotateBy []) = g := mapNodes_eq_self fun node _ => rfl
    rw [hsame]
    rfl
  | cons entry rest ih =>
    obtain ⟨hnew, hrest⟩ := List.nodup_cons.1 hentries
    have hchanged := hg.mapNodes (id_annotateBy [entry])
    rw [List.foldl_cons, hg.annotateStep_eq, ih hchanged hrest, mapNodes_mapNodes]
    refine Prod.ext ?_ ?_
    · exact mapNodes_congr fun node _ => annotateBy_cons hnew node
    · -- The index is the same for all graphs of the run.
      change updated + _ + (rest.filter fun entry => g.contains entry.id).length = _
      rw [List.filter_cons]
      split
      · rw [List.length_cons]
        omega
      · rfl

/-- Entries whose ids are in the graph are as many as ids of the graph that have a role. -/
theorem length_filter_contains (g : Graph) (hc : (c.nodes.map (·.id)).Nodup) :
    (c.nodes.filter fun entry => g.contains entry.id).length =
      (g.nodeIds.filter fun id => (c.role? id).isSome).length := by
  have hperm : ((c.nodes.map (·.id)).filter g.contains).Perm
      (g.nodeIds.filter fun id => (c.role? id).isSome) := by
    refine (List.perm_ext_iff_of_nodup (hc.filter _) ((nodup_nodeIds g).filter _)).2 fun id => ?_
    rw [List.mem_filter, List.mem_filter, mem_nodeIds_iff, Classification.isSome_role?_iff,
      and_comm]
  rw [← hperm.length_eq, List.filter_map, List.length_map]
  rfl

/-- The graph with the roles: every node is changed by its own entry. -/
theorem WellFormed.annotate_eq (hg : g.WellFormed) (hc : (c.nodes.map (·.id)).Nodup) :
    g.annotate c = (g.mapNodes (annotateBy c.nodes),
      (g.nodeIds.filter fun id => (c.role? id).isSome).length) := by
  rw [annotate_eq_foldl, hg.foldl_annotateStep hc, length_filter_contains g hc, Nat.zero_add]

/-! ## Roles of a graph whose nodes were changed -/

section

variable {change : Node → Node} (hid : ∀ node, (change node).id = node.id)

include hid

theorem links_mapNodes (g : Graph) : (g.mapNodes change).links = g.links := by
  have hindex : (g.mapNodes change).indexOf? = g.indexOf? := rfl
  have hout (h : Graph) : h.links =
      ⟨((h.nodes.map (·.id)).map fun id => (h.calleesOf id).filterMap h.indexOf?).toArray⟩ := by
    rw [List.map_map]
    rfl
  rw [hout, hout, map_id_mapNodes hid, calleesOf_mapNodes hid, hindex]

/-- Betweenness does not depend on what the nodes hold. -/
theorem betweenness_mapNodes (g : Graph) (centrality : CentralitySettings) :
    (g.mapNodes change).betweenness centrality = g.betweenness centrality := by
  have hsources : (g.mapNodes change).sources centrality = g.sources centrality := by
    rw [sources, sources, nodeCount_mapNodes]
    rfl
  have hindex : (g.mapNodes change).indexOf? = g.indexOf? := rfl
  rw [betweenness, betweenness, valuesById, valuesById, map_id_mapNodes hid, links_mapNodes hid,
    hsources, hindex]

/-- Neither does PageRank. -/
theorem pageRank_mapNodes (g : Graph) (centrality : CentralitySettings) :
    (g.mapNodes change).pageRank centrality = g.pageRank centrality := by
  have hempty : (g.mapNodes change).isEmpty = g.isEmpty := by
    rw [isEmpty, isEmpty, mapNodes, List.isEmpty_map]
  simp only [pageRank, hempty, valuesById, map_id_mapNodes hid, links_mapNodes hid,
    nodeCount_mapNodes]

/-- Neither do the components. -/
theorem components_mapNodes (g : Graph) (connection : Connection) :
    (g.mapNodes change).components connection = g.components connection := by
  have hids : (g.mapNodes change).nodeIds = g.nodeIds := rfl
  have hjoined : (g.mapNodes change).joinedTo = g.joinedTo := by
    funext id
    rw [joinedTo, joinedTo, calleesOf_mapNodes hid, callersOf_mapNodes hid]
  have hcomponent : (g.mapNodes change).component connection = g.component connection := by
    funext id
    cases connection with
    | strong => simp only [component, calleesOf_mapNodes hid, callersOf_mapNodes hid, hids]
    | weak => simp only [component, hjoined, hids, nodeCount_mapNodes]
  rw [components, components, hcomponent, hids]

variable (hobject : ∀ node, (change node).object = node.object)

include hobject

/-- Measures depend on nothing that an annotation changes. -/
theorem measures_mapNodes (g : Graph) (centrality : CentralitySettings) :
    (g.mapNodes change).measures centrality = g.measures centrality := by
  have hsorted : (g.mapNodes change).sortedNodes = g.sortedNodes.map change :=
    sortByText_map hid g.nodes
  simp only [Graph.measures, betweenness_mapNodes hid, pageRank_mapNodes hid,
    components_mapNodes hid, calleesOf_mapNodes hid, callersOf_mapNodes hid, hsorted, List.map_map,
    Function.comp_def, hid, hobject]

/-- Roles depend on ids, edges and code objects only. -/
theorem classify_mapNodes (g : Graph) (settings : RoleSettings) (centrality : CentralitySettings) :
    (g.mapNodes change).classify settings centrality = g.classify settings centrality := by
  unfold classify
  rw [measures_mapNodes hid hobject]

end

/-! ## Laws of annotation -/

/-- The node without its attributes. -/
def bare (node : Node) : Node :=
  { node with attributes := .empty }

/-- Nothing but attributes is changed, and these only at nodes that have a role, where they become
those of the role. -/
structure Annotates (g : Graph) (c : Classification) (after : Graph) : Prop where
  rest : after.mapNodes bare = g.mapNodes bare
  nodeIds : after.nodeIds = g.nodeIds
  edges : after.edges = g.edges
  untouched : ∀ id, c.role? id = none → after.node? id = g.node? id
  touched : ∀ entry ∈ c.nodes, c.role? entry.id = some entry.role ∧
    ∀ before, g.node? entry.id = some before →
      ∃ node, after.node? entry.id = some node ∧ Annotated entry before node

/-- Annotating each node by its own entries annotates the graph. -/
theorem annotates_mapNodes (hg : g.WellFormed) (hc : (c.nodes.map (·.id)).Nodup) :
    g.Annotates c (g.mapNodes (annotateBy c.nodes)) := by
  constructor
  case rest =>
    rw [mapNodes_mapNodes]
    refine mapNodes_congr fun node _ => ?_
    rw [annotateBy]
    split <;> rfl
  case nodeIds => rfl
  case edges => exact edges_mapNodes (id_annotateBy c.nodes) g
  case untouched =>
    intro id hrole
    rw [node?_mapNodes]
    cases hnode : g.node? id with
    | none => rfl
    | some node =>
      have hfound : c.nodes.find? (·.id == node.id) = none := by
        rw [(hg.node?_eq_some_iff.1 hnode).2]
        simpa [Classification.role?] using hrole
      rw [Option.map_some, annotateBy, hfound]
  case touched =>
    intro entry hentry
    refine ⟨(Classification.role?_eq_some_iff hc).2 ⟨entry, hentry, rfl, rfl⟩, ?_⟩
    intro before hbefore
    have hfound : c.nodes.find? (·.id == before.id) = some entry :=
      (find?_key_eq_some_iff hc).2 ⟨hentry, (hg.node?_eq_some_iff.1 hbefore).2.symm⟩
    refine ⟨annotateNode entry before, ?_, annotated_annotateNode entry before⟩
    rw [node?_mapNodes, hbefore, Option.map_some, annotateBy, hfound]

/-- Writing roles into a graph, be they its own or those of another graph, changes nothing but the
attributes of the nodes that have a role, and gives the number of these.  Doing it again changes
nothing more, and no classification of the graph depends on it. -/
theorem annotation_laws (hg : g.Reachable) (hc : (c.nodes.map (·.id)).Nodup) :
    g.Annotates c (g.annotate c).1 ∧
      (g.annotate c).2 = (g.nodeIds.filter fun id => (c.role? id).isSome).length ∧
      (g.annotate c).1.annotate c = g.annotate c ∧
      ∀ settings centrality,
        (g.annotate c).1.classify settings centrality = g.classify settings centrality := by
  have hg := hg.wellFormed
  have hid := id_annotateBy c.nodes
  have honce := hg.annotate_eq hc
  have htwice := (hg.mapNodes hid).annotate_eq hc
  rw [mapNodes_mapNodes] at htwice
  simp only [annotateBy_annotateBy] at htwice
  rw [honce]
  exact ⟨annotates_mapNodes hg hc, rfl, htwice, classify_mapNodes hid (object_annotateBy c.nodes) g⟩

/-- Two nodes, one of which has an old role. -/
def stepAndOther : List Operation :=
  [.addNode ⟨"other", "other", "", .unknown, none, .empty⟩,
    .addNode ⟨"step", "step", "", .function, none, .ofList [("role", "hub"), ("team", "core")]⟩,
    .addEdge "other" "step"]

/-- A classification of one graph is written into another one that has one of its nodes. -/
theorem annotation_laws_stepAndOther :
    (after stepAndOther).Reachable ∧
      ∃ c, (after rowWithSpare).classify {} {} = .ok c ∧ (c.nodes.map (·.id)).Nodup ∧
        (after stepAndOther).Annotates c ((after stepAndOther).annotate c).1 ∧
        ((after stepAndOther).annotate c).2 = 1 ∧
        ((after stepAndOther).annotate c).1.annotate c = (after stepAndOther).annotate c ∧
        ((after stepAndOther).annotate c).1.classify {} {} =
          (after stepAndOther).classify {} {} := by
  have hreachable : (after stepAndOther).Reachable := ⟨stepAndOther, rfl⟩
  have hrow : (after rowWithSpare).WellFormed := Reachable.wellFormed ⟨rowWithSpare, rfl⟩
  obtain ⟨c, hclassify⟩ : ∃ c, (after rowWithSpare).classify {} {} = .ok c :=
    exists_classify_eq_ok rfl ⟨_, (if_neg (by decide)).trans (if_pos (by decide))⟩
  have hc := hrow.nodup_ids_of_classify hclassify
  obtain ⟨hannotates, hupdated, htwice, hroles⟩ := annotation_laws hreachable hc
  refine ⟨hreachable, c, hclassify, hc, hannotates, ?_, htwice, hroles {} {}⟩
  have hrole (id : String) : (c.role? id).isSome = (after rowWithSpare).nodeIds.contains id := by
    rw [Bool.eq_iff_iff, Classification.isSome_role?_iff, List.contains_iff_mem,
      hrow.map_id_classify hclassify]
  simp only [hupdated, hrole]
  decide

end Graph

end CallGraph
