import CallGraph.Proofs.Construction.Build
import CallGraph.Proofs.Graph.Nodes
import CallGraph.Proofs.Store.Contents

/-!
# Constructions without source and literals

What a call means, which objects are accepted and what is recorded depends on ids, names,
parameters and calls only.  Objects can therefore be read without their source and literals: every
step of a construction from such objects is the step of the construction from whole objects, with
the same records and with the same graph but for what its nodes hold.

Main results:

- Theorem `Construction.screen_map_lightweight`: the same objects are accepted.
- Theorem `Construction.addSite_lightweight`: a call does the same to both constructions.
- Theorem `Construction.ofObjects_map_lightweight`: the construction from objects without source and
  literals is the one from whole objects, without source and literals.
- Theorem `Construction.source_and_literals_without_influence`: what is the same in both.
- Theorem `ObjectStore.Holds.build_eq`: the same for stores that are read without them.
-/

namespace CallGraph

/-! ## Leaving out source and literals -/

/-- The node with its code object, if it is loaded, without source and literals. -/
def Node.lightweight (node : Node) : Node :=
  { node with object := node.object.map CodeObject.lightweight }

@[simp]
theorem Node.id_lightweight (node : Node) : node.lightweight.id = node.id :=
  rfl

/-- The graph with all code objects without source and literals. -/
def Graph.lightweight (g : Graph) : Graph :=
  g.mapNodes Node.lightweight

@[simp]
theorem Graph.nodeIds_lightweight (g : Graph) : g.lightweight.nodeIds = g.nodeIds :=
  rfl

@[simp]
theorem Graph.edges_lightweight (g : Graph) : g.lightweight.edges = g.edges :=
  g.edges_mapNodes Node.id_lightweight

namespace Scope

theorem ofObjects_map_lightweight (objects : List CodeObject) :
    ofObjects (objects.map CodeObject.lightweight) = ofObjects objects := by
  have hcallable : Callable.ofObject ∘ CodeObject.lightweight = Callable.ofObject := rfl
  rw [ofObjects, ofObjects, List.map_map, hcallable]

/-- Of the object that makes a call only the package is asked for. -/
theorem resolve_lightweight (scope : Scope) (caller : CodeObject) (call : CallSite) :
    scope.resolve caller.lightweight call = scope.resolve caller call :=
  rfl

end Scope

namespace Construction

/-- The construction with all code objects without source and literals. -/
def lightweight (built : Construction) : Construction :=
  { built with graph := built.graph.lightweight }

/-- Nothing is recorded of source and literals. -/
@[simp]
theorem stats_lightweight (built : Construction) : built.lightweight.stats = built.stats :=
  rfl

/-- The call with the object in which it was found, without source and literals. -/
def Site.lightweight (site : Site) : Site :=
  { site with caller := site.caller.lightweight }

/-! ## Which objects are accepted -/

/-- The same objects are accepted and the same ids are refused. -/
theorem screen_map_lightweight (seen : List String) (objects : List CodeObject) :
    screen seen (objects.map CodeObject.lightweight) =
      ((screen seen objects).1.map CodeObject.lightweight, (screen seen objects).2) := by
  induction objects generalizing seen with
  | nil => rfl
  | cons object rest ih =>
    have hid : object.lightweight.id = object.id := rfl
    have hrejection : rejection? seen object.lightweight = rejection? seen object := rfl
    rw [List.map_cons]
    cases hobject : rejection? seen object with
    | none =>
      rw [screen_cons_of_accepted hobject, screen_cons_of_accepted (hrejection.trans hobject), hid,
        ih]
      rfl
    | some why =>
      rw [screen_cons_of_rejected hobject, screen_cons_of_rejected (hrejection.trans hobject), hid,
        ih]

/-- The same holds of the objects in ascending order of their ids. -/
theorem screen_sortByText_map_lightweight (objects : List CodeObject) :
    screen [] (sortByText (·.id) (objects.map CodeObject.lightweight)) =
      ((accepted objects).map CodeObject.lightweight,
        (screen [] (sortByText (·.id) objects)).2) := by
  have hsort : sortByText (·.id) (objects.map CodeObject.lightweight) =
      (sortByText (·.id) objects).map CodeObject.lightweight :=
    sortByText_map (fun _ => rfl) objects
  rw [hsort, screen_map_lightweight, accepted]

/-- The accepted objects are the same, without source and literals. -/
theorem accepted_map_lightweight (objects : List CodeObject) :
    accepted (objects.map CodeObject.lightweight) =
      (accepted objects).map CodeObject.lightweight := by
  rw [accepted, screen_sortByText_map_lightweight]

/-- The same calls are met. -/
theorem sites_map_lightweight (objects : List CodeObject) :
    sites (objects.map CodeObject.lightweight) = (sites objects).map Site.lightweight := by
  rw [sites, sites, List.flatMap_map, List.map_flatMap]
  congr 1
  funext object
  rw [List.map_map]
  rfl

/-! ## Call by call -/

/-- Both constructions begin alike. -/
theorem begin_map_lightweight (objects : List CodeObject) :
    begin (objects.map CodeObject.lightweight) = (begin objects).lightweight := by
  have hnodes : (objects.map CodeObject.lightweight).map Node.ofObject =
      (objects.map Node.ofObject).map Node.lightweight := by
    rw [List.map_map, List.map_map]
    rfl
  have hgraph :
      ((objects.map CodeObject.lightweight).map Node.ofObject).foldl Graph.addNode .empty =
        ((objects.map Node.ofObject).foldl Graph.addNode .empty).lightweight := by
    rw [hnodes]
    exact Graph.foldl_addNode_mapNodes Node.id_lightweight .empty _
  rw [begin, begin, hgraph, Graph.lightweight, Graph.nodeCount_mapNodes]
  rfl

/-- A call to an id adds the same edge to both. -/
theorem addCall_lightweight (caller target : String) (built : Construction) :
    addCall caller target built.lightweight = (addCall caller target built).lightweight := by
  have hgraph : built.lightweight.graph = built.graph.mapNodes Node.lightweight := rfl
  rw [addCall, addCall, hgraph, Graph.addEdge_mapNodes]
  rcases built.graph.addEdge caller target with error | ⟨graph, new⟩
  · rfl
  · cases new <;> rfl

/-- What a call means adds the same to both. -/
theorem addMeaning_lightweight (built : Construction) (site : Site) (meaning : Resolution) :
    addMeaning site.lightweight.caller site.lightweight.call built.lightweight meaning =
      (addMeaning site.caller site.call built meaning).lightweight := by
  cases meaning with
  | resolved rule target => exact addCall_lightweight _ _ _
  | ambiguous rule target candidates =>
    let record : AmbiguousCall :=
      ⟨site.caller.id, site.call.callee, site.call.line, target, candidates⟩
    exact addCall_lightweight site.caller.id target
      { built with stats := { built.stats with ambiguous := record :: built.stats.ambiguous } }
  | unresolved => rfl

/-- A call does the same to both constructions. -/
theorem addSite_lightweight (scope : Scope) (built : Construction) (site : Site) :
    addSite scope built.lightweight site.lightweight = (addSite scope built site).lightweight := by
  let counted : Construction :=
    { built with stats := { built.stats with callSites := built.stats.callSites + 1 } }
  exact addMeaning_lightweight counted site (scope.resolve site.caller site.call)

/-- After each call the two constructions still agree. -/
theorem run_map_lightweight (objects : List CodeObject) (met : List Site) :
    run (objects.map CodeObject.lightweight) (met.map Site.lightweight) =
      (run objects met).lightweight := by
  induction met using List.reverseRecOn with
  | nil => exact begin_map_lightweight objects
  | append_singleton before site ih =>
    rw [List.map_append, List.map_singleton, run_append_singleton, run_append_singleton, ih,
      Scope.ofObjects_map_lightweight, addSite_lightweight]

/-- The construction from objects without source and literals is the one from whole objects, without
source and literals. -/
theorem ofObjects_map_lightweight (objects : List CodeObject) :
    ofObjects (objects.map CodeObject.lightweight) = (ofObjects objects).lightweight := by
  rw [ofObjects_eq, ofObjects_eq, screen_sortByText_map_lightweight, accepted_map_lightweight,
    sites_map_lightweight, run_map_lightweight]
  rfl

/-! ## What has no influence -/

/-- Two inputs that differ in source and literals only give constructions that do. -/
theorem lightweight_eq_of_map_lightweight_eq {objects others : List CodeObject}
    (h : others.map CodeObject.lightweight = objects.map CodeObject.lightweight) :
    (ofObjects others).lightweight = (ofObjects objects).lightweight := by
  rw [← ofObjects_map_lightweight, h, ofObjects_map_lightweight]

/-- Without source and literals the same objects are accepted and every call means the same, so that
the graph has the same ids and the same edges, the records are the same, and nodes differ only in
that their code objects have no source and no literals.  Inputs that differ in source and literals
only are therefore treated alike. -/
theorem source_and_literals_without_influence (objects : List CodeObject) :
    let full := ofObjects objects
    let light := ofObjects (objects.map CodeObject.lightweight)
    light.graph.nodeIds = full.graph.nodeIds ∧ light.graph.edges = full.graph.edges ∧
      light.stats = full.stats ∧ light.graph = full.graph.lightweight ∧
      (∀ id, light.graph.node? id = (full.graph.node? id).map Node.lightweight) ∧
      accepted (objects.map CodeObject.lightweight) =
        (accepted objects).map CodeObject.lightweight ∧
      (∀ caller call,
        (Scope.ofObjects (accepted (objects.map CodeObject.lightweight))).resolve
            (CodeObject.lightweight caller) call =
          (Scope.ofObjects (accepted objects)).resolve caller call) ∧
      ∀ others, others.map CodeObject.lightweight = objects.map CodeObject.lightweight →
        (ofObjects others).stats = full.stats ∧ (ofObjects others).graph.edges = full.graph.edges ∧
          (ofObjects others).graph.nodeIds = full.graph.nodeIds := by
  intro full light
  have hlight : light = full.lightweight := ofObjects_map_lightweight objects
  have hgraph : light.graph = full.graph.lightweight := congrArg Construction.graph hlight
  refine ⟨?_, ?_, ?_, hgraph, fun id => ?_, accepted_map_lightweight objects, fun caller call => ?_,
    fun others hothers => ?_⟩
  · rw [hgraph, Graph.nodeIds_lightweight]
  · rw [hgraph, Graph.edges_lightweight]
  · rw [hlight, stats_lightweight]
  · rw [hgraph]
    exact full.graph.node?_mapNodes Node.lightweight id
  · rw [accepted_map_lightweight, Scope.ofObjects_map_lightweight, Scope.resolve_lightweight]
  · have hsame : (ofObjects others).lightweight = full.lightweight :=
      lightweight_eq_of_map_lightweight_eq hothers
    have hsameGraph : (ofObjects others).graph.lightweight = full.graph.lightweight :=
      congrArg Construction.graph hsame
    refine ⟨?_, ?_, ?_⟩
    · rw [← stats_lightweight, hsame, stats_lightweight]
    · rw [← Graph.edges_lightweight, hsameGraph, Graph.edges_lightweight]
    · rw [← Graph.nodeIds_lightweight, hsameGraph, Graph.nodeIds_lightweight]

end Construction

/-- A store that is read without source and literals gives the graph and the records that it gives
with them. -/
theorem ObjectStore.Holds.build_eq {σ : Type} [ObjectStore σ] {store : σ}
    {contents : MemoryStore} (h : ObjectStore.Holds store contents) :
    ∃ full, ObjectStore.build store true = .ok full ∧
      ObjectStore.build store false = .ok full.lightweight := by
  refine ⟨Construction.ofObjects contents.items, ?_, ?_⟩
  · rw [ObjectStore.build, h.load_eq]
    rfl
  · rw [ObjectStore.build, h.load_eq, ← Construction.ofObjects_map_lightweight]
    rfl

end CallGraph
