import CallGraph.Proofs.Construction.Scope
import CallGraph.Proofs.Construction.Screening
import CallGraph.Proofs.Graph.Operations
import Mathlib.Data.List.Induction

/-!
# What a construction accounts for

A graph is built call by call.  After each call the graph and the records account for exactly the
calls that were met so far: each of them has become an edge or a record, and the counts are those of
the graph.  Since a call is only ever taken to mean an accepted object, no edge is refused.

Main results:

- Theorem `Construction.Accounts.addSite`: one more call is accounted for.
- Theorem `Construction.accounts_run`: so are all calls of the accepted objects.
- Theorem `Construction.ofObjects_accounts_for_input`: the graph and the records account for the
  whole input.
-/

namespace CallGraph

/-- Whether a call has one meaning. -/
def Resolution.isResolved : Resolution → Bool
  | resolved _ _ => true
  | _ => false

namespace Construction

/-! ## Calls in their order -/

/-- A call with the object in which it was found. -/
structure Site where
  caller : CodeObject
  call : CallSite

namespace Site

/-- What the call is taken to mean. -/
def resolution (scope : Scope) (site : Site) : Resolution :=
  scope.resolve site.caller site.call

/-- The record of the call, with the given meaning, if no object answers to it. -/
def unresolvedAs (site : Site) : Resolution → Option UnresolvedCall
  | .unresolved => some ⟨site.caller.id, site.call.callee, site.call.line⟩
  | _ => none

/-- The record of the call, with the given meaning, if its target was chosen from several
candidates. -/
def ambiguousAs (site : Site) : Resolution → Option AmbiguousCall
  | .ambiguous _ target candidates =>
      some ⟨site.caller.id, site.call.callee, site.call.line, target, candidates⟩
  | _ => none

/-- The record of the call if no object answers to it. -/
def unresolved? (scope : Scope) (site : Site) : Option UnresolvedCall :=
  site.unresolvedAs (site.resolution scope)

/-- The record of the call if its target was chosen from several candidates. -/
def ambiguous? (scope : Scope) (site : Site) : Option AmbiguousCall :=
  site.ambiguousAs (site.resolution scope)

end Site

/-- The calls of objects, in the order of the objects. -/
def sites (objects : List CodeObject) : List Site :=
  objects.flatMap fun object => object.calls.map (Site.mk object)

/-- The graph of accepted objects before any call is met. -/
def begin (objects : List CodeObject) : Construction :=
  let graph := (objects.map Node.ofObject).foldl Graph.addNode Graph.empty
  ⟨graph, { nodesAdded := graph.nodeCount }⟩

/-- Understands one call, and records and adds it. -/
def addSite (scope : Scope) (built : Construction) (site : Site) : Construction :=
  addCallSite scope site.caller built site.call

/-- The construction after some of the calls of the accepted objects. -/
def run (objects : List CodeObject) (met : List Site) : Construction :=
  met.foldl (addSite (.ofObjects objects)) (begin objects)

/-- A construction goes through the calls of the accepted objects, and turns its records round. -/
theorem ofObjects_eq (objects : List CodeObject) :
    ofObjects objects =
      let built := run (accepted objects) (sites (accepted objects))
      { built with
        stats := { built.stats with
          unresolved := built.stats.unresolved.reverse
          ambiguous := built.stats.ambiguous.reverse
          malformed := (screen [] (sortByText (·.id) objects)).2 } } := by
  rw [ofObjects, accepted]
  generalize screen [] (sortByText (·.id) objects) = screened
  obtain ⟨accepted, malformed⟩ := screened
  have hbegin : begin accepted =
      ⟨accepted.foldl (fun g object => g.addNode (.ofObject object)) Graph.empty,
        { nodesAdded := (accepted.foldl (fun g object => g.addNode (.ofObject object))
          Graph.empty).nodeCount }⟩ := by
    rw [begin, List.foldl_map]
  have hrun : run accepted (sites accepted) =
      accepted.foldl (addCalls (.ofObjects accepted)) (begin accepted) := by
    rw [run, sites, List.foldl_flatMap]
    congr 1
    funext built object
    rw [List.foldl_map]
    rfl
  dsimp only
  rw [hrun, hbegin]

/-- A run over one call more adds this call last. -/
theorem run_append_singleton (objects : List CodeObject) (met : List Site) (site : Site) :
    run objects (met ++ [site]) = addSite (.ofObjects objects) (run objects met) site := by
  simp only [run, List.foldl_append, List.foldl_cons, List.foldl_nil]

/-- The calls that are met are those of the objects. -/
theorem mem_sites_iff {objects : List CodeObject} {site : Site} :
    site ∈ sites objects ↔ site.caller ∈ objects ∧ site.call ∈ site.caller.calls := by
  simp only [sites, List.mem_flatMap, List.mem_map]
  constructor
  · rintro ⟨object, hobject, call, hcall, rfl⟩
    exact ⟨hobject, hcall⟩
  · rintro ⟨hobject, hcall⟩
    exact ⟨site.caller, hobject, site.call, hcall, rfl⟩

/-! ## Adding an edge -/

variable {built : Construction} {caller target : String}

/-- An edge between nodes of the graph is new, and counted, or there already. -/
theorem addCall_cases (hg : built.graph.WellFormed) (hcaller : built.graph.contains caller = true)
    (htarget : built.graph.contains target = true) :
    (∃ graph, built.graph.addEdge caller target = .ok (graph, true) ∧
      addCall caller target built =
        ⟨graph, { built.stats with
          edgesAdded := built.stats.edgesAdded + 1
          selfLoops := built.stats.selfLoops + if caller = target then 1 else 0 }⟩) ∨
      (built.graph.addEdge caller target = .ok (built.graph, false) ∧
        addCall caller target built = built) := by
  obtain ⟨graph, new, hadd⟩ := Graph.exists_addEdge_eq_ok hcaller htarget
  cases new with
  | true => exact .inl ⟨graph, hadd, by rw [addCall, hadd]⟩
  | false =>
    obtain rfl : graph = built.graph := (hg.addEdge_added_iff hadd).2.2.1 rfl
    exact .inr ⟨hadd, by rw [addCall, hadd]⟩

/-- Adding an edge changes only the counts of edges. -/
theorem stats_addCall (caller target : String) (built : Construction) :
    ∃ edges loops, (addCall caller target built).stats =
      { built.stats with edgesAdded := edges, selfLoops := loops } := by
  rw [addCall]
  split
  · exact ⟨_, _, rfl⟩
  · exact ⟨built.stats.edgesAdded, built.stats.selfLoops, rfl⟩

/-! ## Accounting for calls -/

/-- The graph has the accepted objects as nodes and the targets of the given calls as edges, and
the counts are its own. -/
structure Draws (objects : List CodeObject) (met : List Site) (built : Construction) : Prop where
  wellFormed : built.graph.WellFormed
  nodes : built.graph.nodes = objects.map Node.ofObject
  hasEdge_iff : ∀ a b, built.graph.hasEdge a b = true ↔
    ∃ site ∈ met, site.caller.id = a ∧
      (site.resolution (.ofObjects objects)).target? = some b
  edgesAdded : built.stats.edgesAdded = built.graph.edgeCount
  selfLoops : built.stats.selfLoops =
    built.graph.edges.countP fun edge => edge.caller == edge.callee

/-- The records are those of the given calls, the latest first. -/
structure Records (scope : Scope) (met : List Site) (stats : BuildStats) : Prop where
  callSites : stats.callSites = met.length
  unresolved : stats.unresolved = (met.filterMap (·.unresolved? scope)).reverse
  ambiguous : stats.ambiguous = (met.filterMap (·.ambiguous? scope)).reverse

variable {objects : List CodeObject} {met : List Site} {site : Site}

/-- The id of an object is in the graph from the start. -/
theorem Draws.contains_of_mem (h : Draws objects met built) {object : CodeObject}
    (hobject : object ∈ objects) : built.graph.contains object.id = true := by
  rw [← Graph.mem_nodeIds_iff, h.wellFormed.mem_nodeIds_iff_mem_map, h.nodes, List.map_map]
  exact List.mem_map.2 ⟨object, hobject, rfl⟩

/-- The ends of the edge of a call are nodes of the graph. -/
theorem Draws.contains_ends (h : Draws objects met built) (hsite : site.caller ∈ objects)
    (htarget : (site.resolution (.ofObjects objects)).target? = some target) :
    built.graph.contains site.caller.id = true ∧ built.graph.contains target = true := by
  obtain ⟨object, hobject, rfl⟩ := Scope.exists_object_of_resolve htarget
  exact ⟨h.contains_of_mem hsite, h.contains_of_mem hobject⟩

/-- A call with a target is drawn as an edge. -/
theorem Draws.addCall (h : Draws objects met built) (hsite : site.caller ∈ objects)
    (htarget : (site.resolution (.ofObjects objects)).target? = some target) :
    Draws objects (met ++ [site]) (addCall site.caller.id target built) := by
  have hg := h.wellFormed
  obtain ⟨hcaller, hcallee⟩ := h.contains_ends hsite htarget
  have hmet : ∀ a b, (∃ other ∈ met ++ [site], other.caller.id = a ∧
      (other.resolution (.ofObjects objects)).target? = some b) ↔
      built.graph.hasEdge a b = true ∨ site.caller.id = a ∧ target = b := by
    intro a b
    simp only [h.hasEdge_iff, List.mem_append, List.mem_singleton, or_and_right, exists_or,
      exists_eq_left, htarget, Option.some.injEq]
  rcases addCall_cases hg hcaller hcallee with ⟨graph, hadd, heq⟩ | ⟨hadd, heq⟩
  · have hgraph : graph.WellFormed := hg.addEdge hadd
    obtain ⟨-, hnew, -⟩ := hg.addEdge_added_iff hadd
    have hedges : graph.edges = ⟨site.caller.id, target⟩ :: built.graph.edges := hnew.1 rfl
    have hnodes := ((hg.addsEdge site.caller.id target).frame hadd).1
    have hcount : graph.edgeCount = built.graph.edgeCount + 1 := by
      have hlength := congrArg List.length hedges
      simpa [Graph.edges, Graph.edgeCount] using hlength
    rw [heq]
    refine ⟨hgraph, by rw [hnodes, h.nodes], fun a b => ?_, ?_, ?_⟩
    · rw [hmet, ← hgraph.mem_edges_iff, hedges, List.mem_cons, ← hg.mem_edges_iff, Edge.mk.injEq,
        eq_comm (a := a), eq_comm (a := b), or_comm]
    · rw [hcount, h.edgesAdded]
    · rw [hedges, List.countP_cons, h.selfLoops]
      simp
  · have hold : ⟨site.caller.id, target⟩ ∈ built.graph.edges := by
      by_contra hnotMem
      exact Bool.noConfusion ((hg.addEdge_added_iff hadd).1.2 hnotMem)
    rw [heq]
    refine ⟨hg, h.nodes, fun a b => ?_, h.edgesAdded, h.selfLoops⟩
    rw [hmet]
    constructor
    · exact .inl
    · rintro (hedge | ⟨rfl, rfl⟩)
      · exact hedge
      · exact hg.mem_edges_iff.1 hold

/-- A call without a target leaves the graph as it is. -/
theorem Draws.skip (h : Draws objects met built)
    (htarget : (site.resolution (.ofObjects objects)).target? = none) :
    Draws objects (met ++ [site]) built where
  wellFormed := h.wellFormed
  nodes := h.nodes
  hasEdge_iff := by
    intro a b
    simp [h.hasEdge_iff, or_and_right, exists_or, htarget]
  edgesAdded := h.edgesAdded
  selfLoops := h.selfLoops

/-- What a call means is drawn. -/
theorem Draws.addMeaning (h : Draws objects met built) (hsite : site.caller ∈ objects)
    {meaning : Resolution} (hmeaning : site.resolution (.ofObjects objects) = meaning) :
    Draws objects (met ++ [site]) (addMeaning site.caller site.call built meaning) := by
  cases meaning with
  | resolved rule target => exact h.addCall hsite (by rw [hmeaning]; rfl)
  | ambiguous rule target candidates =>
    let record : AmbiguousCall :=
      ⟨site.caller.id, site.call.callee, site.call.line, target, candidates⟩
    have hrecorded : Draws objects met
        { built with
          stats := { built.stats with ambiguous := record :: built.stats.ambiguous } } :=
      ⟨h.wellFormed, h.nodes, h.hasEdge_iff, h.edgesAdded, h.selfLoops⟩
    exact hrecorded.addCall hsite (by rw [hmeaning]; rfl)
  | unresolved =>
    have hskipped : Draws objects (met ++ [site]) built := h.skip (by rw [hmeaning]; rfl)
    exact ⟨hskipped.wellFormed, hskipped.nodes, hskipped.hasEdge_iff, hskipped.edgesAdded,
      hskipped.selfLoops⟩

/-- One more call is drawn. -/
theorem Draws.addSite (h : Draws objects met built) (hsite : site.caller ∈ objects) :
    Draws objects (met ++ [site]) (addSite (.ofObjects objects) built site) := by
  have hcounted : Draws objects met
      { built with stats := { built.stats with callSites := built.stats.callSites + 1 } } :=
    ⟨h.wellFormed, h.nodes, h.hasEdge_iff, h.edgesAdded, h.selfLoops⟩
  rw [Construction.addSite, addCallSite]
  exact hcounted.addMeaning hsite rfl

/-- What a call means is recorded if it has not one meaning. -/
theorem stats_addMeaning (built : Construction) (site : Site) (meaning : Resolution) :
    ∃ edges loops, (addMeaning site.caller site.call built meaning).stats =
      { built.stats with
        unresolved := (site.unresolvedAs meaning).toList ++ built.stats.unresolved
        ambiguous := (site.ambiguousAs meaning).toList ++ built.stats.ambiguous
        edgesAdded := edges
        selfLoops := loops } := by
  cases meaning with
  | resolved rule target => exact stats_addCall _ _ _
  | ambiguous rule target candidates => exact stats_addCall _ _ _
  | unresolved => exact ⟨_, _, rfl⟩

/-- One more call is counted, and recorded if it has not one meaning. -/
theorem stats_addSite (scope : Scope) (built : Construction) (site : Site) :
    ∃ edges loops, (addSite scope built site).stats =
      { built.stats with
        callSites := built.stats.callSites + 1
        unresolved := (site.unresolved? scope).toList ++ built.stats.unresolved
        ambiguous := (site.ambiguous? scope).toList ++ built.stats.ambiguous
        edgesAdded := edges
        selfLoops := loops } := by
  obtain ⟨edges, loops, heq⟩ := stats_addMeaning
    { built with stats := { built.stats with callSites := built.stats.callSites + 1 } } site
    (site.resolution scope)
  exact ⟨edges, loops, by rw [addSite, addCallSite, ← Site.resolution, heq]; rfl⟩

/-- What one call adds to the records, by what it means. -/
theorem Records.addSite {scope : Scope} (h : Records scope met built.stats) (site : Site) :
    Records scope (met ++ [site]) (addSite scope built site).stats := by
  obtain ⟨edges, loops, heq⟩ := stats_addSite scope built site
  rw [heq]
  refine ⟨?_, ?_, ?_⟩
  · simp [h.callSites]
  · rw [h.unresolved, List.filterMap_append, List.reverse_append]
    cases hrecord : site.unresolved? scope <;> simp [hrecord]
  · rw [h.ambiguous, List.filterMap_append, List.reverse_append]
    cases hrecord : site.ambiguous? scope <;> simp [hrecord]

/-- The graph and the records account for the given calls of the accepted objects. -/
structure Accounts (objects : List CodeObject) (met : List Site) (built : Construction) :
    Prop where
  draws : Draws objects met built
  records : Records (.ofObjects objects) met built.stats
  nodesAdded : built.stats.nodesAdded = built.graph.nodeCount

/-- One call more is accounted for in the graph and in the records. -/
theorem Accounts.addSite (h : Accounts objects met built) (hsite : site.caller ∈ objects) :
    Accounts objects (met ++ [site]) (addSite (.ofObjects objects) built site) := by
  have hdraws := h.draws.addSite hsite
  refine ⟨hdraws, h.records.addSite site, ?_⟩
  obtain ⟨edges, loops, heq⟩ := stats_addSite (.ofObjects objects) built site
  rw [heq, Graph.nodeCount, hdraws.nodes, ← h.draws.nodes]
  exact h.nodesAdded

/-- Before any call is met there are only nodes, one for each of the accepted objects. -/
theorem accounts_begin (hids : (objects.map (·.id)).Nodup) :
    Accounts objects [] (begin objects) := by
  have hgraph : (begin objects).graph.WellFormed := Graph.WellFormed.empty.foldl_addNode _
  have harcs : (begin objects).graph.arcs = [] := Graph.arcs_foldl_addNode _ _
  have hedges : (begin objects).graph.edges = [] := by
    rw [Graph.edges, harcs, List.map_nil]
  have hnodes : (begin objects).graph.nodes = objects.map Node.ofObject := by
    refine Graph.WellFormed.empty.nodes_foldl_addNode ?_
    rw [List.map_map]
    exact hids
  refine ⟨⟨hgraph, hnodes, fun a b => ?_, ?_, ?_⟩, ⟨rfl, rfl, rfl⟩, rfl⟩
  · rw [← hgraph.mem_edges_iff, hedges]
    simp
  · rw [Graph.edgeCount, harcs]
    rfl
  · rw [hedges]
    rfl

/-- After each call the graph and the records account for all calls met so far. -/
theorem accounts_run (hids : (objects.map (·.id)).Nodup)
    (hmet : ∀ site ∈ met, site.caller ∈ objects) : Accounts objects met (run objects met) := by
  induction met using List.reverseRecOn with
  | nil => exact accounts_begin hids
  | append_singleton before site ih =>
    have hbefore := ih fun other hother => hmet other (List.mem_append_left _ hother)
    rw [run_append_singleton]
    exact hbefore.addSite (hmet site (by simp))

/-- All calls of the accepted objects are accounted for. -/
theorem accounts_accepted (objects : List CodeObject) :
    Accounts (accepted objects) (sites (accepted objects))
      (run (accepted objects) (sites (accepted objects))) :=
  accounts_run (nodup_ids_accepted objects) fun _ hsite => (mem_sites_iff.1 hsite).1

/-! ## The whole input -/

/-- A call has one meaning or exactly one record. -/
theorem Site.resolved_or_recorded (scope : Scope) (site : Site) :
    (if (site.resolution scope).isResolved then 1 else 0) +
      (site.ambiguous? scope).toList.length + (site.unresolved? scope).toList.length = 1 := by
  rw [ambiguous?, unresolved?]
  cases site.resolution scope <;> rfl

/-- Each call has one meaning or exactly one record. -/
theorem length_eq_resolved_add_recorded (scope : Scope) (met : List Site) :
    met.length = met.countP (fun site => (site.resolution scope).isResolved) +
      (met.filterMap (·.ambiguous? scope)).length +
        (met.filterMap (·.unresolved? scope)).length := by
  simp only [List.filterMap_eq_flatMap_toList]
  induction met with
  | nil => rfl
  | cons site rest ih =>
    have hone := site.resolved_or_recorded scope
    simp only [List.length_cons, List.countP_cons, List.flatMap_cons, List.length_append]
    omega

/-- The graph and the records of a construction account for all objects of the input and all calls
of the accepted ones. -/
structure AccountsForInput (objects : List CodeObject) (built : Construction) : Prop where
  /-- The accepted objects are those that come first, in ascending order. -/
  accepted_iff : ∀ object, object ∈ accepted objects ↔ ∃ place, ComesFirst objects place object
  ascending : (accepted objects).Pairwise fun a b => a.id < b.id
  /-- The nodes are the accepted objects, and the others are recorded. -/
  wellFormed : built.graph.WellFormed
  nodes : built.graph.nodes = (accepted objects).map Node.ofObject
  nodesAdded : built.stats.nodesAdded = built.graph.nodeCount
  malformed : built.stats.nodesAdded + built.stats.malformed.length = objects.length
  /-- The edges are the targets of the calls, and they are counted. -/
  hasEdge_iff : ∀ a b, built.graph.hasEdge a b = true ↔
    ∃ object ∈ accepted objects, object.id = a ∧ ∃ call ∈ object.calls,
      ((Scope.ofObjects (accepted objects)).resolve object call).target? = some b
  edgesAdded : built.stats.edgesAdded = built.graph.edgeCount
  selfLoops : built.stats.selfLoops =
    built.graph.edges.countP fun edge => edge.caller == edge.callee
  /-- Each call has one meaning or one record, and the records are in the order of the calls. -/
  resolved_or_recorded : ∀ site ∈ sites (accepted objects),
    (if (site.resolution (.ofObjects (accepted objects))).isResolved then 1 else 0) +
      (site.ambiguous? (.ofObjects (accepted objects))).toList.length +
      (site.unresolved? (.ofObjects (accepted objects))).toList.length = 1
  callSites : built.stats.callSites = (sites (accepted objects)).length
  unresolved : built.stats.unresolved =
    (sites (accepted objects)).filterMap (·.unresolved? (.ofObjects (accepted objects)))
  ambiguous : built.stats.ambiguous =
    (sites (accepted objects)).filterMap (·.ambiguous? (.ofObjects (accepted objects)))
  callSites_eq : built.stats.callSites =
    (sites (accepted objects)).countP
        (fun site => (site.resolution (.ofObjects (accepted objects))).isResolved) +
      built.stats.ambiguous.length + built.stats.unresolved.length
  candidates : ∀ record ∈ built.stats.ambiguous, record.chosen ∈ record.candidates ∧
    2 ≤ record.candidates.length ∧ record.candidates.Nodup
  /-- The graph comes about call by call, and whichever call is reached, its edge is not refused. -/
  graph_eq : built.graph = (run (accepted objects) (sites (accepted objects))).graph
  addEdge_eq_ok : ∀ met site rest target, sites (accepted objects) = met ++ site :: rest →
    (site.resolution (.ofObjects (accepted objects))).target? = some target →
      ∃ graph new, (run (accepted objects) met).graph.addEdge site.caller.id target =
        .ok (graph, new)

/-- An ambiguous call has two candidates or more, and the one that was chosen is among them. -/
theorem Site.candidates_of_ambiguous? {scope : Scope} {record : AmbiguousCall}
    (h : site.ambiguous? scope = some record) :
    record.chosen ∈ record.candidates ∧ 2 ≤ record.candidates.length ∧
      record.candidates.Nodup := by
  rw [ambiguous?] at h
  cases hresolution : site.resolution scope with
  | resolved rule target =>
    rw [hresolution] at h
    cases h
  | ambiguous rule target candidates =>
    rw [hresolution] at h
    obtain rfl := Option.some.inj h
    exact Scope.candidates_of_resolve hresolution
  | unresolved =>
    rw [hresolution] at h
    cases h

/-- The graph of a construction shows all calls of the accepted objects. -/
theorem draws_ofObjects (objects : List CodeObject) :
    Draws (accepted objects) (sites (accepted objects)) (ofObjects objects) := by
  have hrun := (accounts_accepted objects).draws
  rw [ofObjects_eq]
  exact ⟨hrun.wellFormed, hrun.nodes, hrun.hasEdge_iff, hrun.edgesAdded, hrun.selfLoops⟩

/-- There is an edge for what a call of an accepted object means, and no other. -/
theorem hasEdge_ofObjects_iff (objects : List CodeObject) (a b : String) :
    (ofObjects objects).graph.hasEdge a b = true ↔
      ∃ object ∈ accepted objects, object.id = a ∧ ∃ call ∈ object.calls,
        ((Scope.ofObjects (accepted objects)).resolve object call).target? = some b := by
  rw [(draws_ofObjects objects).hasEdge_iff]
  constructor
  · rintro ⟨site, hsite, hcaller, htarget⟩
    obtain ⟨hobject, hcall⟩ := mem_sites_iff.1 hsite
    exact ⟨site.caller, hobject, hcaller, site.call, hcall, htarget⟩
  · rintro ⟨object, hobject, hcaller, call, hcall, htarget⟩
    exact ⟨⟨object, call⟩, mem_sites_iff.2 ⟨hobject, hcall⟩, hcaller, htarget⟩

/-- Every node that was added is counted. -/
theorem nodesAdded_ofObjects (objects : List CodeObject) :
    (ofObjects objects).stats.nodesAdded = (ofObjects objects).graph.nodeCount := by
  rw [ofObjects_eq]
  exact (accounts_accepted objects).nodesAdded

/-- Each object of the input is a node or is recorded as malformed. -/
theorem nodesAdded_add_malformed (objects : List CodeObject) :
    (ofObjects objects).stats.nodesAdded + (ofObjects objects).stats.malformed.length =
      objects.length := by
  have hlength := length_screen [] (sortByText (·.id) objects)
  rw [(perm_sortByText (·.id) objects).length_eq] at hlength
  rw [nodesAdded_ofObjects, Graph.nodeCount, (draws_ofObjects objects).nodes, List.length_map,
    ofObjects_eq]
  exact hlength

/-- Every call of an accepted object is counted. -/
theorem callSites_ofObjects (objects : List CodeObject) :
    (ofObjects objects).stats.callSites = (sites (accepted objects)).length := by
  rw [ofObjects_eq]
  exact (accounts_accepted objects).records.callSites

/-- The calls that mean nothing are recorded in order. -/
theorem unresolved_ofObjects (objects : List CodeObject) :
    (ofObjects objects).stats.unresolved =
      (sites (accepted objects)).filterMap (·.unresolved? (.ofObjects (accepted objects))) := by
  simp [ofObjects_eq, (accounts_accepted objects).records.unresolved]

/-- The calls that mean more than one object are recorded in order. -/
theorem ambiguous_ofObjects (objects : List CodeObject) :
    (ofObjects objects).stats.ambiguous =
      (sites (accepted objects)).filterMap (·.ambiguous? (.ofObjects (accepted objects))) := by
  simp [ofObjects_eq, (accounts_accepted objects).records.ambiguous]

/-- A record of an ambiguous call lists its candidates once each. -/
theorem candidates_ofObjects {objects : List CodeObject} {record : AmbiguousCall}
    (h : record ∈ (ofObjects objects).stats.ambiguous) :
    record.chosen ∈ record.candidates ∧ 2 ≤ record.candidates.length ∧
      record.candidates.Nodup := by
  rw [ambiguous_ofObjects] at h
  obtain ⟨site, -, hsite⟩ := List.mem_filterMap.1 h
  exact site.candidates_of_ambiguous? hsite

/-- Whichever call is reached, its edge is not refused. -/
theorem exists_addEdge_run_eq_ok {objects : List CodeObject} {met rest : List Site} {site : Site}
    {target : String} (hsplit : sites (accepted objects) = met ++ site :: rest)
    (htarget : (site.resolution (.ofObjects (accepted objects))).target? = some target) :
    ∃ graph new, (run (accepted objects) met).graph.addEdge site.caller.id target =
      .ok (graph, new) := by
  have hcallers : ∀ other ∈ met ++ site :: rest, other.caller ∈ accepted objects := by
    intro other hother
    rw [← hsplit] at hother
    exact (mem_sites_iff.1 hother).1
  have hbefore := accounts_run (nodup_ids_accepted objects) fun other hother =>
    hcallers other (List.mem_append_left _ hother)
  obtain ⟨hcaller, hcallee⟩ := hbefore.draws.contains_ends (hcallers site (by simp)) htarget
  exact Graph.exists_addEdge_eq_ok hcaller hcallee

/-- Whatever the objects, the graph and the records account for the whole input. -/
theorem ofObjects_accounts_for_input (objects : List CodeObject) :
    AccountsForInput objects (ofObjects objects) where
  accepted_iff _ := mem_accepted_iff
  ascending := pairwise_accepted objects
  wellFormed := (draws_ofObjects objects).wellFormed
  nodes := (draws_ofObjects objects).nodes
  nodesAdded := nodesAdded_ofObjects objects
  malformed := nodesAdded_add_malformed objects
  hasEdge_iff := hasEdge_ofObjects_iff objects
  edgesAdded := (draws_ofObjects objects).edgesAdded
  selfLoops := (draws_ofObjects objects).selfLoops
  resolved_or_recorded site _ := site.resolved_or_recorded _
  callSites := callSites_ofObjects objects
  unresolved := unresolved_ofObjects objects
  ambiguous := ambiguous_ofObjects objects
  callSites_eq := by
    rw [callSites_ofObjects, unresolved_ofObjects, ambiguous_ofObjects]
    exact length_eq_resolved_add_recorded _ _
  candidates _ := candidates_ofObjects
  graph_eq := by rw [ofObjects_eq]
  addEdge_eq_ok _ _ _ _ := exists_addEdge_run_eq_ok

end Construction

end CallGraph
