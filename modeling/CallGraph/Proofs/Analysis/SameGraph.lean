import CallGraph.Analysis.Neighbourhood
import CallGraph.Analysis.Summary
import CallGraph.Document.Basic
import CallGraph.Proofs.Analysis.Cycles
import CallGraph.Proofs.Analysis.SimplePaths
import CallGraph.Proofs.Graph.Equality

/-!
# Analyses do not see how a graph was put together

Graphs that are the same may keep their nodes at other places and list the neighbours of a node in
another order.  No analysis shows it.  A search in rounds meets the same nodes and sorts them; the
searches for paths and cycles try neighbours in the order of their ids; and strong classes are made
of what is met, while the order in which they are searched comes from a depth-first search that
again goes by ids.  This is why even a search that ends early, because no more cycles may be
reported, has found the same cycles.

Main results:

- Theorem `Graph.Alike.within_eq`: what a search within a limit meets.
- Theorem `Graph.Alike.cyclicParts_eq`: the parts in which cycles are searched, and their order.
- Theorem `Graph.Alike.cycles_eq_cycles`: the cycles within any limits.
- Theorem `Graph.analyses_agree`: all analyses of graphs that are the same agree.
-/

namespace CallGraph

namespace Graph

variable {g h : Graph}

namespace Alike

variable (halike : Alike g h)

include halike

/-! ## Neighbours -/

/-- Graphs that are the same have the same callees. -/
theorem mem_calleesOf_iff (a b : String) : b ∈ g.calleesOf a ↔ b ∈ h.calleesOf a :=
  (halike.perm_calleesOf a).mem_iff

/-- Graphs that are the same have the same callers. -/
theorem mem_callersOf_iff (a b : String) : b ∈ g.callersOf a ↔ b ∈ h.callersOf a :=
  (halike.perm_callersOf a).mem_iff

/-- Callees are gone through in one order, for they are sorted first. -/
theorem otherCallees_eq : g.otherCallees = h.otherCallees := by
  funext id
  refine sortDistinct_eq_of_mem_iff fun callee => ?_
  rw [List.mem_filter, List.mem_filter, halike.mem_calleesOf_iff]

/-- A query that begins with a required id fails for both graphs or answers as it goes on. -/
theorem require_bind_eq (id : String) {α : Type} {answer answer' : Except GraphError α}
    (hanswer : answer = answer') :
    (g.require id >>= fun _ => answer) = (h.require id >>= fun _ => answer') := by
  rw [require_bind, require_bind, halike.contains_eq, hanswer]

/-! ## Searches in rounds -/

/-- A bounded search finds the same ids along the same steps. -/
theorem within_eq {next next' : String → List String} (hnext : ∀ x y, y ∈ next x ↔ y ∈ next' x)
    (id : String) (limit : Option Nat) : g.within next id limit = h.within next' id limit := by
  have hhops : g.hops limit = h.hops limit := by
    cases limit <;> simp only [hops, halike.nodeCount_eq]
  rw [within, within, hhops]
  exact sortTexts_eq_of_perm ((perm_reach hnext _ id).filter _)

theorem ancestors_eq (id : String) (limit : Option Nat) :
    g.ancestors id limit = h.ancestors id limit :=
  halike.require_bind_eq id (congrArg _ (halike.within_eq halike.mem_callersOf_iff id limit))

theorem descendants_eq (id : String) (limit : Option Nat) :
    g.descendants id limit = h.descendants id limit :=
  halike.require_bind_eq id (congrArg _ (halike.within_eq halike.mem_calleesOf_iff id limit))

/-- Degrees count the same neighbours. -/
theorem degrees_eq (id : String) : g.degrees id = h.degrees id := by
  have hincoming : g.inDegree id = h.inDegree id :=
    halike.require_bind_eq id (congrArg _ (halike.perm_callersOf id).length_eq)
  have houtgoing : g.outDegree id = h.outDegree id :=
    halike.require_bind_eq id (congrArg _ (halike.perm_calleesOf id).length_eq)
  rw [degrees, degrees, hincoming, houtgoing]

theorem entryPoints_eq : g.entryPoints = h.entryPoints := by
  have hends : ∀ id, (g.callersOf id).isEmpty = (h.callersOf id).isEmpty :=
    fun id => (halike.perm_callersOf id).isEmpty_eq
  simp only [entryPoints, hends]
  exact sortTexts_eq_of_perm ((halike.perm_nodes.filter _).map _)

theorem terminals_eq (knownOnly : Bool) : g.terminals knownOnly = h.terminals knownOnly := by
  have hends : ∀ id, (g.calleesOf id).isEmpty = (h.calleesOf id).isEmpty :=
    fun id => (halike.perm_calleesOf id).isEmpty_eq
  simp only [terminals, hends]
  exact sortTexts_eq_of_perm ((halike.perm_nodes.filter _).map _)

/-! ## Paths -/

/-- The same simple paths are listed. -/
theorem simplePaths_eq (source target : String) (cutoff : Option Nat) :
    g.simplePaths source target cutoff = h.simplePaths source target cutoff := by
  refine halike.require_bind_eq source (halike.require_bind_eq target ?_)
  simp only [waysTo_eq, halike.otherCallees_eq, halike.nodeCount_eq]

/-! ## Cycles -/

theorem loopCycles_eq : g.loopCycles = h.loopCycles := by
  simp only [loopCycles, halike.nodeIds_eq, halike.hasEdge_eq]

theorem calleesWithin_eq : g.calleesWithin = h.calleesWithin := by
  funext members id
  rw [calleesWithin, calleesWithin, halike.otherCallees_eq]

theorem calleesFrom_eq : g.calleesFrom = h.calleesFrom := by
  funext start id
  rw [calleesFrom, calleesFrom, halike.otherCallees_eq]

/-- The parts in which cycles are searched are the same, in the same order. -/
theorem cyclicParts_eq : g.cyclicParts = h.cyclicParts := by
  funext members
  have hback : ∀ x y, y ∈ g.callersWithin members x ↔ y ∈ h.callersWithin members x := by
    intro x y
    rw [callersWithin, callersWithin, List.mem_filter, List.mem_filter, halike.mem_callersOf_iff]
  have hclass : strongClass (g.calleesWithin members) (g.callersWithin members) members =
      strongClass (h.calleesWithin members) (h.callersWithin members) members := by
    funext v
    exact strongClass_congr (fun x y => by rw [halike.calleesWithin_eq]) hback members v
  unfold cyclicParts
  dsimp only
  rw [hclass, halike.calleesWithin_eq]

/-- The same cycles are found part by part, by induction on the rounds. -/
theorem partCycles_eq (rounds : Nat) (parts : List (List String)) :
    g.partCycles rounds parts = h.partCycles rounds parts := by
  induction rounds generalizing parts with
  | zero => rfl
  | succ rounds ih =>
    match parts with
    | [] => rfl
    | [] :: _ => rfl
    | (start :: rest) :: parts =>
      rw [partCycles, partCycles, halike.calleesWithin_eq, halike.cyclicParts_eq, ih]

/-- The same longer cycles are found, with and without a bound on the length. -/
theorem longerCycles_eq (length : Option Nat) : g.longerCycles length = h.longerCycles length := by
  cases length with
  | none =>
    simp only [longerCycles, halike.nodeCount_eq, halike.nodeIds_eq, halike.cyclicParts_eq,
      halike.partCycles_eq]
  | some length =>
    simp only [longerCycles, halike.nodeCount_eq, halike.nodeIds_eq, halike.calleesFrom_eq]

/-- The same cycles are found within any limits.  A limit on their number keeps the first of them,
and they come in the same order. -/
theorem cycles_eq_cycles (limits : SearchLimits) : g.cycles limits = h.cycles limits := by
  by_cases hzero : limits.maxCycleLength = some 0
  · rw [cycles, cycles, if_pos hzero, if_pos hzero]
  · simp only [Graph.cycles_eq _ hzero, foundCycles, halike.loopCycles_eq, halike.longerCycles_eq]

/-! ## Components -/

/-- Each id has the same component. -/
theorem component_eq (connection : Connection) :
    g.component connection = h.component connection := by
  funext id
  cases connection with
  | strong =>
    rw [component, component, halike.nodeIds_eq]
    exact strongClass_congr halike.mem_calleesOf_iff halike.mem_callersOf_iff _ id
  | weak =>
    have hjoined : ∀ x y, y ∈ g.joinedTo x ↔ y ∈ h.joinedTo x := by
      intro x y
      rw [joinedTo, joinedTo, List.mem_append, List.mem_append, halike.mem_calleesOf_iff,
        halike.mem_callersOf_iff]
    simp only [component, halike.nodeIds_eq, halike.nodeCount_eq]
    exact List.filter_congr fun other _ => contains_reach_eq hjoined _ id other

/-- The same components are listed, for ids are gone through in ascending order. -/
theorem components_eq (connection : Connection) :
    g.components connection = h.components connection := by
  rw [components, components, halike.component_eq, halike.nodeIds_eq]

/-! ## The summary -/

/-- The same numbers sum up both graphs. -/
theorem summary_eq : g.summary = h.summary := by
  have hloops : g.loops = h.loops := by
    rw [loops, loops, halike.sortedEdges_eq]
  have hcyclic : g.isCyclicComponent = h.isCyclicComponent := by
    funext ids
    unfold isCyclicComponent
    rw [hloops]
  have hpopulated : g.populatedCount = h.populatedCount := halike.perm_nodes.countP_eq _
  have hdensity : g.density = h.density := by
    simp only [density, halike.nodeCount_eq, halike.edgeCount_eq]
  simp only [summary, halike.nodeCount_eq, halike.edgeCount_eq, hloops, hdensity,
    halike.entryPoints_eq, halike.terminals_eq, halike.components_eq, hcyclic, hpopulated]

/-! ## Parts and documents -/

/-- A request for a neighbourhood fails for both graphs with the same error, or cuts out parts that
are the same. -/
theorem neighbourhood (request : Neighbourhood) :
    (∃ error, request.of g = .error error ∧ request.of h = .error error) ∨
      ∃ part part', request.of g = .ok part ∧ request.of h = .ok part' ∧
        part.same part' = true := by
  rw [Neighbourhood.of, Neighbourhood.of, require_bind, require_bind,
    halike.within_eq halike.mem_callersOf_iff, halike.within_eq halike.mem_calleesOf_iff,
    halike.contains_eq]
  by_cases hfocus : h.contains request.focus = true
  · rw [if_pos hfocus, if_pos hfocus]
    exact .inr ⟨_, _, rfl, rfl, halike.same_induced _⟩
  · rw [if_neg hfocus, if_neg hfocus]
    exact .inl ⟨_, rfl, rfl⟩

/-- The same document is saved. -/
theorem document_eq (detail : Detail) (savedAt : Instant) :
    Document.ofGraph g detail savedAt = Document.ofGraph h detail savedAt := by
  rw [Document.ofGraph, Document.ofGraph, halike.sortedNodes_eq, halike.sortedEdges_eq]

end Alike

/-! ## All analyses -/

/-- All analyses of two graphs give the same answers, and parts that are cut out of them are the
same graphs. -/
structure AnalysesAgree (g h : Graph) : Prop where
  entryPoints : g.entryPoints = h.entryPoints
  terminals : ∀ knownOnly, g.terminals knownOnly = h.terminals knownOnly
  degrees : ∀ id, g.degrees id = h.degrees id
  ancestors : ∀ id limit, g.ancestors id limit = h.ancestors id limit
  descendants : ∀ id limit, g.descendants id limit = h.descendants id limit
  simplePaths : ∀ source target cutoff,
    g.simplePaths source target cutoff = h.simplePaths source target cutoff
  cycles : ∀ limits, g.cycles limits = h.cycles limits
  components : ∀ connection, g.components connection = h.components connection
  summary : g.summary = h.summary
  neighbourhood : ∀ request : Neighbourhood,
    (∃ error, request.of g = .error error ∧ request.of h = .error error) ∨
      ∃ part part', request.of g = .ok part ∧ request.of h = .ok part' ∧ part.same part' = true
  document : ∀ detail savedAt, Document.ofGraph g detail savedAt = Document.ofGraph h detail savedAt

/-- Graphs that are the same cannot be told apart by analyses, however each of them was put
together. -/
theorem analyses_agree (hg : g.Reachable) (hh : h.Reachable) (hsame : g.same h = true) :
    g.AnalysesAgree h := by
  have halike : Alike g h := ⟨hg.wellFormed, hh.wellFormed, hsame⟩
  constructor
  · exact halike.entryPoints_eq
  · exact halike.terminals_eq
  · exact halike.degrees_eq
  · exact halike.ancestors_eq
  · exact halike.descendants_eq
  · exact halike.simplePaths_eq
  · exact halike.cycles_eq_cycles
  · exact halike.components_eq
  · exact halike.summary_eq
  · exact halike.neighbourhood
  · exact halike.document_eq

/-- The graph of `pairWithLoop`, put together the other way round. -/
def pairWithLoopReversed : List Operation :=
  [.addNode ⟨"b", "b", "", .unknown, none, .empty⟩, .addNode ⟨"a", "a", "", .unknown, none, .empty⟩,
    .addEdge "b" "a", .addEdge "a" "b", .addEdge "a" "a"]

/-- The analyses agree for a graph that is put together in two orders. -/
theorem analyses_agree_pairWithLoop :
    (after pairWithLoop).same (after pairWithLoopReversed) = true ∧
      (after pairWithLoop).AnalysesAgree (after pairWithLoopReversed) := by
  have hreachable : (after pairWithLoop).Reachable := ⟨pairWithLoop, rfl⟩
  have hreversed : (after pairWithLoopReversed).Reachable := ⟨pairWithLoopReversed, rfl⟩
  have hsame : (after pairWithLoop).same (after pairWithLoopReversed) = true := by
    apply hreachable.wellFormed.same_of_perm
    · decide
    · decide
  exact ⟨hsame, analyses_agree hreachable hreversed hsame⟩

/-- Nodes and neighbours do come in another order. -/
example : (after pairWithLoop).nodes ≠ (after pairWithLoopReversed).nodes ∧
    (after pairWithLoop).calleesOf "a" ≠ (after pairWithLoopReversed).calleesOf "a" := by decide

end Graph

end CallGraph
