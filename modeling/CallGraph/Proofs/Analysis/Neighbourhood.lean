import CallGraph.Analysis.Neighbourhood
import CallGraph.Proofs.Analysis.ShortestPaths
import CallGraph.Proofs.Graph.Parts

/-!
# Neighbourhoods as parts of a graph

A neighbourhood keeps the node in focus, its callers and its callees up to the given distances, and
all edges between them.  With a caller it keeps the whole path from it to the focus, and with a
callee the whole path to it, so that all distances that count are the same inside the
neighbourhood: the neighbourhood of the focus in it is all of it.

Main results:

- Theorem `Neighbourhood.Follows.keeps_of_mem`: with a node the path to it is kept.
- Theorem `Neighbourhood.CutsOut.keeps_of_contains`: nothing falls out of a neighbourhood when
  distances are measured inside it.
- Theorem `Neighbourhood.of_keeps_nearby`: which nodes and edges a neighbourhood has, and that its
  own neighbourhood is the same graph.
-/

namespace CallGraph

namespace Neighbourhood

variable {g part : Graph} {request : Neighbourhood} {id : String} {path : List String}

/-! ## What is kept -/

/-- A path with so few edges that a neighbourhood has all of it: one to the focus with no more edges
than hops of callers were asked for, or one from the focus with no more than hops of callees. -/
inductive Follows (request : Neighbourhood) (g : Graph) (id : String) : List String → Prop
  | toFocus {path : List String} : g.IsPath id request.focus path →
      path.length ≤ request.callerHops + 1 → Follows request g id path
  | fromFocus {path : List String} : g.IsPath request.focus id path →
      (∀ hops ∈ request.calleeHops, path.length ≤ hops + 1) → Follows request g id path

/-- A neighbourhood keeps a node if it follows a path between it and the focus. -/
def Keeps (request : Neighbourhood) (g : Graph) (id : String) : Prop :=
  ∃ path, request.Follows g id path

/-- The focus is kept, whatever the distances. -/
theorem keeps_focus : request.Keeps g request.focus :=
  ⟨[request.focus], .toFocus ⟨rfl, rfl, List.isChain_singleton _⟩ (Nat.le_add_left 1 _)⟩

theorem Keeps.contains (h : request.Keeps g id) (hfocus : g.contains request.focus = true) :
    g.contains id = true := by
  obtain ⟨path, hpath | hpath⟩ := h
  · exact hpath.contains_source hfocus
  · exact hpath.contains_target hfocus

/-- With a path, each of its ids is kept. -/
theorem Follows.keeps_of_mem (h : request.Follows g id path) {met : String} (hmet : met ∈ path) :
    request.Keeps g met := by
  obtain ⟨before, after, hsplit⟩ := List.append_of_mem hmet
  have hlength : path.length = before.length + (after.length + 1) := by
    rw [hsplit, List.length_append, List.length_cons]
  cases h with
  | toFocus hpath hshort =>
    refine ⟨_, .toFocus (hpath.goesOn hsplit) ?_⟩
    rw [List.length_cons]
    omega
  | fromFocus hpath hshort =>
    refine ⟨_, .fromFocus (hpath.leadsTo hsplit) fun hops hhops => ?_⟩
    have hle := hshort hops hhops
    rw [List.length_append, List.length_singleton]
    omega

/-- What the searches for callers and callees meet, and the focus, is what a neighbourhood keeps. -/
theorem mem_ids_iff (hg : g.WellFormed) (hfocus : g.contains request.focus = true) (id : String) :
    id ∈ request.focus :: (g.within g.callersOf request.focus (some request.callerHops) ++
        g.within g.calleesOf request.focus request.calleeHops) ↔
      request.Keeps g id := by
  rw [List.mem_cons, List.mem_append, hg.mem_within_callersOf_iff hfocus,
    hg.mem_within_calleesOf_iff hfocus]
  constructor
  · rintro (rfl | ⟨-, path, hpath, hlength⟩ | ⟨-, path, hpath, hlength⟩)
    · exact keeps_focus
    · exact ⟨path, .toFocus hpath.isPath (hlength _ rfl)⟩
    · exact ⟨path, .fromFocus hpath.isPath hlength⟩
  · rintro ⟨path, hpath⟩
    by_cases hid : id = request.focus
    · exact .inl hid
    -- The shortest path has no more edges than the one that is followed.
    right
    cases hpath with
    | toFocus hpath hlength =>
      obtain ⟨shortest, hshortest⟩ := hpath.exists_isShortestPath
      refine .inl ⟨hid, shortest, hshortest, ?_⟩
      rintro hops ⟨⟩
      exact (hshortest.least path hpath).trans hlength
    | fromFocus hpath hlength =>
      obtain ⟨shortest, hshortest⟩ := hpath.exists_isShortestPath
      exact .inr ⟨hid, shortest, hshortest, fun hops hhops =>
        (hshortest.least path hpath).trans (hlength hops hhops)⟩

/-! ## The part that is cut out -/

/-- A part of a graph with exactly the nodes that a neighbourhood keeps, as they are in the whole
graph, and exactly the edges of the whole graph between them. -/
structure CutsOut (request : Neighbourhood) (g part : Graph) : Prop where
  contains_iff : ∀ id, part.contains id = true ↔ request.Keeps g id
  node?_eq : ∀ id, request.Keeps g id → part.node? id = g.node? id
  hasEdge_iff : ∀ caller callee, part.hasEdge caller callee = true ↔
    g.hasEdge caller callee = true ∧ request.Keeps g caller ∧ request.Keeps g callee

/-- A neighbourhood is cut out if its focus is in the graph. -/
theorem exists_cutsOut (hg : g.WellFormed) (hfocus : g.contains request.focus = true) :
    ∃ ids, request.of g = .ok (g.induced ids) ∧ (∀ id, id ∈ ids ↔ request.Keeps g id) ∧
      request.CutsOut g (g.induced ids) := by
  have hids := mem_ids_iff hg hfocus
  refine ⟨_, ?_, hids, ?_, ?_, ?_⟩
  · rw [Neighbourhood.of, Graph.require_bind, if_pos hfocus]
    rfl
  · intro id
    rw [hg.contains_induced_iff, hids]
    exact ⟨fun h => h.2, fun h => ⟨h.contains hfocus, h⟩⟩
  · intro id hid
    rw [hg.node?_induced, if_pos ((hids id).2 hid)]
  · intro caller callee
    rw [hg.hasEdge_induced_iff, hids, hids]

/-! ## Distances inside a neighbourhood -/

/-- A path that is followed lies in the part that is cut out. -/
theorem CutsOut.follows (hcut : request.CutsOut g part) (h : request.Follows g id path) :
    request.Follows part id path := by
  have hedges : path.IsChain g.Calls → path.IsChain part.Calls := by
    intro hchain
    refine hchain.imp_of_mem_imp fun a b ha hb hcall => ?_
    exact (hcut.hasEdge_iff a b).2 ⟨hcall, h.keeps_of_mem ha, h.keeps_of_mem hb⟩
  cases h with
  | toFocus hpath hlength => exact .toFocus ⟨hpath.head, hpath.last, hedges hpath.edges⟩ hlength
  | fromFocus hpath hlength => exact .fromFocus ⟨hpath.head, hpath.last, hedges hpath.edges⟩ hlength

/-- Nothing falls out of a neighbourhood when distances are measured inside it. -/
theorem CutsOut.keeps_of_contains (hcut : request.CutsOut g part) (h : part.contains id = true) :
    request.Keeps part id := by
  obtain ⟨path, hpath⟩ := (hcut.contains_iff id).1 h
  exact ⟨path, hcut.follows hpath⟩

/-- The neighbourhood of a node is the graph of the node itself, the nodes with a path to it and the
nodes with a path from it that are no longer than asked for, all as they are in the whole graph,
with exactly the edges of the whole graph between them.  The neighbourhood of the node in this graph
is the same graph again. -/
theorem of_keeps_nearby (h : g.Reachable) (hfocus : g.contains request.focus = true) :
    ∃ part, request.of g = .ok part ∧ part.WellFormed ∧ request.CutsOut g part ∧
      ∃ again, request.of part = .ok again ∧ part.same again = true := by
  have hg := h.wellFormed
  obtain ⟨ids, hpart, -, hcut⟩ := exists_cutsOut hg hfocus
  have hpartWellFormed := hg.induced ids
  have hpartFocus := (hcut.contains_iff request.focus).2 keeps_focus
  obtain ⟨idsAgain, hagain, hkept, -⟩ := exists_cutsOut hpartWellFormed hpartFocus
  refine ⟨_, hpart, hpartWellFormed, hcut, _, hagain, ?_⟩
  refine hpartWellFormed.same_induced_of_contains fun id hid => ?_
  exact (hkept id).2 (hcut.keeps_of_contains hid)

/-- One hop above and one below a node of a ring with a chord. -/
theorem of_keeps_nearby_ringWithChord :
    let request : Neighbourhood := ⟨"c", 1, some 1⟩
    let g := Graph.after Graph.ringWithChord
    g.Reachable ∧ g.contains request.focus = true ∧
      ∃ part, request.of g = .ok part ∧ part.WellFormed ∧ request.CutsOut g part ∧
        ∃ again, request.of part = .ok again ∧ part.same again = true := by
  intro request g
  have hreachable : g.Reachable := ⟨Graph.ringWithChord, rfl⟩
  have hfocus : g.contains request.focus = true := by decide
  exact ⟨hreachable, hfocus, of_keeps_nearby hreachable hfocus⟩

end Neighbourhood

end CallGraph
