import CallGraph.Proofs.Analysis.Components
import CallGraph.Proofs.Graph.Operations
import Mathlib.Data.List.Sort

/-!
# Connected components

Two nodes are strongly connected if each reaches the other along edges, and weakly connected if one
reaches the other when the direction of edges does not matter.  Both are equivalences, and the
components of a graph are exactly their classes.

Components are opened while the ids are gone through in ascending order.  A class is therefore
opened for its least member: a smaller one would have been met before, and its class with it.  This
is why the list of components comes in the order of first members without being sorted.

Main results:

- Theorem `opened_classes`: what opening classes along an ascending list arrives at.
- Theorem `Graph.WellFormed.mem_component_iff`: the component of a node.
- Theorem `Graph.components_are_classes`: components are the classes of connected nodes, each in
  ascending order and listed once, in the order of their first members.
-/

namespace CallGraph

/-! ## Opening classes along an ascending list -/

/-- Both lists have a first member, and that of `c` is the lesser one. -/
def ComesBefore (c d : List String) : Prop :=
  ∃ a ∈ c.head?, ∃ b ∈ d.head?, a < b

/-- The classes of the members of a list: each keeps their order and contains the member it is the
class of, and classes that do not agree share nothing. -/
structure Classifies (classOf : String → List String) (members : List String) : Prop where
  sublist : ∀ v ∈ members, (classOf v).Sublist members
  self_mem : ∀ v ∈ members, v ∈ classOf v
  disjoint : ∀ u ∈ members, ∀ v ∈ members, v ∉ classOf u →
    List.Disjoint (classOf u) (classOf v)

/-- What was found when the members of `done` were gone through: classes that begin with the member
they were opened for, in the order of these, and that leave out nothing. -/
structure Opened (classOf : String → List String) (done : List String)
    (found : List (List String)) : Prop where
  begins : ∀ c ∈ found, ∃ a ∈ done, c = classOf a ∧ c.head? = some a
  covers : ∀ a ∈ done, ∃ c ∈ found, a ∈ c
  ordered : found.Pairwise ComesBefore

variable {classOf : String → List String} {done rest members : List String}
  {found : List (List String)} {v : String}

/-- A class without members that were gone through before begins with the member it is opened
for. -/
theorem Classifies.head?_eq (hclasses : Classifies classOf (done ++ v :: rest))
    (hascending : (done ++ v :: rest).Pairwise (· < ·)) (hnew : ∀ a ∈ done, a ∉ classOf v) :
    (classOf v).head? = some v := by
  have hv : v ∈ done ++ v :: rest := by simp
  have hsublist := hclasses.sublist v hv
  have hself := hclasses.self_mem v hv
  cases hclass : classOf v with
  | nil =>
    rw [hclass] at hself
    exact absurd hself List.not_mem_nil
  | cons first others =>
    have hsorted : (first :: others).Pairwise (· < ·) := hclass ▸ hascending.sublist hsublist
    have hfirst : first ∈ done ++ v :: rest := hsublist.subset (by simp [hclass])
    rcases List.mem_append.1 hfirst with hfirst | hfirst
    · exact absurd (by simp [hclass]) (hnew first hfirst)
    rcases List.mem_cons.1 hfirst with rfl | hafter
    · rfl
    · -- `v` would come after `first` in its class, but before it among the members.
      have hbefore : v < first :=
        (List.pairwise_cons.1 (List.pairwise_append.1 hascending).2.1).1 first hafter
      rw [hclass] at hself
      rcases List.mem_cons.1 hself with rfl | hlater
      · rfl
      · exact absurd hbefore ((List.pairwise_cons.1 hsorted).1 v hlater).asymm

/-- Going on past a member that lies in a class found before. -/
theorem Opened.skip (h : Opened classOf done found) (hold : ∃ c ∈ found, v ∈ c) :
    Opened classOf (done ++ [v]) found where
  begins := by
    intro c hc
    obtain ⟨a, ha, heq, hhead⟩ := h.begins c hc
    exact ⟨a, List.mem_append_left _ ha, heq, hhead⟩
  covers := by
    intro a ha
    rcases List.mem_append.1 ha with ha | ha
    · exact h.covers a ha
    · obtain rfl := List.mem_singleton.1 ha
      exact hold
  ordered := h.ordered

/-- The class of a member that lies in no class found before has no member gone through before. -/
theorem Opened.not_mem_of_mem_done (h : Opened classOf done found)
    (hclasses : Classifies classOf (done ++ v :: rest)) (hfree : ∀ c ∈ found, v ∉ c) :
    ∀ a ∈ done, a ∉ classOf v := by
  intro a ha hmem
  -- The class that `a` was found in is not disjoint from that of `v`, so it contains `v`.
  obtain ⟨c, hc, hac⟩ := h.covers a ha
  obtain ⟨u, hu, rfl, -⟩ := h.begins c hc
  have hu : u ∈ done ++ v :: rest := List.mem_append_left _ hu
  exact hclasses.disjoint u hu v (by simp) (hfree _ hc) hac hmem

/-- Opening the class of a member that lies in none of those found before. -/
theorem Opened.append (h : Opened classOf done found)
    (hclasses : Classifies classOf (done ++ v :: rest))
    (hascending : (done ++ v :: rest).Pairwise (· < ·)) (hfree : ∀ c ∈ found, v ∉ c) :
    Opened classOf (done ++ [v]) (found ++ [classOf v]) := by
  have hhead := hclasses.head?_eq hascending (h.not_mem_of_mem_done hclasses hfree)
  refine ⟨?_, ?_, ?_⟩
  · intro c hc
    rcases List.mem_append.1 hc with hc | hc
    · obtain ⟨a, ha, heq, hhead⟩ := h.begins c hc
      exact ⟨a, List.mem_append_left _ ha, heq, hhead⟩
    · obtain rfl := List.mem_singleton.1 hc
      exact ⟨v, by simp, rfl, hhead⟩
  · intro a ha
    rcases List.mem_append.1 ha with ha | ha
    · obtain ⟨c, hc, hac⟩ := h.covers a ha
      exact ⟨c, List.mem_append_left _ hc, hac⟩
    · obtain rfl := List.mem_singleton.1 ha
      exact ⟨classOf a, by simp, hclasses.self_mem a (by simp)⟩
  · refine List.pairwise_append.2 ⟨h.ordered, List.pairwise_singleton _ _, ?_⟩
    intro c hc d hd
    obtain rfl := List.mem_singleton.1 hd
    obtain ⟨a, ha, -, hbegin⟩ := h.begins c hc
    have hlt : a < v := (List.pairwise_append.1 hascending).2.2 a ha v (by simp)
    exact ⟨a, hbegin, v, hhead, hlt⟩

/-- Going through one more member. -/
theorem Opened.openClass (h : Opened classOf done found)
    (hclasses : Classifies classOf (done ++ v :: rest))
    (hascending : (done ++ v :: rest).Pairwise (· < ·)) :
    Opened classOf (done ++ [v]) (openClass classOf found v) := by
  rw [CallGraph.openClass]
  split
  · rename_i hold
    exact h.skip (by simpa using hold)
  · rename_i hnew
    exact h.append hclasses hascending (by simpa using hnew)

/-- Going through the rest of the members. -/
theorem Opened.foldl (h : Opened classOf done found) (hclasses : Classifies classOf (done ++ rest))
    (hascending : (done ++ rest).Pairwise (· < ·)) :
    Opened classOf (done ++ rest) (rest.foldl (CallGraph.openClass classOf) found) := by
  induction rest generalizing done found with
  | nil => simpa using h
  | cons v rest ih =>
    have hsplit : done ++ v :: rest = done ++ [v] ++ rest := by simp
    have hstep := h.openClass hclasses hascending
    rw [hsplit] at hclasses hascending ⊢
    exact ih hstep hclasses hascending

/-- Classes that are opened along an ascending list begin with the members they were opened for, in
the order of these, and leave out nothing. -/
theorem opened_classes (hclasses : Classifies classOf members)
    (hascending : members.Pairwise (· < ·)) :
    Opened classOf members (classes classOf members) := by
  have hnone : Opened classOf [] [] := ⟨by simp, by simp, .nil⟩
  exact hnone.foldl hclasses hascending

namespace Graph

variable {g : Graph} {a b c : String}

/-! ## Connected nodes -/

/-- The first id has an edge to the second. -/
def Calls (g : Graph) (a b : String) : Prop :=
  g.hasEdge a b = true

/-- The ids are connected: each reaches the other along edges, or, weakly, one reaches the other
when the direction of edges is ignored. -/
def AreConnected (g : Graph) : Connection → String → String → Prop
  | .strong, a, b => Relation.ReflTransGen g.Calls a b ∧ Relation.ReflTransGen g.Calls b a
  | .weak, a, b => Relation.ReflTransGen (fun x y => g.Calls x y ∨ g.Calls y x) a b

/-- A node is connected with itself. -/
theorem AreConnected.refl (g : Graph) (connection : Connection) (a : String) :
    g.AreConnected connection a a := by
  cases connection with
  | strong => exact ⟨.refl, .refl⟩
  | weak => exact Relation.ReflTransGen.refl

/-- Connection goes both ways, also strong connection, which asks for both ways. -/
theorem AreConnected.symm {connection : Connection} (h : g.AreConnected connection a b) :
    g.AreConnected connection b a := by
  cases connection with
  | strong => exact ⟨h.2, h.1⟩
  | weak =>
    induction (show Relation.ReflTransGen (fun x y => g.Calls x y ∨ g.Calls y x) a b from h) with
    | refl => exact Relation.ReflTransGen.refl
    | tail hway hstep ih => exact Relation.ReflTransGen.head hstep.symm (ih hway)

/-- What is connected with one node is connected among each other. -/
theorem AreConnected.trans {connection : Connection} (hab : g.AreConnected connection a b)
    (hbc : g.AreConnected connection b c) : g.AreConnected connection a c := by
  cases connection with
  | strong => exact ⟨hab.1.trans hbc.1, hbc.2.trans hab.2⟩
  | weak => exact Relation.ReflTransGen.trans hab hbc

/-- Both ends of a call are in the graph. -/
theorem contains_of_calls (h : g.Calls a b) : g.contains a = true ∧ g.contains b = true :=
  contains_of_hasEdge h

/-- What is connected with a node is a node. -/
theorem AreConnected.contains {connection : Connection} (h : g.AreConnected connection a b)
    (ha : g.contains a = true) : g.contains b = true := by
  cases connection with
  | strong =>
    obtain ⟨hforth, -⟩ := h
    cases hforth with
    | refl => exact ha
    | tail _ hstep => exact (contains_of_calls hstep).2
  | weak =>
    cases h with
    | refl => exact ha
    | tail _ hstep =>
      rcases hstep with hstep | hstep
      · exact (contains_of_calls hstep).2
      · exact (contains_of_calls hstep).1

/-! ## Components -/

/-- Calls are steps to callees. -/
theorem WellFormed.calls_eq (hg : g.WellFormed) :
    g.Calls = fun x y => y ∈ g.calleesOf x := by
  funext x y
  exact propext hg.mem_calleesOf_iff.symm

/-- Calls in either direction are steps to neighbours. -/
theorem WellFormed.joined_eq (hg : g.WellFormed) :
    (fun x y => g.Calls x y ∨ g.Calls y x) = fun x y => y ∈ g.joinedTo x := by
  funext x y
  rw [joinedTo, List.mem_append, hg.mem_calleesOf_iff, hg.mem_callersOf_iff]
  rfl

/-- Callees are nodes of the graph. -/
theorem WellFormed.mem_nodeIds_of_mem_calleesOf (hg : g.WellFormed) (h : b ∈ g.calleesOf a) :
    b ∈ g.nodeIds :=
  mem_nodeIds_iff.2 (contains_of_hasEdge (hg.mem_calleesOf_iff.1 h)).2

/-- Callers are nodes of the graph. -/
theorem WellFormed.mem_nodeIds_of_mem_callersOf (hg : g.WellFormed) (h : b ∈ g.callersOf a) :
    b ∈ g.nodeIds :=
  mem_nodeIds_iff.2 (contains_of_hasEdge (hg.mem_callersOf_iff.1 h)).1

/-- The component of a node consists of the ids that are connected with it. -/
theorem WellFormed.mem_component_iff (hg : g.WellFormed) {connection : Connection}
    (ha : a ∈ g.nodeIds) : b ∈ g.component connection a ↔ g.AreConnected connection a b := by
  have hnode : g.AreConnected connection a b → b ∈ g.nodeIds :=
    fun h => mem_nodeIds_iff.2 (h.contains (mem_nodeIds_iff.1 ha))
  cases connection with
  | strong =>
    rw [component, mem_strongClass_iff (fun _ _ => hg.mem_nodeIds_of_mem_calleesOf)
      (fun _ _ => hg.mem_nodeIds_of_mem_callersOf) ?_ ha, ← hg.calls_eq]
    · exact ⟨fun h => h.2, fun h => ⟨hnode h, h⟩⟩
    · intro x _ y _ _
      rw [hg.mem_calleesOf_iff, hg.mem_callersOf_iff]
  | weak =>
    have hjoined : ∀ x, ∀ y ∈ g.joinedTo x, y ∈ g.nodeIds := by
      intro x y hy
      rcases List.mem_append.1 hy with hy | hy
      · exact hg.mem_nodeIds_of_mem_calleesOf hy
      · exact hg.mem_nodeIds_of_mem_callersOf hy
    have hreach : b ∈ reach g.joinedTo g.nodeCount a ↔ g.AreConnected .weak a b := by
      rw [← hg.length_nodeIds, mem_reach_iff_reflTransGen hjoined ha, ← hg.joined_eq]
      rfl
    simp only [component, List.mem_filter, List.contains_iff_mem, hreach]
    exact ⟨fun h => h.2, fun h => ⟨hnode h, h⟩⟩

/-- Components are the classes of a relation among the nodes. -/
theorem WellFormed.classifies_component (hg : g.WellFormed) (connection : Connection) :
    Classifies (g.component connection) g.nodeIds where
  sublist := by
    intro a _
    cases connection with
    | strong => exact List.filter_sublist
    | weak => exact List.filter_sublist
  self_mem := fun a ha => (hg.mem_component_iff ha).2 (.refl g connection a)
  disjoint := by
    intro a ha b hb hnot c hac hbc
    rw [hg.mem_component_iff ha] at hnot hac
    rw [hg.mem_component_iff hb] at hbc
    exact hnot (hac.trans hbc.symm)

/-- The components are opened one after the other, in the order of the ids. -/
theorem WellFormed.opened_components (hg : g.WellFormed) (connection : Connection) :
    Opened (g.component connection) g.nodeIds (g.components connection) :=
  opened_classes (hg.classifies_component connection) (pairwise_nodeIds g)

/-- Every component is the component of one of its members. -/
theorem WellFormed.exists_eq_component (hg : g.WellFormed) {connection : Connection}
    {ids : List String} (h : ids ∈ g.components connection) :
    ∃ a, g.contains a = true ∧ ids.Pairwise (· < ·) ∧
      ∀ b, b ∈ ids ↔ g.AreConnected connection a b := by
  obtain ⟨a, ha, rfl, -⟩ := (hg.opened_components connection).begins ids h
  have hsublist := (hg.classifies_component connection).sublist a ha
  exact ⟨a, mem_nodeIds_iff.1 ha, (pairwise_nodeIds g).sublist hsublist,
    fun b => hg.mem_component_iff ha⟩

/-- Every node lies in a component. -/
theorem WellFormed.exists_component (hg : g.WellFormed) (connection : Connection)
    (ha : g.contains a = true) : ∃ ids ∈ g.components connection, a ∈ ids :=
  (hg.opened_components connection).covers a (mem_nodeIds_iff.2 ha)

/-- The members of a component are connected with each other and with nothing else. -/
theorem WellFormed.mem_component_iff_of_mem (hg : g.WellFormed) {connection : Connection}
    {ids : List String} (h : ids ∈ g.components connection) (ha : a ∈ ids) :
    b ∈ ids ↔ g.AreConnected connection a b := by
  obtain ⟨c, -, -, hmem⟩ := hg.exists_eq_component h
  rw [hmem] at ha ⊢
  exact ⟨fun hb => ha.symm.trans hb, fun hb => ha.trans hb⟩

/-- Components with a common member are the same. -/
theorem WellFormed.eq_of_mem_components (hg : g.WellFormed) {connection : Connection}
    {ids others : List String} (hids : ids ∈ g.components connection)
    (hothers : others ∈ g.components connection) (ha : a ∈ ids) (ha' : a ∈ others) :
    ids = others := by
  obtain ⟨-, -, hsorted, -⟩ := hg.exists_eq_component hids
  obtain ⟨-, -, hsorted', -⟩ := hg.exists_eq_component hothers
  refine hsorted.eq_of_mem_iff hsorted' fun b => ?_
  rw [hg.mem_component_iff_of_mem hids ha, hg.mem_component_iff_of_mem hothers ha']

/-- The components are exactly the classes of connected nodes, each in ascending order. -/
theorem WellFormed.mem_components_iff (hg : g.WellFormed) {connection : Connection}
    {ids : List String} :
    ids ∈ g.components connection ↔ ids.Pairwise (· < ·) ∧
      ∃ a, g.contains a = true ∧ ∀ b, b ∈ ids ↔ g.AreConnected connection a b := by
  constructor
  · intro h
    obtain ⟨a, ha, hsorted, hmem⟩ := hg.exists_eq_component h
    exact ⟨hsorted, a, ha, hmem⟩
  · rintro ⟨hsorted, a, ha, hmem⟩
    obtain ⟨others, hothers, haothers⟩ := hg.exists_component connection ha
    obtain ⟨-, -, hsorted', -⟩ := hg.exists_eq_component hothers
    have heq : ids = others := by
      refine hsorted.eq_of_mem_iff hsorted' fun b => ?_
      rw [hmem, hg.mem_component_iff_of_mem hothers haothers]
    exact heq ▸ hothers

/-- The components are the classes of connected nodes, in ascending order; each node lies in exactly
one of them, and they are listed in the order of their first members. -/
theorem components_are_classes (h : g.Reachable) (connection : Connection) :
    (∀ ids, ids ∈ g.components connection ↔ ids.Pairwise (· < ·) ∧
      ∃ a, g.contains a = true ∧ ∀ b, b ∈ ids ↔ g.AreConnected connection a b) ∧
    (∀ a, g.contains a = true → ∃! ids, ids ∈ g.components connection ∧ a ∈ ids) ∧
    (g.components connection).Pairwise ComesBefore := by
  have hg := h.wellFormed
  refine ⟨fun ids => hg.mem_components_iff, fun a ha => ?_, (hg.opened_components _).ordered⟩
  obtain ⟨ids, hids, hmem⟩ := hg.exists_component connection ha
  refine ⟨ids, ⟨hids, hmem⟩, ?_⟩
  rintro others ⟨hothers, hmem'⟩
  exact hg.eq_of_mem_components hothers hids hmem' hmem

/-- Two nodes that call each other, a third that calls one of them, and a node by itself, none of
them added in the order of the ids. -/
def pairWithCaller : List Operation :=
  [.addNode ⟨"d", "d", "", .unknown, none, .empty⟩, .addNode ⟨"b", "b", "", .unknown, none, .empty⟩,
    .addNode ⟨"c", "c", "", .unknown, none, .empty⟩,
    .addNode ⟨"a", "a", "", .unknown, none, .empty⟩, .addEdge "b" "a", .addEdge "c" "a",
    .addEdge "a" "b"]

/-- A node that calls one of a pair lies in one strong and in one weak component. -/
theorem components_pairWithCaller :
    (after pairWithCaller).contains "c" = true ∧
      (∃! ids, ids ∈ (after pairWithCaller).components .strong ∧ "c" ∈ ids) ∧
      ∃! ids, ids ∈ (after pairWithCaller).components .weak ∧ "c" ∈ ids := by
  have hnode : (after pairWithCaller).contains "c" = true := by decide
  have hreachable : (after pairWithCaller).Reachable := ⟨pairWithCaller, rfl⟩
  exact ⟨hnode, (components_are_classes hreachable .strong).2.1 "c" hnode,
    (components_are_classes hreachable .weak).2.1 "c" hnode⟩

example : (after pairWithCaller).components .strong = [["a", "b"], ["c"], ["d"]] := by cbv

example : (after pairWithCaller).components .weak = [["a", "b", "c"], ["d"]] := by cbv

end Graph

end CallGraph
