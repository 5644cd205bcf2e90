import CallGraph.Proofs.Analysis.SimplePaths

/-!
# What lies within a distance

A node is met by a search for callees within a limit if it is at most that many hops away, and a
path that meets nothing twice is no longer than the way it was shortened from.  So the search for
paths finds one exactly where the search for callees meets its target, and, since hops along edges
are hops against them in the other direction, where the search for callers meets its source.

Main results:

- Theorem `Graph.WellFormed.mem_within_iff`: what a search within a limit meets.
- Theorem `Graph.WellFormed.hops_of_calls`: hops along a list of ids.
- Theorem `Graph.WellFormed.exists_isSimplePath_iff`: where simple paths lead within a limit.
- Theorem `Graph.paths_where_reached`: paths, callers and callees within a limit agree.
-/

namespace CallGraph

namespace Graph

variable {g : Graph} {a b source target : String}

/-- A search within a limit meets the nodes at most as many hops away, other than its start. -/
theorem WellFormed.mem_within_iff (hg : g.WellFormed) {next : String → List String}
    (hnext : ∀ x, ∀ y ∈ next x, y ∈ g.nodeIds) (ha : g.contains a = true) {limit : Option Nat} :
    b ∈ g.within next a limit ↔ b ≠ a ∧ ∃ n, (∀ most ∈ limit, n ≤ most) ∧ Hops next n a b := by
  have hhops : (∃ n ≤ g.hops limit, Hops next n a b) ↔
      ∃ n, (∀ most ∈ limit, n ≤ most) ∧ Hops next n a b := by
    constructor
    · rintro ⟨n, hn, hway⟩
      refine ⟨n, ?_, hway⟩
      rintro most rfl
      exact hn.trans (Nat.min_le_left _ _)
    · rintro ⟨n, hn, hway⟩
      -- No node is further away than there are nodes.
      obtain ⟨m, hm, hle, hshort⟩ := hway.exists_lt_length hnext (mem_nodeIds_iff.2 ha)
      rw [hg.length_nodeIds] at hm
      refine ⟨m, ?_, hshort⟩
      cases limit with
      | none => exact hm.le
      | some most => exact le_min (hle.trans (hn most rfl)) hm.le
  simp only [within, mem_sortTexts, List.mem_filter, mem_reach_iff, hhops, bne_iff_ne]
  exact And.comm

theorem descendants_eq_ok (ha : g.contains a = true) (limit : Option Nat) :
    g.descendants a limit = .ok (g.within g.calleesOf a limit) := by
  rw [descendants, require_bind, if_pos ha]
  rfl

theorem ancestors_eq_ok (ha : g.contains a = true) (limit : Option Nat) :
    g.ancestors a limit = .ok (g.within g.callersOf a limit) := by
  rw [ancestors, require_bind, if_pos ha]
  rfl

/-- Hops from callers to callees are hops from callees to callers in the other direction. -/
theorem WellFormed.hops_callersOf_iff (hg : g.WellFormed) {n : Nat} :
    Hops g.callersOf n b a ↔ Hops g.calleesOf n a b := by
  have hturn : ∀ x y, y ∈ g.calleesOf x ↔ x ∈ g.callersOf y := by
    intro x y
    rw [hg.mem_calleesOf_iff, hg.mem_callersOf_iff]
  exact ⟨.undo fun x y h => (hturn y x).2 h, .undo fun x y h => (hturn x y).1 h⟩

/-- Ids each of which calls the next lead as many hops away as they have edges between them. -/
theorem WellFormed.hops_of_calls (hg : g.WellFormed) {path : List String}
    (hhead : path.head? = some source) (hlast : path.getLast? = some target)
    (hedges : path.IsChain g.Calls) :
    ∃ n, path.length = n + 1 ∧ Hops g.calleesOf n source target := by
  obtain ⟨rest, rfl⟩ := List.head?_eq_some_iff.1 hhead
  have hchain : List.IsChain (fun x y => y ∈ g.calleesOf x) (source :: rest) :=
    hg.calls_eq ▸ hedges
  rw [List.getLast?_eq_some_getLast (by simp), Option.some.injEq] at hlast
  exact ⟨rest.length, rfl, hlast ▸ hops_of_isChain hchain⟩

/-- A simple path has at most as many edges as some way to its end has hops. -/
theorem WellFormed.exists_isSimplePath_iff (hg : g.WellFormed) {limit : Option Nat} :
    (∃ path, g.IsSimplePath source target path ∧ ∀ edges ∈ limit, path.length ≤ edges + 1) ↔
      ∃ n, (∀ most ∈ limit, n ≤ most) ∧ Hops g.calleesOf n source target := by
  constructor
  · rintro ⟨path, hpath, hlength⟩
    obtain ⟨n, hn, hway⟩ := hg.hops_of_calls hpath.head hpath.last hpath.edges
    rw [hn] at hlength
    exact ⟨n, fun most hmost => Nat.le_of_succ_le_succ (hlength most hmost), hway⟩
  · rintro ⟨n, hn, hway⟩
    obtain ⟨rest, hchain, hnodup, hlast, hlength⟩ := hway.exists_nodup_path
    refine ⟨source :: rest, ⟨rfl, ?_, hnodup, ?_⟩, fun edges hedges => ?_⟩
    · rw [List.getLast?_eq_some_getLast (by simp), hlast]
    · exact hg.calls_eq ▸ hchain
    · exact Nat.succ_le_succ (hlength.trans (hn edges hedges))

/-- Within any limit and without one, there is a path between two different nodes exactly if the
second is met among the callees of the first, and exactly if the first is met among the callers of
the second: both mean that the second is no more hops away than the limit allows. -/
theorem paths_where_reached (h : g.Reachable) (hsource : g.contains source = true)
    (htarget : g.contains target = true) (hne : source ≠ target) (limit : Option Nat) :
    ∃ paths below above, g.simplePaths source target limit = .ok paths ∧
      g.descendants source limit = .ok below ∧ g.ancestors target limit = .ok above ∧
      (paths ≠ [] ↔ target ∈ below) ∧ (paths ≠ [] ↔ source ∈ above) ∧
      (paths ≠ [] ↔ ∃ n, (∀ most ∈ limit, n ≤ most) ∧ Hops g.calleesOf n source target) := by
  have hg := h.wellFormed
  obtain ⟨paths, hpaths, hmem⟩ := hg.exists_simplePaths hsource htarget hne limit
  have hreached : paths ≠ [] ↔
      ∃ n, (∀ most ∈ limit, n ≤ most) ∧ Hops g.calleesOf n source target := by
    rw [← hg.exists_isSimplePath_iff, Ne, List.eq_nil_iff_forall_not_mem, not_forall_not]
    exact exists_congr hmem
  refine ⟨paths, g.within g.calleesOf source limit, g.within g.callersOf target limit, hpaths,
    descendants_eq_ok hsource limit, ancestors_eq_ok htarget limit, ?_, ?_, hreached⟩
  · rw [hreached, hg.mem_within_iff (fun _ _ => hg.mem_nodeIds_of_mem_calleesOf) hsource]
    exact (and_iff_right hne.symm).symm
  · rw [hreached, hg.mem_within_iff (fun _ _ => hg.mem_nodeIds_of_mem_callersOf) htarget]
    simp only [hg.hops_callersOf_iff]
    exact (and_iff_right hne).symm

/-- A way of three calls, and a call that shortens it to two. -/
def shortcut : List Operation :=
  [.addNode ⟨"a", "a", "", .unknown, none, .empty⟩, .addNode ⟨"b", "b", "", .unknown, none, .empty⟩,
    .addNode ⟨"c", "c", "", .unknown, none, .empty⟩,
    .addNode ⟨"d", "d", "", .unknown, none, .empty⟩, .addEdge "a" "c", .addEdge "a" "b",
    .addEdge "b" "c", .addEdge "c" "d"]

/-- Two hops from the first node of a shortcut to its last. -/
theorem paths_shortcut_within_two :
    (after shortcut).contains "a" = true ∧ (after shortcut).contains "d" = true ∧ "a" ≠ "d" ∧
      ∃ paths below above, (after shortcut).simplePaths "a" "d" (some 2) = .ok paths ∧
        (after shortcut).descendants "a" (some 2) = .ok below ∧
        (after shortcut).ancestors "d" (some 2) = .ok above ∧
        (paths ≠ [] ↔ "d" ∈ below) ∧ (paths ≠ [] ↔ "a" ∈ above) ∧
        (paths ≠ [] ↔
          ∃ n, (∀ most ∈ some 2, n ≤ most) ∧ Hops (after shortcut).calleesOf n "a" "d") := by
  have hsource : (after shortcut).contains "a" = true := by decide
  have htarget : (after shortcut).contains "d" = true := by decide
  have hne : "a" ≠ "d" := by decide
  exact ⟨hsource, htarget, hne,
    paths_where_reached ⟨shortcut, rfl⟩ hsource htarget hne (some 2)⟩

example : (after shortcut).simplePaths "a" "d" (some 2) = .ok [["a", "c", "d"]] := by cbv

end Graph

end CallGraph
