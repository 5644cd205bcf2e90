import CallGraph.Proofs.Analysis.Connection
import CallGraph.Proofs.Analysis.CyclicParts

/-!
# Simple paths

The search for simple paths goes the same ways as the search for cycles.  A path to a target is
found like a way back to it: as if the target had been met before the source, and a cycle were
closed there.

Main results:

- Theorem `Graph.waysTo_eq`: the ways to a target are ways back to it.
- Theorem `Graph.WellFormed.mem_waysTo_iff`: a search of a given depth finds the simple paths that
  have at most as many edges.
- Theorem `Graph.WellFormed.exists_simplePaths`: the simple paths between different nodes within a
  cutoff are found.
- Theorem `Graph.simplePaths_lists_simple_paths`: what is listed, in which order, and when an id is
  refused.
-/

namespace CallGraph

namespace Graph

variable {g : Graph} {source target : String} {path : List String}

/-! ## Paths as ways back -/

/-- The ways to a target are the ways back to it of a search that met the target before everything
else, without what was met before `here`. -/
theorem waysTo_eq (g : Graph) (target : String) (hops : Nat) (before : List String)
    (here : String) :
    g.waysTo target hops (here :: before) here =
      (waysBack g.otherCallees target hops (here :: before ++ [target]) here).map
        fun way => way.drop (before.length + 1) ++ [target] := by
  induction hops generalizing before here with
  | zero => rfl
  | succ hops ih =>
    rw [waysTo, waysBack, List.map_flatMap]
    congr 1
    funext next
    by_cases htarget : next = target
    · simp [htarget]
    by_cases hmet : next ∈ here :: before
    · have hmet' : next ∈ here :: before ++ [target] := List.mem_append_left _ hmet
      simp only [if_neg htarget, if_pos hmet', List.contains_iff_mem, if_pos hmet, List.map_nil]
    · have hmet' : next ∉ here :: before ++ [target] := by simp_all
      simp only [if_neg htarget, if_neg hmet', List.contains_iff_mem, if_neg hmet, ih, List.map_map]
      refine List.map_congr_left fun way hway => ?_
      obtain ⟨rest, rfl, -⟩ := (CallGraph.mem_waysBack_iff (by simp)).1 hway
      -- The way goes on from `target`, past what was met before, to `here` and `next`.
      have hfromHere : ((next :: here :: before ++ [target]).reverse ++ rest).drop
          (before.length + 1) = here :: next :: rest := by
        have hsplit : (next :: here :: before ++ [target]).reverse ++ rest =
            (target :: before.reverse) ++ here :: next :: rest := by simp
        rw [hsplit, List.drop_left' (by simp)]
      have hfromNext : ((next :: here :: before ++ [target]).reverse ++ rest).drop
          (before.length + 1 + 1) = next :: rest := by
        rw [← List.drop_drop, hfromHere, List.drop_one, List.tail_cons]
      simp only [Function.comp_apply, List.length_cons]
      rw [hfromNext, hfromHere]
      rfl

/-! ## Simple paths -/

/-- A way from one id to another along edges that meets nothing twice. -/
structure IsSimplePath (g : Graph) (source target : String) (path : List String) : Prop where
  head : path.head? = some source
  last : path.getLast? = some target
  nodup : path.Nodup
  edges : path.IsChain g.Calls

/-- A simple path between different ids is made of steps to other nodes. -/
theorem WellFormed.isChain_otherCallees (hg : g.WellFormed)
    (h : g.IsSimplePath source target path) : path.IsChain fun a b => b ∈ g.otherCallees a := by
  have hsteps : path.IsChain (· ≠ ·) := h.nodup.isChain
  have hedges := h.edges
  rw [List.isChain_iff_getElem] at hedges hsteps ⊢
  intro i hi
  exact hg.mem_otherCallees_iff.2 ⟨hedges i hi, (hsteps i hi).symm⟩

/-- Between two different ends, a list meets nothing twice if it meets neither of them again. -/
theorem nodup_between_iff {α : Type} {a b : α} (hne : a ≠ b) {between : List α} :
    (a :: between ++ [b]).Nodup ↔ between.Nodup ∧ ∀ c ∈ between, c ∉ [a, b] := by
  rw [List.nodup_append', List.nodup_cons]
  simp only [List.nodup_singleton, List.disjoint_singleton, List.mem_cons, not_or, hne.symm,
    List.not_mem_nil, not_false_eq_true, true_and, and_true]
  constructor
  · rintro ⟨⟨ha, hbetween⟩, hb⟩
    exact ⟨hbetween, fun c hc => ⟨fun heq => ha (heq ▸ hc), fun heq => hb (heq ▸ hc)⟩⟩
  · rintro ⟨hbetween, hends⟩
    exact ⟨⟨fun ha => (hends a ha).1 rfl, hbetween⟩, fun hb => (hends b hb).2 rfl⟩

/-- Between different ids, a simple path consists of the two ends and of what lies between them. -/
theorem isSimplePath_iff (hne : source ≠ target) :
    g.IsSimplePath source target path ↔ ∃ between, path = source :: between ++ [target] ∧
      between.Nodup ∧ (∀ id ∈ between, id ∉ [source, target]) ∧ path.IsChain g.Calls := by
  constructor
  · intro h
    obtain ⟨rest, rfl⟩ := List.head?_eq_some_iff.1 h.head
    obtain ⟨front, hfront⟩ := List.getLast?_eq_some_iff.1 h.last
    cases front with
    | nil =>
      obtain ⟨hends, -⟩ := List.cons.inj hfront
      exact absurd hends hne
    | cons first between =>
      obtain ⟨rfl, rfl⟩ := List.cons.inj hfront
      obtain ⟨hbetween, hends⟩ := (nodup_between_iff hne).1 h.nodup
      exact ⟨between, rfl, hbetween, hends, h.edges⟩
  · rintro ⟨between, rfl, hbetween, hends, hedges⟩
    refine ⟨rfl, ?_, (nodup_between_iff hne).2 ⟨hbetween, hends⟩, hedges⟩
    rw [List.getLast?_concat]

/-! ## What is found -/

/-- A search that goes at most `hops` steps finds the simple paths with at most that many edges. -/
theorem WellFormed.mem_waysTo_iff (hg : g.WellFormed) (hne : source ≠ target) {hops : Nat} :
    path ∈ g.waysTo target hops [source] source ↔
      g.IsSimplePath source target path ∧ path.length ≤ hops + 1 := by
  rw [waysTo_eq, List.mem_map]
  constructor
  · rintro ⟨way, hway, rfl⟩
    obtain ⟨between, rfl, hlength, hnodup, hends, hchain⟩ :=
      (CallGraph.mem_waysBack_iff (by simp)).1 hway
    refine ⟨(isSimplePath_iff hne).2 ⟨between, rfl, hnodup, hends, ?_⟩, ?_⟩
    · exact hchain.imp fun a b h => (hg.mem_otherCallees_iff.1 h).1
    · simpa [Nat.add_one_le_iff] using hlength
  · rintro ⟨hpath, hlength⟩
    obtain ⟨between, rfl, hnodup, hends, -⟩ := (isSimplePath_iff hne).1 hpath
    refine ⟨[target, source] ++ between, ?_, rfl⟩
    refine (CallGraph.mem_waysBack_iff (by simp)).2 ⟨between, rfl, ?_, hnodup, hends, ?_⟩
    · simpa [Nat.add_one_le_iff] using hlength
    · exact hg.isChain_otherCallees hpath

/-- A simple path meets no more nodes than there are. -/
theorem WellFormed.length_le_of_isSimplePath (hg : g.WellFormed)
    (hsource : g.contains source = true) (h : g.IsSimplePath source target path) :
    path.length ≤ g.nodeCount := by
  obtain ⟨rest, rfl⟩ := List.head?_eq_some_iff.1 h.head
  have hedges : List.IsChain (fun x y => y ∈ g.calleesOf x) (source :: rest) :=
    hg.calls_eq ▸ h.edges
  have hnodes : source :: rest ⊆ g.nodeIds := by
    refine List.cons_subset.2 ⟨mem_nodeIds_iff.2 hsource, fun id hid => ?_⟩
    exact forall_of_isChain (fun _ _ => hg.mem_nodeIds_of_mem_calleesOf) hedges id hid
  rw [← hg.length_nodeIds]
  exact List.Nodup.length_le_of_subset h.nodup hnodes

/-- Between different nodes, the simple paths within the cutoff are found, and nothing else. -/
theorem WellFormed.exists_simplePaths (hg : g.WellFormed) (hsource : g.contains source = true)
    (htarget : g.contains target = true) (hne : source ≠ target) (cutoff : Option Nat) :
    ∃ paths, g.simplePaths source target cutoff = .ok paths ∧
      ∀ path, path ∈ paths ↔ g.IsSimplePath source target path ∧
        ∀ edges ∈ cutoff, path.length ≤ edges + 1 := by
  unfold simplePaths
  rw [require_bind, if_pos hsource, require_bind, if_pos htarget, if_neg hne]
  refine ⟨_, rfl, fun path => ?_⟩
  rw [mem_sortPaths, hg.mem_waysTo_iff hne]
  refine and_congr_right fun hpath => ?_
  have hlength := hg.length_le_of_isSimplePath hsource hpath
  cases cutoff with
  | none =>
    simp only [Option.not_mem_none, false_implies, implies_true, iff_true]
    omega
  | some edges =>
    simp only [Option.mem_some_iff, forall_eq']
    omega

/-! ## What is listed -/

/-- No path is found twice: after its source and before its target, a path is the way that the
search for ways back went. -/
theorem nodup_waysTo (g : Graph) (source target : String) (hops : Nat) :
    (g.waysTo target hops [source] source).Nodup := by
  rw [waysTo_eq]
  refine List.Nodup.map_on ?_ (nodup_waysBack (fun _ => nodup_sortDistinct _) (by simp))
  intro way hway other hother heq
  obtain ⟨between, rfl, -⟩ := (CallGraph.mem_waysBack_iff (by simp)).1 hway
  obtain ⟨otherBetween, rfl, -⟩ := (CallGraph.mem_waysBack_iff (by simp)).1 hother
  have hpath : source :: between ++ [target] = source :: otherBetween ++ [target] := heq
  have hbetween : source :: between = source :: otherBetween := List.append_cancel_right hpath
  rw [(List.cons.inj hbetween).2]

/-- Whatever the ids and the cutoff, paths are listed in ascending order and none of them twice. -/
theorem pairwise_simplePaths {cutoff : Option Nat} {paths : List (List String)}
    (h : g.simplePaths source target cutoff = .ok paths) : paths.Pairwise (· < ·) := by
  unfold simplePaths at h
  rw [require_bind, require_bind] at h
  split at h
  · split at h
    · split at h
      · cases h
        exact List.pairwise_singleton _ _
      · cases h
        exact pairwise_sortPaths (nodup_waysTo g source target _)
    · cases h
  · cases h

/-- A search for paths is refused only because an id is not in the graph, and the source is looked
for first. -/
theorem simplePaths_eq_error_iff {cutoff : Option Nat} {error : GraphError} :
    g.simplePaths source target cutoff = .error error ↔
      g.contains source = false ∧ error = .nodeNotFound source ∨
        g.contains source = true ∧ g.contains target = false ∧
          error = .nodeNotFound target := by
  unfold simplePaths
  rw [require_bind, require_bind]
  cases hsource : g.contains source with
  | false =>
    rw [if_neg Bool.false_ne_true, Except.error.injEq, eq_comm]
    simp only [true_and, Bool.false_eq_true, false_and, or_false]
  | true =>
    cases htarget : g.contains target with
    | false =>
      rw [if_pos rfl, if_neg Bool.false_ne_true, Except.error.injEq, eq_comm]
      simp only [true_and, Bool.true_eq_false, false_and, false_or]
    | true =>
      simp only [if_true]
      split <;> simp [pure, Except.pure]

/-- From a node to itself there is the path without edges. -/
theorem simplePaths_self (hsource : g.contains source = true) (cutoff : Option Nat) :
    g.simplePaths source source cutoff = .ok [[source]] := by
  unfold simplePaths
  rw [require_bind, require_bind, if_pos hsource, if_pos hsource, if_pos rfl]
  rfl

/-- A search for paths names the first of its ids that is not in the graph.  Between different nodes
it lists exactly the simple paths within the cutoff, in ascending order and each once; a node has
only the path to itself that has no edges. -/
theorem simplePaths_lists_simple_paths (h : g.Reachable) (source target : String)
    (cutoff : Option Nat) :
    (∀ error, g.simplePaths source target cutoff = .error error ↔
      g.contains source = false ∧ error = .nodeNotFound source ∨
        g.contains source = true ∧ g.contains target = false ∧ error = .nodeNotFound target) ∧
    (g.contains source = true → g.simplePaths source source cutoff = .ok [[source]]) ∧
    (g.contains source = true → g.contains target = true → source ≠ target →
      ∃ paths, g.simplePaths source target cutoff = .ok paths ∧ paths.Pairwise (· < ·) ∧
        ∀ path, path ∈ paths ↔ g.IsSimplePath source target path ∧
          ∀ edges, cutoff = some edges → path.length ≤ edges + 1) := by
  refine ⟨fun _ => simplePaths_eq_error_iff, fun hsource => simplePaths_self hsource cutoff,
    fun hsource htarget hne => ?_⟩
  obtain ⟨paths, hpaths, hmem⟩ := h.wellFormed.exists_simplePaths hsource htarget hne cutoff
  exact ⟨paths, hpaths, pairwise_simplePaths hpaths, hmem⟩

/-- Two ways of two calls from one node to another, with calls across between them. -/
def crossedDiamond : List Operation :=
  [.addNode ⟨"a", "a", "", .unknown, none, .empty⟩, .addNode ⟨"b", "b", "", .unknown, none, .empty⟩,
    .addNode ⟨"c", "c", "", .unknown, none, .empty⟩,
    .addNode ⟨"d", "d", "", .unknown, none, .empty⟩, .addEdge "a" "c", .addEdge "a" "b",
    .addEdge "b" "c", .addEdge "c" "b", .addEdge "b" "d", .addEdge "c" "d"]

/-- The paths through a crossed diamond of at most two edges. -/
theorem simplePaths_crossedDiamond :
    (after crossedDiamond).Reachable ∧
      ∃ paths, (after crossedDiamond).simplePaths "a" "d" (some 2) = .ok paths ∧
        paths.Pairwise (· < ·) ∧
        ∀ path, path ∈ paths ↔ (after crossedDiamond).IsSimplePath "a" "d" path ∧
          ∀ edges, some 2 = some edges → path.length ≤ edges + 1 := by
  have hreachable : (after crossedDiamond).Reachable := ⟨crossedDiamond, rfl⟩
  exact ⟨hreachable, (simplePaths_lists_simple_paths hreachable "a" "d" (some 2)).2.2 (by decide)
    (by decide) (by decide)⟩

/-- The ways across have three calls. -/
example : (after crossedDiamond).simplePaths "a" "d" (some 2) =
    .ok [["a", "b", "d"], ["a", "c", "d"]] := by cbv

end Graph

end CallGraph
