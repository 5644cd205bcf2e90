import CallGraph.Proofs.Analysis.Distance

/-!
# Shortest paths

A path is a list of ids, each of which calls the next.  A path of which no other has fewer edges
exists wherever a path exists at all, and has as many edges as the least number of hops.  So the
search for callees within a limit meets exactly the nodes whose shortest path is within the limit,
the search for callers meets those nodes the other way round, and a higher limit loses nothing.

Main results:

- Theorem `Graph.WellFormed.exists_isPath_iff`: paths and hops.
- Theorem `Graph.WellFormed.exists_isShortestPath_iff`: shortest paths within a limit.
- Theorem `Graph.nearby_by_shortest_paths`: callers and callees within a limit.
-/

namespace CallGraph

namespace Graph

variable {g : Graph} {a b source target : String} {path : List String}

/-! ## Paths -/

/-- A way from one id to another along edges, which may meet an id twice. -/
structure IsPath (g : Graph) (source target : String) (path : List String) : Prop where
  head : path.head? = some source
  last : path.getLast? = some target
  edges : path.IsChain g.Calls

/-- A path of which no other between the same ids has fewer edges. -/
structure IsShortestPath (g : Graph) (source target : String) (path : List String) : Prop where
  isPath : g.IsPath source target path
  least : ∀ other, g.IsPath source target other → path.length ≤ other.length

/-- A path to a node of the graph starts in the graph. -/
theorem IsPath.contains_source (h : g.IsPath source target path)
    (htarget : g.contains target = true) : g.contains source = true := by
  obtain ⟨rest, rfl⟩ := List.head?_eq_some_iff.1 h.head
  cases rest with
  | nil =>
    obtain rfl : source = target := by simpa using h.last
    exact htarget
  | cons next rest => exact (contains_of_calls (List.isChain_cons_cons.1 h.edges).1).1

/-- A path from a node of the graph ends in the graph. -/
theorem IsPath.contains_target (h : g.IsPath source target path)
    (hsource : g.contains source = true) : g.contains target = true := by
  obtain ⟨front, rfl⟩ := List.getLast?_eq_some_iff.1 h.last
  rcases List.eq_nil_or_concat' front with rfl | ⟨before, previous, rfl⟩
  · obtain rfl : target = source := by simpa using h.head
    exact hsource
  · have hedges := h.edges
    rw [List.append_assoc, List.singleton_append, List.isChain_append_cons_cons] at hedges
    exact (contains_of_calls hedges.2.1).2

/-- A path goes on from each of its ids to its target. -/
theorem IsPath.goesOn (h : g.IsPath source target path) {before after : List String}
    (hsplit : path = before ++ a :: after) : g.IsPath a target (a :: after) where
  head := rfl
  last := by
    rw [← h.last, hsplit, List.getLast?_append_of_ne_nil _ (List.cons_ne_nil a after)]
  edges := h.edges.suffix ⟨before, hsplit.symm⟩

/-- A path leads from its source to each of its ids. -/
theorem IsPath.leadsTo (h : g.IsPath source target path) {before after : List String}
    (hsplit : path = before ++ a :: after) : g.IsPath source a (before ++ [a]) where
  head := by
    rw [← h.head, hsplit]
    cases before <;> rfl
  last := List.getLast?_concat
  edges := by
    have hedges := h.edges
    rw [hsplit, ← List.singleton_append, ← List.append_assoc] at hedges
    exact hedges.left_of_append

/-- There is a path of so many edges if and only if its target is so many hops away. -/
theorem WellFormed.exists_isPath_iff (hg : g.WellFormed) {n : Nat} :
    (∃ path, g.IsPath source target path ∧ path.length = n + 1) ↔
      Hops g.calleesOf n source target := by
  constructor
  · rintro ⟨path, hpath, hlength⟩
    obtain ⟨m, hm, hway⟩ := hg.hops_of_calls hpath.head hpath.last hpath.edges
    obtain rfl : m = n := Nat.succ.inj (hm.symm.trans hlength)
    exact hway
  · intro hway
    induction hway with
    | refl a => exact ⟨[a], ⟨rfl, rfl, List.isChain_singleton a⟩, rfl⟩
    | @head n a b c hstep _ ih =>
      obtain ⟨path, hpath, hlength⟩ := ih
      obtain ⟨rest, rfl⟩ := List.head?_eq_some_iff.1 hpath.head
      refine ⟨a :: b :: rest, ⟨rfl, ?_, ?_⟩, ?_⟩
      · rw [List.getLast?_cons_cons, hpath.last]
      · exact List.isChain_cons_cons.2 ⟨hg.mem_calleesOf_iff.1 hstep, hpath.edges⟩
      · rw [List.length_cons, hlength]

/-! ## Shortest paths -/

/-- Where there is a path there is a shortest one. -/
theorem IsPath.exists_isShortestPath (h : g.IsPath source target path) :
    ∃ shortest, g.IsShortestPath source target shortest := by
  classical
  have hexists : ∃ length, ∃ other, g.IsPath source target other ∧ other.length = length :=
    ⟨_, path, h, rfl⟩
  obtain ⟨shortest, hpath, hlength⟩ := Nat.find_spec hexists
  refine ⟨shortest, hpath, fun other hother => ?_⟩
  rw [hlength]
  exact Nat.find_min' hexists ⟨other, hother, rfl⟩

/-- The shortest path is within a limit if and only if some number of hops within it leads to its
target. -/
theorem WellFormed.exists_isShortestPath_iff (hg : g.WellFormed) {limit : Option Nat} :
    (∃ path, g.IsShortestPath source target path ∧ ∀ most ∈ limit, path.length ≤ most + 1) ↔
      ∃ n, (∀ most ∈ limit, n ≤ most) ∧ Hops g.calleesOf n source target := by
  constructor
  · rintro ⟨path, hpath, hlength⟩
    obtain ⟨rest, rfl⟩ := List.head?_eq_some_iff.1 hpath.isPath.head
    exact ⟨rest.length, fun most hmost => Nat.le_of_succ_le_succ (hlength most hmost),
      hg.exists_isPath_iff.1 ⟨_, hpath.isPath, rfl⟩⟩
  · rintro ⟨n, hn, hway⟩
    obtain ⟨path, hpath, hlength⟩ := hg.exists_isPath_iff.2 hway
    obtain ⟨shortest, hshortest⟩ := hpath.exists_isShortestPath
    refine ⟨shortest, hshortest, fun most hmost => (hshortest.least path hpath).trans ?_⟩
    rw [hlength]
    exact Nat.succ_le_succ (hn most hmost)

/-! ## Callers and callees within a limit -/

/-- What a search meets is listed in ascending order and without repetitions. -/
theorem pairwise_within (g : Graph) (next : String → List String) (id : String)
    (limit : Option Nat) : (g.within next id limit).Pairwise (· < ·) :=
  pairwise_sortTexts_of_nodup ((nodup_reach _ id).filter _)

/-- The answers `below` and `above` of the searches for the callees and for the callers of a node
within a limit: the other nodes with a shortest path from it, or to it, that has no more edges. -/
structure IsNearby (g : Graph) (a : String) (limit : Option Nat) (below above : List String) :
    Prop where
  descendants_eq : g.descendants a limit = .ok below
  ancestors_eq : g.ancestors a limit = .ok above
  pairwise_below : below.Pairwise (· < ·)
  pairwise_above : above.Pairwise (· < ·)
  not_mem_below : a ∉ below
  not_mem_above : a ∉ above
  mem_below_iff : ∀ b, b ∈ below ↔
    b ≠ a ∧ ∃ path, g.IsShortestPath a b path ∧ ∀ most ∈ limit, path.length ≤ most + 1
  mem_above_iff : ∀ b, b ∈ above ↔
    b ≠ a ∧ ∃ path, g.IsShortestPath b a path ∧ ∀ most ∈ limit, path.length ≤ most + 1

/-- What is found below a node has a shortest path from it within the limit. -/
theorem WellFormed.mem_within_calleesOf_iff (hg : g.WellFormed) (ha : g.contains a = true)
    {limit : Option Nat} :
    b ∈ g.within g.calleesOf a limit ↔
      b ≠ a ∧ ∃ path, g.IsShortestPath a b path ∧ ∀ most ∈ limit, path.length ≤ most + 1 := by
  rw [hg.mem_within_iff (fun _ _ => hg.mem_nodeIds_of_mem_calleesOf) ha,
    hg.exists_isShortestPath_iff]

/-- What is found above a node has a shortest path to it within the limit. -/
theorem WellFormed.mem_within_callersOf_iff (hg : g.WellFormed) (ha : g.contains a = true)
    {limit : Option Nat} :
    b ∈ g.within g.callersOf a limit ↔
      b ≠ a ∧ ∃ path, g.IsShortestPath b a path ∧ ∀ most ∈ limit, path.length ≤ most + 1 := by
  rw [hg.mem_within_iff (fun _ _ => hg.mem_nodeIds_of_mem_callersOf) ha,
    hg.exists_isShortestPath_iff]
  simp only [hg.hops_callersOf_iff]

/-- The bounded searches find what is nearby. -/
theorem WellFormed.isNearby (hg : g.WellFormed) (ha : g.contains a = true) (limit : Option Nat) :
    g.IsNearby a limit (g.within g.calleesOf a limit) (g.within g.callersOf a limit) where
  descendants_eq := descendants_eq_ok ha limit
  ancestors_eq := ancestors_eq_ok ha limit
  pairwise_below := pairwise_within g _ a limit
  pairwise_above := pairwise_within g _ a limit
  not_mem_below h := ((hg.mem_within_calleesOf_iff ha).1 h).1 rfl
  not_mem_above h := ((hg.mem_within_callersOf_iff ha).1 h).1 rfl
  mem_below_iff _ := hg.mem_within_calleesOf_iff ha
  mem_above_iff _ := hg.mem_within_callersOf_iff ha

/-- What is near stays near under a limit that is no lower. -/
theorem IsNearby.subset {limit more : Option Nat} {below above wider wider' : List String}
    (h : g.IsNearby a limit below above) (hmore : g.IsNearby a more wider wider')
    (hle : ∀ most ∈ more, ∃ least ∈ limit, least ≤ most) : below ⊆ wider ∧ above ⊆ wider' := by
  have hbound : ∀ path : List String, (∀ most ∈ limit, path.length ≤ most + 1) →
      ∀ most ∈ more, path.length ≤ most + 1 := by
    intro path hpath most hmost
    obtain ⟨least, hleast, hle⟩ := hle most hmost
    exact (hpath least hleast).trans (Nat.succ_le_succ hle)
  constructor
  · intro b hb
    obtain ⟨hne, path, hpath, hlength⟩ := (h.mem_below_iff b).1 hb
    exact (hmore.mem_below_iff b).2 ⟨hne, path, hpath, hbound path hlength⟩
  · intro b hb
    obtain ⟨hne, path, hpath, hlength⟩ := (h.mem_above_iff b).1 hb
    exact (hmore.mem_above_iff b).2 ⟨hne, path, hpath, hbound path hlength⟩

/-- Within any limit and without one, the callees of a node are the other nodes with a shortest path
from it within the limit, and its callers are those with a shortest path to it.  So one node is a
callee of another exactly if that one is a caller of it, and a limit that is no lower, or none,
finds no less. -/
theorem nearby_by_shortest_paths (h : g.Reachable) (ha : g.contains a = true)
    (limit : Option Nat) :
    ∃ below above, g.IsNearby a limit below above ∧
      (∀ b, g.contains b = true → ∃ below' above', g.IsNearby b limit below' above' ∧
        (b ∈ below ↔ a ∈ above') ∧ (b ∈ above ↔ a ∈ below')) ∧
      ∀ more : Option Nat, (∀ most ∈ more, ∃ least ∈ limit, least ≤ most) →
        ∃ wider wider', g.IsNearby a more wider wider' ∧ below ⊆ wider ∧ above ⊆ wider' := by
  have hg := h.wellFormed
  have hnear := hg.isNearby ha limit
  refine ⟨_, _, hnear, fun b hb => ?_, fun more hle => ?_⟩
  · have hother := hg.isNearby hb limit
    refine ⟨_, _, hother, ?_, ?_⟩
    · rw [hnear.mem_below_iff, hother.mem_above_iff, ne_comm]
    · rw [hnear.mem_above_iff, hother.mem_below_iff, ne_comm]
  · have hwider := hg.isNearby ha more
    exact ⟨_, _, hwider, hnear.subset hwider hle⟩

/-- A ring of four calls, and a call across it. -/
def ringWithChord : List Operation :=
  [.addNode ⟨"a", "a", "", .unknown, none, .empty⟩, .addNode ⟨"b", "b", "", .unknown, none, .empty⟩,
    .addNode ⟨"c", "c", "", .unknown, none, .empty⟩,
    .addNode ⟨"d", "d", "", .unknown, none, .empty⟩, .addEdge "a" "b", .addEdge "b" "c",
    .addEdge "c" "d", .addEdge "d" "a", .addEdge "a" "c"]

/-- Around a ring with a chord, two hops below and above one of its nodes. -/
theorem nearby_ringWithChord :
    (after ringWithChord).Reachable ∧ (after ringWithChord).contains "a" = true ∧
      ∃ below above, (after ringWithChord).IsNearby "a" (some 2) below above ∧
        (∀ b, (after ringWithChord).contains b = true → ∃ below' above',
          (after ringWithChord).IsNearby b (some 2) below' above' ∧
          (b ∈ below ↔ "a" ∈ above') ∧ (b ∈ above ↔ "a" ∈ below')) ∧
        ∀ more : Option Nat, (∀ most ∈ more, ∃ least ∈ some 2, least ≤ most) →
          ∃ wider wider', (after ringWithChord).IsNearby "a" more wider wider' ∧
            below ⊆ wider ∧ above ⊆ wider' := by
  have hreachable : (after ringWithChord).Reachable := ⟨ringWithChord, rfl⟩
  have ha : (after ringWithChord).contains "a" = true := by decide
  exact ⟨hreachable, ha, nearby_by_shortest_paths hreachable ha (some 2)⟩

/-- The shortest path to `d` leads across, and the ring leads back to `a`. -/
example : (after ringWithChord).descendants "a" (some 2) = .ok ["b", "c", "d"] := by cbv

end Graph

end CallGraph
