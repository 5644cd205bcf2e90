import CallGraph.Proofs.Analysis.CyclicParts
import CallGraph.Proofs.Graph.Operations
import Mathlib.Data.Set.Card

/-!
# The cycles of a graph

Without limits, the cycles that are listed are the elementary cycles of the graph, each once, in
ascending order and beginning with its least id.

A limit on the number of cycles keeps as many as it allows, and the search says that it was
truncated when it had to drop a cycle.  There is one case in which cycles are left out and the
search does not say so: when the nodes that call themselves are exactly as many as may be reported,
longer cycles are not looked for at all.

Main results:

- Theorem `Graph.allCycles_lists_elementary_cycles`: what is listed without limits.
- Theorem `Graph.cycles_up_to_limit`: what is listed with a limit on the number of cycles, and when
  the search is said to be truncated.
-/

namespace CallGraph

open CycleList

namespace Graph

variable {g : Graph}

/-! ## What each search finds -/

/-- The cycles of one node. -/
def loopCycles (g : Graph) : List (List String) :=
  g.nodeIds.flatMap fun id => if g.hasEdge id id then [[id]] else []

/-- The other nodes that `id` calls, without those less than `start`. -/
def calleesFrom (g : Graph) (start id : String) : List String :=
  (g.otherCallees id).filter fun w => decide (start ≤ w)

/-- The cycles of at least two nodes, and of at most `length` nodes if that is given, in the order
in which they are searched. -/
def longerCycles (g : Graph) (length : Option Nat) : List (List String) :=
  match length with
  | none => g.partCycles g.nodeCount (g.cyclicParts g.nodeIds)
  | some length =>
      if length < 2 then []
      else
        g.nodeIds.flatMap fun start =>
          waysBack (g.calleesFrom start) start (min length g.nodeCount) [start] start

/-- The search for loops adds the loops. -/
theorem searchLoops_eq (g : Graph) (cycles : CycleList) :
    g.searchLoops cycles = g.loopCycles.foldl add cycles := by
  rw [searchLoops, loopCycles, ← foldl_foldl_add]
  congr 1
  funext cycles id
  split
  · rfl
  · split <;> rfl

/-- The bounded search from a node adds the ways back to it. -/
theorem extendCycle_eq (g : Graph) (start : String) (hops : Nat) (path : List String)
    (here : String) (cycles : CycleList) :
    g.extendCycle start hops path here cycles =
      (waysBack (g.calleesFrom start) start hops path here).foldl add cycles := by
  induction hops generalizing path here cycles with
  | zero => rfl
  | succ hops ih =>
    rw [extendCycle, waysBack, calleesFrom, ← foldl_foldl_add, List.foldl_filter]
    congr 1
    funext cycles w
    by_cases htruncated : cycles.isTruncated = true
    · simp [htruncated]
    · rw [if_neg htruncated, if_neg htruncated]
      by_cases hclosed : w = start
      · simp [hclosed]
      · rw [if_neg hclosed, if_neg hclosed]
        by_cases hless : start ≤ w
        · have hlt : start < w := lt_of_le_of_ne hless (Ne.symm hclosed)
          by_cases hmem : w ∈ path
          · simp [hmem]
          · cases hops with
            | zero => simp [waysBack]
            | succ hops =>
              rw [if_pos ⟨hlt, hmem, Nat.succ_pos hops⟩, if_neg hmem, ih]
              simp [hless]
        · have hnot : ¬ start < w := fun h => hless h.le
          simp [hless, hnot]

/-- The bounded search adds the longer cycles up to the length. -/
theorem searchShort_eq (g : Graph) (length : Nat) (cycles : CycleList) :
    g.searchShort length cycles = (g.longerCycles (some length)).foldl add cycles := by
  rw [searchShort, longerCycles]
  split
  · rfl
  · rw [← foldl_foldl_add]
    congr 1
    funext cycles start
    rw [extendCycle_eq]

/-- The unbounded search adds all longer cycles. -/
theorem searchAll_eq (g : Graph) (cycles : CycleList) :
    g.searchAll cycles = (g.longerCycles none).foldl add cycles :=
  g.searchParts_eq g.nodeCount (g.cyclicParts g.nodeIds) cycles

/-! ## Which cycles are found -/

/-- The elementary cycles, each in the form that begins with its least id, of at most `length` nodes
if that is given. -/
def cyclesWithin (g : Graph) (length : Option Nat) : Set (List String) :=
  {ids | g.IsElementaryCycle ids ∧ BeginsWithLeast ids ∧ ∀ most, length = some most →
    ids.length ≤ most}

/-- The cycles within a length are the elementary ones, each written from its least node. -/
theorem mem_cyclesWithin_iff {length : Option Nat} {ids : List String} :
    ids ∈ g.cyclesWithin length ↔ g.IsElementaryCycle ids ∧ BeginsWithLeast ids ∧
      ∀ most, length = some most → ids.length ≤ most :=
  Iff.rfl

/-- All ids on a cycle are in the graph. -/
theorem IsElementaryCycle.mem_nodeIds {ids : List String} (h : g.IsElementaryCycle ids) :
    ∀ id ∈ ids, id ∈ g.nodeIds := by
  cases ids with
  | nil => simp
  | cons first rest =>
    intro id hid
    have hclosed : List.IsChain (fun a b => g.hasEdge a b = true) (first :: rest ++ [first]) :=
      h.closed
    obtain ⟨before, after, hsplit⟩ := List.append_of_mem hid
    -- Each node of the cycle has an edge to the node after it, or to the first one.
    rw [hsplit, List.append_assoc, List.cons_append, List.isChain_split] at hclosed
    obtain ⟨next, hedge⟩ : ∃ next, g.hasEdge id next = true := by
      cases after with
      | nil => exact ⟨first, by simpa using hclosed.2⟩
      | cons next after => exact ⟨next, (List.isChain_cons_cons.1 hclosed.2).1⟩
    exact mem_nodeIds_iff.2 (contains_of_hasEdge hedge).1

/-- A cycle meets no more nodes than there are. -/
theorem WellFormed.length_le_of_isElementaryCycle (hg : g.WellFormed) {ids : List String}
    (h : g.IsElementaryCycle ids) : ids.length ≤ g.nodeCount := by
  rw [← hg.length_nodeIds]
  exact List.Nodup.length_le_of_subset h.nodup h.mem_nodeIds

/-- The loops are the elementary cycles of one node. -/
theorem mem_loopCycles_iff {ids : List String} :
    ids ∈ g.loopCycles ↔ g.IsElementaryCycle ids ∧ ids.length = 1 := by
  simp only [loopCycles, List.mem_flatMap]
  constructor
  · rintro ⟨id, -, hids⟩
    split at hids
    · rename_i hedge
      obtain rfl : ids = [id] := by simpa using hids
      exact ⟨isElementaryCycle_singleton_iff.2 hedge, rfl⟩
    · simp at hids
  · rintro ⟨hcycle, hlength⟩
    obtain ⟨id, rfl⟩ := List.length_eq_one_iff.1 hlength
    have hedge := isElementaryCycle_singleton_iff.1 hcycle
    exact ⟨id, hcycle.mem_nodeIds id (by simp), by simp [hedge]⟩

/-- The search goes on to callees that are not less than its start. -/
theorem WellFormed.mem_calleesFrom_iff (hg : g.WellFormed) {start a b : String} :
    b ∈ g.calleesFrom start a ↔ g.hasEdge a b = true ∧ b ≠ a ∧ start ≤ b := by
  simp [calleesFrom, hg.mem_otherCallees_iff, and_assoc]

/-- A cycle begins with its least node if no node on it is less than the first. -/
theorem beginsWithLeast_iff_of_head? {start : String} {ids : List String}
    (h : ids.head? = some start) : BeginsWithLeast ids ↔ ∀ id ∈ ids, start ≤ id := by
  obtain ⟨rest, rfl⟩ := List.head?_eq_some_iff.1 h
  simp [BeginsWithLeast]

/-- The longer cycles are the others, of two nodes or more. -/
theorem WellFormed.mem_longerCycles_iff (hg : g.WellFormed) {length : Option Nat}
    {ids : List String} :
    ids ∈ g.longerCycles length ↔ ids ∈ g.cyclesWithin length ∧ 2 ≤ ids.length := by
  cases length with
  | none =>
    have hparts := hg.searchable_cyclicParts (g.pairwise_nodeIds)
    rw [hg.length_nodeIds] at hparts
    simp only [longerCycles, mem_cyclesWithin_iff, hg.mem_partCycles_iff hparts]
    constructor
    · rintro ⟨hcycle, hleast, htwo, -⟩
      exact ⟨⟨hcycle, hleast, by simp⟩, htwo⟩
    · rintro ⟨⟨hcycle, hleast, -⟩, htwo⟩
      exact ⟨hcycle, hleast, htwo, hg.exists_mem_cyclicParts hcycle htwo hcycle.mem_nodeIds⟩
  | some most =>
    have hways : ∀ start, ids ∈ waysBack (g.calleesFrom start) start (min most g.nodeCount) [start]
        start ↔ g.IsElementaryCycle ids ∧ ids.head? = some start ∧ 2 ≤ ids.length ∧
          ids.length ≤ min most g.nodeCount ∧ ∀ id ∈ ids, start ≤ id :=
      fun start => mem_waysBack_iff (fun a b => hg.mem_calleesFrom_iff) (le_refl start)
    simp only [longerCycles, mem_cyclesWithin_iff]
    constructor
    · intro hids
      split at hids
      · simp at hids
      · obtain ⟨start, -, hids⟩ := List.mem_flatMap.1 hids
        obtain ⟨hcycle, hhead, htwo, hlength, hleast⟩ := (hways start).1 hids
        refine ⟨⟨hcycle, (beginsWithLeast_iff_of_head? hhead).2 hleast, ?_⟩, htwo⟩
        intro _ hmost
        cases hmost
        omega
    · rintro ⟨⟨hcycle, hleast, hmost⟩, htwo⟩
      have hmost := hmost most rfl
      rw [if_neg (by omega)]
      obtain ⟨start, rest, rfl⟩ := List.exists_cons_of_ne_nil hcycle.ne_nil
      have hcount := hg.length_le_of_isElementaryCycle hcycle
      refine List.mem_flatMap.2 ⟨start, hcycle.mem_nodeIds start (by simp), (hways start).2 ?_⟩
      exact ⟨hcycle, rfl, htwo, le_min hmost hcount,
        (beginsWithLeast_iff_of_head? rfl).1 hleast⟩

/-- No loop is found twice. -/
theorem nodup_loopCycles (g : Graph) : g.loopCycles.Nodup := by
  refine List.nodup_flatMap.2 ⟨fun id _ => by split <;> simp, ?_⟩
  refine g.nodup_nodeIds.imp ?_
  intro a b hne ids ha hb
  have hloop : ∀ id, ids ∈ (if g.hasEdge id id then [[id]] else []) → ids = [id] := by
    intro id hids
    split at hids
    · simpa using hids
    · simp at hids
  exact hne (List.singleton_inj.1 ((hloop a ha).symm.trans (hloop b hb)))

/-- No longer cycle is found twice. -/
theorem WellFormed.nodup_longerCycles (hg : g.WellFormed) (length : Option Nat) :
    (g.longerCycles length).Nodup := by
  cases length with
  | none =>
    have hparts := hg.searchable_cyclicParts (g.pairwise_nodeIds)
    rw [hg.length_nodeIds] at hparts
    exact hg.nodup_partCycles hparts
  | some most =>
    simp only [longerCycles]
    split
    · exact List.nodup_nil
    · refine List.nodup_flatMap.2 ⟨fun start _ => ?_, ?_⟩
      · exact nodup_waysBack (fun id => (nodup_sortDistinct _).filter _) (by simp)
      · refine g.nodup_nodeIds.imp ?_
        intro a b hne ids ha hb
        obtain ⟨-, hheadA, -⟩ :=
          (mem_waysBack_iff (fun _ _ => hg.mem_calleesFrom_iff) (le_refl a)).1 ha
        obtain ⟨-, hheadB, -⟩ :=
          (mem_waysBack_iff (fun _ _ => hg.mem_calleesFrom_iff) (le_refl b)).1 hb
        rw [hheadA] at hheadB
        exact hne (Option.some.inj hheadB)

/-! ## What all searches find together -/

/-- The cycles that are found if their number is not limited. -/
def foundCycles (g : Graph) (length : Option Nat) : List (List String) :=
  if length = some 0 then [] else g.loopCycles ++ g.longerCycles length

/-- Without a limit, just the cycles within the length are found. -/
theorem WellFormed.mem_foundCycles_iff (hg : g.WellFormed) {length : Option Nat}
    {ids : List String} : ids ∈ g.foundCycles length ↔ ids ∈ g.cyclesWithin length := by
  rw [foundCycles]
  split
  · rename_i hzero
    constructor
    · simp
    · rintro ⟨hcycle, -, hmost⟩
      have hlength := hmost 0 hzero
      exact absurd (List.length_eq_zero_iff.1 (by omega)) hcycle.ne_nil
  · rename_i hpositive
    rw [List.mem_append, mem_loopCycles_iff, hg.mem_longerCycles_iff]
    constructor
    · rintro (⟨hcycle, hone⟩ | ⟨hids, -⟩)
      · obtain ⟨id, rfl⟩ := List.length_eq_one_iff.1 hone
        refine ⟨hcycle, by simp [BeginsWithLeast], ?_⟩
        intro most hmost
        have hne : most ≠ 0 := fun h => hpositive (h ▸ hmost)
        simp only [List.length_singleton]
        omega
      · exact hids
    · intro hids
      have hnonempty := List.length_pos_iff.2 hids.1.ne_nil
      by_cases hone : ids.length = 1
      · exact .inl ⟨hids.1, hone⟩
      · exact .inr ⟨hids, by omega⟩

/-- No cycle is found twice, for loops and longer cycles differ in length. -/
theorem WellFormed.nodup_foundCycles (hg : g.WellFormed) (length : Option Nat) :
    (g.foundCycles length).Nodup := by
  rw [foundCycles]
  split
  · exact List.nodup_nil
  · refine List.nodup_append'.2 ⟨g.nodup_loopCycles, hg.nodup_longerCycles length, ?_⟩
    intro ids hloop hlonger
    have hone := (mem_loopCycles_iff.1 hloop).2
    have htwo := (hg.mem_longerCycles_iff.1 hlonger).2
    omega

/-- The searches are made one after the other, and the second one only if there is room left. -/
theorem cycles_eq (g : Graph) {limits : SearchLimits} (hlength : limits.maxCycleLength ≠ some 0) :
    g.cycles limits =
      let all := if reachesLimit limits.maxCycles g.loopCycles.length then g.loopCycles
        else g.foundCycles limits.maxCycleLength
      ⟨(sortPaths (upTo limits.maxCycles all).reverse).map Cycle.mk,
        exceedsLimit limits.maxCycles all.length⟩ := by
  have hloops : g.searchLoops (.start limits.maxCycles) =
      collect limits.maxCycles g.loopCycles := g.searchLoops_eq _
  let report : CycleList → Cycles := fun all =>
    ⟨(sortPaths all.found).map Cycle.mk, all.isTruncated⟩
  rw [cycles, if_neg hlength]
  dsimp only
  rw [hloops, isFull_collect, ← found_collect, ← isTruncated_collect]
  split
  · rfl
  · rw [foundCycles, if_neg hlength, collect_append]
    cases limits.maxCycleLength with
    | none => exact congrArg report (g.searchAll_eq _)
    | some length => exact congrArg report (g.searchShort_eq length _)

/-- What is listed is the beginning of what is found, in ascending order. -/
theorem cycles_cycles_eq (g : Graph) (limits : SearchLimits) :
    (g.cycles limits).cycles =
      (sortPaths (upTo limits.maxCycles (g.foundCycles limits.maxCycleLength)).reverse).map
        Cycle.mk := by
  by_cases hzero : limits.maxCycleLength = some 0
  · have hnone : upTo limits.maxCycles [] = [] := by
      cases limits.maxCycles <;> simp [upTo]
    rw [cycles, if_pos hzero, foundCycles, if_pos hzero, hnone]
    simp [sortPaths]
  · rw [cycles_eq g hzero]
    dsimp only
    split
    · rename_i hfull
      -- The loops alone fill the list, so that nothing after them is kept.
      cases hlimit : limits.maxCycles with
      | none => simp [hlimit, reachesLimit] at hfull
      | some k =>
        have hle : k ≤ g.loopCycles.length := by simpa [hlimit, reachesLimit] using hfull
        rw [foundCycles, if_neg hzero]
        simp only [upTo]
        rw [List.take_append_of_le_length hle]
    · rfl

/-- The search is truncated if more is found than may be reported, unless the cycles of one node
are exactly as many as may be reported. -/
theorem isTruncated_cycles_iff (g : Graph) {limits : SearchLimits} {k : Nat}
    (hk : limits.maxCycles = some k) :
    (g.cycles limits).isTruncated = true ↔
      k < (g.foundCycles limits.maxCycleLength).length ∧ g.loopCycles.length ≠ k := by
  by_cases hzero : limits.maxCycleLength = some 0
  · rw [cycles, if_pos hzero, foundCycles, if_pos hzero]
    simp
  · have hfound : (g.foundCycles limits.maxCycleLength).length =
        g.loopCycles.length + (g.longerCycles limits.maxCycleLength).length := by
      rw [foundCycles, if_neg hzero, List.length_append]
    rw [cycles_eq g hzero, hk]
    simp only [reachesLimit, exceedsLimit, decide_eq_true_eq]
    split <;> omega

/-- There are as many cycles within the length as are found. -/
theorem WellFormed.ncard_cyclesWithin (hg : g.WellFormed) (length : Option Nat) :
    (g.cyclesWithin length).ncard = (g.foundCycles length).length := by
  have hset : g.cyclesWithin length = ((g.foundCycles length).toFinset : Set (List String)) := by
    ext ids
    simp [hg.mem_foundCycles_iff]
  rw [hset, Set.ncard_coe_finset, List.toFinset_card_of_nodup (hg.nodup_foundCycles length)]

/-- A limit keeps first cycles. -/
theorem upTo_sublist (limit : Option Nat) (cycles : List (List String)) :
    (upTo limit cycles).Sublist cycles := by
  cases limit with
  | none => exact List.Sublist.refl _
  | some limit => exact List.take_sublist limit cycles

/-- Whatever the limits, what is listed is in ascending order, with nothing listed twice. -/
theorem WellFormed.pairwise_cycles (hg : g.WellFormed) (limits : SearchLimits) :
    (g.cycles limits).cycles.Pairwise fun c d => c.nodes < d.nodes := by
  rw [cycles_cycles_eq, List.pairwise_map]
  refine pairwise_sortPaths (List.nodup_reverse.2 ?_)
  exact (hg.nodup_foundCycles limits.maxCycleLength).sublist (upTo_sublist _ _)

/-- Whatever the limits, only cycles within the limit on their length are listed. -/
theorem WellFormed.mem_cyclesWithin_of_mem_cycles (hg : g.WellFormed) {limits : SearchLimits}
    {cycle : Cycle} (h : cycle ∈ (g.cycles limits).cycles) :
    cycle.nodes ∈ g.cyclesWithin limits.maxCycleLength := by
  rw [cycles_cycles_eq] at h
  obtain ⟨ids, hids, rfl⟩ := List.mem_map.1 h
  rw [mem_sortPaths, List.mem_reverse] at hids
  exact hg.mem_foundCycles_iff.1 ((upTo_sublist _ _).subset hids)

/-- If their number is not limited, the cycles within the limit on their length are listed, and
nothing else. -/
theorem WellFormed.mem_cycles_iff_of_unlimited (hg : g.WellFormed) {limits : SearchLimits}
    (hcount : limits.maxCycles = none) {cycle : Cycle} :
    cycle ∈ (g.cycles limits).cycles ↔ cycle.nodes ∈ g.cyclesWithin limits.maxCycleLength := by
  refine ⟨hg.mem_cyclesWithin_of_mem_cycles, fun hcycle => ?_⟩
  rw [cycles_cycles_eq, hcount]
  refine List.mem_map.2 ⟨cycle.nodes, ?_, rfl⟩
  rw [mem_sortPaths, List.mem_reverse]
  exact hg.mem_foundCycles_iff.2 hcycle

/-- All cycles are the elementary ones, each written from its least node. -/
theorem WellFormed.mem_allCycles_iff (hg : g.WellFormed) {cycle : Cycle} :
    cycle ∈ g.allCycles ↔ g.IsElementaryCycle cycle.nodes ∧ BeginsWithLeast cycle.nodes := by
  rw [allCycles, hg.mem_cycles_iff_of_unlimited rfl, mem_cyclesWithin_iff]
  simp

/-! ## Without limits -/

/-- Without limits the elementary cycles are listed in ascending order, each once and beginning with
its least id: of all the turns of a cycle exactly its canonical form is listed. -/
theorem allCycles_lists_elementary_cycles (h : g.Reachable) :
    g.allCycles.Pairwise (fun c d => c.nodes < d.nodes) ∧
      (∀ cycle ∈ g.allCycles, g.IsElementaryCycle cycle.nodes ∧ BeginsWithLeast cycle.nodes) ∧
      ∀ ids, g.IsElementaryCycle ids →
        g.allCycles.filter (fun cycle => cycle.nodes ~r ids) = [Cycle.canonical ids] := by
  have hg := h.wellFormed
  have hsorted : g.allCycles.Pairwise fun c d => c.nodes < d.nodes := hg.pairwise_cycles {}
  have hnodup : g.allCycles.Nodup := hsorted.imp fun hlt heq => (heq ▸ hlt).false
  refine ⟨hsorted, fun cycle hcycle => hg.mem_allCycles_iff.1 hcycle, fun ids hids => ?_⟩
  refine List.perm_singleton.1 ((List.perm_ext_iff_of_nodup (hnodup.filter _)
    (List.nodup_singleton _)).2 fun cycle => ?_)
  have hcanonical : cycle = Cycle.canonical ids ↔
      cycle.nodes ~r ids ∧ BeginsWithLeast cycle.nodes := by
    rw [← Cycle.nodes_canonical_eq_iff hids.nodup hids.ne_nil]
    constructor
    · rintro rfl
      rfl
    · intro hnodes
      cases cycle
      exact (congrArg Cycle.mk hnodes).symm
  rw [List.mem_filter, List.mem_singleton, hcanonical, hg.mem_allCycles_iff, decide_eq_true_eq]
  constructor
  · rintro ⟨⟨-, hleast⟩, hturn⟩
    exact ⟨hturn, hleast⟩
  · rintro ⟨hturn, hleast⟩
    have heq : cycle = Cycle.canonical ids := hcanonical.2 ⟨hturn, hleast⟩
    refine ⟨⟨?_, hleast⟩, hturn⟩
    rw [heq]
    exact Cycle.isElementaryCycle_nodes_canonical hids

/-- Two nodes that call each other, the first of which also calls itself. -/
def pairWithLoop : List Operation :=
  [.addNode ⟨"a", "a", "", .unknown, none, .empty⟩, .addNode ⟨"b", "b", "", .unknown, none, .empty⟩,
    .addEdge "a" "a", .addEdge "a" "b", .addEdge "b" "a"]

/-- Of the two ways to write a cycle of two nodes one is listed. -/
theorem allCycles_pairWithLoop :
    (after pairWithLoop).IsElementaryCycle ["b", "a"] ∧
      (after pairWithLoop).allCycles.filter (fun cycle => cycle.nodes ~r ["b", "a"]) =
        [⟨["a", "b"]⟩] := by
  have hclosed : (after pairWithLoop).IsClosedWay ["b", "a"] := by
    refine List.isChain_cons_cons.2 ⟨by decide, List.isChain_cons_cons.2 ⟨by decide, ?_⟩⟩
    exact List.isChain_singleton _
  have hcycle : (after pairWithLoop).IsElementaryCycle ["b", "a"] := ⟨by decide, hclosed⟩
  exact ⟨hcycle, (allCycles_lists_elementary_cycles ⟨pairWithLoop, rfl⟩).2.2 _ hcycle⟩

example : (after pairWithLoop).allCycles = [⟨["a"]⟩, ⟨["a", "b"]⟩] := by cbv

/-! ## With a limit on their number -/

/-- A graph has finitely many cycles. -/
theorem WellFormed.finite_cyclesWithin (hg : g.WellFormed) (length : Option Nat) :
    (g.cyclesWithin length).Finite := by
  refine (List.finite_toSet (g.foundCycles length)).subset fun ids hids => ?_
  exact hg.mem_foundCycles_iff.2 hids

/-- The cycles of one node are counted by the first of the searches. -/
theorem ncard_cyclesWithin_one {length : Option Nat} (hlength : length ≠ some 0) :
    {ids ∈ g.cyclesWithin length | ids.length = 1}.ncard = g.loopCycles.length := by
  have hset : {ids ∈ g.cyclesWithin length | ids.length = 1} =
      (g.loopCycles.toFinset : Set (List String)) := by
    ext ids
    simp only [List.coe_toFinset]
    constructor
    · rintro ⟨⟨hcycle, -, -⟩, hone⟩
      exact mem_loopCycles_iff.2 ⟨hcycle, hone⟩
    · intro hids
      obtain ⟨hcycle, hone⟩ := mem_loopCycles_iff.1 hids
      refine ⟨?_, hone⟩
      obtain ⟨id, rfl⟩ := List.length_eq_one_iff.1 hone
      refine ⟨hcycle, by simp [BeginsWithLeast], fun most hmost => ?_⟩
      have hne : most ≠ 0 := fun h => hlength (h ▸ hmost)
      simp only [List.length_singleton]
      omega
  rw [hset, Set.ncard_coe_finset, List.toFinset_card_of_nodup g.nodup_loopCycles]

/-- With a limit on their number, as many of the elementary cycles within the limit on their length
are listed as the limit allows.  The search is truncated exactly if there are more, unless the
cycles of one node are exactly as many as may be reported. -/
theorem cycles_up_to_limit (h : g.Reachable) {limits : SearchLimits} {k : Nat}
    (hk : limits.maxCycles = some k) :
    (g.cycles limits).cycles.Pairwise (fun c d => c.nodes < d.nodes) ∧
      (∀ cycle ∈ (g.cycles limits).cycles, cycle.nodes ∈ g.cyclesWithin limits.maxCycleLength) ∧
      (g.cyclesWithin limits.maxCycleLength).Finite ∧
      (g.cycles limits).cycles.length = min k (g.cyclesWithin limits.maxCycleLength).ncard ∧
      ((g.cycles limits).isTruncated = true ↔
        k < (g.cyclesWithin limits.maxCycleLength).ncard ∧
          {ids ∈ g.cyclesWithin limits.maxCycleLength | ids.length = 1}.ncard ≠ k) := by
  have hg := h.wellFormed
  refine ⟨hg.pairwise_cycles limits, fun cycle => hg.mem_cyclesWithin_of_mem_cycles,
    hg.finite_cyclesWithin _, ?_, ?_⟩
  · rw [cycles_cycles_eq, hk, hg.ncard_cyclesWithin, List.length_map,
      (perm_sortPaths _).length_eq, List.length_reverse, upTo, List.length_take]
  · rw [isTruncated_cycles_iff g hk, hg.ncard_cyclesWithin]
    by_cases hzero : limits.maxCycleLength = some 0
    · simp [foundCycles, hzero]
    · rw [ncard_cyclesWithin_one hzero]

theorem cycles_pairWithLoop_up_to_one :
    ((after pairWithLoop).cycles { maxCycles := some 1 }).cycles.length =
        min 1 ((after pairWithLoop).cyclesWithin none).ncard ∧
      (((after pairWithLoop).cycles { maxCycles := some 1 }).isTruncated = true ↔
        1 < ((after pairWithLoop).cyclesWithin none).ncard ∧
          {ids ∈ (after pairWithLoop).cyclesWithin none | ids.length = 1}.ncard ≠ 1) := by
  have hlimit : ({ maxCycles := some 1 } : SearchLimits).maxCycles = some 1 := rfl
  exact (cycles_up_to_limit ⟨pairWithLoop, rfl⟩ hlimit).2.2.2

/-- The pair is left out, and the search does not say so. -/
example : (after pairWithLoop).cycles { maxCycles := some 1 } = ⟨[⟨["a"]⟩], false⟩ := by cbv

end Graph

end CallGraph
