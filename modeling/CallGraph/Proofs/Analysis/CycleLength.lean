import CallGraph.Proofs.Analysis.Cycles

/-!
# Cycles up to a length

With a limit on their length and none on their number, ways are extended step by step from each node
over the nodes after it.  This search is another one than the search without limits, and finds the
same: the elementary cycles within the limit, in ascending order.

Main result:

- Theorem `Graph.cycles_up_to_length`: what is listed with a limit on the length of cycles, and how
  it compares with what is listed without limits.
-/

namespace CallGraph

namespace Graph

variable {g : Graph}

/-- A search that may report any number of cycles leaves none of them out. -/
theorem isTruncated_cycles_of_unlimited (g : Graph) {limits : SearchLimits}
    (hcount : limits.maxCycles = none) : (g.cycles limits).isTruncated = false := by
  by_cases hzero : limits.maxCycleLength = some 0
  · rw [cycles, if_pos hzero]
  · rw [cycles_eq g hzero, hcount]
    rfl

theorem mem_cyclesWithin_some_iff {most : Nat} {ids : List String} :
    ids ∈ g.cyclesWithin (some most) ↔
      g.IsElementaryCycle ids ∧ BeginsWithLeast ids ∧ ids.length ≤ most := by
  simp [mem_cyclesWithin_iff]

/-- The search by length finds what is left of all cycles without the longer ones. -/
theorem WellFormed.cycles_eq_filter_allCycles (hg : g.WellFormed) (most : Nat) :
    (g.cycles { maxCycleLength := some most }).cycles =
      g.allCycles.filter fun cycle => cycle.nodes.length ≤ most := by
  have hall : g.allCycles.Pairwise fun c d => c.nodes < d.nodes := hg.pairwise_cycles {}
  have : Std.Asymm fun c d : Cycle => c.nodes < d.nodes := ⟨fun _ _ => lt_asymm⟩
  refine (hg.pairwise_cycles _).eq_of_mem_iff (hall.filter _) fun cycle => ?_
  rw [hg.mem_cycles_iff_of_unlimited rfl, mem_cyclesWithin_some_iff, List.mem_filter,
    hg.mem_allCycles_iff, decide_eq_true_eq, and_assoc]

theorem WellFormed.cycles_eq_allCycles (hg : g.WellFormed) {most : Nat}
    (hmost : g.nodeCount ≤ most) :
    (g.cycles { maxCycleLength := some most }).cycles = g.allCycles := by
  rw [hg.cycles_eq_filter_allCycles]
  refine List.filter_eq_self.2 fun cycle hcycle => decide_eq_true ?_
  exact (hg.length_le_of_isElementaryCycle (hg.mem_allCycles_iff.1 hcycle).1).trans hmost

/-- With a limit on their length alone, the search is not truncated.  It lists exactly the
elementary cycles within the limit that begin with their least id, in ascending order, so that of
all the turns of such a cycle one is listed, and once.  That is what a search without limits leaves
after longer cycles are dropped, and all of it if the limit is not less than the number of nodes. -/
theorem cycles_up_to_length (h : g.Reachable) (most : Nat) :
    (g.cycles { maxCycleLength := some most }).isTruncated = false ∧
      (g.cycles { maxCycleLength := some most }).cycles.Pairwise
        (fun c d => c.nodes < d.nodes) ∧
      (∀ cycle, cycle ∈ (g.cycles { maxCycleLength := some most }).cycles ↔
        g.IsElementaryCycle cycle.nodes ∧ BeginsWithLeast cycle.nodes ∧
          cycle.nodes.length ≤ most) ∧
      (∀ ids, g.IsElementaryCycle ids → ids.length ≤ most →
        ∃! cycle, cycle ∈ (g.cycles { maxCycleLength := some most }).cycles ∧
          cycle.nodes ~r ids) ∧
      (g.cycles { maxCycleLength := some most }).cycles =
        g.allCycles.filter (fun cycle => cycle.nodes.length ≤ most) ∧
      (g.nodeCount ≤ most →
        (g.cycles { maxCycleLength := some most }).cycles = g.allCycles) := by
  have hg := h.wellFormed
  have hmem : ∀ cycle, cycle ∈ (g.cycles { maxCycleLength := some most }).cycles ↔
      g.IsElementaryCycle cycle.nodes ∧ BeginsWithLeast cycle.nodes ∧
        cycle.nodes.length ≤ most := by
    intro cycle
    rw [hg.mem_cycles_iff_of_unlimited rfl, mem_cyclesWithin_some_iff]
  refine ⟨isTruncated_cycles_of_unlimited g rfl, hg.pairwise_cycles _, hmem,
    fun ids hids hlength => ?_, hg.cycles_eq_filter_allCycles most, hg.cycles_eq_allCycles⟩
  have hturn := Cycle.isRotated_nodes_canonical ids
  refine ⟨Cycle.canonical ids, ⟨(hmem _).2 ⟨Cycle.isElementaryCycle_nodes_canonical hids,
    Cycle.beginsWithLeast_nodes_canonical hids.ne_nil, ?_⟩, hturn.symm⟩, ?_⟩
  · rw [← hturn.perm.length_eq]
    exact hlength
  · rintro ⟨nodes⟩ ⟨hlisted, hother⟩
    have hleast : BeginsWithLeast nodes := ((hmem _).1 hlisted).2.1
    exact congrArg Cycle.mk
      ((Cycle.nodes_canonical_eq_iff hids.nodup hids.ne_nil).2 ⟨hother, hleast⟩).symm

/-- Two nodes that call each other, with a loop at the first: the limit of two is as many as there
are nodes. -/
theorem cycles_pairWithLoop_up_to_length_two :
    (after pairWithLoop).Reachable ∧ (after pairWithLoop).nodeCount ≤ 2 ∧
      ((after pairWithLoop).cycles { maxCycleLength := some 2 }).isTruncated = false ∧
      (∀ cycle, cycle ∈ ((after pairWithLoop).cycles { maxCycleLength := some 2 }).cycles ↔
        (after pairWithLoop).IsElementaryCycle cycle.nodes ∧ BeginsWithLeast cycle.nodes ∧
          cycle.nodes.length ≤ 2) ∧
      ((after pairWithLoop).cycles { maxCycleLength := some 2 }).cycles =
        (after pairWithLoop).allCycles := by
  have hreachable : (after pairWithLoop).Reachable := ⟨pairWithLoop, rfl⟩
  have hcount : (after pairWithLoop).nodeCount ≤ 2 := by decide
  obtain ⟨htruncated, -, hmem, -, -, hall⟩ := cycles_up_to_length hreachable 2
  exact ⟨hreachable, hcount, htruncated, hmem, hall hcount⟩

/-- The pair is too long for the limit, and the search is still not truncated. -/
example : (after pairWithLoop).cycles { maxCycleLength := some 1 } = ⟨[⟨["a"]⟩], false⟩ := by cbv

end Graph

end CallGraph
