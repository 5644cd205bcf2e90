import CallGraph.Proofs.Analysis.Circuits
import CallGraph.Proofs.Analysis.Components
import CallGraph.Proofs.Analysis.ElementaryCycles
import CallGraph.Proofs.Graph.Representation

/-!
# Searching part by part

A cycle lies in one strong component of any part of the graph that contains it.  Whether it is found
there or later is decided by its least node: it is found when the part is searched in which that
node is the least one, and if the least node of a part is not on it, it lies in one of the parts
that remain without that node.

Main results:

- Theorem `Graph.mem_waysBack_iff`: the ways back to a node are the elementary cycles through it.
- Theorem `Graph.WellFormed.exists_mem_cyclicParts`: a cycle lies in one strong component.
- Theorem `Graph.WellFormed.mem_partCycles_iff`: which cycles are found part by part.
- Theorem `Graph.WellFormed.nodup_partCycles`: no cycle is found twice.
-/

namespace CallGraph

namespace Graph

variable {g : Graph} {members : List String} {start a b : String}

/-! ## Steps inside a part -/

/-- The other callees of a node are those that are not the node itself. -/
theorem WellFormed.mem_otherCallees_iff (hg : g.WellFormed) :
    b ∈ g.otherCallees a ↔ g.hasEdge a b = true ∧ b ≠ a := by
  simp [otherCallees, mem_sortDistinct, hg.mem_calleesOf_iff]

/-- The callees within a part are the other callees that lie in it. -/
theorem WellFormed.mem_calleesWithin_iff (hg : g.WellFormed) :
    b ∈ g.calleesWithin members a ↔ g.hasEdge a b = true ∧ b ≠ a ∧ b ∈ members := by
  simp [calleesWithin, hg.mem_otherCallees_iff, and_assoc]

/-- The callers within a part are the callers that lie in it. -/
theorem WellFormed.mem_callersWithin_iff (hg : g.WellFormed) :
    b ∈ g.callersWithin members a ↔ g.hasEdge b a = true ∧ b ∈ members := by
  simp [callersWithin, hg.mem_callersOf_iff]

/-- No callee within a part is listed twice. -/
theorem nodup_calleesWithin (g : Graph) (members : List String) (id : String) :
    (g.calleesWithin members id).Nodup :=
  (List.nodup_reverse.2 (nodup_sortDistinct _)).filter _

theorem mem_of_mem_calleesWithin (h : b ∈ g.calleesWithin members a) : b ∈ members := by
  simpa using (List.mem_filter.1 h).2

theorem mem_of_mem_callersWithin (h : b ∈ g.callersWithin members a) : b ∈ members := by
  simpa using (List.mem_filter.1 h).2

/-- The ways back to a node along edges between different nodes are the elementary cycles of at
least two nodes through it. -/
theorem mem_waysBack_iff {P : String → Prop} {next : String → List String}
    (hnext : ∀ a b, b ∈ next a ↔ g.hasEdge a b = true ∧ b ≠ a ∧ P b) (hstart : P start)
    {hops : Nat} {cycle : List String} :
    cycle ∈ waysBack next start hops [start] start ↔
      g.IsElementaryCycle cycle ∧ cycle.head? = some start ∧ 2 ≤ cycle.length ∧
        cycle.length ≤ hops ∧ ∀ id ∈ cycle, P id := by
  rw [CallGraph.mem_waysBack_iff (by simp)]
  constructor
  · rintro ⟨rest, rfl, hlength, hnodup, hmem, hchain⟩
    have hrest : rest ≠ [] := by
      rintro rfl
      have hself : start ∈ next start := by simpa using hchain
      exact ((hnext start start).1 hself).2.1 rfl
    have hnew : start ∉ rest := fun h => hmem start h (by simp)
    have hclosed : g.IsClosedWay (start :: rest) :=
      hchain.imp fun a b h => ((hnext a b).1 h).1
    have hpositive := List.length_pos_iff.2 hrest
    refine ⟨⟨List.nodup_cons.2 ⟨hnew, hnodup⟩, hclosed⟩, rfl, ?_, ?_, ?_⟩
    · simp only [List.reverse_singleton, List.length_append, List.length_singleton]
      omega
    · simp only [List.reverse_singleton, List.length_append, List.length_singleton]
      omega
    · intro id hid
      rcases List.mem_cons.1 hid with rfl | hid
      · exact hstart
      · refine forall_of_isChain (fun a b h => ((hnext a b).1 h).2.2) hchain id ?_
        exact List.mem_append_left _ hid
  · rintro ⟨hcycle, hhead, htwo, hlength, hP⟩
    obtain ⟨rest, rfl⟩ := List.head?_eq_some_iff.1 hhead
    have hrest : rest ≠ [] := by
      rintro rfl
      simp at htwo
    obtain ⟨hnew, hnodup⟩ := List.nodup_cons.1 hcycle.nodup
    refine ⟨rest, rfl, Nat.lt_of_succ_le hlength, hnodup, ?_, ?_⟩
    · intro w hw h
      rw [List.mem_singleton] at h
      exact hnew (h ▸ hw)
    · refine (hcycle.isChain_steps hrest).imp fun a b h => ?_
      exact (hnext a b).2 ⟨h.1, h.2.1, hP b h.2.2⟩

/-! ## Strong components -/

/-- The nodes of a cycle of at least two nodes reach each other inside every part that contains
them. -/
theorem WellFormed.reflTransGen_of_isElementaryCycle (hg : g.WellFormed) {first : String}
    {rest : List String} (hcycle : g.IsElementaryCycle (first :: rest)) (hrest : rest ≠ [])
    (hmembers : ∀ id ∈ first :: rest, id ∈ members) {id : String} (hid : id ∈ first :: rest) :
    Relation.ReflTransGen (fun x y => y ∈ g.calleesWithin members x) first id ∧
      Relation.ReflTransGen (fun x y => y ∈ g.calleesWithin members x) id first := by
  have hchain : List.IsChain (fun x y => y ∈ g.calleesWithin members x)
      (first :: rest ++ [first]) := by
    refine (hcycle.isChain_steps hrest).imp fun a b h => ?_
    exact hg.mem_calleesWithin_iff.2 ⟨h.1, h.2.1, hmembers b h.2.2⟩
  exact reflTransGen_of_isChain_closed hchain hid

/-- Between different nodes of a part, callers undo callees. -/
theorem WellFormed.undo_calleesWithin (hg : g.WellFormed) :
    ∀ x ∈ members, ∀ y ∈ members, x ≠ y →
      (y ∈ g.calleesWithin members x ↔ x ∈ g.callersWithin members y) := by
  intro x hx y hy hne
  rw [hg.mem_calleesWithin_iff, hg.mem_callersWithin_iff]
  constructor
  · exact fun h => ⟨h.1, hx⟩
  · exact fun h => ⟨h.1, hne.symm, hy⟩

/-- The strong class of a node of a part holds what is reached from it and reaches it, without
leaving the part. -/
theorem WellFormed.mem_strongClassWithin_iff (hg : g.WellFormed) (ha : a ∈ members) :
    b ∈ strongClass (g.calleesWithin members) (g.callersWithin members) members a ↔
      b ∈ members ∧ Relation.ReflTransGen (fun x y => y ∈ g.calleesWithin members x) a b ∧
        Relation.ReflTransGen (fun x y => y ∈ g.calleesWithin members x) b a :=
  mem_strongClass_iff (fun _ _ => mem_of_mem_calleesWithin) (fun _ _ => mem_of_mem_callersWithin)
    hg.undo_calleesWithin ha

/-- Components keep the order of the members. -/
theorem sublist_of_mem_cyclicParts {part : List String} (h : part ∈ g.cyclicParts members) :
    part.Sublist members := by
  rcases exists_eq_of_mem_foldl_openClass (List.mem_filter.1 h).1 with h | ⟨v, -, rfl⟩
  · simp at h
  · exact List.filter_sublist

/-- A part has at least two nodes. -/
theorem length_of_mem_cyclicParts {part : List String} (h : part ∈ g.cyclicParts members) :
    2 ≤ part.length :=
  of_decide_eq_true (List.mem_filter.1 h).2

/-- No two parts have a node in common. -/
theorem WellFormed.pairwise_disjoint_cyclicParts (hg : g.WellFormed) (members : List String) :
    (g.cyclicParts members).Pairwise List.Disjoint := by
  have horder : ∀ v ∈ leavingOrder (g.calleesWithin members) members, v ∈ members :=
    fun v hv => (mem_leavingOrder_iff fun _ _ => mem_of_mem_calleesWithin).1 hv
  refine (pairwise_disjoint_classes ?_ horder).filter _
  intro u hu v hv hnot
  exact disjoint_strongClass (fun _ _ => mem_of_mem_calleesWithin)
    (fun _ _ => mem_of_mem_callersWithin) hg.undo_calleesWithin hu hv hnot

/-- A cycle of at least two nodes lies in one strong component of each part that contains it. -/
theorem WellFormed.exists_mem_cyclicParts (hg : g.WellFormed) {cycle : List String}
    (hcycle : g.IsElementaryCycle cycle) (htwo : 2 ≤ cycle.length)
    (hmembers : ∀ id ∈ cycle, id ∈ members) :
    ∃ part ∈ g.cyclicParts members, ∀ id ∈ cycle, id ∈ part := by
  obtain ⟨first, rest, rfl⟩ := List.exists_cons_of_ne_nil hcycle.ne_nil
  have hrest : rest ≠ [] := by
    rintro rfl
    simp at htwo
  have hreach := fun id (hid : id ∈ first :: rest) =>
    hg.reflTransGen_of_isElementaryCycle hcycle hrest hmembers hid
  have hfirst : first ∈ members := hmembers first (by simp)
  have horder : first ∈ leavingOrder (g.calleesWithin members) members :=
    (mem_leavingOrder_iff fun _ _ => mem_of_mem_calleesWithin).2 hfirst
  have hself : first ∈ strongClass (g.calleesWithin members) (g.callersWithin members) members
      first :=
    (hg.mem_strongClassWithin_iff hfirst).2 ⟨hfirst, .refl, .refl⟩
  obtain ⟨part, hpart, hmem⟩ := exists_mem_classes horder hself
  -- The class was opened for some `v`, not necessarily for `first`.
  have hall : ∀ id ∈ first :: rest, id ∈ part := by
    intro id hid
    rcases exists_eq_of_mem_foldl_openClass hpart with h | ⟨v, hv, rfl⟩
    · simp at h
    · have hv : v ∈ members := (mem_leavingOrder_iff fun _ _ => mem_of_mem_calleesWithin).1 hv
      obtain ⟨-, hforth, hback⟩ := (hg.mem_strongClassWithin_iff hv).1 hmem
      obtain ⟨hout, hhome⟩ := hreach id hid
      exact (hg.mem_strongClassWithin_iff hv).2
        ⟨hmembers id hid, hforth.trans hout, hhome.trans hback⟩
  refine ⟨part, List.mem_filter.2 ⟨hpart, ?_⟩, hall⟩
  have hlength := List.Nodup.length_le_of_subset hcycle.nodup hall
  simp only [decide_eq_true_eq]
  omega

/-! ## From part to part -/

/-- The cycles that are found part by part, as long as there are rounds left. -/
def partCycles (g : Graph) : (rounds : Nat) → (parts : List (List String)) → List (List String)
  | rounds + 1, (start :: rest) :: parts =>
      waysBack (g.calleesWithin (start :: rest)) start (start :: rest).length [start] start ++
        partCycles g rounds (g.cyclicParts rest ++ parts)
  | _, _ => []

/-- The search collects the cycles that are found part by part. -/
theorem searchParts_eq (g : Graph) (rounds : Nat) (parts : List (List String))
    (cycles : CycleList) :
    g.searchParts rounds parts cycles =
      (g.partCycles rounds parts).foldl CycleList.add cycles := by
  induction rounds generalizing parts cycles with
  | zero => rfl
  | succ rounds ih =>
    rcases parts with _ | ⟨_ | ⟨start, rest⟩, parts⟩
    · rfl
    · rfl
    · rw [searchParts, partCycles, List.foldl_append]
      have hnext : ∀ x, ∀ y ∈ g.calleesWithin (start :: rest) x, y ∈ start :: rest :=
        fun _ _ => mem_of_mem_calleesWithin
      have hrun := CircuitSearch.cycles_run hnext List.mem_cons_self cycles
      dsimp only
      rw [ih, hrun]
      split
      · rename_i htruncated
        exact (CycleList.foldl_add_of_isTruncated htruncated _).symm
      · rfl

/-- Parts that may be searched: each in ascending order, no two with a node in common, and with no
more nodes than there are rounds left. -/
structure Searchable (rounds : Nat) (parts : List (List String)) : Prop where
  ascending : ∀ part ∈ parts, part.Pairwise (· < ·)
  ne_nil : ∀ part ∈ parts, part ≠ []
  nodup : parts.flatten.Nodup
  length_le : parts.flatten.length ≤ rounds

theorem nodup_of_pairwise_lt {ids : List String} (h : ids.Pairwise (· < ·)) : ids.Nodup :=
  h.imp fun hlt heq => (heq ▸ hlt).false

/-- The parts lie in the nodes that they are parts of. -/
theorem flatten_cyclicParts_subset (g : Graph) (members : List String) :
    ∀ id ∈ (g.cyclicParts members).flatten, id ∈ members := by
  intro id hid
  obtain ⟨part, hpart, hid⟩ := List.mem_flatten.1 hid
  exact (sublist_of_mem_cyclicParts hpart).subset hid

/-- The components of ascending members may be searched. -/
theorem WellFormed.searchable_cyclicParts (hg : g.WellFormed)
    (hmembers : members.Pairwise (· < ·)) :
    Searchable members.length (g.cyclicParts members) := by
  have hascending : ∀ part ∈ g.cyclicParts members, part.Pairwise (· < ·) :=
    fun part hpart => hmembers.sublist (sublist_of_mem_cyclicParts hpart)
  have hnodup : (g.cyclicParts members).flatten.Nodup :=
    List.nodup_flatten.2 ⟨fun part hpart => nodup_of_pairwise_lt (hascending part hpart),
      hg.pairwise_disjoint_cyclicParts members⟩
  refine ⟨hascending, ?_, hnodup, ?_⟩
  · intro part hpart hnil
    have htwo := length_of_mem_cyclicParts hpart
    simp [hnil] at htwo
  · exact List.Nodup.length_le_of_subset hnodup (g.flatten_cyclicParts_subset members)

/-- When a part was searched, its components without its least node may be searched in its place. -/
theorem WellFormed.searchable_step (hg : g.WellFormed) {rounds : Nat} {rest : List String}
    {parts : List (List String)} (h : Searchable (rounds + 1) ((start :: rest) :: parts)) :
    Searchable rounds (g.cyclicParts rest ++ parts) := by
  have hpart : (start :: rest).Pairwise (· < ·) := h.ascending (start :: rest) (by simp)
  have hrest : rest.Pairwise (· < ·) := (List.pairwise_cons.1 hpart).2
  have hparts := hg.searchable_cyclicParts hrest
  have hnodup := h.nodup
  have hlength := h.length_le
  rw [List.flatten_cons, List.nodup_append'] at hnodup
  rw [List.flatten_cons, List.length_append, List.length_cons] at hlength
  refine ⟨?_, ?_, ?_, ?_⟩
  · intro part hpart
    rcases List.mem_append.1 hpart with hpart | hpart
    · exact hparts.ascending part hpart
    · exact h.ascending part (List.mem_cons_of_mem _ hpart)
  · intro part hpart
    rcases List.mem_append.1 hpart with hpart | hpart
    · exact hparts.ne_nil part hpart
    · exact h.ne_nil part (List.mem_cons_of_mem _ hpart)
  · rw [List.flatten_append, List.nodup_append']
    refine ⟨hparts.nodup, hnodup.2.1, fun id hid hother => ?_⟩
    have hid : id ∈ rest := g.flatten_cyclicParts_subset rest id hid
    exact hnodup.2.2 (List.mem_cons_of_mem start hid) hother
  · have hle := hparts.length_le
    rw [List.flatten_append, List.length_append]
    omega

/-- The least node of an ascending part is the first node of each cycle in the part that meets
it. -/
theorem head?_eq_of_beginsWithLeast {rest cycle : List String}
    (hascending : (start :: rest).Pairwise (· < ·)) (hleast : BeginsWithLeast cycle)
    (hpart : ∀ id ∈ cycle, id ∈ start :: rest) (hmem : start ∈ cycle) :
    cycle.head? = some start := by
  cases cycle with
  | nil => simp at hmem
  | cons first others =>
    have hle : first ≤ start := by
      rcases List.mem_cons.1 hmem with rfl | hmem
      · exact le_refl _
      · exact hleast start hmem
    rcases List.mem_cons.1 (hpart first (by simp)) with rfl | hfirst
    · rfl
    · have hlt : start < first := (List.pairwise_cons.1 hascending).1 first hfirst
      exact absurd hle (not_le_of_gt hlt)

/-- A cycle through the least node of its part, written from there, begins with its least node. -/
theorem beginsWithLeast_of_head? {rest cycle : List String}
    (hascending : (start :: rest).Pairwise (· < ·)) (hhead : cycle.head? = some start)
    (hpart : ∀ id ∈ cycle, id ∈ start :: rest) : BeginsWithLeast cycle := by
  obtain ⟨others, rfl⟩ := List.head?_eq_some_iff.1 hhead
  intro id hid
  rcases List.mem_cons.1 (hpart id (List.mem_cons_of_mem _ hid)) with rfl | hrest
  · exact le_refl _
  · exact ((List.pairwise_cons.1 hascending).1 id hrest).le

/-- What is found in one part: the cycles of at least two nodes in it that begin with its least
node. -/
theorem WellFormed.mem_waysBackWithin_iff (hg : g.WellFormed) {rest cycle : List String}
    (hascending : (start :: rest).Pairwise (· < ·)) :
    cycle ∈ waysBack (g.calleesWithin (start :: rest)) start (start :: rest).length [start] start ↔
      g.IsElementaryCycle cycle ∧ BeginsWithLeast cycle ∧ 2 ≤ cycle.length ∧
        (∀ id ∈ cycle, id ∈ start :: rest) ∧ start ∈ cycle := by
  rw [mem_waysBack_iff (P := (· ∈ start :: rest)) (fun a b => hg.mem_calleesWithin_iff) (by simp)]
  constructor
  · rintro ⟨hcycle, hhead, htwo, -, hpart⟩
    exact ⟨hcycle, beginsWithLeast_of_head? hascending hhead hpart, htwo, hpart,
      List.mem_of_mem_head? hhead⟩
  · rintro ⟨hcycle, hleast, htwo, hpart, hmem⟩
    exact ⟨hcycle, head?_eq_of_beginsWithLeast hascending hleast hpart hmem, htwo,
      List.Nodup.length_le_of_subset hcycle.nodup hpart, hpart⟩

/-- Part by part, the cycles of at least two nodes are found that lie in one of the parts. -/
theorem WellFormed.mem_partCycles_iff (hg : g.WellFormed) {rounds : Nat}
    {parts : List (List String)} (h : Searchable rounds parts) {cycle : List String} :
    cycle ∈ g.partCycles rounds parts ↔
      g.IsElementaryCycle cycle ∧ BeginsWithLeast cycle ∧ 2 ≤ cycle.length ∧
        ∃ part ∈ parts, ∀ id ∈ cycle, id ∈ part := by
  induction rounds generalizing parts with
  | zero =>
    have hparts : parts = [] := by
      rcases parts with _ | ⟨part, parts⟩
      · rfl
      · have hlength := h.length_le
        have hpositive := List.length_pos_iff.2 (h.ne_nil part (by simp))
        rw [List.flatten_cons, List.length_append] at hlength
        omega
    simp [partCycles, hparts]
  | succ rounds ih =>
    rcases parts with _ | ⟨_ | ⟨start, rest⟩, parts⟩
    · simp [partCycles]
    · exact absurd rfl (h.ne_nil [] (by simp))
    · rw [partCycles, List.mem_append, ih (hg.searchable_step h),
        hg.mem_waysBackWithin_iff (h.ascending _ (by simp))]
      constructor
      · rintro (⟨hcycle, hleast, htwo, hpart, -⟩ | ⟨hcycle, hleast, htwo, part, hpart, hmem⟩)
        · exact ⟨hcycle, hleast, htwo, start :: rest, by simp, hpart⟩
        · refine ⟨hcycle, hleast, htwo, ?_⟩
          rcases List.mem_append.1 hpart with hpart | hpart
          · refine ⟨start :: rest, by simp, fun id hid => ?_⟩
            exact List.mem_cons_of_mem _ ((sublist_of_mem_cyclicParts hpart).subset (hmem id hid))
          · exact ⟨part, List.mem_cons_of_mem _ hpart, hmem⟩
      · rintro ⟨hcycle, hleast, htwo, part, hpart, hmem⟩
        rcases List.mem_cons.1 hpart with rfl | hpart
        · by_cases hstart : start ∈ cycle
          · exact .inl ⟨hcycle, hleast, htwo, hmem, hstart⟩
          · -- Without the least node the cycle lies in one component of what is left.
            have hrest : ∀ id ∈ cycle, id ∈ rest := by
              intro id hid
              exact (List.mem_cons.1 (hmem id hid)).resolve_left fun heq => hstart (heq ▸ hid)
            obtain ⟨smaller, hsmaller, hmem⟩ := hg.exists_mem_cyclicParts hcycle htwo hrest
            exact .inr ⟨hcycle, hleast, htwo, smaller, List.mem_append_left _ hsmaller, hmem⟩
        · exact .inr ⟨hcycle, hleast, htwo, part, List.mem_append_right _ hpart, hmem⟩

/-- Part by part, no cycle is found twice. -/
theorem WellFormed.nodup_partCycles (hg : g.WellFormed) {rounds : Nat}
    {parts : List (List String)} (h : Searchable rounds parts) :
    (g.partCycles rounds parts).Nodup := by
  induction rounds generalizing parts with
  | zero => simp [partCycles]
  | succ rounds ih =>
    rcases parts with _ | ⟨_ | ⟨start, rest⟩, parts⟩
    · simp [partCycles]
    · simp [partCycles]
    · have hstep := hg.searchable_step h
      rw [partCycles, List.nodup_append']
      refine ⟨nodup_waysBack (g.nodup_calleesWithin _) (by simp), ih hstep, ?_⟩
      intro cycle hnow hlater
      obtain ⟨-, -, -, -, hstart⟩ :=
        (hg.mem_waysBackWithin_iff (h.ascending _ (by simp))).1 hnow
      obtain ⟨-, -, -, part, hpart, hmem⟩ := (hg.mem_partCycles_iff hstep).1 hlater
      have hnodup := h.nodup
      rw [List.flatten_cons, List.cons_append, List.nodup_cons, List.mem_append, not_or] at hnodup
      rcases List.mem_append.1 hpart with hpart | hpart
      · exact hnodup.1.1 ((sublist_of_mem_cyclicParts hpart).subset (hmem start hstart))
      · exact hnodup.1.2 (List.mem_flatten.2 ⟨part, hpart, hmem start hstart⟩)

end Graph

end CallGraph
