import CallGraph.Analysis.Cycles
import CallGraph.Proofs.Data.Sorting
import Mathlib.Data.List.Chain
import Mathlib.Data.List.Rotate

/-!
# Elementary cycles

An elementary cycle is a closed way along edges that meets no node twice.  Where it begins does not
matter: turning it gives the same cycle.  Among the turns of one cycle exactly one begins with the
least id, and this is the form in which cycles are listed.

Main results:

- Theorem `Graph.IsElementaryCycle.append_comm`: a cycle that is turned is a cycle.
- Theorem `eq_of_isRotated`: a cycle has only one turn that begins with its least id.
- Theorem `Cycle.nodes_canonical_eq_iff`: the canonical form of a cycle is that turn.
-/

namespace CallGraph

namespace Graph

/-! ## Closed ways -/

/-- Each id has an edge to the next, and the last has an edge to the first. -/
def IsClosedWay (g : Graph) : List String → Prop
  | [] => False
  | first :: rest => List.IsChain (fun a b => g.hasEdge a b = true) (first :: rest ++ [first])

/-- A closed way that meets no node twice. -/
structure IsElementaryCycle (g : Graph) (ids : List String) : Prop where
  nodup : ids.Nodup
  closed : g.IsClosedWay ids

variable {g : Graph} {ids before after : List String}

/-- A closed way can be walked from any of its places. -/
theorem IsClosedWay.append_comm (h : g.IsClosedWay (before ++ after)) :
    g.IsClosedWay (after ++ before) := by
  cases before with
  | nil => simpa using h
  | cons b bs =>
    cases after with
    | nil => simpa using h
    | cons a as =>
      -- Both ways consist of the part from `b` to `a` and the part from `a` to `b`.
      have hsplit : List.IsChain (fun a b => g.hasEdge a b = true)
          (b :: bs ++ a :: (as ++ [b])) := by
        simpa [IsClosedWay] using h
      obtain ⟨hforth, hback⟩ := List.isChain_split.1 hsplit
      have hturned : List.IsChain (fun a b => g.hasEdge a b = true)
          (a :: as ++ b :: (bs ++ [a])) :=
        List.isChain_split.2 ⟨hback, hforth⟩
      simpa [IsClosedWay] using hturned

/-- On a closed way, the place where it is closed leads to every other and back. -/
theorem reflTransGen_of_isChain_closed {α : Type} {R : α → α → Prop} {first a : α} {rest : List α}
    (h : List.IsChain R (first :: rest ++ [first])) (ha : a ∈ first :: rest) :
    Relation.ReflTransGen R first a ∧ Relation.ReflTransGen R a first := by
  obtain ⟨before, after, hsplit⟩ := List.append_of_mem ha
  rw [hsplit, List.append_assoc, List.cons_append, List.isChain_split] at h
  obtain ⟨hforth, hback⟩ := h
  constructor
  · cases before with
    | nil =>
      obtain rfl : first = a := (List.cons.inj hsplit).1
      exact .refl
    | cons b before =>
      obtain rfl : first = b := (List.cons.inj hsplit).1
      exact List.relationReflTransGen_of_exists_isChain_cons _ hforth (by simp)
  · exact List.relationReflTransGen_of_exists_isChain_cons _ hback (by simp)

/-- An elementary cycle can be written from any of its places. -/
theorem IsElementaryCycle.append_comm (h : g.IsElementaryCycle (before ++ after)) :
    g.IsElementaryCycle (after ++ before) where
  nodup := List.nodup_append_comm.1 h.nodup
  closed := h.closed.append_comm

/-- A cycle has at least one node. -/
theorem IsElementaryCycle.ne_nil (h : g.IsElementaryCycle ids) : ids ≠ [] := by
  rintro rfl
  exact h.closed

/-- A node by itself is a cycle if it calls itself. -/
theorem isElementaryCycle_singleton_iff {id : String} :
    g.IsElementaryCycle [id] ↔ g.hasEdge id id = true := by
  constructor
  · intro h
    simpa [IsClosedWay] using h.closed
  · intro hself
    exact ⟨List.nodup_singleton id, by simpa [IsClosedWay] using hself⟩

/-- A cycle of at least two nodes is made of steps between different nodes of the cycle. -/
theorem IsElementaryCycle.isChain_steps {first : String} {rest : List String}
    (h : g.IsElementaryCycle (first :: rest)) (hrest : rest ≠ []) :
    List.IsChain (fun a b => g.hasEdge a b = true ∧ b ≠ a ∧ b ∈ first :: rest)
      (first :: rest ++ [first]) := by
  have hedges : List.IsChain (fun a b => g.hasEdge a b = true) (first :: rest ++ [first]) :=
    h.closed
  have hsteps : List.IsChain (· ≠ ·) (first :: rest ++ [first]) := by
    refine List.isChain_append.2 ⟨h.nodup.isChain, List.isChain_singleton _, ?_⟩
    intro last hlast again hagain
    obtain rfl : first = again := by simpa using hagain
    have hmem : last ∈ rest := by
      rw [List.getLast?_cons, List.getLast?_eq_some_getLast hrest] at hlast
      obtain rfl : rest.getLast hrest = last := by simpa using hlast
      exact List.getLast_mem hrest
    rintro rfl
    exact (List.nodup_cons.1 h.nodup).1 hmem
  rw [List.isChain_iff_getElem] at hedges hsteps ⊢
  intro i hi
  refine ⟨hedges i hi, (hsteps i hi).symm, ?_⟩
  rcases List.mem_append.1 (List.getElem_mem hi) with hmem | hmem
  · exact hmem
  · exact List.mem_cons.2 (.inl (List.mem_singleton.1 hmem))

end Graph

/-! ## The turn that begins with the least id -/

/-- The first id is the least one. -/
def BeginsWithLeast : List String → Prop
  | [] => False
  | first :: rest => ∀ id ∈ rest, first ≤ id

/-- Two lists are turns of one another if they are put together from the same two parts. -/
theorem exists_parts_of_isRotated {α : Type} {as bs : List α} (h : as ~r bs) :
    ∃ before after, as = before ++ after ∧ bs = after ++ before := by
  obtain ⟨n, rfl⟩ := h
  refine ⟨as.take (n % as.length), as.drop (n % as.length), ?_, ?_⟩
  · exact (List.take_append_drop _ _).symm
  · exact List.rotate_eq_drop_append_take_mod

/-- A list without repetitions has only one turn that begins with the least id. -/
theorem eq_of_isRotated {as bs : List String} (hnodup : as.Nodup) (has : BeginsWithLeast as)
    (hbs : BeginsWithLeast bs) (h : as ~r bs) : as = bs := by
  obtain ⟨before, after, rfl, rfl⟩ := exists_parts_of_isRotated h
  cases before with
  | nil => simp
  | cons b bs =>
    cases after with
    | nil => simp
    | cons a as =>
      have hle : b ≤ a := has a (by simp)
      have hge : a ≤ b := hbs b (by simp)
      obtain rfl : a = b := le_antisymm hge hle
      simp at hnodup

namespace Cycle

/-- The first least id splits a list. -/
theorem exists_split_leastIndex {ids : List String} (h : ids ≠ []) :
    ∃ before first after, ids = before ++ first :: after ∧ before.length = leastIndex ids ∧
      ∀ id ∈ ids, first ≤ id := by
  induction ids with
  | nil => exact absurd rfl h
  | cons id rest ih =>
    rw [leastIndex]
    split
    · rename_i hall
      refine ⟨[], id, rest, rfl, rfl, ?_⟩
      intro other hother
      rcases List.mem_cons.1 hother with rfl | hother
      · exact le_refl _
      · simpa using List.all_eq_true.1 hall other hother
    · rename_i hless
      obtain ⟨other, hother, hlt⟩ : ∃ other ∈ rest, other < id := by simpa using hless
      obtain ⟨before, first, after, rfl, hlength, hleast⟩ := ih (List.ne_nil_of_mem hother)
      refine ⟨id :: before, first, after, rfl, by simp [hlength], ?_⟩
      intro x hx
      rcases List.mem_cons.1 hx with rfl | hx
      · exact (hleast other hother).trans hlt.le
      · exact hleast x hx

/-- Rotating a list by the length of its first part exchanges its two parts. -/
theorem rotateLeft_length_append {α : Type} (before : List α) (first : α) (after : List α) :
    (before ++ first :: after).rotateLeft before.length = first :: after ++ before := by
  rw [List.rotateLeft]
  split
  · rename_i hshort
    simp only [List.length_append, List.length_cons] at hshort
    obtain rfl : before = [] := List.length_eq_zero_iff.1 (by omega)
    simp
  · have hlt : before.length < (before ++ first :: after).length := by simp
    simp only [Nat.mod_eq_of_lt hlt, List.take_left, List.drop_left]

/-- The canonical form of a list is put together from the same parts and begins with the least
id. -/
theorem exists_nodes_canonical_eq {ids : List String} (h : ids ≠ []) :
    ∃ before after, ids = before ++ after ∧ (canonical ids).nodes = after ++ before ∧
      BeginsWithLeast (canonical ids).nodes := by
  obtain ⟨before, first, after, hsplit, hlength, hleast⟩ := exists_split_leastIndex h
  have hnodes : (canonical ids).nodes = first :: after ++ before := by
    rw [canonical, ← hlength, hsplit, rotateLeft_length_append]
  refine ⟨before, first :: after, hsplit, hnodes, ?_⟩
  rw [hnodes]
  intro id hid
  refine hleast id ?_
  rw [hsplit]
  rcases List.mem_append.1 (show id ∈ after ++ before from hid) with hid | hid
  · exact List.mem_append_right _ (List.mem_cons_of_mem _ hid)
  · exact List.mem_append_left _ hid

/-- Writing a cycle from its least node rotates it. -/
theorem isRotated_nodes_canonical (ids : List String) : ids ~r (canonical ids).nodes := by
  by_cases h : ids = []
  · subst h
    exact List.IsRotated.refl _
  · obtain ⟨before, after, hsplit, hnodes, -⟩ := exists_nodes_canonical_eq h
    rw [hnodes, hsplit]
    exact List.isRotated_append

/-- Written so, it begins with its least node. -/
theorem beginsWithLeast_nodes_canonical {ids : List String} (h : ids ≠ []) :
    BeginsWithLeast (canonical ids).nodes := by
  obtain ⟨-, -, -, -, hleast⟩ := exists_nodes_canonical_eq h
  exact hleast

/-- Turning a cycle to its least id leaves a cycle. -/
theorem isElementaryCycle_nodes_canonical {g : Graph} {ids : List String}
    (h : g.IsElementaryCycle ids) : g.IsElementaryCycle (canonical ids).nodes := by
  obtain ⟨before, after, rfl, hnodes, -⟩ := exists_nodes_canonical_eq h.ne_nil
  rw [hnodes]
  exact h.append_comm

/-- The canonical form of a list without repetitions is the one of its turns that begins with the
least id. -/
theorem nodes_canonical_eq_iff {ids nodes : List String} (hnodup : ids.Nodup) (h : ids ≠ []) :
    (canonical ids).nodes = nodes ↔ nodes ~r ids ∧ BeginsWithLeast nodes := by
  constructor
  · rintro rfl
    exact ⟨(isRotated_nodes_canonical ids).symm, beginsWithLeast_nodes_canonical h⟩
  · rintro ⟨hturn, hleast⟩
    have hrotated : (canonical ids).nodes ~r nodes :=
      (isRotated_nodes_canonical ids).symm.trans hturn.symm
    refine eq_of_isRotated ?_ (beginsWithLeast_nodes_canonical h) hleast hrotated
    exact (isRotated_nodes_canonical ids).nodup_iff.1 hnodup

end Cycle

end CallGraph
