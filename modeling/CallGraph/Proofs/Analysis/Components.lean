import CallGraph.Analysis.Components
import CallGraph.Proofs.Analysis.Reachability
import Mathlib.Data.List.Basic

/-!
# Dividing nodes into classes

Components are found by going through the nodes in some order and opening a new class for each node
that lies in none of the classes found so far.  Nothing is lost and no two classes share a node,
whatever the order, as long as each node lies in its own class and classes that meet are the same.

Main results:

- Theorem `mem_leavingOrder_iff`: a depth-first search leaves each member.
- Theorems `exists_mem_classes` and `pairwise_disjoint_classes`: classes cover the members and are
  disjoint.
- Theorem `mem_strongClass_iff`: the strong class of a node consists of the nodes that it reaches
  and that reach it.
-/

namespace CallGraph

variable {α : Type}

/-! ## What a depth-first search leaves -/

/-- What a search has done from one state to another: it goes on, leaves what it enters, and stays
inside a list. -/
structure DepthFirst.GoesOn (M : List α) (s t : DepthFirst α) : Prop where
  entered_subset : s.entered ⊆ t.entered
  left_subset : s.left ⊆ t.left
  left_of_entered : ∀ x ∈ t.entered, x ∈ s.entered ∨ x ∈ t.left
  mem_of_left : ∀ x ∈ t.left, x ∈ s.left ∨ x ∈ M

namespace DepthFirst

variable {M : List α}

/-- A search that does nothing goes on from itself. -/
theorem GoesOn.refl (s : DepthFirst α) : GoesOn M s s where
  entered_subset := List.Subset.refl _
  left_subset := List.Subset.refl _
  left_of_entered := fun _ h => .inl h
  mem_of_left := fun _ h => .inl h

/-- Going on is going on from search to search. -/
theorem GoesOn.trans {s t u : DepthFirst α} (hst : GoesOn M s t) (htu : GoesOn M t u) :
    GoesOn M s u where
  entered_subset := List.Subset.trans hst.entered_subset htu.entered_subset
  left_subset := List.Subset.trans hst.left_subset htu.left_subset
  left_of_entered := by
    intro x hx
    rcases htu.left_of_entered x hx with hx | hx
    · exact (hst.left_of_entered x hx).imp_right fun h => htu.left_subset h
    · exact .inr hx
  mem_of_left := by
    intro x hx
    rcases htu.mem_of_left x hx with hx | hx
    · exact hst.mem_of_left x hx
    · exact .inr hx

/-- Steps that go on make a fold that goes on. -/
theorem GoesOn.foldl {step : DepthFirst α → α → DepthFirst α} {members : List α}
    (hstep : ∀ v ∈ members, ∀ s, GoesOn M s (step s v)) (s : DepthFirst α) :
    GoesOn M s (members.foldl step s) := by
  induction members generalizing s with
  | nil => exact .refl s
  | cons v rest ih =>
    exact (hstep v (by simp) s).trans (ih (fun w hw => hstep w (List.mem_cons_of_mem _ hw)) _)

variable [BEq α] {next : α → List α}

/-- Visiting a node goes on among the members, by induction on the depth that is left. -/
theorem goesOn_visit (hnext : ∀ x, ∀ y ∈ next x, y ∈ M) (depth : Nat) {v : α} (hv : v ∈ M)
    (s : DepthFirst α) : GoesOn M s (visit next depth v s) := by
  induction depth generalizing v s with
  | zero => exact .refl s
  | succ depth ih =>
    rw [visit]
    split
    · exact .refl s
    · have hbehind : GoesOn M { s with entered := v :: s.entered } ((next v).foldl
          (fun search w => visit next depth w search) { s with entered := v :: s.entered }) :=
        .foldl (fun w hw t => ih (hnext v w hw) t) _
      refine ⟨?_, ?_, ?_, ?_⟩
      · intro x hx
        exact hbehind.entered_subset (List.mem_cons_of_mem v hx)
      · intro x hx
        exact List.mem_cons_of_mem v (hbehind.left_subset hx)
      · intro x hx
        rcases hbehind.left_of_entered x hx with hx | hx
        · rcases List.mem_cons.1 hx with rfl | hx
          · exact .inr (by simp)
          · exact .inl hx
        · exact .inr (List.mem_cons_of_mem v hx)
      · intro x hx
        rcases List.mem_cons.1 hx with rfl | hx
        · exact .inr hv
        · exact hbehind.mem_of_left x hx

/-- A node that is visited is entered. -/
theorem mem_entered_visit [LawfulBEq α] (hnext : ∀ x, ∀ y ∈ next x, y ∈ M) {depth : Nat}
    (hdepth : 0 < depth) {v : α} (s : DepthFirst α) : v ∈ (visit next depth v s).entered := by
  cases depth with
  | zero => omega
  | succ depth =>
    rw [visit]
    split
    · rename_i h
      simpa using h
    · have hbehind : GoesOn M { s with entered := v :: s.entered } ((next v).foldl
          (fun search w => visit next depth w search) { s with entered := v :: s.entered }) :=
        .foldl (fun w hw t => goesOn_visit hnext depth (hnext v w hw) t) _
      exact hbehind.entered_subset (by simp)

end DepthFirst

variable [BEq α] [LawfulBEq α] {next back : α → List α} {members : List α}

/-- A depth-first search that stays among the members leaves each of them. -/
theorem mem_leavingOrder_iff (hnext : ∀ x, ∀ y ∈ next x, y ∈ members) {v : α} :
    v ∈ leavingOrder next members ↔ v ∈ members := by
  have hall : ∀ rest ⊆ members, ∀ s : DepthFirst α, DepthFirst.GoesOn members s
      (rest.foldl (fun search v => DepthFirst.visit next members.length v search) s) :=
    fun rest hrest => DepthFirst.GoesOn.foldl
      fun w hw => DepthFirst.goesOn_visit hnext members.length (hrest hw)
  have htotal := hall members (List.Subset.refl _) ⟨[], []⟩
  constructor
  · intro hv
    exact (htotal.mem_of_left v hv).resolve_left (by simp)
  · intro hv
    obtain ⟨before, after, hsplit⟩ := List.append_of_mem hv
    have hentered : v ∈ (members.foldl
        (fun search v => DepthFirst.visit next members.length v search) ⟨[], []⟩).entered := by
      have hafter : after ⊆ members := by
        rw [hsplit]
        intro x hx
        simp [hx]
      have hpositive : 0 < members.length := List.length_pos_of_mem hv
      generalize hdepth : members.length = depth at *
      rw [hsplit, List.foldl_append, List.foldl_cons]
      refine (hall after hafter _).entered_subset ?_
      exact DepthFirst.mem_entered_visit hnext hpositive _
    exact (htotal.left_of_entered v hentered).resolve_left (by simp)

/-! ## Classes -/

omit [LawfulBEq α] in
/-- A class that was found is kept. -/
theorem mem_foldl_openClass_of_mem {classOf : α → List α} {found : List (List α)} {order : List α}
    {c : List α} (h : c ∈ found) : c ∈ order.foldl (openClass classOf) found := by
  induction order generalizing found with
  | nil => exact h
  | cons v rest ih =>
    refine ih ?_
    rw [openClass]
    split
    · exact h
    · exact List.mem_append_left _ h

omit [LawfulBEq α] in
/-- Every class that is opened is the class of a member. -/
theorem exists_eq_of_mem_foldl_openClass {classOf : α → List α} {found : List (List α)}
    {order : List α} {c : List α} (h : c ∈ order.foldl (openClass classOf) found) :
    c ∈ found ∨ ∃ v ∈ order, c = classOf v := by
  induction order generalizing found with
  | nil => exact .inl h
  | cons v rest ih =>
    rcases ih h with hc | ⟨w, hw, hc⟩
    · rw [openClass] at hc
      split at hc
      · exact .inl hc
      · rcases List.mem_append.1 hc with hc | hc
        · exact .inl hc
        · exact .inr ⟨v, by simp, by simpa using hc⟩
    · exact .inr ⟨w, List.mem_cons_of_mem _ hw, hc⟩

/-- A class that is opened for a node shares nothing with the classes found before, if classes that
do not contain a node share nothing with its class. -/
theorem pairwise_disjoint_foldl_openClass {classOf : α → List α} {found : List (List α)}
    {order : List α}
    (hdisjoint : ∀ u ∈ members, ∀ v ∈ members, v ∉ classOf u →
      List.Disjoint (classOf u) (classOf v))
    (horder : ∀ v ∈ order, v ∈ members) (hclass : ∀ c ∈ found, ∃ u ∈ members, c = classOf u)
    (hfound : found.Pairwise List.Disjoint) :
    (order.foldl (openClass classOf) found).Pairwise List.Disjoint := by
  induction order generalizing found with
  | nil => exact hfound
  | cons v rest ih =>
    have hv : v ∈ members := horder v (by simp)
    refine ih (fun w hw => horder w (List.mem_cons_of_mem _ hw)) ?_ ?_
    · intro c hc
      rw [openClass] at hc
      split at hc
      · exact hclass c hc
      · rcases List.mem_append.1 hc with hc | hc
        · exact hclass c hc
        · exact ⟨v, hv, by simpa using hc⟩
    · rw [openClass]
      split
      · exact hfound
      · rename_i hnew
        refine List.pairwise_append.2 ⟨hfound, List.pairwise_singleton _ _, ?_⟩
        intro c hc d hd
        obtain rfl : d = classOf v := by simpa using hd
        obtain ⟨u, hu, rfl⟩ := hclass c hc
        refine hdisjoint u hu v hv fun hmem => hnew ?_
        simpa using ⟨classOf u, hc, hmem⟩

/-- No two classes that are opened have a member in common. -/
theorem pairwise_disjoint_classes {classOf : α → List α} {order : List α}
    (hdisjoint : ∀ u ∈ members, ∀ v ∈ members, v ∉ classOf u →
      List.Disjoint (classOf u) (classOf v))
    (horder : ∀ v ∈ order, v ∈ members) :
    (classes classOf order).Pairwise List.Disjoint :=
  pairwise_disjoint_foldl_openClass hdisjoint horder (by simp) .nil

/-- Classes cover the nodes they are opened for, if each node lies in its own class. -/
theorem exists_mem_classes {classOf : α → List α} {order : List α} {v : α} (hv : v ∈ order)
    (hself : v ∈ classOf v) : ∃ c ∈ classes classOf order, v ∈ c := by
  obtain ⟨before, after, rfl⟩ := List.append_of_mem hv
  rw [classes, List.foldl_append, List.foldl_cons]
  generalize before.foldl (openClass classOf) [] = found
  have hopen : ∃ c ∈ openClass classOf found v, v ∈ c := by
    rw [openClass]
    split
    · rename_i hold
      simpa using hold
    · exact ⟨classOf v, by simp, hself⟩
  obtain ⟨c, hc, hmem⟩ := hopen
  exact ⟨c, mem_foldl_openClass_of_mem hc, hmem⟩

/-! ## Strong classes -/

omit [BEq α] [LawfulBEq α] in
/-- What is reached from a member is a member. -/
theorem mem_of_reflTransGen (hnext : ∀ x, ∀ y ∈ next x, y ∈ members) {a b : α} (ha : a ∈ members)
    (h : Relation.ReflTransGen (fun x y => y ∈ next x) a b) : b ∈ members := by
  cases h with
  | refl => exact ha
  | tail _ hstep => exact hnext _ _ hstep

omit [BEq α] [LawfulBEq α] in
/-- What is reached along steps of one kind reaches back along steps that undo them. -/
theorem reflTransGen_undo (hnext : ∀ x, ∀ y ∈ next x, y ∈ members)
    (hundo : ∀ x ∈ members, ∀ y ∈ members, x ≠ y → y ∈ next x → x ∈ back y) {a b : α}
    (ha : a ∈ members) (h : Relation.ReflTransGen (fun x y => y ∈ next x) a b) :
    Relation.ReflTransGen (fun x y => y ∈ back x) b a := by
  induction h with
  | refl => exact .refl
  | @tail b c hway hstep ih =>
    by_cases hsame : b = c
    · exact hsame ▸ ih
    · have hb := mem_of_reflTransGen hnext ha hway
      exact .head (hundo b hb c (hnext b c hstep) hsame hstep) ih

/-- The strong class of a node consists of the members that it reaches and that reach it. -/
theorem mem_strongClass_iff (hnext : ∀ x, ∀ y ∈ next x, y ∈ members)
    (hback : ∀ x, ∀ y ∈ back x, y ∈ members)
    (hundo : ∀ x ∈ members, ∀ y ∈ members, x ≠ y → (y ∈ next x ↔ x ∈ back y)) {v w : α}
    (hv : v ∈ members) :
    w ∈ strongClass next back members v ↔ w ∈ members ∧
      Relation.ReflTransGen (fun x y => y ∈ next x) v w ∧
        Relation.ReflTransGen (fun x y => y ∈ next x) w v := by
  simp only [strongClass, List.mem_filter, Bool.and_eq_true, List.contains_iff_mem,
    mem_reach_iff_reflTransGen hnext hv, mem_reach_iff_reflTransGen hback hv]
  constructor
  · rintro ⟨hw, hforth, hhome⟩
    refine ⟨hw, hforth, reflTransGen_undo hback ?_ hv hhome⟩
    exact fun x hx y hy hne hstep => (hundo y hy x hx hne.symm).2 hstep
  · rintro ⟨hw, hforth, hhome⟩
    refine ⟨hw, hforth, reflTransGen_undo hnext ?_ hw hhome⟩
    exact fun x hx y hy hne hstep => (hundo x hx y hy hne).1 hstep

/-- Strong classes do not depend on the order in which the steps are listed. -/
theorem strongClass_congr {next' back' : α → List α} (hnext : ∀ x y, y ∈ next x ↔ y ∈ next' x)
    (hback : ∀ x y, y ∈ back x ↔ y ∈ back' x) (members : List α) (v : α) :
    strongClass next back members v = strongClass next' back' members v := by
  refine List.filter_congr fun w _ => ?_
  rw [contains_reach_eq hnext, contains_reach_eq hback]

/-- Strong classes that do not contain a node share nothing with its class. -/
theorem disjoint_strongClass (hnext : ∀ x, ∀ y ∈ next x, y ∈ members)
    (hback : ∀ x, ∀ y ∈ back x, y ∈ members)
    (hundo : ∀ x ∈ members, ∀ y ∈ members, x ≠ y → (y ∈ next x ↔ x ∈ back y)) {u v : α}
    (hu : u ∈ members) (hv : v ∈ members) (h : v ∉ strongClass next back members u) :
    List.Disjoint (strongClass next back members u) (strongClass next back members v) := by
  intro w hwu hwv
  obtain ⟨-, huw, hwu⟩ := (mem_strongClass_iff hnext hback hundo hu).1 hwu
  obtain ⟨-, hvw, hwv⟩ := (mem_strongClass_iff hnext hback hundo hv).1 hwv
  exact h ((mem_strongClass_iff hnext hback hundo hu).2 ⟨hv, huw.trans hwv, hvw.trans hwu⟩)

end CallGraph
