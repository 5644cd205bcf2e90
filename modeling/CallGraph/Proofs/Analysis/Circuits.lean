import CallGraph.Proofs.Analysis.Enumeration
import CallGraph.Proofs.Analysis.Unblocking

/-!
# Searching with blocked nodes

The search for the cycles through one node does not enter blocked nodes.  It misses nothing: a
blocked node that is not on the path has only blocked nodes after it, each of which it waits for,
and the start is not among them.  So no way leads from it back to the start around the path.

This is kept by each step.  In particular, what was blocked before a node is entered stays blocked
until it is left: whatever is unblocked waits for something that was blocked later.

Main results:

- Theorem `CircuitSearch.Consistent.waysBack_eq_nil`: behind a blocked node off the path nothing is
  to be found.
- Theorems `CircuitSearch.Consistent.leave_closed` and `CircuitSearch.Consistent.leave_open`:
  leaving a node keeps the search consistent, whether or not a cycle was found behind it.
- Theorem `CircuitSearch.cycles_run`: a search collects all ways back to the start.
-/

namespace CallGraph

namespace CircuitSearch

variable {next : String → List String} {start here : String} {rest : List String}

/-! ## What blocked nodes wait for -/

/-- The nodes of the path are blocked, only blocked nodes are waited for, and a blocked node off the
path waits for all nodes after it, none of which is the start. -/
structure Consistent (next : String → List String) (start : String) (path : List String)
    (search : CircuitSearch) : Prop where
  path_blocked : ∀ v ∈ path, v ∈ search.blocked
  blocked_of_waiting : ∀ pair ∈ search.waiting, pair.1 ∈ search.blocked
  waits : ∀ v ∈ search.blocked, v ∉ path →
    ∀ w ∈ next v, w ≠ start ∧ w ∈ search.blocked ∧ (w, v) ∈ search.waiting

/-- What one search has more than another: nothing that was blocked is free, nothing waits for less,
and only nodes that were free wait for more. -/
structure Extends (old new : CircuitSearch) : Prop where
  blocked : ∀ v ∈ old.blocked, v ∈ new.blocked
  waiting : ∀ pair ∈ old.waiting, pair ∈ new.waiting
  free : ∀ pair ∈ new.waiting, pair ∈ old.waiting ∨ pair.2 ∉ old.blocked

/-- A search extends itself. -/
theorem Extends.refl (search : CircuitSearch) : Extends search search where
  blocked := fun _ h => h
  waiting := fun _ h => h
  free := fun _ h => .inl h

/-- Extending goes on from search to search. -/
theorem Extends.trans {s t u : CircuitSearch} (hst : Extends s t) (htu : Extends t u) :
    Extends s u where
  blocked := fun v h => htu.blocked v (hst.blocked v h)
  waiting := fun pair h => htu.waiting pair (hst.waiting pair h)
  free := by
    intro pair hpair
    rcases htu.free pair hpair with hpair | hfree
    · exact hst.free pair hpair
    · exact .inr fun hblocked => hfree (hst.blocked _ hblocked)

/-- No way leads from a blocked node off the path back to the start around the path. -/
theorem Consistent.not_isChain {path : List String} {search : CircuitSearch}
    (hs : Consistent next start path search) {v : String} (hv : v ∈ search.blocked)
    (hoff : v ∉ path) {way : List String} (hway : ∀ w ∈ way, w ∉ path) :
    ¬ List.IsChain (fun a b => b ∈ next a) (v :: way ++ [start]) := by
  induction way generalizing v with
  | nil =>
    intro hchain
    have hstep : start ∈ next v := by simpa using hchain
    exact (hs.waits v hv hoff start hstep).1 rfl
  | cons w way ih =>
    intro hchain
    obtain ⟨hstep, hchain⟩ := List.isChain_cons_cons.1 hchain
    exact ih (hs.waits v hv hoff w hstep).2.1 (hway w (by simp))
      (fun u hu => hway u (List.mem_cons_of_mem w hu)) hchain

/-- A blocked node off the path leads to nothing: each way back would meet a node that is blocked
too. -/
theorem Consistent.waysBack_eq_nil {path : List String} {search : CircuitSearch}
    (hs : Consistent next start path search) (hstart : start ∈ path) {v : String}
    (hv : v ∈ search.blocked) (hoff : v ∉ path) (hops : Nat) :
    waysBack next start hops (v :: path) v = [] := by
  refine List.eq_nil_iff_forall_not_mem.2 fun cycle hcycle => ?_
  obtain ⟨way, -, -, -, hway, hchain⟩ :=
    (mem_waysBack_iff (List.mem_cons_of_mem v hstart)).1 hcycle
  exact hs.not_isChain hv hoff (fun w hw h => hway w hw (List.mem_cons_of_mem v h)) hchain

/-! ## Entering and leaving -/

/-- Entering a node keeps a search consistent, with the node on the path. -/
theorem Consistent.enter {search : CircuitSearch} (hs : Consistent next start rest search) :
    Consistent next start (here :: rest) (search.enter here) where
  path_blocked := by
    intro v hv
    rcases List.mem_cons.1 hv with rfl | hv
    · exact List.mem_cons_self
    · exact List.mem_cons_of_mem _ (hs.path_blocked v hv)
  blocked_of_waiting := fun pair hpair => List.mem_cons_of_mem _ (hs.blocked_of_waiting pair hpair)
  waits := by
    intro v hv hoff w hw
    rw [List.mem_cons, not_or] at hoff
    have hv : v ∈ search.blocked := (List.mem_cons.1 hv).resolve_left hoff.1
    obtain ⟨hne, hblocked, hpair⟩ := hs.waits v hv hoff.2 w hw
    exact ⟨hne, List.mem_cons_of_mem _ hblocked, hpair⟩

/-- Entering a node extends a search. -/
theorem extends_enter (search : CircuitSearch) (here : String) :
    Extends search (search.enter here) where
  blocked := fun _ h => List.mem_cons_of_mem _ h
  waiting := fun _ h => h
  free := fun _ h => .inl h

/-- Leaving a node finds no cycle. -/
@[simp]
theorem cycles_leave (search : CircuitSearch) (here : String) (after : List String)
    (closed : Bool) : (search.leave here after closed).cycles = search.cycles := by
  cases closed <;> rfl

/-- Nothing that was blocked before `here` was entered is released with it. -/
theorem not_released_of_extends {path : List String} {old new : CircuitSearch}
    (hold : Consistent next start path old) (hextends : Extends old new)
    (hfree : here ∉ old.blocked) {v : String} (hv : v ∈ old.blocked) :
    ¬ Released new.blocked new.waiting [here] v := by
  intro h
  induction h with
  | @work v hwork _ =>
    rw [List.mem_singleton] at hwork
    exact hfree (hwork ▸ hv)
  | @waiter w u _ hpair _ ih =>
    rcases hextends.free (w, u) hpair with hpair | hnew
    · exact ih (hold.blocked_of_waiting _ hpair)
    · exact hnew hv

/-- A node behind which a cycle was found is left unblocked, with what waits for it. -/
theorem Consistent.leave_closed {old new : CircuitSearch} (hold : Consistent next start rest old)
    (hnew : Consistent next start (here :: rest) new) (hextends : Extends old new)
    (hfree : here ∉ old.blocked) (after : List String) :
    Consistent next start rest (new.leave here after true) ∧
      Extends old (new.leave here after true) := by
  have hblocked : ∀ v, v ∈ (new.leave here after true).blocked ↔
      v ∈ new.blocked ∧ ¬ Released new.blocked new.waiting [here] v :=
    mem_unblockAll_iff [here] new.blocked new.waiting
  have hwaiting : ∀ pair, pair ∈ (new.leave here after true).waiting ↔
      pair ∈ new.waiting ∧ ¬ Released new.blocked new.waiting [here] pair.1 :=
    mem_waiting_unblockAll_iff [here] new.blocked new.waiting
  have hkept : ∀ v ∈ old.blocked, ¬ Released new.blocked new.waiting [here] v :=
    fun v => not_released_of_extends hold hextends hfree
  refine ⟨⟨?_, ?_, ?_⟩, ⟨?_, ?_, ?_⟩⟩
  · intro v hv
    have hv := hold.path_blocked v hv
    exact (hblocked v).2 ⟨hextends.blocked v hv, hkept v hv⟩
  · intro pair hpair
    obtain ⟨hpair, hstays⟩ := (hwaiting pair).1 hpair
    exact (hblocked pair.1).2 ⟨hnew.blocked_of_waiting pair hpair, hstays⟩
  · intro v hv hoff w hw
    obtain ⟨hbefore, hstays⟩ := (hblocked v).1 hv
    have hne : v ≠ here := by
      intro hsame
      exact hstays (.work (by simp [hsame]) hbefore)
    have hoff : v ∉ here :: rest := List.not_mem_cons_of_ne_of_not_mem hne hoff
    obtain ⟨hclosed, hw, hpair⟩ := hnew.waits v hbefore hoff w hw
    -- Were `w` released, so would be `v`, which waits for it.
    have hwstays : ¬ Released new.blocked new.waiting [here] w :=
      fun hreleased => hstays (.waiter hreleased hpair hbefore)
    exact ⟨hclosed, (hblocked w).2 ⟨hw, hwstays⟩, (hwaiting (w, v)).2 ⟨hpair, hwstays⟩⟩
  · intro v hv
    exact (hblocked v).2 ⟨hextends.blocked v hv, hkept v hv⟩
  · intro pair hpair
    exact (hwaiting pair).2
      ⟨hextends.waiting pair hpair, hkept _ (hold.blocked_of_waiting pair hpair)⟩
  · intro pair hpair
    exact hextends.free pair ((hwaiting pair).1 hpair).1

/-- A node behind which no cycle was found stays blocked and waits for all nodes after it. -/
theorem Consistent.leave_open {old new : CircuitSearch}
    (hnew : Consistent next start (here :: rest) new) (hextends : Extends old new)
    (hfree : here ∉ old.blocked)
    (hafter : ∀ w ∈ next here, w ≠ start ∧ w ∈ new.blocked) :
    Consistent next start rest (new.leave here (next here) false) ∧
      Extends old (new.leave here (next here) false) := by
  have hwaiting : ∀ pair, pair ∈ (new.leave here (next here) false).waiting ↔
      (pair.1 ∈ next here ∧ pair.2 = here) ∨ pair ∈ new.waiting := by
    rintro ⟨w, v⟩
    simp only [CircuitSearch.leave, Bool.false_eq_true, if_false, List.mem_append, List.mem_filter,
      List.mem_map, decide_eq_true_eq, Prod.mk.injEq]
    constructor
    · rintro (⟨⟨x, hx, rfl, rfl⟩, -⟩ | hpair)
      · exact .inl ⟨hx, rfl⟩
      · exact .inr hpair
    · rintro (⟨hw, rfl⟩ | hpair)
      · by_cases hold : (w, v) ∈ new.waiting
        · exact .inr hold
        · exact .inl ⟨⟨w, hw, rfl, rfl⟩, hold⟩
      · exact .inr hpair
  refine ⟨⟨?_, ?_, ?_⟩, ⟨hextends.blocked, ?_, ?_⟩⟩
  · exact fun v hv => hnew.path_blocked v (List.mem_cons_of_mem here hv)
  · intro pair hpair
    rcases (hwaiting pair).1 hpair with ⟨hw, -⟩ | hpair
    · exact (hafter _ hw).2
    · exact hnew.blocked_of_waiting pair hpair
  · intro v hv hoff w hw
    by_cases hne : v = here
    · subst hne
      obtain ⟨hclosed, hblocked⟩ := hafter w hw
      exact ⟨hclosed, hblocked, (hwaiting (w, v)).2 (.inl ⟨hw, rfl⟩)⟩
    · have hoff : v ∉ here :: rest := List.not_mem_cons_of_ne_of_not_mem hne hoff
      obtain ⟨hclosed, hblocked, hpair⟩ := hnew.waits v hv hoff w hw
      exact ⟨hclosed, hblocked, (hwaiting (w, v)).2 (.inr hpair)⟩
  · exact fun pair hpair => (hwaiting pair).2 (.inr (hextends.waiting pair hpair))
  · intro pair hpair
    rcases (hwaiting pair).1 hpair with ⟨-, hself⟩ | hpair
    · exact .inr (hself ▸ hfree)
    · exact hextends.free pair hpair

/-! ## Searching -/

/-- A search collects what was found.  Unless something had to be dropped, which ends it, it stays
consistent and extends what it began with. -/
structure Collects (next : String → List String) (start : String) (path : List String)
    (found : List (List String)) (old new : CircuitSearch) : Prop where
  cycles : new.cycles = found.foldl CycleList.add old.cycles
  consistent : new.cycles.isTruncated = false → Consistent next start path new
  extending : new.cycles.isTruncated = false → Extends old new

/-- A search that was cut off before collects nothing and claims nothing. -/
theorem Collects.of_isTruncated {path : List String} {found : List (List String)}
    {old : CircuitSearch} (h : old.cycles.isTruncated = true) :
    Collects next start path found old old where
  cycles := (CycleList.foldl_add_of_isTruncated h found).symm
  consistent := by simp [h]
  extending := by simp [h]

/-- A search that goes nowhere collects nothing. -/
theorem Collects.nothing {path : List String} {old : CircuitSearch}
    (hs : Consistent next start path old) : Collects next start path [] old old where
  cycles := rfl
  consistent := fun _ => hs
  extending := fun _ => .refl old

/-- What follows on a search in which nothing was dropped follows on one in which nothing was
dropped. -/
theorem Collects.isTruncated_eq_false {path : List String} {found : List (List String)}
    {old new : CircuitSearch} (h : Collects next start path found old new)
    (hnew : new.cycles.isTruncated = false) : old.cycles.isTruncated = false := by
  refine Bool.eq_false_iff.2 fun hold => ?_
  rw [h.cycles, CycleList.foldl_add_of_isTruncated hold, hold] at hnew
  exact Bool.noConfusion hnew

/-- What two searches collect one after the other is collected together. -/
theorem Collects.trans {path : List String} {before after : List (List String)}
    {s t u : CircuitSearch} (hst : Collects next start path before s t)
    (htu : Collects next start path after t u) :
    Collects next start path (before ++ after) s u where
  cycles := by rw [htu.cycles, hst.cycles, List.foldl_append]
  consistent := htu.consistent
  extending := fun h => (hst.extending (htu.isTruncated_eq_false h)).trans (htu.extending h)

/-- The ways back that begin by going on to `w`. -/
def waysThrough (next : String → List String) (start : String) (hops : Nat) (path : List String)
    (w : String) : List (List String) :=
  if w = start then [path.reverse]
  else if w ∈ path then []
  else waysBack next start hops (w :: path) w

/-- What is asked of a search from a node on: it collects the ways back from there, and if it says
that there are none then the node stays blocked. -/
def DescendsTo (next : String → List String) (start : String) (hops : Nat) (path : List String)
    (descend : String → CircuitSearch → CircuitSearch × Bool) (w : String) : Prop :=
  ∀ search, Consistent next start path search → w ∉ search.blocked →
    search.cycles.isTruncated = false →
    Collects next start path (waysBack next start hops (w :: path) w) search (descend w search).1 ∧
      ((descend w search).1.cycles.isTruncated = false → (descend w search).2 = false →
        w ∈ (descend w search).1.blocked)

section Steps

variable {hops : Nat} {path : List String} {descend : String → CircuitSearch → CircuitSearch × Bool}
  {search : CircuitSearch} {closed : Bool} {w : String}

/-- Nothing is tried after the search was cut off. -/
theorem tryNext_of_isTruncated (h : search.cycles.isTruncated = true) :
    tryNext start path descend (search, closed) w = (search, closed) := by
  simp [tryNext, h]

/-- Several places are not tried either. -/
theorem foldl_tryNext_of_isTruncated (places : List String)
    (h : search.cycles.isTruncated = true) :
    places.foldl (tryNext start path descend) (search, closed) = (search, closed) := by
  induction places with
  | nil => rfl
  | cons w places ih => rw [List.foldl_cons, tryNext_of_isTruncated h, ih]

/-- Trying one node collects the ways back through it. -/
theorem collects_tryNext (closed : Bool) (hstart : start ∈ path)
    (hdescend : w ∉ path → DescendsTo next start hops path descend w)
    (hs : Consistent next start path search) :
    Collects next start path (waysThrough next start hops path w) search
        (tryNext start path descend (search, closed) w).1 ∧
      ((tryNext start path descend (search, closed) w).1.cycles.isTruncated = false →
        (tryNext start path descend (search, closed) w).2 = false →
          closed = false ∧ w ≠ start ∧
            w ∈ (tryNext start path descend (search, closed) w).1.blocked) := by
  by_cases htruncated : search.cycles.isTruncated = true
  · rw [tryNext_of_isTruncated htruncated]
    exact ⟨.of_isTruncated htruncated, by simp [htruncated]⟩
  · rw [tryNext, if_neg htruncated, waysThrough]
    by_cases hclosed : w = start
    · rw [if_pos hclosed, if_pos hclosed]
      have hconsistent : Consistent next start path
          { search with cycles := search.cycles.add path.reverse } :=
        ⟨hs.path_blocked, hs.blocked_of_waiting, hs.waits⟩
      have hextends : Extends search { search with cycles := search.cycles.add path.reverse } :=
        ⟨fun _ h => h, fun _ h => h, fun _ h => .inl h⟩
      exact ⟨⟨rfl, fun _ => hconsistent, fun _ => hextends⟩, by simp⟩
    · rw [if_neg hclosed, if_neg hclosed]
      by_cases hblocked : w ∈ search.blocked
      · rw [if_pos hblocked]
        have hnothing : (if w ∈ path then [] else waysBack next start hops (w :: path) w) = [] := by
          split
          · rfl
          · rename_i hoff
            exact hs.waysBack_eq_nil hstart hblocked hoff hops
        rw [hnothing]
        exact ⟨.nothing hs, fun _ hopen => ⟨hopen, hclosed, hblocked⟩⟩
      · have hoff : w ∉ path := fun h => hblocked (hs.path_blocked w h)
        obtain ⟨hcollects, hdead⟩ :=
          hdescend hoff search hs hblocked (Bool.eq_false_iff.2 htruncated)
        rw [if_neg hblocked, if_neg hoff]
        refine ⟨hcollects, fun hnew hopen => ?_⟩
        obtain ⟨hbefore, hbehind⟩ : closed = false ∧ (descend w search).2 = false := by
          simpa using hopen
        exact ⟨hbefore, hclosed, hdead hnew hbehind⟩

/-- Trying nodes one after the other collects the ways back through all of them. -/
theorem collects_foldl_tryNext (closed : Bool) {places : List String} (hstart : start ∈ path)
    (hdescend : ∀ w ∈ places, w ∉ path → DescendsTo next start hops path descend w)
    (hs : Consistent next start path search) :
    Collects next start path (places.flatMap (waysThrough next start hops path)) search
        (places.foldl (tryNext start path descend) (search, closed)).1 ∧
      ((places.foldl (tryNext start path descend) (search, closed)).1.cycles.isTruncated = false →
        (places.foldl (tryNext start path descend) (search, closed)).2 = false →
          closed = false ∧ ∀ w ∈ places, w ≠ start ∧
            w ∈ (places.foldl (tryNext start path descend) (search, closed)).1.blocked) := by
  induction places generalizing search closed with
  | nil => exact ⟨.nothing hs, fun _ hopen => ⟨hopen, by simp⟩⟩
  | cons w places ih =>
    rw [List.foldl_cons, List.flatMap_cons]
    obtain ⟨hfirst, hdead⟩ := collects_tryNext closed hstart (hdescend w (by simp)) hs
    generalize tryNext start path descend (search, closed) w = state at hfirst hdead ⊢
    obtain ⟨search', closed'⟩ := state
    by_cases htruncated : search'.cycles.isTruncated = true
    · rw [foldl_tryNext_of_isTruncated places htruncated]
      exact ⟨hfirst.trans (.of_isTruncated htruncated), by simp [htruncated]⟩
    · have hnot : search'.cycles.isTruncated = false := Bool.eq_false_iff.2 htruncated
      obtain ⟨hrest, hdeads⟩ := ih closed'
        (fun v hv => hdescend v (List.mem_cons_of_mem w hv)) (hfirst.consistent hnot)
      refine ⟨hfirst.trans hrest, fun hnew hopen => ?_⟩
      obtain ⟨hopen', hplaces⟩ := hdeads hnew hopen
      obtain ⟨hbefore, hne, hblocked⟩ := hdead hnot hopen'
      refine ⟨hbefore, fun v hv => ?_⟩
      rcases List.mem_cons.1 hv with rfl | hv
      · exact ⟨hne, (hrest.extending hnew).blocked v hblocked⟩
      · exact hplaces v hv

end Steps

/-- A search from the last node of a path collects all ways from there back to the start.  It may
add as many nodes as there are members that the path has not met. -/
theorem collects_run {members : List String} (hnext : ∀ x, ∀ y ∈ next x, y ∈ members)
    {depth : Nat} {search : CircuitSearch} (hstart : start ∈ here :: rest)
    (hnodup : (here :: rest).Nodup) (hmembers : ∀ v ∈ here :: rest, v ∈ members)
    (hdepth : depth + rest.length = members.length) (hs : Consistent next start rest search)
    (hfree : here ∉ search.blocked) :
    Collects next start rest (waysBack next start depth (here :: rest) here) search
        (run next start depth (here :: rest) here search).1 ∧
      ((run next start depth (here :: rest) here search).1.cycles.isTruncated = false →
        (run next start depth (here :: rest) here search).2 = false →
          here ∈ (run next start depth (here :: rest) here search).1.blocked) := by
  induction depth generalizing here rest search with
  | zero =>
    -- A path without repetitions has no more nodes than there are members.
    have hlength := List.Nodup.length_le_of_subset hnodup hmembers
    simp only [List.length_cons] at hlength
    omega
  | succ depth ih =>
    have hdescend : ∀ w ∈ next here, w ∉ here :: rest → DescendsTo next start depth (here :: rest)
        (fun w => run next start depth (w :: here :: rest) w) w := by
      intro w hw hoff search hs hfree _
      refine ih (List.mem_cons_of_mem w hstart) (List.nodup_cons.2 ⟨hoff, hnodup⟩) ?_ ?_ hs hfree
      · intro v hv
        rcases List.mem_cons.1 hv with rfl | hv
        · exact hnext here v hw
        · exact hmembers v hv
      · simp only [List.length_cons]
        omega
    obtain ⟨hfound, hdead⟩ :=
      collects_foldl_tryNext false hstart hdescend hs.enter
    rw [run]
    generalize hresult : (next here).foldl (tryNext start (here :: rest)
      fun w => run next start depth (w :: here :: rest) w) (search.enter here, false) = result
    rw [hresult] at hfound hdead
    obtain ⟨new, closed⟩ := result
    have hcycles : new.cycles =
        (waysBack next start (depth + 1) (here :: rest) here).foldl CycleList.add search.cycles :=
      hfound.cycles
    have hleft : new.cycles.isTruncated = false →
        Consistent next start rest (new.leave here (next here) closed) ∧
          Extends search (new.leave here (next here) closed) := by
      intro hnot
      have hextends := (extends_enter search here).trans (hfound.extending hnot)
      cases closed with
      | true => exact hs.leave_closed (hfound.consistent hnot) hextends hfree (next here)
      | false =>
        exact (hfound.consistent hnot).leave_open hextends hfree (hdead hnot rfl).2
    refine ⟨⟨?_, ?_, ?_⟩, ?_⟩
    · simpa using hcycles
    · exact fun hnot => (hleft (by simpa using hnot)).1
    · exact fun hnot => (hleft (by simpa using hnot)).2
    · intro hnot hopen
      simp only [cycles_leave] at hnot hopen
      subst hopen
      exact (hfound.extending hnot).blocked here List.mem_cons_self

/-- A search for the cycles through one node collects them all. -/
theorem cycles_run {members : List String} (hnext : ∀ x, ∀ y ∈ next x, y ∈ members)
    (hstart : start ∈ members) (cycles : CycleList) :
    (run next start members.length [start] start ⟨[], [], cycles⟩).1.cycles =
      (waysBack next start members.length [start] start).foldl CycleList.add cycles := by
  have hempty : Consistent next start [] ⟨[], [], cycles⟩ := ⟨by simp, by simp, by simp⟩
  exact (collects_run hnext (by simp) (by simp) (by simpa using hstart) (by simp) hempty
    (by simp)).1.cycles

end CircuitSearch

end CallGraph
