import CallGraph.Analysis.Cycles
import Mathlib.Tactic.Common

/-!
# Unblocking

A node that is unblocked unblocks the blocked nodes that wait for it, and these the ones that wait
for them.  Nothing else is unblocked, and only the pairs of unblocked nodes are removed.

Main results:

- Theorem `mem_unblockAll_iff`: which nodes stay blocked.
- Theorem `mem_waiting_unblockAll_iff`: which pairs stay.
-/

namespace CallGraph

variable {α : Type}

/-- The nodes that are unblocked with those in `work`: the blocked ones among them, and the blocked
nodes that wait for one that is unblocked. -/
inductive Released (blocked : List α) (waiting : List (α × α)) (work : List α) : α → Prop
  | work {v : α} : v ∈ work → v ∈ blocked → Released blocked waiting work v
  | waiter {w u : α} : Released blocked waiting work w → (w, u) ∈ waiting → u ∈ blocked →
      Released blocked waiting work u

variable {blocked work : List α} {waiting : List (α × α)} {v x : α}

theorem not_released_nil : ¬ Released blocked waiting [] x := by
  intro h
  induction h with
  | work hu _ => simp at hu
  | waiter _ _ _ ih => exact ih

/-- A node that is not blocked releases nothing. -/
theorem released_cons_of_not_mem (hv : v ∉ blocked) :
    Released blocked waiting (v :: work) x ↔ Released blocked waiting work x := by
  constructor
  · intro h
    induction h with
    | @work u hu hblocked =>
      rcases List.mem_cons.1 hu with rfl | hu
      · exact absurd hblocked hv
      · exact .work hu hblocked
    | waiter _ hpair hblocked ih => exact .waiter ih hpair hblocked
  · intro h
    induction h with
    | work hu hblocked => exact .work (List.mem_cons_of_mem _ hu) hblocked
    | waiter _ hpair hblocked ih => exact .waiter ih hpair hblocked

variable [DecidableEq α]

theorem mem_waitersOf_iff : x ∈ waitersOf v waiting ↔ (v, x) ∈ waiting := by
  simp only [waitersOf, List.mem_map, List.mem_filter, decide_eq_true_eq]
  constructor
  · rintro ⟨⟨_, _⟩, ⟨hpair, rfl⟩, rfl⟩
    exact hpair
  · intro hpair
    exact ⟨(v, x), ⟨hpair, rfl⟩, rfl⟩

theorem mem_waitingElsewhere_iff {pair : α × α} :
    pair ∈ waitingElsewhere v waiting ↔ pair ∈ waiting ∧ pair.1 ≠ v := by
  simp [waitingElsewhere]

theorem mem_blockedElsewhere_iff : x ∈ blockedElsewhere v blocked ↔ x ∈ blocked ∧ x ≠ v := by
  simp [blockedElsewhere]

/-- A blocked node releases itself, and what is released once the nodes that wait for it are work
to do. -/
theorem released_cons_of_mem (hv : v ∈ blocked) :
    Released blocked waiting (v :: work) x ↔ x = v ∨
      Released (blockedElsewhere v blocked) (waitingElsewhere v waiting)
        (waitersOf v waiting ++ work) x := by
  constructor
  · intro h
    induction h with
    | @work u hu hblocked =>
      by_cases hne : u = v
      · exact .inl hne
      · have hstays : u ∈ blockedElsewhere v blocked := mem_blockedElsewhere_iff.2 ⟨hblocked, hne⟩
        have hwork : u ∈ work := (List.mem_cons.1 hu).resolve_left hne
        exact .inr (.work (List.mem_append_right _ hwork) hstays)
    | @waiter w u _ hpair hblocked ih =>
      by_cases hne : u = v
      · exact .inl hne
      · have hstays : u ∈ blockedElsewhere v blocked := mem_blockedElsewhere_iff.2 ⟨hblocked, hne⟩
        by_cases hw : w = v
        · have hwaits : u ∈ waitersOf v waiting := mem_waitersOf_iff.2 (hw ▸ hpair)
          exact .inr (.work (List.mem_append_left _ hwaits) hstays)
        · have helsewhere : (w, u) ∈ waitingElsewhere v waiting :=
            mem_waitingElsewhere_iff.2 ⟨hpair, hw⟩
          exact .inr (.waiter (ih.resolve_left hw) helsewhere hstays)
  · rintro (rfl | h)
    · exact .work (by simp) hv
    · induction h with
      | @work u hu hblocked =>
        have hblocked : u ∈ blocked := (mem_blockedElsewhere_iff.1 hblocked).1
        rcases List.mem_append.1 hu with hu | hu
        · exact .waiter (.work (by simp) hv) (mem_waitersOf_iff.1 hu) hblocked
        · exact .work (List.mem_cons_of_mem _ hu) hblocked
      | waiter _ hpair hblocked ih =>
        exact .waiter ih (mem_waitingElsewhere_iff.1 hpair).1
          (mem_blockedElsewhere_iff.1 hblocked).1

/-- A node stays blocked unless it is released. -/
theorem mem_unblockAll_iff (work blocked : List α) (waiting : List (α × α)) (x : α) :
    x ∈ (unblockAll work blocked waiting).1 ↔
      x ∈ blocked ∧ ¬ Released blocked waiting work x := by
  induction work, blocked, waiting using unblockAll.induct with
  | case1 blocked waiting =>
    simp [unblockAll, not_released_nil]
  | case2 blocked waiting v work hv ih =>
    rw [unblockAll, if_pos hv, ih, released_cons_of_mem hv, mem_blockedElsewhere_iff]
    tauto
  | case3 blocked waiting v work hv ih =>
    rw [unblockAll, if_neg hv, ih, released_cons_of_not_mem hv]

/-- A pair stays unless the node that is waited for is released. -/
theorem mem_waiting_unblockAll_iff (work blocked : List α) (waiting : List (α × α))
    (pair : α × α) :
    pair ∈ (unblockAll work blocked waiting).2 ↔
      pair ∈ waiting ∧ ¬ Released blocked waiting work pair.1 := by
  induction work, blocked, waiting using unblockAll.induct with
  | case1 blocked waiting =>
    simp [unblockAll, not_released_nil]
  | case2 blocked waiting v work hv ih =>
    rw [unblockAll, if_pos hv, ih, released_cons_of_mem hv, mem_waitingElsewhere_iff]
    tauto
  | case3 blocked waiting v work hv ih =>
    rw [unblockAll, if_neg hv, ih, released_cons_of_not_mem hv]

end CallGraph
