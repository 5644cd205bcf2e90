import CallGraph.Proofs.Analysis.Unblocking
import Mathlib.Data.List.Chain
import Mathlib.Data.List.Induction

/-!
# Unblocking in any order

The nodes that wait for a node are a set, which is drained in no particular order.  Unblocking is
seen here as a loop, one round for each node that is looked at, in which every set may be drained in
any order.  The rounds are counted by the nodes and pairs that are left, so that every run ends; and
what is unblocked depends on the work to do as a set only, so that all runs end alike.

What is unblocked is told by chains of blocked nodes, each of which waits for the one before it.
The pairs may lead in circles.

Main results:

- Theorem `released_singleton_iff`: what is released with a node is at the ends of chains.
- Theorem `Unblocking.Run.add_remaining`: how many rounds a run can have.
- Theorem `Unblocking.Run.outcome_eq`: all runs come to the same.
- Theorem `unblock_in_any_order`: what unblocking comes to, whatever the order.
-/

namespace CallGraph

variable {α : Type} {blocked work other : List α} {waiting : List (α × α)} {v x : α}

/-! ## Chains -/

/-- A chain of blocked nodes from `v` to `x`, each of which waits for the one before it. -/
structure IsWaitingChain (blocked : List α) (waiting : List (α × α)) (v x : α) (chain : List α) :
    Prop where
  head : chain.head? = some v
  last : chain.getLast? = some x
  blocked : ∀ u ∈ chain, u ∈ blocked
  waits : chain.IsChain fun w u => (w, u) ∈ waiting

namespace IsWaitingChain

/-- A node that is blocked is a chain by itself. -/
theorem singleton (hv : v ∈ blocked) : IsWaitingChain blocked waiting v v [v] where
  head := rfl
  last := rfl
  blocked := by simpa using hv
  waits := List.isChain_singleton v

/-- A chain is made longer by a blocked node that waits for its last one. -/
theorem append {w u : α} {chain : List α} (h : IsWaitingChain blocked waiting v w chain)
    (hpair : (w, u) ∈ waiting) (hu : u ∈ blocked) :
    IsWaitingChain blocked waiting v u (chain ++ [u]) where
  head := by rw [List.head?_append, h.head, Option.some_or]
  last := List.getLast?_concat
  blocked := by
    intro y hy
    rcases List.mem_append.1 hy with hy | hy
    · exact h.blocked y hy
    · rwa [List.mem_singleton.1 hy]
  waits := by
    refine List.isChain_append.2 ⟨h.waits, List.isChain_singleton u, ?_⟩
    simp only [h.last, List.head?_cons, Option.mem_some_iff]
    rintro y rfl z rfl
    exact hpair

/-- What is at the end of a chain is released with the node at its head. -/
theorem released {chain : List α} (h : IsWaitingChain blocked waiting v x chain) :
    Released blocked waiting [v] x := by
  -- The chain is taken apart from its end, where the last node waits for the one before it.
  induction chain using List.reverseRecOn generalizing x with
  | nil => cases h.head
  | append_singleton before u ih =>
    obtain rfl : u = x := Option.some.inj (List.getLast?_concat.symm.trans h.last)
    have hu : u ∈ blocked := h.blocked u (by simp)
    cases hlast : before.getLast? with
    | none =>
      obtain rfl : before = [] := List.getLast?_eq_none_iff.1 hlast
      obtain rfl : u = v := Option.some.inj h.head
      exact .work (List.mem_singleton_self _) hu
    | some w =>
      obtain ⟨hwaits, -, hpair⟩ := List.isChain_append.1 h.waits
      have hhead : before.head? = some v := by
        have hne : before ≠ [] := by
          rintro rfl
          cases hlast
        rw [← List.head?_append_of_ne_nil before hne, h.head]
      have hbefore : IsWaitingChain blocked waiting v w before :=
        ⟨hhead, hlast, fun y hy => h.blocked y (List.mem_append_left _ hy), hwaits⟩
      exact .waiter (ih hbefore) (hpair w hlast u rfl) hu

end IsWaitingChain

/-- What is released with a node is what a chain of waiting nodes leads to. -/
theorem released_singleton_iff :
    Released blocked waiting [v] x ↔ ∃ chain, IsWaitingChain blocked waiting v x chain := by
  constructor
  · intro h
    induction h with
    | work hu hblocked =>
      obtain rfl := List.mem_singleton.1 hu
      exact ⟨_, .singleton hblocked⟩
    | waiter _ hpair hblocked ih =>
      obtain ⟨chain, hchain⟩ := ih
      exact ⟨_, hchain.append hpair hblocked⟩
  · rintro ⟨chain, hchain⟩
    exact hchain.released

/-! ## Work as a set -/

/-- Only blocked nodes are released. -/
theorem mem_of_released (h : Released blocked waiting work x) : x ∈ blocked := by
  cases h with
  | work _ hblocked => exact hblocked
  | waiter _ _ hblocked => exact hblocked

/-- What is released depends on the work to do as a set only. -/
theorem released_congr (h : ∀ x, x ∈ work ↔ x ∈ other) :
    Released blocked waiting work x ↔ Released blocked waiting other x := by
  have hmono {first second : List α} (h : ∀ x, x ∈ first → x ∈ second)
      (hx : Released blocked waiting first x) : Released blocked waiting second x := by
    induction hx with
    | work hu hblocked => exact .work (h _ hu) hblocked
    | waiter _ hpair hblocked ih => exact .waiter ih hpair hblocked
  exact ⟨hmono fun x => (h x).1, hmono fun x => (h x).2⟩

variable [DecidableEq α]

open Classical in
/-- Unblocking takes out what is released, and leaves the rest in its order. -/
theorem unblockAll_eq_filter (work blocked : List α) (waiting : List (α × α)) :
    unblockAll work blocked waiting =
      (blocked.filter fun x => ¬ Released blocked waiting work x,
        waiting.filter fun pair => ¬ Released blocked waiting work pair.1) := by
  induction work, blocked, waiting using unblockAll.induct with
  | case1 blocked waiting => simp [unblockAll, not_released_nil]
  | case2 blocked waiting v work hv ih =>
    rw [unblockAll, if_pos hv, ih]
    simp [released_cons_of_mem hv, blockedElsewhere, waitingElsewhere, List.filter_filter,
      Bool.and_comm]
  | case3 blocked waiting v work hv ih =>
    rw [unblockAll, if_neg hv, ih]
    simp only [released_cons_of_not_mem hv]

/-- The order of the work does not matter. -/
theorem unblockAll_congr (h : ∀ x, x ∈ work ↔ x ∈ other) (blocked : List α)
    (waiting : List (α × α)) :
    unblockAll work blocked waiting = unblockAll other blocked waiting := by
  have hreleased (x : α) :
      Released blocked waiting work x = Released blocked waiting other x :=
    propext (released_congr h)
  rw [unblockAll_eq_filter, unblockAll_eq_filter, funext hreleased]

/-- The pairs of a node that is released are removed, and all other pairs stay. -/
theorem waitersOf_unblockAll (work blocked : List α) (waiting : List (α × α)) (x : α) :
    (Released blocked waiting work x → waitersOf x (unblockAll work blocked waiting).2 = []) ∧
      (¬ Released blocked waiting work x →
        waitersOf x (unblockAll work blocked waiting).2 = waitersOf x waiting) := by
  rw [unblockAll_eq_filter]
  simp only [waitersOf, List.filter_filter]
  constructor
  · intro hx
    rw [List.map_eq_nil_iff, List.filter_eq_nil_iff]
    rintro ⟨w, u⟩ -
    simp only [Bool.and_eq_true, decide_eq_true_eq, not_and, not_not]
    rintro rfl
    exact hx
  · intro hx
    congr 1
    refine List.filter_congr fun pair _ => ?_
    by_cases hpair : pair.1 = x
    · simp [hpair, hx]
    · simp [hpair]

/-! ## Rounds -/

/-- Where unblocking stands: the nodes to look at, the blocked nodes, and who waits for whom. -/
structure Unblocking (α : Type) where
  work : List α
  blocked : List α
  waiting : List (α × α)

namespace Unblocking

/-- One round of the loop.  The next node is looked at; if it is blocked, the nodes that wait for it
are drained in any order, to be looked at next. -/
inductive Round : Unblocking α → Unblocking α → Prop
  | skip {v : α} {work blocked : List α} {waiting : List (α × α)} (hv : v ∉ blocked) :
      Round ⟨v :: work, blocked, waiting⟩ ⟨work, blocked, waiting⟩
  | release {v : α} {work blocked drained : List α} {waiting : List (α × α)} (hv : v ∈ blocked)
      (hdrained : drained.Perm (waitersOf v waiting)) :
      Round ⟨v :: work, blocked, waiting⟩
        ⟨drained ++ work, blockedElsewhere v blocked, waitingElsewhere v waiting⟩

/-- So many rounds, one after the other. -/
inductive Run : Nat → Unblocking α → Unblocking α → Prop
  | nil (s : Unblocking α) : Run 0 s s
  | cons {n : Nat} {s t u : Unblocking α} (hround : Round s t) (hrest : Run n t u) :
      Run (n + 1) s u

variable {s t : Unblocking α} {n : Nat}

/-- As long as there is work to do, there is another round. -/
theorem exists_round (h : s.work ≠ []) : ∃ t, Round s t := by
  obtain ⟨work, blocked, waiting⟩ := s
  obtain ⟨v, rest, rfl⟩ := List.exists_cons_of_ne_nil h
  by_cases hv : v ∈ blocked
  · exact ⟨_, .release hv (List.Perm.refl _)⟩
  · exact ⟨_, .skip hv⟩

/-- The nodes to look at, and the pairs that may still give more of them. -/
def remaining (s : Unblocking α) : Nat :=
  s.work.length + s.waiting.length

/-- Every round lowers what remains by one. -/
theorem Round.remaining_succ (h : Round s t) : t.remaining + 1 = s.remaining := by
  cases h with
  | skip hv =>
    simp only [remaining, List.length_cons]
    omega
  | @release v _ _ _ waiting _ hdrained =>
    have hpairs := length_waitersOf_add v waiting
    simp only [remaining, List.length_append, List.length_cons, hdrained.length_eq]
    omega

/-- Every round takes one of the nodes and pairs that are left. -/
theorem Run.add_remaining (h : Run n s t) : n + t.remaining = s.remaining := by
  induction h with
  | nil s => exact Nat.zero_add _
  | cons hround _ ih =>
    rw [← hround.remaining_succ, ← ih]
    omega

/-- What unblocking comes to from here. -/
def outcome (s : Unblocking α) : List α × List (α × α) :=
  unblockAll s.work s.blocked s.waiting

/-- Without work, nothing changes any more. -/
theorem outcome_of_work_eq_nil (h : s.work = []) : s.outcome = (s.blocked, s.waiting) := by
  rw [outcome, h, unblockAll]

/-- A round changes nothing about what will come out. -/
theorem Round.outcome_eq (h : Round s t) : t.outcome = s.outcome := by
  cases h with
  | skip hv => rw [outcome, outcome, unblockAll, if_neg hv]
  | @release v work blocked _ waiting hv hdrained =>
    have hnext : unblockAll (v :: work) blocked waiting =
        unblockAll (waitersOf v waiting ++ work) (blockedElsewhere v blocked)
          (waitingElsewhere v waiting) := by
      rw [unblockAll, if_pos hv]
    rw [outcome, outcome, hnext]
    exact unblockAll_congr (fun x => by simp only [List.mem_append, hdrained.mem_iff]) _ _

/-- Whatever the order in which sets are drained, a run comes to the same. -/
theorem Run.outcome_eq (h : Run n s t) : t.outcome = s.outcome := by
  induction h with
  | nil s => rfl
  | cons hround _ ih => rw [ih, hround.outcome_eq]

/-- Some run does all the work. -/
theorem exists_run (work blocked : List α) (waiting : List (α × α)) :
    ∃ n, Run n ⟨work, blocked, waiting⟩
      ⟨[], (unblockAll work blocked waiting).1, (unblockAll work blocked waiting).2⟩ := by
  induction work, blocked, waiting using unblockAll.induct with
  | case1 blocked waiting => exact ⟨0, by simpa only [unblockAll] using .nil _⟩
  | case2 blocked waiting v work hv ih =>
    obtain ⟨n, hrun⟩ := ih
    rw [unblockAll, if_pos hv]
    exact ⟨n + 1, .cons (.release hv (List.Perm.refl _)) hrun⟩
  | case3 blocked waiting v work hv ih =>
    obtain ⟨n, hrun⟩ := ih
    rw [unblockAll, if_neg hv]
    exact ⟨n + 1, .cons (.skip hv) hrun⟩

end Unblocking

/-! ## Unblocking one node -/

/-- What becomes of the blocked nodes and of the pairs.  Just the nodes at the ends of chains from
`v` are blocked no more, and nobody waits for them any more; for the other nodes the same nodes wait
as before. -/
structure Unblocks (v : α) (blocked : List α) (waiting : List (α × α))
    (after : List α × List (α × α)) : Prop where
  sublist_blocked : after.1.Sublist blocked
  unblocked_iff : ∀ x, x ∈ blocked ∧ x ∉ after.1 ↔
    ∃ chain, IsWaitingChain blocked waiting v x chain
  waitersOf_unblocked : ∀ x, x ∈ blocked ∧ x ∉ after.1 → waitersOf x after.2 = []
  waitersOf_other : ∀ x, ¬ (x ∈ blocked ∧ x ∉ after.1) → waitersOf x after.2 = waitersOf x waiting

/-- The search unblocks a node in this way. -/
theorem unblocks_unblock (v : α) (blocked : List α) (waiting : List (α × α)) :
    Unblocks v blocked waiting (unblock v blocked waiting) := by
  have hreleased (x : α) : x ∈ blocked ∧ x ∉ (unblock v blocked waiting).1 ↔
      Released blocked waiting [v] x := by
    rw [unblock, mem_unblockAll_iff]
    exact ⟨fun h => not_not.1 fun hx => h.2 ⟨h.1, hx⟩,
      fun h => ⟨mem_of_released h, fun hx => hx.2 h⟩⟩
  constructor
  · rw [unblock, unblockAll_eq_filter]
    exact List.filter_sublist
  · exact fun x => (hreleased x).trans released_singleton_iff
  · exact fun x hx => (waitersOf_unblockAll [v] blocked waiting x).1 ((hreleased x).1 hx)
  · exact fun x hx => (waitersOf_unblockAll [v] blocked waiting x).2 (mt (hreleased x).2 hx)

/-- Unblocking a node unblocks just the nodes at the ends of chains of blocked nodes from it, even
if the pairs lead in circles.  In whatever order the sets of waiting nodes are drained, there is at
most one round for each pair and one for the node itself, a run goes on as long as there is work to
do, and all runs that are done end alike. -/
theorem unblock_in_any_order (v : α) (blocked : List α) (waiting : List (α × α)) :
    Unblocks v blocked waiting (unblock v blocked waiting) ∧
      (∃ n, Unblocking.Run n ⟨[v], blocked, waiting⟩
        ⟨[], (unblock v blocked waiting).1, (unblock v blocked waiting).2⟩) ∧
      ∀ n s, Unblocking.Run n ⟨[v], blocked, waiting⟩ s →
        n ≤ 1 + waiting.length ∧ (s.work ≠ [] → ∃ t, s.Round t) ∧
        (s.work = [] → (s.blocked, s.waiting) = unblock v blocked waiting) := by
  refine ⟨unblocks_unblock v blocked waiting, Unblocking.exists_run [v] blocked waiting, ?_⟩
  intro n s hrun
  refine ⟨?_, Unblocking.exists_round, fun hdone => ?_⟩
  · have hrounds : n + s.remaining = 1 + waiting.length := hrun.add_remaining
    omega
  · rw [← Unblocking.outcome_of_work_eq_nil hdone, hrun.outcome_eq]
    rfl

/-- Three nodes that wait in two circles, and one that waits for itself. -/
def waitingInCircles : List (String × String) :=
  [("a", "b"), ("a", "c"), ("b", "a"), ("c", "b"), ("d", "d")]

/-- The nodes in the circles are unblocked, and the other one stays blocked, also if the nodes that
wait for the first one are drained in the other order. -/
theorem unblock_waitingInCircles :
    (unblock "a" ["a", "b", "c", "d"] waitingInCircles) = (["d"], [("d", "d")]) ∧
      Unblocks "a" ["a", "b", "c", "d"] waitingInCircles (["d"], [("d", "d")]) ∧
      Unblocking.Run 5 ⟨["a"], ["a", "b", "c", "d"], waitingInCircles⟩
        ⟨[], ["d"], [("d", "d")]⟩ := by
  have hrun : Unblocking.Run 5 ⟨["a"], ["a", "b", "c", "d"], waitingInCircles⟩
      ⟨[], ["d"], [("d", "d")]⟩ := by
    have hfirst := @Unblocking.Round.release _ _ "a" [] ["a", "b", "c", "d"] ["c", "b"]
      waitingInCircles (by decide) (by decide)
    have hsecond := @Unblocking.Round.release _ _ "c" ["b"] ["b", "c", "d"] ["b"]
      [("b", "a"), ("c", "b"), ("d", "d")] (by decide) (by decide)
    have hthird := @Unblocking.Round.release _ _ "b" ["b"] ["b", "d"] ["a"]
      [("b", "a"), ("d", "d")] (by decide) (by decide)
    exact .cons hfirst (.cons hsecond (.cons hthird
      (.cons (.skip (by decide)) (.cons (.skip (by decide)) (.nil _)))))
  obtain ⟨hunblocks, -, hruns⟩ :=
    unblock_in_any_order "a" ["a", "b", "c", "d"] waitingInCircles
  have hunblock : unblock "a" ["a", "b", "c", "d"] waitingInCircles = (["d"], [("d", "d")]) :=
    ((hruns 5 _ hrun).2.2 rfl).symm
  exact ⟨hunblock, hunblock ▸ hunblocks, hrun⟩

end CallGraph
