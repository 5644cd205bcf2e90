import CallGraph.Analysis.Cycles
import Mathlib.Data.List.Chain
import Mathlib.Data.List.Induction
import Mathlib.Data.List.Nodup

/-!
# Enumerating ways back

The searches for cycles hand over what they find one by one, and stop when something had to be
dropped.  Both is easier to say about lists: a search that stops early collects the same cycles as
one that goes on and has nothing more taken from it, so each search is a list of cycles, and what
is collected from a list is its beginning.

All searches follow the same ways, back to a start and around what was met before, and differ in
what they leave out because nothing is to be found there.  `waysBack` leaves out nothing.

Main results:

- Theorems `CycleList.found_collect` and `CycleList.isTruncated_collect`: what is collected from a
  list.
- Theorem `mem_waysBack_iff`: which ways are found.
- Theorem `nodup_waysBack`: no way is found twice.
-/

namespace CallGraph

/-! ## Collecting from a list -/

namespace CycleList

variable {list : CycleList}

/-- Adding a cycle keeps the limit. -/
@[simp]
theorem limit_add (list : CycleList) (cycle : List String) :
    (list.add cycle).limit = list.limit := by
  rw [add]
  split <;> rfl

/-- Nothing is added after the limit was passed. -/
theorem add_of_isTruncated (h : list.isTruncated = true) (cycle : List String) :
    list.add cycle = list := by
  have hfull : list.isFull = true := list.full_of_isTruncated h
  rw [add, dif_pos hfull]
  cases list
  simp_all

/-- Several cycles are not added either. -/
theorem foldl_add_of_isTruncated (h : list.isTruncated = true) (cycles : List (List String)) :
    cycles.foldl add list = list := by
  induction cycles with
  | nil => rfl
  | cons cycle rest ih => rw [List.foldl_cons, add_of_isTruncated h, ih]

/-- A search that stops as soon as something was dropped collects what a search collects that goes
on. -/
theorem foldl_foldl_add {α : Type} (found : α → List (List String)) (places : List α)
    (list : CycleList) :
    places.foldl (fun list place =>
        if list.isTruncated then list else (found place).foldl add list) list =
      (places.flatMap found).foldl add list := by
  induction places generalizing list with
  | nil => rfl
  | cons place rest ih =>
    rw [List.foldl_cons, List.flatMap_cons, List.foldl_append, ih]
    split
    · rename_i h
      rw [foldl_add_of_isTruncated h (found place)]
    · rfl

/-- What is collected from a list of cycles. -/
def collect (limit : Option Nat) (cycles : List (List String)) : CycleList :=
  cycles.foldl add (start limit)

/-- Cycles are collected one after the other. -/
theorem collect_append (limit : Option Nat) (before after : List (List String)) :
    collect limit (before ++ after) = after.foldl add (collect limit before) :=
  List.foldl_append

/-- The limit stays as it was given. -/
@[simp]
theorem limit_collect (limit : Option Nat) (cycles : List (List String)) :
    (collect limit cycles).limit = limit := by
  induction cycles using List.reverseRecOn with
  | nil => rfl
  | append_singleton before cycle ih =>
    rw [collect_append]
    simpa using ih

/-- The part of a list that stays within a limit. -/
def upTo (limit : Option Nat) (cycles : List (List String)) : List (List String) :=
  match limit with
  | none => cycles
  | some limit => cycles.take limit

/-- Whether a number is more than may be reported. -/
def exceedsLimit (limit : Option Nat) (count : Nat) : Bool :=
  match limit with
  | none => false
  | some limit => decide (limit < count)

/-- The beginning of a list is collected, as far as the limit allows, and the list is truncated if
there is more. -/
theorem found_and_isTruncated_collect (limit : Option Nat) (cycles : List (List String)) :
    (collect limit cycles).found = (upTo limit cycles).reverse ∧
      (collect limit cycles).isTruncated = exceedsLimit limit cycles.length := by
  induction cycles using List.reverseRecOn with
  | nil => cases limit <;> simp [collect, start, upTo, exceedsLimit]
  | append_singleton before cycle ih =>
    obtain ⟨hfound, htruncated⟩ := ih
    rw [collect_append, List.foldl_cons, List.foldl_nil, add]
    have hlimit := limit_collect limit before
    cases limit with
    | none =>
      have hroom : ¬ (collect none before).isFull = true := by
        rw [isFull, hlimit]
        simp [reachesLimit]
      rw [dif_neg hroom]
      simp_all [upTo, exceedsLimit]
    | some limit =>
      have hfull : (collect (some limit) before).isFull = true ↔ limit ≤ before.length := by
        rw [isFull, hlimit, hfound]
        simp only [reachesLimit, upTo, List.length_reverse, List.length_take, decide_eq_true_eq]
        omega
      by_cases h : limit ≤ before.length
      · rw [dif_pos (hfull.2 h)]
        simp only [upTo, exceedsLimit] at hfound ⊢
        refine ⟨?_, ?_⟩
        · rw [hfound, List.take_append_of_le_length h]
        · simp only [List.length_append, List.length_singleton]
          exact (decide_eq_true (by omega)).symm
      · rw [dif_neg fun hf => h (hfull.1 hf)]
        simp only [upTo, exceedsLimit] at hfound htruncated ⊢
        refine ⟨?_, ?_⟩
        · rw [hfound, List.take_of_length_le (by omega), List.take_of_length_le (by simp; omega)]
          simp
        · rw [htruncated]
          simp only [List.length_append, List.length_singleton, decide_eq_decide]
          omega

/-- The cycles that are kept are the first ones up to the limit, the latest first. -/
theorem found_collect (limit : Option Nat) (cycles : List (List String)) :
    (collect limit cycles).found = (upTo limit cycles).reverse :=
  (found_and_isTruncated_collect limit cycles).1

/-- The list says that it was cut off if there are more cycles than the limit. -/
theorem isTruncated_collect (limit : Option Nat) (cycles : List (List String)) :
    (collect limit cycles).isTruncated = exceedsLimit limit cycles.length :=
  (found_and_isTruncated_collect limit cycles).2

/-- The list is full if there are as many cycles as the limit. -/
theorem isFull_collect (limit : Option Nat) (cycles : List (List String)) :
    (collect limit cycles).isFull = reachesLimit limit cycles.length := by
  rw [isFull, limit_collect, found_collect]
  cases limit with
  | none => rfl
  | some limit =>
    simp only [upTo, reachesLimit, List.length_reverse, List.length_take, decide_eq_decide]
    omega

end CycleList

/-! ## Ways back to a start -/

/-- The ways on from `here`, the last node of `path`, back to `start` that meet nothing twice and
add fewer than `hops` nodes, each with the path before it.  The path is in reverse order. -/
def waysBack (next : String → List String) (start : String) :
    (hops : Nat) → (path : List String) → (here : String) → List (List String)
  | 0, _, _ => []
  | hops + 1, path, here =>
      (next here).flatMap fun w =>
        if w = start then [path.reverse]
        else if w ∈ path then []
        else waysBack next start hops (w :: path) w

variable {next : String → List String} {start here : String} {hops : Nat} {path : List String}

/-- The ways that are found continue the path by a part that leads back to the start and meets
nothing twice. -/
theorem mem_waysBack_iff (hstart : start ∈ path) {cycle : List String} :
    cycle ∈ waysBack next start hops path here ↔
      ∃ rest, cycle = path.reverse ++ rest ∧ rest.length < hops ∧ rest.Nodup ∧
        (∀ w ∈ rest, w ∉ path) ∧
          List.IsChain (fun a b => b ∈ next a) (here :: rest ++ [start]) := by
  induction hops generalizing path here with
  | zero => simp [waysBack]
  | succ hops ih =>
    simp only [waysBack, List.mem_flatMap]
    constructor
    · rintro ⟨w, hw, hcycle⟩
      split at hcycle
      · rename_i hclosed
        refine ⟨[], by simpa using hcycle, by simp, List.nodup_nil, by simp, ?_⟩
        simpa [← hclosed] using hw
      · split at hcycle
        · simp at hcycle
        · rename_i hnew
          obtain ⟨rest, rfl, hlength, hnodup, hmem, hchain⟩ :=
            (ih (List.mem_cons_of_mem w hstart)).1 hcycle
          refine ⟨w :: rest, by simp, by simpa using hlength, ?_, ?_, ?_⟩
          · exact List.nodup_cons.2 ⟨fun h => hmem w h (by simp), hnodup⟩
          · intro x hx
            rcases List.mem_cons.1 hx with rfl | hx
            · exact hnew
            · exact fun h => hmem x hx (List.mem_cons_of_mem w h)
          · exact List.isChain_cons_cons.2 ⟨hw, hchain⟩
    · rintro ⟨rest, rfl, hlength, hnodup, hmem, hchain⟩
      cases rest with
      | nil => exact ⟨start, by simpa using hchain, by simp⟩
      | cons w rest =>
        obtain ⟨hw, hchain⟩ := List.isChain_cons_cons.1 hchain
        obtain ⟨hfresh, hnodup⟩ := List.nodup_cons.1 hnodup
        have hnew : w ∉ path := hmem w (by simp)
        refine ⟨w, hw, ?_⟩
        rw [if_neg (fun h : w = start => hnew (h ▸ hstart)), if_neg hnew,
          ih (List.mem_cons_of_mem w hstart)]
        refine ⟨rest, by simp, by simpa using hlength, hnodup, ?_, hchain⟩
        intro x hx h
        rcases List.mem_cons.1 h with rfl | h
        · exact hfresh hx
        · exact hmem x (List.mem_cons_of_mem w hx) h

/-- No way is found twice. -/
theorem nodup_waysBack (hnext : ∀ x, (next x).Nodup) (hstart : start ∈ path) :
    (waysBack next start hops path here).Nodup := by
  induction hops generalizing path here with
  | zero => exact List.nodup_nil
  | succ hops ih =>
    rw [waysBack]
    refine List.nodup_flatMap.2 ⟨?_, ?_⟩
    · intro w hw
      split
      · exact List.nodup_singleton _
      · split
        · exact List.nodup_nil
        · exact ih (List.mem_cons_of_mem w hstart)
    · -- Ways that go on differently are different: one has ended, or they part after the path.
      refine (hnext here).imp ?_
      intro v w hne cycle hv hw
      have hcontinued : ∀ u, (cycle ∈ if u = start then [path.reverse] else if u ∈ path then []
          else waysBack next start hops (u :: path) u) →
          (u = start ∧ cycle = path.reverse) ∨ ∃ rest, cycle = path.reverse ++ u :: rest := by
        intro u hu
        split at hu
        · rename_i hclosed
          exact .inl ⟨hclosed, by simpa using hu⟩
        · split at hu
          · simp at hu
          · obtain ⟨rest, rfl, -⟩ := (mem_waysBack_iff (List.mem_cons_of_mem u hstart)).1 hu
            exact .inr ⟨rest, by simp⟩
      rcases hcontinued v hv with ⟨rfl, hcv⟩ | ⟨before, hcv⟩ <;>
        rcases hcontinued w hw with ⟨rfl, hcw⟩ | ⟨after, hcw⟩
      · exact hne rfl
      · simp [hcv] at hcw
      · simp [hcv] at hcw
      · rw [hcv, List.append_cancel_left_eq] at hcw
        injection hcw with hhead
        exact hne hhead

end CallGraph
