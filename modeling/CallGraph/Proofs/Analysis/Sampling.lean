import CallGraph.Analysis.Centrality
import CallGraph.Proofs.Graph.Operations
import Mathlib.Algebra.Order.Floor.Div

/-!
# Sampled sources

A sample of the nodes takes every so many-th of their ids, and the distance is rounded down.  What
the rounding leaves over lies after the last source: the end of the ids is as far from it as the
distance and the remainder say together, while everywhere else a source is near.

Main results:

- Theorem `getElem?_everyNth`: what stands where in every `step`-th item.
- Theorem `covers_evenSample_iff`: how far the items lie from the ones before them that are taken.
- Theorem `Graph.sources_of_sampleSize`: the sources of a sample, and when no node is far from them.
-/

namespace CallGraph

variable {α : Type}

/-! ## Every so many-th item -/

/-- After items that are skipped, the first item of every group is taken. -/
theorem getElem?_everyNth_go {step : Nat} (hstep : 0 < step) (skip i : Nat) (items : List α) :
    (everyNth.go step skip items)[i]? = items[skip + i * step]? := by
  induction items generalizing skip i with
  | nil => simp [everyNth.go]
  | cons item rest ih =>
    rw [everyNth.go]
    split
    · rename_i hskip
      subst hskip
      cases i with
      | zero => simp
      | succ i =>
        have hplace : 0 + (i + 1) * step = (step - 1 + i * step) + 1 := by
          rw [Nat.succ_mul]
          omega
        rw [List.getElem?_cons_succ, ih, hplace, List.getElem?_cons_succ]
    · have hplace : skip + i * step = (skip - 1 + i * step) + 1 := by omega
      rw [ih, hplace, List.getElem?_cons_succ]

/-- The item at a place is the one that stands so many groups later. -/
theorem getElem?_everyNth {step : Nat} (hstep : 0 < step) (items : List α) (i : Nat) :
    (everyNth step items)[i]? = items[i * step]? := by
  rw [everyNth, getElem?_everyNth_go hstep, Nat.zero_add]

/-- The items that are taken stand in their order. -/
theorem sublist_everyNth (step : Nat) (items : List α) : (everyNth step items).Sublist items := by
  have hgo (skip : Nat) : (everyNth.go step skip items).Sublist items := by
    induction items generalizing skip with
    | nil => exact List.Sublist.refl []
    | cons item rest ih =>
      rw [everyNth.go]
      split
      · exact (ih _).cons_cons item
      · exact (ih _).cons item
  exact hgo 0

/-! ## Samples -/

/-- The items of a sample stand in their order. -/
theorem sublist_evenSample (k : Nat) (items : List α) : (evenSample k items).Sublist items := by
  rw [evenSample]
  split
  · exact List.Sublist.refl items
  · exact (List.take_sublist _ _).trans (sublist_everyNth _ _)

/-- Every item lies at most `reach` places after one that is in the sample. -/
def Covers (items sample : List α) (reach : Nat) : Prop :=
  ∀ p < items.length, ∃ q ≤ p, p ≤ q + reach ∧ ∃ item ∈ sample, items[q]? = some item

section Samples

variable {items : List α} {k : Nat} (hk : 0 < k) (hlt : k < items.length)

include hk hlt

/-- The items of a sample stand as far apart as the size goes into their number, rounded down. -/
theorem getElem?_evenSample {i : Nat} (hi : i < k) :
    (evenSample k items)[i]? = items[i * (items.length / k)]? := by
  have hstep : 0 < items.length / k := Nat.div_pos hlt.le hk
  rw [evenSample, if_neg (Nat.not_le.2 hlt), Nat.max_eq_left hstep, List.getElem?_take_of_lt hi,
    getElem?_everyNth hstep]

/-- As many items as were wanted fit into the list, at the distance that is rounded down. -/
theorem mul_div_lt {i : Nat} (hi : i < k) : i * (items.length / k) < items.length :=
  calc i * (items.length / k) < k * (items.length / k) :=
        Nat.mul_lt_mul_of_pos_right hi (Nat.div_pos hlt.le hk)
    _ ≤ items.length := Nat.mul_div_le _ _

/-- A sample has as many items as are asked for, however the distance is rounded. -/
theorem length_evenSample : (evenSample k items).length = k := by
  refine Nat.le_antisymm ?_ (Nat.le_of_not_lt fun hshort => ?_)
  · rw [evenSample, if_neg (Nat.not_le.2 hlt)]
    exact List.length_take_le _ _
  · have hnone := getElem?_evenSample hk hlt hshort
    rw [List.getElem?_eq_none le_rfl, eq_comm, List.getElem?_eq_none_iff] at hnone
    exact absurd (mul_div_lt hk hlt hshort) (Nat.not_lt.2 hnone)

/-- The places of the items in the sample are the first `k` multiples of the distance. -/
theorem getElem?_mem_evenSample_iff (hnodup : items.Nodup) {q : Nat} :
    (∃ item ∈ evenSample k items, items[q]? = some item) ↔
      ∃ i < k, q = i * (items.length / k) := by
  constructor
  · rintro ⟨item, hitem, hq⟩
    obtain ⟨i, hi, hat⟩ := List.getElem_of_mem hitem
    rw [length_evenSample hk hlt] at hi
    have hplace := getElem?_evenSample hk hlt hi
    rw [List.getElem?_eq_some_iff.2 ⟨_, hat⟩, ← hq] at hplace
    obtain ⟨hlength, -⟩ := List.getElem?_eq_some_iff.1 hq
    exact ⟨i, hi, (List.getElem?_inj hlength hnodup).1 hplace⟩
  · rintro ⟨i, hi, rfl⟩
    have hplace := List.getElem?_eq_getElem (mul_div_lt hk hlt hi)
    refine ⟨_, List.mem_of_getElem? ((getElem?_evenSample hk hlt hi).trans hplace), hplace⟩

/-- The end of the list is as far from the sample as the distance and the remainder say together,
and no item is farther. -/
theorem covers_evenSample_iff (hnodup : items.Nodup) (reach : Nat) :
    Covers items (evenSample k items) reach ↔
      items.length / k + items.length % k ≤ reach + 1 := by
  have hstep : 0 < items.length / k := Nat.div_pos hlt.le hk
  have hlength := Nat.div_add_mod items.length k
  have hlast : k * (items.length / k) = (k - 1) * (items.length / k) + items.length / k := by
    rw [← Nat.succ_mul, Nat.succ_eq_add_one, Nat.sub_add_cancel hk]
  simp only [Covers, getElem?_mem_evenSample_iff hk hlt hnodup]
  constructor
  · intro h
    obtain ⟨q, -, hreach, i, hi, rfl⟩ := h (items.length - 1) (by omega)
    have hle : i * (items.length / k) ≤ (k - 1) * (items.length / k) :=
      Nat.mul_le_mul_right _ (by omega)
    omega
  · intro h p hp
    have hdiv := Nat.div_add_mod p (items.length / k)
    have hmod := Nat.mod_lt p hstep
    rw [Nat.mul_comm] at hdiv
    by_cases hi : p / (items.length / k) < k
    · exact ⟨_, by omega, by omega, _, hi, rfl⟩
    · -- What the rounding leaves over is counted from the last item of the sample.
      have hover : k * (items.length / k) ≤ p / (items.length / k) * (items.length / k) :=
        Nat.mul_le_mul_right _ (Nat.le_of_not_lt hi)
      exact ⟨(k - 1) * (items.length / k), by omega, by omega, k - 1, by omega, rfl⟩

end Samples

/-- The remainder of a quotient that is rounded up. -/
theorem ceilDiv_eq_div_add {n k : Nat} (hk : 0 < k) :
    n ⌈/⌉ k = n / k + if n % k = 0 then 0 else 1 := by
  have hmod := Nat.mod_lt n hk
  have hsum : n + k - 1 = n % k + k - 1 + k * (n / k) := by
    have hn := Nat.mod_add_div n k
    omega
  rw [Nat.ceilDiv_eq_add_pred_div, hsum, Nat.add_mul_div_left _ _ hk,
    Nat.add_comm (n / k)]
  split
  · rename_i hzero
    rw [hzero, Nat.zero_add, Nat.div_eq_of_lt (by omega)]
  · rw [Nat.div_eq_of_lt_le (k := 1) (by omega) (by omega)]

/-! ## Sources -/

namespace Graph

variable {g : Graph} {settings : CentralitySettings} {k : Nat}

/-- The sources are as many different nodes as were wanted, at even distances in the order of the
ids, and begin with the least id. -/
structure SampledBy (g : Graph) (k : Nat) (sources : List String) : Prop where
  length_eq : sources.length = k
  nodup : sources.Nodup
  getElem?_eq : ∀ i < k, sources[i]? = g.nodeIds[i * (g.nodeCount / k)]?
  exists_least : ∃ first, sources.head? = some first ∧ g.contains first = true ∧
    ∀ id, g.contains id = true → first ≤ id

/-- The sources are a sample of the ids, if fewer are asked for than there are nodes. -/
theorem sources_eq_evenSample (hsize : settings.sampleSize = some k) (hk : 0 < k)
    (hlt : k < g.nodeCount) : g.sources settings = evenSample k g.nodeIds := by
  have hcount : settings.sourceCount g.nodeCount = k := by
    rw [CentralitySettings.sourceCount, hsize]
    dsimp only
    omega
  rw [sources, hcount]

/-- A sample of the ids is told by their places. -/
theorem WellFormed.sampledBy_evenSample (hg : g.WellFormed) (hk : 0 < k) (hlt : k < g.nodeCount) :
    g.SampledBy k (evenSample k g.nodeIds) := by
  rw [← hg.length_nodeIds] at hlt
  constructor
  · exact length_evenSample hk hlt
  · exact (nodup_nodeIds g).sublist (sublist_evenSample k g.nodeIds)
  · intro i hi
    rw [getElem?_evenSample hk hlt hi, hg.length_nodeIds]
  · have hhead : (evenSample k g.nodeIds).head? = g.nodeIds.head? := by
      rw [List.head?_eq_getElem?, getElem?_evenSample hk hlt hk, Nat.zero_mul,
        List.head?_eq_getElem?]
    have hsorted := pairwise_nodeIds g
    cases hids : g.nodeIds with
    | nil =>
      rw [hids] at hlt
      cases hlt
    | cons first rest =>
      rw [hids, List.pairwise_cons] at hsorted
      refine ⟨first, by rw [← hids, hhead, hids, List.head?_cons], ?_, fun id hid => ?_⟩
      · rw [← mem_nodeIds_iff, hids]
        exact List.mem_cons_self
      · rw [← mem_nodeIds_iff, hids, List.mem_cons] at hid
        rcases hid with rfl | hrest
        · exact le_rfl
        · exact (hsorted.1 id hrest).le

/-- Betweenness in a sample is computed from as many different nodes as were wanted, evenly spaced
from the least id on.  The last node lies as far after the last source as the distance and the
remainder say together, less one, and no node lies farther after the source before it; so they all
lie as near as the distance that is rounded up if and only if the remainder is two at most. -/
theorem sources_of_sampleSize (hg : g.Reachable) (hsize : settings.sampleSize = some k)
    (hk : 1 ≤ k) (hlt : k < g.nodeCount) :
    g.SampledBy k (g.sources settings) ∧
      (∀ reach, Covers g.nodeIds (g.sources settings) reach ↔
        g.nodeCount / k + g.nodeCount % k ≤ reach + 1) ∧
      (Covers g.nodeIds (g.sources settings) (g.nodeCount ⌈/⌉ k) ↔ g.nodeCount % k ≤ 2) := by
  have hwell := hg.wellFormed
  have hcovers (reach : Nat) : Covers g.nodeIds (evenSample k g.nodeIds) reach ↔
      g.nodeCount / k + g.nodeCount % k ≤ reach + 1 := by
    rw [covers_evenSample_iff hk (by rwa [hwell.length_nodeIds]) (nodup_nodeIds g),
      hwell.length_nodeIds]
  rw [sources_eq_evenSample hsize hk hlt]
  refine ⟨hwell.sampledBy_evenSample hk hlt, hcovers, ?_⟩
  rw [hcovers, ceilDiv_eq_div_add hk]
  split <;> omega

/-- Seven nodes, the last three of which call the fourth. -/
def callsIntoTheMiddle : List Operation :=
  (["a", "b", "c", "d", "e", "f", "g"].map fun id =>
    .addNode ⟨id, id, "", .procedure, none, .empty⟩) ++
    [.addEdge "e" "d", .addEdge "f" "d", .addEdge "g" "d", .addEdge "d" "c"]

/-- Four sources out of seven nodes are the first four, and the last three nodes are far from them:
three places where two were possible. -/
theorem sources_callsIntoTheMiddle :
    (after callsIntoTheMiddle).Reachable ∧ (after callsIntoTheMiddle).nodeCount = 7 ∧
      (after callsIntoTheMiddle).SampledBy 4
        ((after callsIntoTheMiddle).sources { sampleSize := some 4 }) ∧
      (after callsIntoTheMiddle).sources { sampleSize := some 4 } = ["a", "b", "c", "d"] ∧
      7 ⌈/⌉ 4 = 2 ∧
      ¬ Covers (after callsIntoTheMiddle).nodeIds
        ((after callsIntoTheMiddle).sources { sampleSize := some 4 }) (7 ⌈/⌉ 4) := by
  have hreachable : (after callsIntoTheMiddle).Reachable := ⟨callsIntoTheMiddle, rfl⟩
  have hseven : (after callsIntoTheMiddle).nodeCount = 7 := by decide
  have hsize : ({ sampleSize := some 4 } : CentralitySettings).sampleSize = some 4 := rfl
  obtain ⟨hsampled, -, hcovers⟩ :=
    sources_of_sampleSize hreachable hsize (by decide) (by decide)
  rw [hseven] at hcovers
  refine ⟨hreachable, hseven, hsampled, by decide, by decide, ?_⟩
  rw [hcovers]
  decide

end Graph

end CallGraph
