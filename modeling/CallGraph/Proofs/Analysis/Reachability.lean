import CallGraph.Analysis.Reach
import Mathlib.Data.List.Chain
import Mathlib.Data.List.Nodup
import Mathlib.Logic.Relation

/-!
# Searching in rounds

A search in rounds meets exactly what is at most as many hops away as it goes rounds.  Where all
steps stay in a finite list, as many rounds as the list is long meet everything that can be reached
at all, since a way can be shortened to one that meets nothing twice.

Main results:

- Theorem `mem_reach_iff`: what a search of given depth meets.
- Theorem `Hops.exists_nodup_path`: a way can be shortened to one without repetitions.
- Theorem `perm_reach`: the order in which steps are listed does not matter.
- Theorem `mem_reach_iff_reflTransGen`: what a search meets that goes as deep as there are places
  to be.
-/

namespace CallGraph

variable {α : Type} {next : α → List α}

/-! ## Hops -/

/-- `b` can be reached from `a` in exactly `n` hops. -/
inductive Hops (next : α → List α) : Nat → α → α → Prop
  | refl (a : α) : Hops next 0 a a
  | head {n : Nat} {a b c : α} : b ∈ next a → Hops next n b c → Hops next (n + 1) a c

/-- Without a hop one stays where one is. -/
theorem hops_zero_iff {a b : α} : Hops next 0 a b ↔ a = b := by
  constructor
  · intro h
    cases h
    rfl
  · rintro rfl
    exact .refl a

/-- What is some hops away is reached. -/
theorem Hops.reflTransGen {n : Nat} {a b : α} (h : Hops next n a b) :
    Relation.ReflTransGen (fun x y => y ∈ next x) a b := by
  induction h with
  | refl a => exact .refl
  | head hstep _ ih => exact .head hstep ih

/-- What is reached is some number of hops away. -/
theorem exists_hops_iff {a b : α} :
    (∃ n, Hops next n a b) ↔ Relation.ReflTransGen (fun x y => y ∈ next x) a b := by
  constructor
  · rintro ⟨n, h⟩
    exact h.reflTransGen
  · intro h
    induction h using Relation.ReflTransGen.head_induction_on with
    | refl => exact ⟨0, .refl b⟩
    | head hstep _ ih =>
      obtain ⟨n, hn⟩ := ih
      exact ⟨n + 1, .head hstep hn⟩

/-- A step at the end is one hop more. -/
theorem Hops.tail {n : Nat} {a b c : α} (h : Hops next n a b) (hstep : c ∈ next b) :
    Hops next (n + 1) a c := by
  induction h with
  | refl a => exact .head hstep (.refl c)
  | head hfirst _ ih => exact .head hfirst (ih hstep)

/-- Hops that other steps also make. -/
theorem Hops.mono {other : α → List α} (hsteps : ∀ x, ∀ y ∈ next x, y ∈ other x) {n : Nat}
    {a b : α} (h : Hops next n a b) : Hops other n a b := by
  induction h with
  | refl a => exact .refl a
  | head hstep _ ih => exact .head (hsteps _ _ hstep) ih

/-- The same hops the other way round, along steps that undo them. -/
theorem Hops.undo {back : α → List α} (hback : ∀ x, ∀ y ∈ next x, x ∈ back y) {n : Nat} {a b : α}
    (h : Hops next n a b) : Hops back n b a := by
  induction h with
  | refl a => exact .refl a
  | head hstep _ ih => exact ih.tail (hback _ _ hstep)

/-! ## Ways without repetitions -/

/-- The nodes of a way, one hop after the other, are as many hops as there are nodes after the
first. -/
theorem hops_of_isChain {a : α} {path : List α}
    (h : List.IsChain (fun x y => y ∈ next x) (a :: path)) :
    Hops next path.length a ((a :: path).getLast (by simp)) := by
  induction path generalizing a with
  | nil => exact .refl a
  | cons b rest ih =>
    obtain ⟨hstep, hrest⟩ := List.isChain_cons_cons.1 h
    rw [List.getLast_cons (by simp)]
    exact .head hstep (ih hrest)

/-- A way can be shortened to one that meets nothing twice. -/
theorem Hops.exists_nodup_path {n : Nat} {a b : α} (h : Hops next n a b) :
    ∃ path, List.IsChain (fun x y => y ∈ next x) (a :: path) ∧ (a :: path).Nodup ∧
      (a :: path).getLast (by simp) = b ∧ path.length ≤ n := by
  induction h with
  | refl a => exact ⟨[], by simp, by simp, rfl, by simp⟩
  | @head n a b c hstep _ ih =>
    obtain ⟨path, hchain, hnodup, hlast, hlength⟩ := ih
    by_cases hmem : a ∈ b :: path
    · -- The way comes back to `a`: only what follows is kept.
      obtain ⟨before, after, hsplit⟩ := List.append_of_mem hmem
      have hsuffix : a :: after <:+ b :: path := ⟨before, hsplit.symm⟩
      refine ⟨after, hchain.suffix hsuffix, hnodup.sublist hsuffix.sublist, ?_, ?_⟩
      · rw [← hlast]
        simp only [hsplit]
        rw [List.getLast_append_of_ne_nil]
      · have hshort := hsuffix.length_le
        simp only [List.length_cons] at hshort
        omega
    · refine ⟨b :: path, List.isChain_cons_cons.2 ⟨hstep, hchain⟩,
        List.nodup_cons.2 ⟨hmem, hnodup⟩, ?_, ?_⟩
      · rw [List.getLast_cons (by simp), hlast]
      · simp only [List.length_cons]
        omega

/-- What holds of the end of each step holds of each node of a way after the first. -/
theorem forall_of_isChain {P : α → Prop} (hnext : ∀ x, ∀ y ∈ next x, P y) {a : α} {path : List α}
    (h : List.IsChain (fun x y => y ∈ next x) (a :: path)) : ∀ x ∈ path, P x := by
  induction path generalizing a with
  | nil => simp
  | cons b rest ih =>
    obtain ⟨hstep, hrest⟩ := List.isChain_cons_cons.1 h
    intro x hx
    rcases List.mem_cons.1 hx with rfl | hx
    · exact hnext a x hstep
    · exact ih hrest x hx

/-- Where all steps end in a list, everything that can be reached from a member is fewer hops away
than the list is long, and no more hops than it was reached in. -/
theorem Hops.exists_lt_length {M : List α} (hnext : ∀ x, ∀ y ∈ next x, y ∈ M) {n : Nat} {a b : α}
    (ha : a ∈ M) (h : Hops next n a b) : ∃ m < M.length, m ≤ n ∧ Hops next m a b := by
  obtain ⟨path, hchain, hnodup, hlast, hlength⟩ := h.exists_nodup_path
  refine ⟨path.length, ?_, hlength, hlast ▸ hops_of_isChain hchain⟩
  have hsubset : a :: path ⊆ M :=
    List.cons_subset.2 ⟨ha, forall_of_isChain hnext hchain⟩
  have hshort := List.Nodup.length_le_of_subset hnodup hsubset
  exact Nat.lt_of_succ_le hshort

/-! ## Rounds -/

variable [BEq α] [LawfulBEq α]

/-- From what was seen, a way leads to something seen or leaves through something fresh. -/
theorem hops_from_seen {seen frontier fresh : List α}
    (hseen : ∀ x ∈ seen, x ∉ frontier → ∀ y ∈ next x, y ∈ seen)
    (hfresh : ∀ x ∈ frontier, ∀ y ∈ next x, y ∈ seen ∨ y ∈ fresh) {n : Nat} {a b : α}
    (ha : a ∈ seen) (h : Hops next n a b) :
    b ∈ seen ∨ ∃ x ∈ fresh, ∃ m < n, Hops next m x b := by
  induction h with
  | refl a => exact .inl ha
  | @head n a c b hstep hrest ih =>
    have hc : c ∈ seen ∨ c ∈ fresh := by
      by_cases hfrontier : a ∈ frontier
      · exact hfresh a hfrontier c hstep
      · exact .inl (hseen a ha hfrontier c hstep)
    rcases hc with hc | hc
    · rcases ih hc with hb | ⟨x, hx, m, hm, hway⟩
      · exact .inl hb
      · exact .inr ⟨x, hx, m, by omega, hway⟩
    · exact .inr ⟨c, hc, n, by omega, hrest⟩

/-- What can be reached from the frontier was seen, or can be reached with one hop less from what is
fresh. -/
theorem hops_from_frontier_iff {seen frontier fresh : List α}
    (hfrontier : ∀ x ∈ frontier, x ∈ seen)
    (hseen : ∀ x ∈ seen, x ∉ frontier → ∀ y ∈ next x, y ∈ seen)
    (hfresh : ∀ y, y ∈ fresh ↔ (∃ x ∈ frontier, y ∈ next x) ∧ y ∉ seen) {hops : Nat} {b : α} :
    (b ∈ seen ∨ ∃ a ∈ frontier, ∃ n ≤ hops + 1, Hops next n a b) ↔
      b ∈ seen ∨ ∃ x ∈ fresh, ∃ m ≤ hops, Hops next m x b := by
  have hstep : ∀ x ∈ frontier, ∀ y ∈ next x, y ∈ seen ∨ y ∈ fresh := by
    intro x hx y hy
    by_cases h : y ∈ seen
    · exact .inl h
    · exact .inr ((hfresh y).2 ⟨⟨x, hx, hy⟩, h⟩)
  constructor
  · rintro (hb | ⟨a, ha, n, hn, hway⟩)
    · exact .inl hb
    · -- The way first goes on in what was seen, and leaves it only through `fresh`.
      rcases hops_from_seen hseen hstep (hfrontier a ha) hway with hb | ⟨x, hx, m, hm, hrest⟩
      · exact .inl hb
      · exact .inr ⟨x, hx, m, by omega, hrest⟩
  · rintro (hb | ⟨x, hx, m, hm, hway⟩)
    · exact .inl hb
    · obtain ⟨⟨a, ha, hnext⟩, -⟩ := (hfresh x).1 hx
      exact .inr ⟨a, ha, m + 1, by omega, .head hnext hway⟩

/-- A search adds to what was seen everything that is few enough hops away from its frontier.  Only
the steps from the frontier may lead out of what was seen. -/
theorem mem_spread_iff {hops : Nat} {seen frontier : List α}
    (hfrontier : ∀ x ∈ frontier, x ∈ seen)
    (hseen : ∀ x ∈ seen, x ∉ frontier → ∀ y ∈ next x, y ∈ seen) {b : α} :
    b ∈ spread next hops seen frontier ↔
      b ∈ seen ∨ ∃ a ∈ frontier, ∃ n ≤ hops, Hops next n a b := by
  induction hops generalizing seen frontier with
  | zero =>
    rw [spread]
    constructor
    · exact .inl
    · rintro (hb | ⟨a, ha, n, hn, hway⟩)
      · exact hb
      · obtain rfl : n = 0 := by omega
        exact hops_zero_iff.1 hway ▸ hfrontier a ha
  | succ hops ih =>
    rw [spread]
    generalize hdef : (frontier.flatMap next).eraseDups.filter (!seen.contains ·) = fresh
    have hfresh : ∀ y, y ∈ fresh ↔ (∃ x ∈ frontier, y ∈ next x) ∧ y ∉ seen := by
      intro y
      simp [← hdef]
    rw [hops_from_frontier_iff hfrontier hseen hfresh]
    split
    · rename_i hempty
      rw [List.isEmpty_iff] at hempty
      simp [hempty]
    · have hclosed : ∀ x ∈ seen ++ fresh, x ∉ fresh → ∀ y ∈ next x, y ∈ seen ++ fresh := by
        intro x hx hnew y hy
        have hx : x ∈ seen := (List.mem_append.1 hx).resolve_right hnew
        by_cases hmem : y ∈ seen
        · exact List.mem_append_left _ hmem
        · refine List.mem_append_right _ ((hfresh y).2 ⟨⟨x, ?_, hy⟩, hmem⟩)
          by_contra hold
          exact hmem (hseen x hx hold y hy)
      rw [ih (fun x hx => List.mem_append_right _ hx) hclosed, List.mem_append]
      constructor
      · rintro ((hb | hb) | hrest)
        · exact .inl hb
        · exact .inr ⟨b, hb, 0, by omega, .refl b⟩
        · exact .inr hrest
      · rintro (hb | hrest)
        · exact .inl (.inl hb)
        · exact .inr hrest

/-- Leaving out repeated items leaves each once. -/
theorem nodup_eraseDups (items : List α) : items.eraseDups.Nodup := by
  induction hlength : items.length using Nat.strong_induction_on generalizing items with
  | _ n ih =>
    cases items with
    | nil => simp
    | cons a rest =>
      have hshort : (rest.filter fun b => !b == a).length < n := by
        have hle := List.length_filter_le (fun b => !b == a) rest
        simp only [List.length_cons] at hlength
        omega
      rw [List.eraseDups_cons, List.nodup_cons]
      exact ⟨by simp, ih _ hshort _ rfl⟩

/-- A search meets nothing twice. -/
theorem nodup_spread {hops : Nat} {seen frontier : List α} (hseen : seen.Nodup) :
    (spread next hops seen frontier).Nodup := by
  induction hops generalizing seen frontier with
  | zero => exact hseen
  | succ hops ih =>
    rw [spread]
    split
    · exact hseen
    · refine ih (List.nodup_append'.2 ⟨hseen, (nodup_eraseDups _).filter _, ?_⟩)
      intro x hx hfresh
      simp [hx] at hfresh

/-- Nothing is reached twice. -/
theorem nodup_reach (hops : Nat) (start : α) : (reach next hops start).Nodup :=
  nodup_spread (List.nodup_singleton start)

/-- A search meets exactly what is at most as many hops away as it goes rounds. -/
theorem mem_reach_iff {hops : Nat} {a b : α} :
    b ∈ reach next hops a ↔ ∃ n ≤ hops, Hops next n a b := by
  rw [reach, mem_spread_iff (by simp) (by simp)]
  constructor
  · rintro (hb | ⟨x, hx, n, hn, hway⟩)
    · rw [List.mem_singleton] at hb
      exact ⟨0, by omega, hb ▸ .refl b⟩
    · rw [List.mem_singleton] at hx
      exact ⟨n, hn, hx ▸ hway⟩
  · rintro ⟨n, hn, hway⟩
    exact .inr ⟨a, by simp, n, hn, hway⟩

/-- What a search meets does not depend on the order in which the steps are listed. -/
theorem perm_reach {other : α → List α} (hsteps : ∀ x y, y ∈ next x ↔ y ∈ other x) (hops : Nat)
    (start : α) : (reach next hops start).Perm (reach other hops start) := by
  have hnodup : (reach next hops start).Nodup := nodup_reach hops start
  refine (List.perm_ext_iff_of_nodup hnodup (nodup_reach hops start)).2 fun b => ?_
  rw [mem_reach_iff, mem_reach_iff]
  constructor
  · rintro ⟨n, hn, hway⟩
    exact ⟨n, hn, hway.mono fun x y => (hsteps x y).1⟩
  · rintro ⟨n, hn, hway⟩
    exact ⟨n, hn, hway.mono fun x y => (hsteps x y).2⟩

/-- The same steps in another order reach the same. -/
theorem contains_reach_eq {other : α → List α} (hsteps : ∀ x y, y ∈ next x ↔ y ∈ other x)
    (hops : Nat) (start b : α) :
    (reach next hops start).contains b = (reach other hops start).contains b := by
  rw [Bool.eq_iff_iff, List.contains_iff_mem, List.contains_iff_mem,
    (perm_reach hsteps hops start).mem_iff]

/-- Where all steps end in a list, as many rounds as the list is long meet everything. -/
theorem mem_reach_iff_reflTransGen {M : List α} (hnext : ∀ x, ∀ y ∈ next x, y ∈ M) {a b : α}
    (ha : a ∈ M) :
    b ∈ reach next M.length a ↔ Relation.ReflTransGen (fun x y => y ∈ next x) a b := by
  rw [mem_reach_iff, ← exists_hops_iff]
  constructor
  · rintro ⟨n, -, h⟩
    exact ⟨n, h⟩
  · rintro ⟨n, h⟩
    obtain ⟨m, hm, -, hway⟩ := h.exists_lt_length hnext ha
    exact ⟨m, hm.le, hway⟩

end CallGraph
