import CallGraph.Data.Ordered
import Mathlib.Data.List.Sort
import Mathlib.Data.String.Basic

/-!
# Sorted lists

The answers of the library that are lists of ids, paths or records are sorted.  This module gives
what later proofs need of sorting: the members stay, the order is ascending, and a sorted list
without repetitions is determined by its members.

Main results:

- Theorems `mem_sortDistinct` and `pairwise_sortDistinct`: sorting without repetitions keeps the
  members and is strictly ascending.
- Theorem `exists_placed_sortByText`: items with one text stay in the order in which they came.
- Theorem `pairwise_sortPaths`: distinct paths are sorted strictly.
-/

namespace CallGraph

/-! ## Records -/

/-- Sorting by texts keeps all items. -/
theorem perm_sortByText {α : Type} (text : α → String) (items : List α) :
    (sortByText text items).Perm items :=
  List.mergeSort_perm items _

/-- Items sorted by texts stand in ascending order. -/
theorem pairwise_sortByText {α : Type} (text : α → String) (items : List α) :
    (sortByText text items).Pairwise (fun a b => text a ≤ text b) := by
  have h : (sortByText text items).Pairwise (fun a b => decide (text a ≤ text b) = true) := by
    apply List.pairwise_mergeSort
    · intro a b c hab hbc
      simp only [decide_eq_true_eq] at hab hbc ⊢
      exact le_trans hab hbc
    · intro a b
      simp only [Bool.or_eq_true, decide_eq_true_eq]
      exact le_total _ _
  exact h.imp fun hab => by simpa using hab

/-- Items that are sorted already stay as they are. -/
theorem sortByText_of_pairwise {α : Type} {text : α → String} {items : List α}
    (h : items.Pairwise fun a b => text a ≤ text b) : sortByText text items = items :=
  List.mergeSort_of_pairwise (h.imp fun hab => by simpa using hab)

/-- Sorting and writing items in another form with the same text can be done in any order. -/
theorem sortByText_map {α β : Type} {text : α → String} {textOf : β → String} {f : α → β}
    (htext : ∀ item, textOf (f item) = text item) (items : List α) :
    sortByText textOf (items.map f) = (sortByText text items).map f := by
  refine (List.map_mergeSort fun a _ b _ => ?_).symm
  rw [htext, htext]

/-- Records whose texts are strictly ascending are determined by which they are. -/
theorem eq_of_mem_iff_of_pairwise_lt {α : Type} {text : α → String} {items others : List α}
    (hitems : items.Pairwise fun a b => text a < text b)
    (hothers : others.Pairwise fun a b => text a < text b) (h : ∀ a, a ∈ items ↔ a ∈ others) :
    items = others := by
  have : Std.Irrefl fun a b : α => text a < text b := ⟨fun _ => lt_irrefl _⟩
  have : Std.Antisymm fun a b : α => text a < text b := ⟨fun _ _ h h' => absurd h' h.asymm⟩
  exact hitems.eq_of_mem_iff hothers h

/-- If no two different items have one text, sorting does not see the order in which they came. -/
theorem sortByText_eq_of_perm {α : Type} {text : α → String} {items reordered : List α}
    (hperm : items.Perm reordered) (htext : ∀ a ∈ items, ∀ b ∈ items, text a = text b → a = b) :
    sortByText text items = sortByText text reordered := by
  have hsorted : (sortByText text items).Perm (sortByText text reordered) :=
    (perm_sortByText text items).trans (hperm.trans (perm_sortByText text reordered).symm)
  refine List.Perm.eq_of_pairwise ?_ (pairwise_sortByText text items)
    (pairwise_sortByText text reordered) hsorted
  intro a b ha hb hab hba
  refine htext a ((perm_sortByText text items).mem_iff.1 ha) b ?_ (le_antisymm hab hba)
  exact (perm_sortByText text items).mem_iff.1 (hsorted.mem_iff.2 hb)

/-- Sorting keeps items with one text in the order in which they came: with their places in the
list, the sorted items are strictly ascending by text and place. -/
theorem exists_placed_sortByText {α : Type} (text : α → String) (items : List α) :
    ∃ placed : List (α × Nat), placed.map (·.1) = sortByText text items ∧
      (∀ item place, (item, place) ∈ placed ↔ items[place]? = some item) ∧
      placed.Pairwise fun a b =>
        text a.1 < text b.1 ∨ text a.1 = text b.1 ∧ a.2 < b.2 := by
  let le : α → α → Bool := fun a b => decide (text a ≤ text b)
  have htrans : ∀ a b c : α, le a b → le b c → le a c := by
    intro a b c hab hbc
    simp only [le, decide_eq_true_eq] at hab hbc ⊢
    exact le_trans hab hbc
  have htotal : ∀ a b : α, le a b || le b a := by
    intro a b
    simp only [le, Bool.or_eq_true, decide_eq_true_eq]
    exact le_total _ _
  have hperm := List.mergeSort_perm items.zipIdx (List.zipIdxLE le)
  refine ⟨items.zipIdx.mergeSort (List.zipIdxLE le), List.mergeSort_zipIdx, ?_, ?_⟩
  · intro item place
    rw [hperm.mem_iff, List.mem_zipIdx_iff_getElem?]
  · have hsorted := List.pairwise_mergeSort (List.zipIdxLE_trans htrans)
      (List.zipIdxLE_total htotal) items.zipIdx
    have hplaces : ((items.zipIdx.mergeSort (List.zipIdxLE le)).map (·.2)).Nodup := by
      rw [(hperm.map (·.2)).nodup_iff, List.zipIdx_map_snd]
      exact List.nodup_range'
    refine (hsorted.and (List.pairwise_map.1 hplaces)).imp ?_
    rintro ⟨a, i⟩ ⟨b, j⟩ ⟨hle, hne⟩
    simp only [List.zipIdxLE, le, decide_eq_true_eq] at hle
    split at hle
    · rename_i hab
      split at hle
      · rename_i hba
        have hplace : i ≤ j := by simpa using hle
        exact .inr ⟨le_antisymm hab hba, lt_of_le_of_ne hplace hne⟩
      · rename_i hba
        exact .inl (lt_of_le_not_ge hab hba)
    · cases hle

/-! ## Texts -/

/-- Sorting texts keeps all of them. -/
theorem perm_sortTexts (texts : List String) : (sortTexts texts).Perm texts :=
  perm_sortByText id texts

@[simp]
theorem mem_sortTexts {text : String} {texts : List String} :
    text ∈ sortTexts texts ↔ text ∈ texts :=
  (perm_sortTexts texts).mem_iff

/-- Sorted texts do not depend on the order in which they came. -/
theorem sortTexts_eq_of_perm {texts reordered : List String} (h : texts.Perm reordered) :
    sortTexts texts = sortTexts reordered :=
  sortByText_eq_of_perm h fun _ _ _ _ => id

/-- Sorted texts stand in ascending order. -/
theorem pairwise_sortTexts (texts : List String) : (sortTexts texts).Pairwise (· ≤ ·) :=
  pairwise_sortByText id texts

/-- Distinct texts are sorted strictly. -/
theorem pairwise_sortTexts_of_nodup {texts : List String} (h : texts.Nodup) :
    (sortTexts texts).Pairwise (· < ·) :=
  ((pairwise_sortTexts texts).and ((perm_sortTexts texts).nodup_iff.2 h)).imp fun hab =>
    lt_of_le_of_ne hab.1 hab.2

/-! ## Texts without repetitions -/

/-- The loop below `eraseReps` keeps the members. -/
theorem mem_eraseRepsBy_loop {text first : String} {rest done : List String} :
    text ∈ List.eraseRepsBy.loop (· == ·) first rest done ↔
      text ∈ done ∨ text = first ∨ text ∈ rest := by
  induction rest generalizing first done with
  | nil => simp [List.eraseRepsBy.loop, or_comm]
  | cons next rest ih =>
    rw [List.eraseRepsBy.loop]
    split
    · rename_i heq
      have hsame : first = next := by simpa using heq
      rw [ih, hsame]
      simp
    · rw [ih]
      simp only [List.mem_cons]
      tauto

/-- On an ascending list, the loop below `eraseReps` goes on with a strictly ascending one.  What
is done is in reverse order and lies before everything that is left. -/
theorem pairwise_eraseRepsBy_loop {first : String} {rest done : List String}
    (hrest : (first :: rest).Pairwise (· ≤ ·)) (hdone : (first :: done).Pairwise (· > ·)) :
    (List.eraseRepsBy.loop (· == ·) first rest done).Pairwise (· < ·) := by
  induction rest generalizing first done with
  | nil => exact List.pairwise_reverse.2 hdone
  | cons next rest ih =>
    obtain ⟨hfirst, htail⟩ := List.pairwise_cons.1 hrest
    rw [List.eraseRepsBy.loop]
    split
    · refine ih ?_ hdone
      exact List.pairwise_cons.2
        ⟨fun text h => hfirst text (List.mem_cons_of_mem _ h), (List.pairwise_cons.1 htail).2⟩
    · rename_i hne
      have hlt : first < next := by
        refine lt_of_le_of_ne (hfirst next (by simp)) ?_
        simpa using hne
      refine ih htail (List.pairwise_cons.2 ⟨?_, hdone⟩)
      intro text h
      rcases List.mem_cons.1 h with rfl | h
      · exact hlt
      · exact lt_trans ((List.pairwise_cons.1 hdone).1 text h) hlt

/-- Sorting distinct texts keeps each of them. -/
@[simp]
theorem mem_sortDistinct {text : String} {texts : List String} :
    text ∈ sortDistinct texts ↔ text ∈ texts := by
  have hsame : text ∈ sortTexts texts ↔ text ∈ texts := mem_sortTexts
  rw [← hsame, sortDistinct, List.eraseReps]
  cases sortTexts texts with
  | nil => simp [List.eraseRepsBy]
  | cons first rest => simp [List.eraseRepsBy, mem_eraseRepsBy_loop]

/-- Sorted distinct texts stand in strictly ascending order. -/
theorem pairwise_sortDistinct (texts : List String) :
    (sortDistinct texts).Pairwise (· < ·) := by
  have h := pairwise_sortTexts texts
  rw [sortDistinct, List.eraseReps]
  cases hsorted : sortTexts texts with
  | nil => simp [List.eraseRepsBy]
  | cons first rest =>
    rw [hsorted] at h
    exact pairwise_eraseRepsBy_loop h (List.pairwise_singleton _ _)

/-- Texts that are sorted without repetitions depend on nothing but which texts they are. -/
theorem sortDistinct_eq_of_mem_iff {texts others : List String}
    (h : ∀ text, text ∈ texts ↔ text ∈ others) : sortDistinct texts = sortDistinct others := by
  refine (pairwise_sortDistinct texts).eq_of_mem_iff (pairwise_sortDistinct others) fun text => ?_
  rw [mem_sortDistinct, mem_sortDistinct, h]

theorem nodup_sortDistinct (texts : List String) : (sortDistinct texts).Nodup :=
  (pairwise_sortDistinct texts).imp fun h => ne_of_lt h

/-- If there are no repetitions, sorting is all that is done. -/
theorem perm_sortDistinct_of_nodup {texts : List String} (h : texts.Nodup) :
    (sortDistinct texts).Perm texts :=
  (List.perm_ext_iff_of_nodup (nodup_sortDistinct texts) h).2 fun _ => mem_sortDistinct

/-! ## Paths -/

/-- Sorting paths keeps all of them. -/
theorem perm_sortPaths (paths : List (List String)) : (sortPaths paths).Perm paths :=
  List.mergeSort_perm paths _

@[simp]
theorem mem_sortPaths {path : List String} {paths : List (List String)} :
    path ∈ sortPaths paths ↔ path ∈ paths :=
  (perm_sortPaths paths).mem_iff

/-- Distinct paths are sorted strictly. -/
theorem pairwise_sortPaths {paths : List (List String)} (h : paths.Nodup) :
    (sortPaths paths).Pairwise (· < ·) := by
  have hsorted : (sortPaths paths).Pairwise (fun a b => (!decide (b < a)) = true) := by
    apply List.pairwise_mergeSort
    · intro a b c hab hbc
      simp only [Bool.not_eq_true', decide_eq_false_iff_not, not_lt] at hab hbc ⊢
      exact le_trans hab hbc
    · intro a b
      simp only [Bool.or_eq_true, Bool.not_eq_true', decide_eq_false_iff_not, not_lt]
      exact le_total a b
  have hnodup : (sortPaths paths).Nodup := (perm_sortPaths paths).nodup_iff.2 h
  refine (hsorted.and hnodup).imp ?_
  intro a b hab
  simp only [Bool.not_eq_true', decide_eq_false_iff_not, not_lt] at hab
  exact lt_of_le_of_ne hab.1 hab.2

end CallGraph
