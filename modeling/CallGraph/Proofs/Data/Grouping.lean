import Mathlib.Algebra.GroupWithZero.Nat
import Mathlib.Data.List.Nodup
import Mathlib.Data.List.Perm.Basic

/-!
# Items by key

Items that all have different keys are found by these.  Other items are grouped by a key, one group
for each of the keys.  If the keys differ from each other and every item has one of them, each item
lies in exactly one group, so the groups together hold all items and their sizes sum to the number
of items.

Main results:

- Theorem `find?_key_eq_some_iff`: what is found by a key.
- Theorem `perm_flatMap_filter`: the groups hold all items, each as often as before.
- Theorem `sum_length_filter`: the sizes of the groups.
-/

namespace CallGraph

variable {α β : Type} [DecidableEq β] {key : α → β} {keys : List β} {items : List α}

/-- If no two items have one key, an item is what is found by its key. -/
theorem find?_key_eq_some_iff (hitems : (items.map key).Nodup) {k : β} {item : α} :
    items.find? (key · == k) = some item ↔ item ∈ items ∧ key item = k := by
  constructor
  · intro h
    exact ⟨List.mem_of_find?_eq_some h, by simpa using List.find?_some h⟩
  · rintro ⟨hmem, rfl⟩
    have hsome : (items.find? (key · == key item)).isSome :=
      List.find?_isSome.2 ⟨item, hmem, beq_self_eq_true _⟩
    obtain ⟨found, hfound⟩ := Option.isSome_iff_exists.1 hsome
    have hkey : key found = key item := by simpa using List.find?_some hfound
    have hsame := List.inj_on_of_nodup_map hitems (List.mem_of_find?_eq_some hfound) hmem hkey
    rw [hfound, hsame]

/-- The groups of some of the keys hold the items that have one of these keys. -/
theorem perm_flatMap_filter_of_nodup (hkeys : keys.Nodup) (key : α → β) (items : List α) :
    (keys.flatMap fun k => items.filter (key · == k)).Perm
      (items.filter fun item => keys.contains (key item)) := by
  induction keys with
  | nil => simp
  | cons k rest ih =>
    obtain ⟨hnew, hrest⟩ := List.nodup_cons.1 hkeys
    have hothers := List.filter_append_perm (key · == k)
      (items.filter fun item => (k :: rest).contains (key item))
    rw [List.filter_filter, List.filter_filter] at hothers
    rw [List.flatMap_cons]
    refine (List.Perm.append (.of_eq ?_) ((ih hrest).trans (.of_eq ?_))).trans hothers
    · refine List.filter_congr fun item _ => ?_
      by_cases hkey : key item = k
      · simp [hkey]
      · simp [hkey]
    · -- An item with the first key is in none of the later groups.
      refine List.filter_congr fun item _ => ?_
      by_cases hkey : key item = k
      · simp [hkey, hnew]
      · simp [hkey]

/-- Items whose keys are all among the given ones are divided up into the groups of these. -/
theorem perm_flatMap_filter (hkeys : keys.Nodup) (hitems : ∀ item ∈ items, key item ∈ keys) :
    (keys.flatMap fun k => items.filter (key · == k)).Perm items := by
  have hgroups := perm_flatMap_filter_of_nodup hkeys key items
  rwa [List.filter_eq_self.2 fun item hitem => List.contains_iff_mem.2 (hitems item hitem)]
    at hgroups

/-- The sizes of the groups add up to the number of items. -/
theorem sum_length_filter (hkeys : keys.Nodup) (hitems : ∀ item ∈ items, key item ∈ keys) :
    (keys.map fun k => (items.filter (key · == k)).length).sum = items.length := by
  rw [← (perm_flatMap_filter hkeys hitems).length_eq, List.length_flatMap]

end CallGraph
