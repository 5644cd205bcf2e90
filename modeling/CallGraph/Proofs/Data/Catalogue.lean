import CallGraph.Data.Catalogue
import Mathlib.Data.String.Basic

/-!
# Lookups in catalogues

What an inserted record does to the lookups of a catalogue, and how lookups, keys and records hang
together.

Main results:

- Theorem `Catalogue.find?_insert`: an inserted record is found under its key, and every other
  lookup answers as before.
- Theorem `Catalogue.find?_eq_some_iff`: a lookup answers exactly the record with the key.
- Theorem `Catalogue.find?_erase`: a record that is taken out is not found any more.
- Theorem `Catalogue.map_insertItem`: the same records in another form are stored in the same way.
-/

namespace CallGraph
namespace Catalogue

variable {α β : Type} {key : α → String} {otherKey : β → String}

@[simp]
theorem find?_empty (k : String) : (empty : Catalogue key).find? k = none :=
  rfl

/-! ## Lookups and records -/

/-- A lookup in an ascending list answers exactly the record with the key. -/
theorem find?_eq_some_iff {c : Catalogue key} {k : String} {a : α} :
    c.find? k = some a ↔ a ∈ c.items ∧ key a = k := by
  constructor
  · intro h
    exact ⟨List.mem_of_find?_eq_some h, by simpa using List.find?_some h⟩
  · rintro ⟨hmem, rfl⟩
    obtain ⟨before, after, hsplit⟩ := List.append_of_mem hmem
    have hascending := c.ascending
    rw [hsplit] at hascending
    rw [find?, hsplit, List.find?_append]
    have hbefore : before.find? (key · == key a) = none := by
      rw [List.find?_eq_none]
      intro b hb
      have hlt := (List.pairwise_append.1 hascending).2.2 b hb a (by simp)
      simpa using ne_of_lt hlt
    rw [hbefore]
    simp

/-- A record is found under its own key. -/
theorem key_eq_of_find? {c : Catalogue key} (k : String) (a : α) (h : c.find? k = some a) :
    key a = k :=
  (find?_eq_some_iff.1 h).2

theorem contains_eq_isSome_find? (c : Catalogue key) (k : String) :
    c.contains k = (c.find? k).isSome := by
  rw [contains, find?, Bool.eq_iff_iff, List.any_eq_true, List.find?_isSome]

theorem mem_keys_iff {c : Catalogue key} {k : String} :
    k ∈ c.keys ↔ ∃ a, c.find? k = some a := by
  simp only [keys, List.mem_map, find?_eq_some_iff]

theorem pairwise_keys (c : Catalogue key) : c.keys.Pairwise (· < ·) :=
  List.pairwise_map.2 c.ascending

@[simp]
theorem length_keys (c : Catalogue key) : c.keys.length = c.size :=
  List.length_map key

/-! ## Inserting a record -/

/-- An inserted record is found in place of any other with its key, by induction on the records. -/
theorem find?_insertItem (a : α) (k : String) (items : List α) :
    (insertItem key a items).find? (key · == k) =
      if key a = k then some a else items.find? (key · == k) := by
  induction items with
  | nil => by_cases h : key a = k <;> simp [insertItem, h]
  | cons b rest ih =>
    simp only [insertItem]
    split
    · by_cases h : key a = k <;> simp [h]
    · split
      · rename_i hsame
        by_cases h : key a = k
        · simp [h]
        · simp [h, hsame ▸ h]
      · rename_i hother
        rw [List.find?_cons, ih]
        by_cases h : key a = k
        · have hne : (key b == k) = false := by
            simpa using fun hb => hother (h.trans hb.symm)
          simp [h, hne]
        · simp [h, List.find?_cons]

/-- An inserted record is found under its key, and every other lookup answers as before. -/
theorem find?_insert (c : Catalogue key) (a : α) (k : String) :
    (c.insert a).find? k = if key a = k then some a else c.find? k :=
  find?_insertItem a k c.items

/-! ## Taking out a record -/

/-- A record that is taken out is not found, and every other lookup answers as before. -/
theorem find?_erase (c : Catalogue key) (taken k : String) :
    (c.erase taken).find? k = if taken = k then none else c.find? k := by
  rw [find?, erase, List.find?_filter]
  split
  · rename_i hsame
    subst hsame
    simp
  · rename_i hother
    rw [find?]
    congr 1
    funext a
    by_cases ha : key a = k
    · simp [ha, Ne.symm hother]
    · simp [ha]

/-! ## Records written in another form -/

/-- Storing a record and writing it in another form with the same key can be done in any order. -/
theorem map_insertItem {f : α → β} (hkey : ∀ a, otherKey (f a) = key a) (a : α) (items : List α) :
    (insertItem key a items).map f = insertItem otherKey (f a) (items.map f) := by
  induction items with
  | nil => rfl
  | cons b rest ih =>
    rw [insertItem, List.map_cons, insertItem, hkey, hkey]
    split
    · rfl
    · split
      · rfl
      · rw [List.map_cons, ih]

end Catalogue
end CallGraph
