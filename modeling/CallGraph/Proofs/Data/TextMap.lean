import CallGraph.Data.TextMap
import CallGraph.Proofs.Data.Catalogue
import CallGraph.Proofs.Data.Sorting

/-!
# Values and entries of maps

A map is a catalogue of its entries, so what is stored in it is found by its key.  A map has only
one form: it is determined by its values, and storing its entries one after the other, in their
order, gives the map again.

Main results:

- Theorem `TextMap.get?_insert`: a stored value is found under its key, and every other lookup
  answers as before.
- Theorem `TextMap.eq_of_get?_eq`: a map is determined by its values.
- Theorem `TextMap.ofList_entries`: a map is the map of its entries.
-/

namespace CallGraph.TextMap

/-! ## Values -/

variable {m n : TextMap}

theorem insertEntry_eq_insertItem (key value : String) (entries : List (String × String)) :
    insertEntry key value entries = Catalogue.insertItem (·.1) (key, value) entries := by
  induction entries with
  | nil => rfl
  | cons first rest ih => rw [insertEntry, Catalogue.insertItem, ih]

/-- A stored value is found under its key, and every other lookup answers as before. -/
theorem get?_insert (m : TextMap) (key value other : String) :
    (m.insert key value).get? other = if key = other then some value else m.get? other := by
  simp only [get?, insert, insertEntry_eq_insertItem, Catalogue.find?_insertItem]
  split <;> rfl

theorem mem_entries_iff {entry : String × String} :
    entry ∈ m.entries ↔ m.get? entry.1 = some entry.2 := by
  have hfind (found : String × String) : m.entries.find? (·.1 == entry.1) = some found ↔
      found ∈ m.entries ∧ found.1 = entry.1 :=
    Catalogue.find?_eq_some_iff (c := ⟨m.entries, m.ascending⟩)
  simp only [get?, Option.map_eq_some_iff, hfind]
  constructor
  · intro hentry
    exact ⟨entry, ⟨hentry, rfl⟩, rfl⟩
  · rintro ⟨found, ⟨hmem, hkey⟩, hvalue⟩
    obtain rfl : found = entry := Prod.ext hkey hvalue
    exact hmem

/-- A map is determined by its values. -/
theorem eq_of_get?_eq (h : ∀ key, m.get? key = n.get? key) : m = n := by
  refine ext (eq_of_mem_iff_of_pairwise_lt m.ascending n.ascending fun entry => ?_)
  rw [mem_entries_iff, mem_entries_iff, h]

/-- Storing a value that is there already changes nothing. -/
theorem insert_of_get?_eq_some {key value : String} (h : m.get? key = some value) :
    m.insert key value = m := by
  refine eq_of_get?_eq fun other => ?_
  rw [get?_insert]
  split
  · rename_i hother
    rw [← hother, h]
  · rfl

/-! ## Entries -/

/-- A value whose key comes after all others is stored at the end. -/
theorem insertEntry_of_forall_lt {key value : String} {entries : List (String × String)}
    (h : ∀ entry ∈ entries, entry.1 < key) :
    insertEntry key value entries = entries ++ [(key, value)] := by
  induction entries with
  | nil => rfl
  | cons first rest ih =>
    have hfirst : first.1 < key := h first (by simp)
    rw [insertEntry, if_neg hfirst.asymm, if_neg hfirst.ne',
      ih fun entry hentry => h entry (List.mem_cons_of_mem _ hentry), List.cons_append]

theorem entries_foldl_insert {m : TextMap} {entries : List (String × String)}
    (h : (m.entries ++ entries).Pairwise fun a b => a.1 < b.1) :
    (entries.foldl (fun m entry => m.insert entry.1 entry.2) m).entries = m.entries ++ entries := by
  induction entries generalizing m with
  | nil => simp
  | cons entry rest ih =>
    have hlast : ∀ other ∈ m.entries, other.1 < entry.1 := fun other hother =>
      (List.pairwise_append.1 h).2.2 other hother entry (by simp)
    have hentries : (m.insert entry.1 entry.2).entries = m.entries ++ [entry] :=
      insertEntry_of_forall_lt hlast
    rw [List.foldl_cons, ih]
    · rw [hentries, List.append_assoc, List.singleton_append]
    · rw [hentries, List.append_assoc, List.singleton_append]
      exact h

/-- A map is the map of its entries. -/
theorem ofList_entries (m : TextMap) : ofList m.entries = m :=
  ext (entries_foldl_insert m.ascending)

end CallGraph.TextMap
