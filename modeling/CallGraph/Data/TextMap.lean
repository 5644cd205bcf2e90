/-!
# Maps from texts to texts

A map is kept as the list of its entries in ascending order of their keys.  A map so has exactly
one form, and two maps are equal when they hold the same entries.
-/

namespace CallGraph

/-- A finite map from texts to texts. -/
structure TextMap where
  entries : List (String × String)
  ascending : entries.Pairwise (fun a b => a.1 < b.1)
deriving DecidableEq, Repr

namespace TextMap

/-- The map without entries. -/
def empty : TextMap where
  entries := []
  ascending := .nil

instance : Inhabited TextMap := ⟨empty⟩

/-- The value stored under `key`. -/
def get? (m : TextMap) (key : String) : Option String :=
  (m.entries.find? (·.1 == key)).map (·.2)

/-- The number of entries. -/
def size (m : TextMap) : Nat :=
  m.entries.length

/-- The keys in ascending order. -/
def keys (m : TextMap) : List String :=
  m.entries.map (·.1)

/-- Stores a value in an ascending list of entries. -/
def insertEntry (key value : String) : List (String × String) → List (String × String)
  | [] => [(key, value)]
  | entry :: rest =>
      if key < entry.1 then (key, value) :: entry :: rest
      else if key = entry.1 then (key, value) :: rest
      else entry :: insertEntry key value rest

theorem mem_insertEntry {key value : String} {entry : String × String}
    {entries : List (String × String)} (h : entry ∈ insertEntry key value entries) :
    entry = (key, value) ∨ entry ∈ entries := by
  induction entries with
  | nil => simpa [insertEntry] using h
  | cons first rest ih =>
    simp only [insertEntry] at h
    split at h
    · simpa using h
    · split at h
      · simp only [List.mem_cons] at h ⊢
        exact h.imp_right .inr
      · simp only [List.mem_cons] at h ⊢
        rcases h with h | h
        · exact .inr (.inl h)
        · exact (ih h).imp_right .inr

theorem ascending_insertEntry (key value : String) {entries : List (String × String)}
    (h : entries.Pairwise (fun a b => a.1 < b.1)) :
    (insertEntry key value entries).Pairwise (fun a b => a.1 < b.1) := by
  induction entries with
  | nil => simp [insertEntry]
  | cons first rest ih =>
    obtain ⟨hfirst, hrest⟩ := List.pairwise_cons.1 h
    simp only [insertEntry]
    split
    · rename_i hlt
      refine List.pairwise_cons.2 ⟨?_, h⟩
      intro entry hmem
      rcases List.mem_cons.1 hmem with rfl | hmem
      · exact hlt
      · exact String.lt_trans hlt (hfirst entry hmem)
    · split
      · rename_i heq
        subst heq
        exact List.pairwise_cons.2 ⟨hfirst, hrest⟩
      · rename_i hnlt hne
        refine List.pairwise_cons.2 ⟨?_, ih hrest⟩
        intro entry hmem
        rcases mem_insertEntry hmem with rfl | hmem
        · exact Std.lt_of_le_of_ne (String.not_lt.1 hnlt) (Ne.symm hne)
        · exact hfirst entry hmem

/-- Stores a value, in place of any value stored under the same key before. -/
def insert (m : TextMap) (key value : String) : TextMap where
  entries := insertEntry key value m.entries
  ascending := ascending_insertEntry key value m.ascending

/-- The map of a list of entries, of which later ones replace earlier ones. -/
def ofList (entries : List (String × String)) : TextMap :=
  entries.foldl (fun m entry => m.insert entry.1 entry.2) empty

/-- A map with the same entries is the same map. -/
theorem ext {m n : TextMap} (h : m.entries = n.entries) : m = n := by
  cases m
  cases n
  simp_all

end TextMap

end CallGraph
