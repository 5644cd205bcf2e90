/-!
# Catalogues

A catalogue holds records that carry their keys, at most one for each key, in ascending order of
the keys.  A catalogue so has exactly one form, and two catalogues are equal when they hold the
same records.
-/

namespace CallGraph

/-- Records in ascending order of their keys, at most one for each key. -/
structure Catalogue (key : α → String) where
  items : List α
  ascending : items.Pairwise (fun a b => key a < key b)

namespace Catalogue

variable {α : Type} {key : α → String}

/-- The catalogue without records. -/
def empty : Catalogue key where
  items := []
  ascending := .nil

instance : Inhabited (Catalogue key) := ⟨empty⟩

/-- The record with the given key. -/
def find? (c : Catalogue key) (k : String) : Option α :=
  c.items.find? (key · == k)

/-- Whether there is a record with the given key. -/
def contains (c : Catalogue key) (k : String) : Bool :=
  c.items.any (key · == k)

/-- The number of records. -/
def size (c : Catalogue key) : Nat :=
  c.items.length

/-- The keys in ascending order. -/
def keys (c : Catalogue key) : List String :=
  c.items.map key

/-! ## Storing records -/

/-- Stores a record in an ascending list. -/
def insertItem (key : α → String) (a : α) : List α → List α
  | [] => [a]
  | b :: rest =>
      if key a < key b then a :: b :: rest
      else if key a = key b then a :: rest
      else b :: insertItem key a rest

theorem mem_of_mem_insertItem {a x : α} {items : List α} (h : x ∈ insertItem key a items) :
    x = a ∨ x ∈ items := by
  induction items with
  | nil => simpa [insertItem] using h
  | cons b rest ih =>
    simp only [insertItem] at h
    split at h
    · simpa using h
    · split at h
      · simp only [List.mem_cons] at h ⊢
        exact h.imp_right .inr
      · simp only [List.mem_cons] at h ⊢
        rcases h with h | h
        · exact .inr (.inl h)
        · exact (ih h).imp_right .inr

theorem ascending_insertItem (a : α) {items : List α}
    (h : items.Pairwise (fun a b => key a < key b)) :
    (insertItem key a items).Pairwise (fun a b => key a < key b) := by
  induction items with
  | nil => simp [insertItem]
  | cons b rest ih =>
    obtain ⟨hb, hrest⟩ := List.pairwise_cons.1 h
    simp only [insertItem]
    split
    · rename_i hlt
      refine List.pairwise_cons.2 ⟨?_, h⟩
      intro x hx
      rcases List.mem_cons.1 hx with rfl | hx
      · exact hlt
      · exact String.lt_trans hlt (hb x hx)
    · split
      · rename_i heq
        exact List.pairwise_cons.2 ⟨fun x hx => heq ▸ hb x hx, hrest⟩
      · rename_i hnlt hne
        refine List.pairwise_cons.2 ⟨?_, ih hrest⟩
        intro x hx
        rcases mem_of_mem_insertItem hx with rfl | hx
        · exact Std.lt_of_le_of_ne (String.not_lt.1 hnlt) (Ne.symm hne)
        · exact hb x hx

/-- Stores a record, in place of any record with the same key. -/
def insert (c : Catalogue key) (a : α) : Catalogue key where
  items := insertItem key a c.items
  ascending := ascending_insertItem a c.ascending

/-- Takes out the record with the given key, if there is one. -/
def erase (c : Catalogue key) (k : String) : Catalogue key where
  items := c.items.filter (key · != k)
  ascending := c.ascending.filter _

/-- The catalogue of a list of records, of which later ones replace earlier ones. -/
def ofList (items : List α) : Catalogue key :=
  items.foldl insert empty

end Catalogue

end CallGraph
