import CallGraph.Proofs.Data.Catalogue
import CallGraph.Proofs.Data.Runs
import CallGraph.Proofs.Store.Row
import CallGraph.Store.Database
import CallGraph.Store.Memory

/-!
# What a store holds

A store holds some objects if it answers every question as a store in memory with these objects
does.  A database does so as long as its rows are the rows of the objects, and storing an object and
taking one out keep that up.

Main results:

- Definition `ObjectStore.Holds`: a store that answers for given contents.
- Theorems `ObjectStore.exists_findAll_iff` and `ObjectStore.find?_findAll`: when a store finds
  several objects, and which.
- Theorems `Database.Mirrors.put` and `Database.Mirrors.remove`: a database follows a store in
  memory.
- Theorem `Database.Mirrors.holds`: a database answers for the contents of the store it follows.
-/

namespace CallGraph

namespace ObjectStore

/-- The store answers every question as a store in memory with the given contents does. -/
structure Holds {σ : Type} [ObjectStore σ] (store : σ) (contents : MemoryStore) : Prop where
  find_eq : ∀ id, find store id = .ok (contents.find? id)
  load_eq : ∀ withSource, load store withSource =
    .ok (if withSource then contents.items else contents.items.map CodeObject.lightweight)
  ids_eq : ids store = contents.keys
  stats_eq : stats store = stats contents

/-- A store in memory holds its contents. -/
theorem holds_self (contents : MemoryStore) : Holds contents contents where
  find_eq _ := rfl
  load_eq _ := rfl
  ids_eq := rfl
  stats_eq := rfl

/-! ## Looking for several objects -/

section

variable {σ : Type} [ObjectStore σ] {store : σ} {known : String → Option CodeObject}
  {found all : Catalogue CodeObject.id} {wanted : List String}

/-- What is found with one id more. -/
def lookFor (store : σ) (found : Catalogue CodeObject.id) (id : String) :
    Except StoreError (Catalogue CodeObject.id) := do
  match ← find store id with
  | some object => return found.insert object
  | none => return found

/-- Looking for an id adds its object to those that were found, if there is one. -/
theorem lookFor_eq_ok {id : String} : lookFor store found id = .ok all ↔
    ∃ answer, find store id = .ok answer ∧ all = answer.elim found found.insert := by
  rw [lookFor, bind_eq_ok]
  refine exists_congr fun answer => and_congr_right fun _ => ?_
  cases answer with
  | none => exact ⟨fun h => (Except.ok.inj h).symm, fun h => congrArg Except.ok h.symm⟩
  | some object => exact ⟨fun h => (Except.ok.inj h).symm, fun h => congrArg Except.ok h.symm⟩

/-- Several ids are looked for without failure if each of them is. -/
theorem exists_foldlM_lookFor_iff : (∃ all, wanted.foldlM (lookFor store) found = .ok all) ↔
    ∀ id ∈ wanted, ∃ answer, find store id = .ok answer := by
  induction wanted generalizing found with
  | nil => exact ⟨fun _ => by simp, fun _ => ⟨found, rfl⟩⟩
  | cons first rest ih =>
    simp only [foldlM_cons_eq_ok, List.forall_mem_cons, lookFor_eq_ok]
    constructor
    · rintro ⟨all, after, ⟨answer, hanswer, -⟩, hall⟩
      exact ⟨⟨answer, hanswer⟩, ih.1 ⟨all, hall⟩⟩
    · rintro ⟨⟨answer, hanswer⟩, hrest⟩
      obtain ⟨all, hall⟩ := ih.2 hrest
      exact ⟨all, _, ⟨answer, hanswer, rfl⟩, hall⟩

/-- Several objects are found if and only if each of them can be read. -/
theorem exists_findAll_iff : (∃ all, findAll store wanted = .ok all) ↔
    ∀ id ∈ wanted, ∃ answer, find store id = .ok answer :=
  exists_foldlM_lookFor_iff

/-- Objects that were found before stay, and those with the given ids are added. -/
theorem find?_foldlM_lookFor
    (hknown : ∀ id answer, find store id = .ok answer → answer = known id)
    (hid : ∀ id object, known id = some object → object.id = id)
    (hfound : ∀ id, known id = none → found.find? id = none)
    (h : wanted.foldlM (lookFor store) found = .ok all) (id : String) :
    all.find? id = if id ∈ wanted then known id else found.find? id := by
  induction wanted generalizing found with
  | nil =>
    rw [Except.ok.inj h]
    simp
  | cons first rest ih =>
    obtain ⟨after, hfirst, hrest⟩ := foldlM_cons_eq_ok.1 h
    obtain ⟨answer, hanswer, rfl⟩ := lookFor_eq_ok.1 hfirst
    have hanswer := hknown first answer hanswer
    subst hanswer
    cases hobject : known first with
    | none =>
      rw [hobject, Option.elim_none] at hrest
      rw [ih hfound hrest]
      by_cases hsame : id = first
      · subst hsame
        simp [hobject, hfound _ hobject]
      · simp [hsame]
    | some object =>
      have hkey := hid first object hobject
      rw [hobject, Option.elim_some] at hrest
      have hafter (other : String) (hother : known other = none) :
          (found.insert object).find? other = none := by
        rw [Catalogue.find?_insert, hfound other hother]
        refine if_neg fun hsame => ?_
        rw [← hsame, hkey, hobject] at hother
        cases hother
      rw [ih hafter hrest, Catalogue.find?_insert, hkey]
      by_cases hsame : id = first
      · subst hsame
        simp [hobject]
      · simp [hsame, Ne.symm hsame]

/-- A store that answers for each id with what is known of it finds just that. -/
theorem find?_findAll (hknown : ∀ id answer, find store id = .ok answer → answer = known id)
    (hid : ∀ id object, known id = some object → object.id = id)
    (h : findAll store wanted = .ok all) (id : String) :
    all.find? id = if id ∈ wanted then known id else none :=
  find?_foldlM_lookFor hknown hid (fun _ _ => rfl) h id

end

variable {σ : Type} [ObjectStore σ] {store : σ} {contents : MemoryStore}

/-- What a store finds is what it holds. -/
theorem Holds.eq_of_find (h : Holds store contents) {id : String} {answer : Option CodeObject}
    (hanswer : find store id = .ok answer) : answer = contents.find? id :=
  Except.ok.inj (hanswer.symm.trans (h.find_eq id))

/-- A store finds exactly the objects that it holds under the ids that are asked for. -/
theorem Holds.exists_findAll (h : Holds store contents) (wanted : List String) :
    ∃ found, findAll store wanted = .ok found ∧
      ∀ id, found.find? id = if id ∈ wanted then contents.find? id else none := by
  obtain ⟨found, hfound⟩ := exists_findAll_iff.2 fun id (_ : id ∈ wanted) => ⟨_, h.find_eq id⟩
  exact ⟨found, hfound, find?_findAll (fun _ _ => h.eq_of_find) Catalogue.key_eq_of_find? hfound⟩

/-- Two stores with the same contents give the same objects. -/
theorem Holds.findAll_eq (h : Holds store contents) (wanted : List String) :
    findAll store wanted = findAll contents wanted := by
  have hfind : find store = find contents := funext h.find_eq
  rw [findAll, findAll, hfind]

end ObjectStore

namespace Database

open ObjectStore

/-- The rows of the database are those of the objects in the store, which are in range. -/
structure Mirrors (db : Database) (contents : MemoryStore) : Prop where
  items_eq : db.rows.items = contents.items.map Row.ofObject
  inRange : ∀ object ∈ contents.items, object.InRange

variable {db : Database} {contents : MemoryStore}

/-- An empty database mirrors an empty store. -/
theorem mirrors_empty : Mirrors empty (.empty : MemoryStore) where
  items_eq := rfl
  inRange _ h := absurd h List.not_mem_nil

/-! ## Changes -/

/-- Storing an object in both keeps them alike. -/
theorem Mirrors.put (h : db.Mirrors contents) {object : CodeObject} (hobject : object.InRange) :
    (put db object).Mirrors (put contents object) where
  items_eq := by
    change Catalogue.insertItem Row.id (Row.ofObject object) db.rows.items =
      (Catalogue.insertItem CodeObject.id object contents.items).map Row.ofObject
    rw [h.items_eq]
    exact (Catalogue.map_insertItem (fun _ => rfl) object _).symm
  inRange other hother := by
    rcases Catalogue.mem_of_mem_insertItem hother with rfl | hother
    · exact hobject
    · exact h.inRange other hother

/-- So does storing several. -/
theorem Mirrors.putAll (h : db.Mirrors contents) {objects : List CodeObject}
    (hobjects : ∀ object ∈ objects, object.InRange) :
    (putAll db objects).Mirrors (putAll contents objects) := by
  induction objects generalizing db contents with
  | nil => exact h
  | cons object rest ih =>
    exact ih (h.put (hobjects object (by simp)))
      fun other hother => hobjects other (List.mem_cons_of_mem _ hother)

/-- The same ids are in both. -/
theorem Mirrors.contains_eq (h : db.Mirrors contents) (id : String) :
    db.rows.contains id = contents.contains id := by
  rw [Catalogue.contains, h.items_eq, List.any_map]
  rfl

/-- Taking out an object is answered alike. -/
theorem Mirrors.remove (h : db.Mirrors contents) (id : String) :
    (remove db id).1.Mirrors (remove contents id).1 ∧
      (remove db id).2 = (remove contents id).2 := by
  refine ⟨⟨?_, fun other hother => h.inRange other (List.mem_of_mem_filter hother)⟩,
    h.contains_eq id⟩
  change db.rows.items.filter _ = (contents.items.filter _).map Row.ofObject
  rw [h.items_eq, List.filter_map]
  rfl

/-! ## Questions -/

/-- The row under an id is read as the object. -/
theorem Mirrors.find_eq (h : db.Mirrors contents) (id : String) :
    find db id = .ok (contents.find? id) := by
  have hrow : db.rows.find? id = (contents.find? id).map Row.ofObject := by
    rw [Catalogue.find?, h.items_eq, List.find?_map]
    rfl
  cases hfound : contents.find? id with
  | none =>
    rw [hfound, Option.map_none] at hrow
    simp only [find, hrow]
  | some object =>
    have hobject := h.inRange object (Catalogue.find?_eq_some_iff.1 hfound).1
    rw [hfound, Option.map_some] at hrow
    simp only [find, hrow, Row.read_ofObject hobject]
    rfl

/-- All rows are read as the objects, with or without source and literals. -/
theorem Mirrors.load_eq (h : db.Mirrors contents) (withSource : Bool) :
    load db withSource =
      .ok (if withSource then contents.items else contents.items.map CodeObject.lightweight) := by
  change Row.readAll (if withSource then db.rows.items else db.rows.items.map Row.lightweight) = _
  rw [h.items_eq]
  cases withSource with
  | true => exact Row.readAll_map_ofObject h.inRange
  | false =>
    have hlight : (contents.items.map Row.ofObject).map Row.lightweight =
        (contents.items.map CodeObject.lightweight).map Row.ofObject := by
      rw [List.map_map, List.map_map]
      rfl
    have hrange : ∀ object ∈ contents.items.map CodeObject.lightweight, object.InRange := by
      intro object hobject
      obtain ⟨whole, hwhole, rfl⟩ := List.mem_map.1 hobject
      exact CodeObject.inRange_lightweight (h.inRange whole hwhole)
    exact (congrArg Row.readAll hlight).trans (Row.readAll_map_ofObject hrange)

/-- Rows and objects are counted alike. -/
theorem Mirrors.stats_eq (h : db.Mirrors contents) : stats db = stats contents := by
  have hflag : ∀ object : CodeObject,
      (Flag.ofText? (Row.ofObject object).overloaded != some false) = object.isOverloaded := by
    intro object
    rw [Row.ofObject, Flag.ofText?_toText]
    cases object.isOverloaded <;> rfl
  simp only [stats, Catalogue.size, h.items_eq, List.length_map, List.map_map, List.countP_map,
    Function.comp_def, hflag]
  rfl

/-- If a row is overwritten so that it cannot be read any more, its object cannot be found, and
every other one is found as before. -/
theorem find_overwrite {row : Row} {id text : String} {column : Column}
    (hrow : db.rows.find? id = some row) (hread : (row.overwrite column text).isReadable = false)
    (other : String) :
    find (db.overwrite id column text) other =
      if other = id then .error .database else find db other := by
  have hid : (row.overwrite column text).id = id := by
    rw [← Catalogue.key_eq_of_find? id row hrow]
    cases column <;> rfl
  have hrows : (db.overwrite id column text).rows.find? other =
      if other = id then some (row.overwrite column text) else db.rows.find? other := by
    rw [overwrite, hrow, Catalogue.find?_insert, hid]
    simp only [eq_comm]
  by_cases hsame : other = id
  · rw [if_pos hsame] at hrows
    simp only [find, hrows, if_pos hsame, Row.read, hread]
    rfl
  · rw [if_neg hsame] at hrows
    simp only [find, hrows, if_neg hsame]

/-- A database answers for the contents of the store that it follows. -/
theorem Mirrors.holds (h : db.Mirrors contents) : Holds db contents where
  find_eq := h.find_eq
  load_eq := h.load_eq
  ids_eq := by
    change db.rows.items.map Row.id = contents.items.map CodeObject.id
    rw [h.items_eq, List.map_map]
    rfl
  stats_eq := h.stats_eq

end Database

end CallGraph
