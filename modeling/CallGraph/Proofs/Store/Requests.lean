import CallGraph.Proofs.Data.Sorting
import CallGraph.Proofs.Store.Contents
import CallGraph.Proofs.Text.Utf8

/-!
# Stores and the requests they answer

A store is asked for one thing after the other, some of which change what it holds.  What it has to
answer follows from the requests alone: under each id it holds the object that was stored last,
unless that was taken out since.  A store in memory and a database that start empty both give these
answers.

Main results:

- Definition `StoreRequest.held`: what is held under an id after some requests.
- Definition `StoreRequest.IsAnswer`: the answer that a request has to be given.
- Theorem `MemoryStore.find?_run`: a store in memory finds what the requests leave.
- Theorem `MemoryStore.exists_answer`: it gives the answer that it has to give.
- Theorem `Database.Mirrors.answers_eq`: a database answers as the store in memory that it follows.
- Theorem `ObjectStore.memory_and_database_answer_alike`: both stores give the same answers, which
  are those that have to be given.
-/

namespace CallGraph

/-! ## Requests and answers -/

/-- What a store can be asked for. -/
inductive StoreRequest where
  | put (object : CodeObject)
  | putAll (objects : List CodeObject)
  | remove (id : String)
  | find (id : String)
  | findAll (ids : List String)
  | load (withSource : Bool)
  | ids
  | stats

/-- What a store answers. -/
inductive StoreAnswer where
  | done
  | stored (count : Nat)
  | removed (present : Bool)
  | found (object : Option CodeObject)
  | foundAll (objects : Catalogue CodeObject.id)
  | loaded (objects : List CodeObject)
  | ids (ids : List String)
  | stats (stats : StoreStats)

namespace ObjectStore

variable {σ : Type} [ObjectStore σ]

/-- The store after a request. -/
def after (store : σ) : StoreRequest → σ
  | .put object => put store object
  | .putAll objects => putAll store objects
  | .remove id => (remove store id).1
  | _ => store

/-- What the store answers to a request. -/
def answer (store : σ) : StoreRequest → Except StoreError StoreAnswer
  | .put _ => .ok .done
  | .putAll objects => .ok (.stored objects.length)
  | .remove id => .ok (.removed (remove store id).2)
  | .find id => (find store id).map .found
  | .findAll ids => (findAll store ids).map .foundAll
  | .load withSource => (load store withSource).map .loaded
  | .ids => .ok (.ids (ids store))
  | .stats => .ok (.stats (stats store))

/-- What the store answers to requests, one after the other. -/
def answers (store : σ) : List StoreRequest → List (Except StoreError StoreAnswer)
  | [] => []
  | request :: rest => answer store request :: answers (after store request) rest

end ObjectStore

namespace StoreRequest

/-- The numbers of the objects that are stored are in range. -/
def InRange : StoreRequest → Prop
  | put object => object.InRange
  | putAll objects => ∀ object ∈ objects, object.InRange
  | _ => True

/-! ## What has to be answered -/

/-- What is held under an id after a request. -/
def effect (id : String) (before : Option CodeObject) : StoreRequest → Option CodeObject
  | put object => if object.id = id then some object else before
  | putAll objects => (objects.reverse.find? (·.id == id)).or before
  | remove taken => if taken = id then none else before
  | _ => before

/-- What is held under an id after some requests: the object that was stored last under it, unless
it was taken out since. -/
def held (requests : List StoreRequest) (id : String) : Option CodeObject :=
  requests.foldl (effect id) none

/-- The objects are all that is held under some id, in the order of the bytes of their ids. -/
structure Lists (held : String → Option CodeObject) (objects : List CodeObject) : Prop where
  mem_iff : ∀ object, object ∈ objects ↔ ∃ id, held id = some object
  ascending : objects.Pairwise fun a b => Text.bytesOf a.id < Text.bytesOf b.id

/-- The numbers are those of the objects. -/
structure Counts (objects : List CodeObject) (stats : StoreStats) : Prop where
  totalObjects : stats.totalObjects = objects.length
  objectsByKind : ∀ name count, (name, count) ∈ stats.objectsByKind ↔
    0 < count ∧ count = objects.countP fun object => object.kind.name == name
  kindsAscending : stats.objectsByKind.Pairwise fun a b => a.1 < b.1
  totalCalls : stats.totalCalls = (objects.flatMap fun object => object.calls).length
  overloadedObjects : stats.overloadedObjects = objects.countP fun object => object.isOverloaded

/-- The answer that has to be given to a request, by what is held before. -/
inductive IsAnswer (held : String → Option CodeObject) : StoreRequest → StoreAnswer → Prop
  | put (object) : IsAnswer held (.put object) .done
  | putAll (objects) : IsAnswer held (.putAll objects) (.stored objects.length)
  | remove (id) : IsAnswer held (.remove id) (.removed (held id).isSome)
  | find (id) : IsAnswer held (.find id) (.found (held id))
  | findAll {ids objects} (h : ∀ id, objects.find? id = if id ∈ ids then held id else none) :
      IsAnswer held (.findAll ids) (.foundAll objects)
  | loadWhole {objects} (h : Lists held objects) : IsAnswer held (.load true) (.loaded objects)
  | loadLight {objects} (h : Lists held objects) :
      IsAnswer held (.load false)
        (.loaded (objects.map fun object => { object with source := none, literals := none }))
  | ids {objects} (h : Lists held objects) : IsAnswer held .ids (.ids (objects.map (·.id)))
  | stats {objects stats} (h : Lists held objects) (hcounts : Counts objects stats) :
      IsAnswer held .stats (.stats stats)

end StoreRequest

open ObjectStore StoreRequest

/-! ## Runs -/

theorem ObjectStore.getElem?_answers {σ : Type} [ObjectStore σ] (store : σ)
    (requests : List StoreRequest) (i : Nat) :
    (answers store requests)[i]? =
      requests[i]?.map (answer ((requests.take i).foldl after store)) := by
  induction requests generalizing store i with
  | nil => rfl
  | cons request rest ih =>
    cases i with
    | zero => rfl
    | succ i => exact ih (after store request) i

namespace MemoryStore

variable {contents : MemoryStore} {held : String → Option CodeObject}

/-! ## Stores in memory -/

/-- Of several objects with one id the last one is found. -/
theorem find?_putAll (contents : MemoryStore) (objects : List CodeObject) (id : String) :
    Catalogue.find? (putAll contents objects) id =
      (objects.reverse.find? (·.id == id)).or (contents.find? id) := by
  induction objects generalizing contents with
  | nil => rfl
  | cons object rest ih =>
    have hcons : ObjectStore.putAll contents (object :: rest) =
        ObjectStore.putAll (contents.insert object) rest := rfl
    rw [hcons, ih, Catalogue.find?_insert, List.reverse_cons, List.find?_append]
    cases rest.reverse.find? (·.id == id) with
    | some last => rfl
    | none => by_cases hid : object.id = id <;> simp [hid]

/-- A request changes what is found under an id as it should. -/
theorem find?_after (contents : MemoryStore) (request : StoreRequest) (id : String) :
    Catalogue.find? (after contents request) id = request.effect id (contents.find? id) := by
  cases request with
  | put object => exact Catalogue.find?_insert contents object id
  | putAll objects => exact find?_putAll contents objects id
  | remove taken => exact Catalogue.find?_erase contents taken id
  | find | findAll | load | ids | stats => rfl

/-- A store that starts empty finds what the requests leave. -/
theorem find?_run (requests : List StoreRequest) (id : String) :
    Catalogue.find? (requests.foldl after (.empty : MemoryStore)) id =
      StoreRequest.held requests id := by
  have hrun : ∀ contents : MemoryStore, Catalogue.find? (requests.foldl after contents) id =
      requests.foldl (effect id) (contents.find? id) := by
    induction requests with
    | nil => exact fun _ => rfl
    | cons request rest ih =>
      intro contents
      rw [List.foldl_cons, ih, find?_after, List.foldl_cons]
  exact hrun .empty

/-- The objects of a store are what it finds, in their order. -/
theorem lists_items (h : ∀ id, contents.find? id = held id) : Lists held contents.items where
  mem_iff object := by
    constructor
    · intro hobject
      exact ⟨object.id, (h object.id).symm.trans (Catalogue.find?_eq_some_iff.2 ⟨hobject, rfl⟩)⟩
    · rintro ⟨id, hheld⟩
      exact (Catalogue.find?_eq_some_iff.1 ((h id).trans hheld)).1
  ascending := contents.ascending.imp Text.bytesOf_lt_bytesOf_iff.2

/-- A tally holds each text that occurs, with the number of times that it does. -/
theorem mem_tally_iff {texts : List String} {text : String} {count : Nat} :
    (text, count) ∈ tally texts ↔ 0 < count ∧ count = texts.count text := by
  simp only [tally, List.mem_map, mem_sortDistinct, Prod.mk.injEq]
  constructor
  · rintro ⟨_, hmem, rfl, rfl⟩
    exact ⟨List.count_pos_iff.2 hmem, rfl⟩
  · rintro ⟨hpos, rfl⟩
    exact ⟨text, List.count_pos_iff.1 hpos, rfl, rfl⟩

theorem counts_stats (contents : MemoryStore) : Counts contents.items (stats contents) where
  totalObjects := rfl
  objectsByKind name count := by
    change (name, count) ∈ tally (contents.items.map (·.kind.name)) ↔ _
    rw [mem_tally_iff, List.count, List.countP_map]
    rfl
  kindsAscending := List.pairwise_map.2 (pairwise_sortDistinct _)
  totalCalls := by
    rw [List.length_flatMap]
    exact List.sum_eq_foldl.symm
  overloadedObjects := rfl

/-- A store in memory answers every request, as it should by what it finds. -/
theorem exists_answer (h : ∀ id, contents.find? id = held id) (request : StoreRequest) :
    ∃ given, answer contents request = .ok given ∧ IsAnswer held request given := by
  have hlists := lists_items h
  cases request with
  | put object => exact ⟨_, rfl, .put object⟩
  | putAll objects => exact ⟨_, rfl, .putAll objects⟩
  | remove id =>
    refine ⟨_, rfl, ?_⟩
    have hpresent : (remove contents id).2 = (held id).isSome := by
      rw [← h id]
      exact Catalogue.contains_eq_isSome_find? contents id
    rw [hpresent]
    exact .remove id
  | find id =>
    refine ⟨_, rfl, ?_⟩
    rw [h id]
    exact .find id
  | findAll ids =>
    obtain ⟨found, hfound, hfind⟩ := (holds_self contents).exists_findAll ids
    refine ⟨.foundAll found, ?_, .findAll fun id => ?_⟩
    · rw [answer, hfound]
      rfl
    · rw [hfind, h]
  | load withSource =>
    cases withSource with
    | true => exact ⟨_, rfl, .loadWhole hlists⟩
    | false => exact ⟨_, rfl, .loadLight hlists⟩
  | ids => exact ⟨_, rfl, .ids hlists⟩
  | stats => exact ⟨_, rfl, .stats hlists (counts_stats contents)⟩

end MemoryStore

namespace Database

variable {db : Database} {contents : MemoryStore}

/-! ## Databases -/

/-- A database goes on to follow the store in memory. -/
theorem Mirrors.after (h : db.Mirrors contents) {request : StoreRequest}
    (hrange : request.InRange) :
    (after db request).Mirrors (after contents request) := by
  cases request with
  | put object => exact h.put hrange
  | putAll objects => exact h.putAll hrange
  | remove id => exact (h.remove id).1
  | find | findAll | load | ids | stats => exact h

/-- A database answers as the store that it follows. -/
theorem Mirrors.answer_eq (h : db.Mirrors contents) (request : StoreRequest) :
    answer db request = answer contents request := by
  have hholds := h.holds
  cases request with
  | put | putAll => rfl
  | remove id => rw [answer, answer, (h.remove id).2]
  | find id => rw [answer, answer, hholds.find_eq, (holds_self contents).find_eq]
  | findAll ids => rw [answer, answer, hholds.findAll_eq]
  | load withSource => rw [answer, answer, hholds.load_eq, (holds_self contents).load_eq]
  | ids => rw [answer, answer, hholds.ids_eq, (holds_self contents).ids_eq]
  | stats => rw [answer, answer, hholds.stats_eq]

/-- A database answers a run of requests like the store that it mirrors. -/
theorem Mirrors.answers_eq (h : db.Mirrors contents) {requests : List StoreRequest}
    (hrange : ∀ request ∈ requests, request.InRange) :
    answers db requests = answers contents requests := by
  induction requests generalizing db contents with
  | nil => rfl
  | cons request rest ih =>
    rw [answers, answers, h.answer_eq, ih (h.after (hrange request (by simp)))
      fun other hother => hrange other (List.mem_cons_of_mem _ hother)]

end Database

namespace ObjectStore

/-- A database and a store in memory that start empty give the same answers to the same requests,
and each of them is the one that has to be given by what was held before the request. -/
theorem memory_and_database_answer_alike {requests : List StoreRequest}
    (h : ∀ request ∈ requests, request.InRange) :
    answers Database.empty requests = answers (.empty : MemoryStore) requests ∧
    ∀ i request, requests[i]? = some request →
      ∃ given, (answers (.empty : MemoryStore) requests)[i]? = some (.ok given) ∧
        IsAnswer (held (requests.take i)) request given := by
  refine ⟨Database.mirrors_empty.answers_eq h, fun i request hrequest => ?_⟩
  obtain ⟨given, hgiven, hright⟩ :=
    MemoryStore.exists_answer (MemoryStore.find?_run (requests.take i)) request
  refine ⟨given, ?_, hright⟩
  rw [getElem?_answers, hrequest, Option.map_some, hgiven]

/-- An object that is stored twice, the second time with another after it, and asked for. -/
def storedTwice : List StoreRequest :=
  [.put { id := "b", name := "first", kind := .function },
    .putAll [
      { id := "b", name := "second", kind := .package, isOverloaded := true
        calls := [{ callee := "a", line := 3, span := (1, 2) }] },
      { id := "a", name := "\"", kind := .unknown, source := some "x" }],
    .remove "c",
    .find "b"]

/-- An object that is stored twice is found as it was stored last, in both stores. -/
theorem storedTwice_answered_alike :
    (∀ request ∈ storedTwice, request.InRange) ∧
    answers Database.empty storedTwice = answers (.empty : MemoryStore) storedTwice ∧
    ∃ object : CodeObject, object.name = "second" ∧
      (answers Database.empty storedTwice)[3]? = some (.ok (.found (some object))) := by
  have hrange : ∀ request ∈ storedTwice, request.InRange := by
    simp only [storedTwice, List.forall_mem_cons, StoreRequest.InRange, CodeObject.InRange,
      List.not_mem_nil, false_imp_iff, implies_true, and_true, true_and]
    exact ⟨by decide, by decide, by decide⟩
  obtain ⟨halike, hright⟩ := memory_and_database_answer_alike hrange
  obtain ⟨_, hgiven, ⟨⟩⟩ := hright 3 (.find "b") rfl
  refine ⟨hrange, halike, _, ?_, (congrArg (·[3]?) halike).trans hgiven⟩
  rfl

end ObjectStore

end CallGraph
