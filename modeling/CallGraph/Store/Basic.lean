import CallGraph.Construction.Build
import CallGraph.Data.Catalogue
import CallGraph.Error

/-!
# Stores of code objects

A store keeps code objects by their ids.  Storing an object replaces an object with the same id;
reading can fail, since a store may be kept outside of the program.  What a store can do is a
class, and everything that only reads or fills a store is written for all of them.
-/

namespace CallGraph

/-- The numbers that describe what is in a store. -/
structure StoreStats where
  totalObjects : Nat
  /-- The number of objects of each kind, in ascending order of the names of the kinds. -/
  objectsByKind : List (String × Nat)
  totalCalls : Nat
  overloadedObjects : Nat
deriving DecidableEq, Repr

/-- How often each text occurs in a list, in ascending order of the texts. -/
def tally (texts : List String) : List (String × Nat) :=
  (sortDistinct texts).map fun text => (text, texts.count text)

/-- A type of stores of code objects. -/
class ObjectStore (σ : Type) where
  /-- Stores an object, in place of any object with the same id. -/
  put : σ → CodeObject → σ
  /-- Takes out the object with the given id, and tells whether there was one. -/
  remove : σ → String → σ × Bool
  /-- The object with the given id. -/
  find : σ → String → Except StoreError (Option CodeObject)
  /-- All objects in ascending order of their ids, with or without source and literals. -/
  load : σ → (withSource : Bool) → Except StoreError (List CodeObject)
  /-- The ids of all objects in ascending order. -/
  ids : σ → List String
  /-- The numbers that describe the store. -/
  stats : σ → StoreStats

namespace ObjectStore

variable {σ : Type} [ObjectStore σ]

/-- Stores several objects, one after the other. -/
def putAll (store : σ) (objects : List CodeObject) : σ :=
  objects.foldl put store

/-- The objects with the given ids; ids that are not in the store are passed over. -/
def findAll (store : σ) (ids : List String) :
    Except StoreError (Catalogue CodeObject.id) :=
  ids.foldlM (fun found id => do
    match ← find store id with
    | some object => return found.insert object
    | none => return found) .empty

/-- Builds the graph of all objects in the store. -/
def build (store : σ) (withSource : Bool) : Except StoreError Construction := do
  return Construction.ofObjects (← load store withSource)

end ObjectStore

end CallGraph
