import CallGraph.Store.Basic

/-!
# Stores in memory

A store that keeps the code objects themselves, and whose reads never fail.
-/

namespace CallGraph

/-- Code objects by their ids. -/
abbrev MemoryStore := Catalogue CodeObject.id

instance : ObjectStore MemoryStore where
  put := Catalogue.insert
  remove store id := (store.erase id, store.contains id)
  find store id := .ok (store.find? id)
  load store withSource :=
    .ok (if withSource then store.items else store.items.map CodeObject.lightweight)
  ids := Catalogue.keys
  stats store := {
    totalObjects := store.size
    objectsByKind := tally (store.items.map (·.kind.name))
    totalCalls := (store.items.map (·.calls.length)).foldl (· + ·) 0
    overloadedObjects := store.items.countP (·.isOverloaded) }

end CallGraph
