import CallGraph.Store.Basic

/-!
# Loading code objects into graphs

The nodes of a graph that was saved without its code objects are placeholders.  Their code objects
can be fetched from a store; a placeholder whose id the store does not know stays one.
-/

namespace CallGraph

/-- What was done to populate a graph: how many placeholders it had, how many of them received
their code object, and the ids of the others in ascending order. -/
structure PopulateStats where
  requested : Nat
  populated : Nat
  gaps : List String
deriving DecidableEq, Repr

/-- The ids of the nodes without code object, in ascending order. -/
def Graph.placeholders (g : Graph) : List String :=
  (g.sortedNodes.filter (!·.isPopulated)).map (·.id)

/-! ## The loop over the placeholders -/

/-- Where the loop over the placeholders stands: the graph as it is by now, the objects that were
not attached yet, how many were, and the ids for which there was none. -/
structure Populating where
  graph : Graph
  found : Catalogue CodeObject.id
  populated : Nat
  gaps : List String

namespace Populating

/-- The loop before the first id. -/
def start (g : Graph) (found : Catalogue CodeObject.id) : Populating :=
  ⟨g, found, 0, []⟩

/-- The loop goes on with an id.  The object of the id is taken out of those that were found. -/
def step (s : Populating) (id : String) : Populating :=
  match s.found.find? id, s.graph.node? id with
  | some object, some _ =>
      { s with
        graph := s.graph.modify id (·.attach object)
        found := s.found.erase id
        populated := s.populated + 1 }
  | _, _ => { s with found := s.found.erase id, gaps := s.gaps ++ [id] }

end Populating

namespace Graph

variable {σ : Type} [ObjectStore σ]

/-- Loads the code objects of the placeholders into the graph itself.  The store is only asked if
there is a placeholder, and if it does not answer, the graph is left as it is. -/
def populateInPlace (g : Graph) (store : σ) : Except StoreError PopulateStats × Graph :=
  let wanted := g.placeholders
  if wanted.isEmpty then (.ok ⟨0, 0, []⟩, g)
  else
    match ObjectStore.findAll store wanted with
    | .error error => (.error error, g)
    | .ok found =>
        let last := wanted.foldl Populating.step (.start g found)
        (.ok ⟨wanted.length, last.populated, last.gaps⟩, last.graph)

/-- The graph with the code objects of its placeholders, and what was done to it. -/
def populate (g : Graph) (store : σ) : Except StoreError (Graph × PopulateStats) :=
  match g.populateInPlace store with
  | (.ok stats, h) => .ok (h, stats)
  | (.error error, _) => .error error

end Graph

end CallGraph
