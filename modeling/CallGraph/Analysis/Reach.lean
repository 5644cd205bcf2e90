import CallGraph.Graph.Basic

/-!
# Reachability

What can be reached from a place in at most a given number of hops, along edges, against them or
in either direction.  A search goes out in rounds: each round adds what is one hop further away.
-/

namespace CallGraph

/-! ## Searching in rounds -/

/-- Adds to `seen` everything that is at most `hops` hops away from `frontier`, the part of `seen`
that was reached last. -/
def spread [BEq α] (next : α → List α) : (hops : Nat) → (seen frontier : List α) → List α
  | 0, seen, _ => seen
  | hops + 1, seen, frontier =>
      let fresh := (frontier.flatMap next).eraseDups.filter (!seen.contains ·)
      if fresh.isEmpty then seen else spread next hops (seen ++ fresh) fresh

/-- Everything at most `hops` hops away from `start`, which itself comes first. -/
def reach [BEq α] (next : α → List α) (hops : Nat) (start : α) : List α :=
  spread next hops [start] [start]

namespace Graph

/-! ## Reachability in a call graph -/

/-- The number of hops that a search with the given limit has to go: no node is further away than
there are nodes. -/
def hops (g : Graph) : (limit : Option Nat) → Nat
  | none => g.nodeCount
  | some depth => min depth g.nodeCount

/-- The ids that a search along `next` meets within the limit, in ascending order and without the
start. -/
def within (g : Graph) (next : String → List String) (id : String) (limit : Option Nat) :
    List String :=
  sortTexts ((reach next (g.hops limit) id).filter (· != id))

/-- The ids that reach `id` within the limit, other than `id` itself. -/
def ancestors (g : Graph) (id : String) (limit : Option Nat) : Except GraphError (List String) := do
  let _ ← g.require id
  return g.within g.callersOf id limit

/-- The ids that `id` reaches within the limit, other than `id` itself. -/
def descendants (g : Graph) (id : String) (limit : Option Nat) :
    Except GraphError (List String) := do
  let _ ← g.require id
  return g.within g.calleesOf id limit

/-! ## Ends of the graph -/

/-- The ids that nothing calls. -/
def entryPoints (g : Graph) : List String :=
  sortTexts ((g.nodes.filter fun node => (g.callersOf node.id).isEmpty).map (·.id))

/-- The ids that call nothing, on demand without those of unknown kind. -/
def terminals (g : Graph) (knownOnly : Bool) : List String :=
  sortTexts ((g.nodes.filter fun node =>
    (g.calleesOf node.id).isEmpty && !(knownOnly && node.kind == .unknown)).map (·.id))

/-- How many edges end and start at a node. -/
structure Degrees where
  incoming : Nat
  outgoing : Nat
deriving DecidableEq, Repr

/-- The number of ends of edges at a node; a call of itself counts twice. -/
def Degrees.total (d : Degrees) : Nat :=
  d.incoming + d.outgoing

/-- The degrees of a node. -/
def degrees (g : Graph) (id : String) : Except GraphError Degrees := do
  return ⟨← g.inDegree id, ← g.outDegree id⟩

end Graph

end CallGraph
