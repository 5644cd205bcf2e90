import CallGraph.Analysis.Components

/-!
# Summary of a call graph

The main numbers of a graph.
-/

namespace CallGraph

/-- The main numbers of a graph. -/
structure Summary where
  nodes : Nat
  edges : Nat
  selfLoops : Nat
  /-- The part of the possible edges between different nodes that the graph's edges amount to. -/
  density : Float
  entryPoints : Nat
  terminals : Nat
  /-- The strong components with a cycle. -/
  cyclicComponents : Nat
  weakComponents : Nat
  largestWeakComponent : Nat
  populatedNodes : Nat
  placeholderNodes : Nat

namespace Graph

/-- The ids that call themselves, in ascending order. -/
def loops (g : Graph) : List String :=
  (g.sortedEdges.filter fun edge => edge.caller == edge.callee).map (·.caller)

/-- The edges in relation to the number of pairs of different nodes. -/
def density (g : Graph) : Float :=
  if g.nodeCount < 2 then 0.0
  else g.edgeCount.toFloat / (g.nodeCount.toFloat * (g.nodeCount - 1).toFloat)

/-- Whether a strong component contains a cycle. -/
def isCyclicComponent (g : Graph) : List String → Bool
  | [] => false
  | [id] => g.loops.contains id
  | _ => true

/-- The main numbers of the graph. -/
def summary (g : Graph) : Summary :=
  let weak := g.components .weak
  { nodes := g.nodeCount
    edges := g.edgeCount
    selfLoops := g.loops.length
    density := g.density
    entryPoints := g.entryPoints.length
    terminals := (g.terminals false).length
    cyclicComponents := ((g.components .strong).filter g.isCyclicComponent).length
    weakComponents := weak.length
    largestWeakComponent := (weak.map List.length).max?.getD 0
    populatedNodes := g.populatedCount
    placeholderNodes := g.nodeCount - g.populatedCount }

end Graph

end CallGraph
