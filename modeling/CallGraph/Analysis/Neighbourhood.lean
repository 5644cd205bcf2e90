import CallGraph.Analysis.Reach

/-!
# Neighbourhoods

The part of a call graph around one node.
-/

namespace CallGraph

/-- Which part of a graph to cut out: the node in focus, how many hops of callers, and how many
hops of callees or all of them. -/
structure Neighbourhood where
  focus : String
  callerHops : Nat := 1
  calleeHops : Option Nat := none
deriving DecidableEq, Repr

/-- The graph of the focus, its callers and its callees up to the given distances, with all edges
between them. -/
def Neighbourhood.of (request : Neighbourhood) (g : Graph) : Except GraphError Graph := do
  let _ ← g.require request.focus
  return g.induced (request.focus ::
    (g.within g.callersOf request.focus (some request.callerHops) ++
      g.within g.calleesOf request.focus request.calleeHops))

end CallGraph
