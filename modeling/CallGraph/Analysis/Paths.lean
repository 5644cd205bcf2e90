import CallGraph.Graph.Basic

/-!
# Simple paths

All ways from one node to another that meet no node twice.
-/

namespace CallGraph

namespace Graph

/-- The other nodes that `id` calls, in ascending order. -/
def otherCallees (g : Graph) (id : String) : List String :=
  sortDistinct ((g.calleesOf id).filter (· != id))

/-- The ways from `here` to `target` along at most `hops` edges that meet nothing twice and nothing
in `visited`, which contains `here`. -/
def waysTo (g : Graph) (target : String) : (hops : Nat) → (visited : List String) →
    (here : String) → List (List String)
  | 0, _, _ => []
  | hops + 1, visited, here =>
      (g.otherCallees here).flatMap fun next =>
        if next = target then [[here, target]]
        else if visited.contains next then []
        else (waysTo g target hops (next :: visited) next).map (here :: ·)

/-- All simple paths from `source` to `target` with at most `cutoff` edges, in ascending order.  A
node is a path from itself to itself.  No simple path has as many edges as there are nodes. -/
def simplePaths (g : Graph) (source target : String) (cutoff : Option Nat) :
    Except GraphError (List (List String)) := do
  let _ ← g.require source
  let _ ← g.require target
  if source = target then
    return [[source]]
  let hops := match cutoff with
    | none => g.nodeCount
    | some edges => min edges g.nodeCount
  return sortPaths (g.waysTo target hops [source] source)

end Graph

end CallGraph
