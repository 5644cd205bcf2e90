import CallGraph.Construction.Scope
import CallGraph.Graph.Basic
import CallGraph.Text.Quoted

/-!
# Building call graphs

A call graph is built from code objects in the order of their ids.  Objects without an id, or with
an id that differs from an earlier one only in case, are left out; every other object becomes a
node, and every call of it that can be understood becomes an edge.  What is left out, not
understood or not clear is recorded.
-/

namespace CallGraph

/-- Why an object is left out. -/
inductive Rejection where
  | emptyId
  | duplicateId
deriving DecidableEq, Repr

/-- The reason in words. -/
def Rejection.reason : Rejection → String
  | emptyId => "empty id"
  | duplicateId => "duplicate id"

/-- A problem with a single object or call, which does not keep a graph from being built. -/
inductive BuildError where
  | malformedObject (id reason : String)
  | unresolvedCall (caller callee : String)
deriving DecidableEq, Repr

/-- The text of the problem. -/
def BuildError.message : BuildError → String
  | malformedObject id reason =>
      "Malformed code object (" ++ reason ++ "): " ++ Text.quoted id
  | unresolvedCall caller callee => s!"Unresolved call from {caller} to {callee}"

/-- An object that was left out. -/
structure MalformedObject where
  id : String
  rejection : Rejection
deriving DecidableEq, Repr

/-- The problem with an object that was left out. -/
def MalformedObject.toError (object : MalformedObject) : BuildError :=
  .malformedObject object.id object.rejection.reason

/-- A call that no object answers to. -/
structure UnresolvedCall where
  caller : String
  callee : String
  line : Nat
deriving DecidableEq, Repr

/-- The problem with a call that no object answers to. -/
def UnresolvedCall.toError (call : UnresolvedCall) : BuildError :=
  .unresolvedCall call.caller call.callee

/-- A call whose target was chosen from several candidates. -/
structure AmbiguousCall where
  caller : String
  callee : String
  line : Nat
  chosen : String
  candidates : List String
deriving DecidableEq, Repr

/-- What happened while a graph was built. -/
structure BuildStats where
  nodesAdded : Nat := 0
  edgesAdded : Nat := 0
  callSites : Nat := 0
  selfLoops : Nat := 0
  unresolved : List UnresolvedCall := []
  ambiguous : List AmbiguousCall := []
  malformed : List MalformedObject := []
deriving DecidableEq, Repr

/-- A graph with the record of how it was built. -/
structure Construction where
  graph : Graph
  stats : BuildStats

namespace Construction

/-- Why `object` is left out, if the ids in `seen`, in lower case, are taken. -/
def rejection? (seen : List String) (object : CodeObject) : Option Rejection :=
  if Text.isBlankText object.id then some .emptyId
  else if seen.contains (Text.lower object.id) then some .duplicateId
  else none

/-- Divides objects into those that are accepted and those that are left out. -/
def screen (seen : List String) : List CodeObject → List CodeObject × List MalformedObject
  | [] => ([], [])
  | object :: rest =>
      match rejection? seen object with
      | some why =>
          let (accepted, malformed) := screen seen rest
          (accepted, ⟨object.id, why⟩ :: malformed)
      | none =>
          let (accepted, malformed) := screen (Text.lower object.id :: seen) rest
          (object :: accepted, malformed)

/-- Adds the edge of a call, if it is new. -/
def addCall (caller target : String) (built : Construction) : Construction :=
  match built.graph.addEdge caller target with
  | .ok (graph, true) =>
      { graph := graph
        stats := { built.stats with
          edgesAdded := built.stats.edgesAdded + 1
          selfLoops := built.stats.selfLoops + if caller = target then 1 else 0 } }
  | _ => built

/-- Adds the edge of a call with the given meaning, and records a call that has no meaning or
several.  Records are in reverse order. -/
def addMeaning (caller : CodeObject) (call : CallSite) (built : Construction) :
    Resolution → Construction
  | .resolved _ target => addCall caller.id target built
  | .ambiguous _ target candidates =>
      let record := ⟨caller.id, call.callee, call.line, target, candidates⟩
      addCall caller.id target
        { built with stats := { built.stats with ambiguous := record :: built.stats.ambiguous } }
  | .unresolved =>
      let record := ⟨caller.id, call.callee, call.line⟩
      { built with stats := { built.stats with unresolved := record :: built.stats.unresolved } }

/-- Counts one call, understands it, and adds what it means. -/
def addCallSite (scope : Scope) (caller : CodeObject) (built : Construction) (call : CallSite) :
    Construction :=
  let counted := { built.stats with callSites := built.stats.callSites + 1 }
  addMeaning caller call { built with stats := counted } (scope.resolve caller call)

/-- Adds the edges of an object. -/
def addCalls (scope : Scope) (built : Construction) (caller : CodeObject) : Construction :=
  caller.calls.foldl (addCallSite scope caller) built

/-- Builds the graph of the objects. -/
def ofObjects (objects : List CodeObject) : Construction :=
  let (accepted, malformed) := screen [] (sortByText (·.id) objects)
  let nodes := accepted.foldl (fun g object => g.addNode (.ofObject object)) Graph.empty
  let scope := Scope.ofObjects accepted
  let built := accepted.foldl (addCalls scope) ⟨nodes, { nodesAdded := nodes.nodeCount }⟩
  { built with
    stats := { built.stats with
      unresolved := built.stats.unresolved.reverse
      ambiguous := built.stats.ambiguous.reverse
      malformed := malformed } }

end Construction

/-- The problems that were recorded, objects first. -/
def BuildStats.problems (stats : BuildStats) : List BuildError :=
  stats.malformed.map (·.toError) ++ stats.unresolved.map (·.toError)

end CallGraph
