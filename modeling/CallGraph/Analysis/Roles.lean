import CallGraph.Analysis.Centrality
import CallGraph.Analysis.Reach
import CallGraph.Analysis.Components
import CallGraph.Number.FixedPlaces

/-!
# Roles

Each node of a call graph has one role, which is found from its measures: a few rules are tried in
order, and the first that applies decides.  Some rules compare a measure with a quantile of that
measure over all nodes.
-/

namespace CallGraph

open Number (Binary64)

/-- The role of a node.  The rules are tried in this order. -/
inductive Role where
  | orphan
  | hub
  | entryPoint
  | terminal
  | utility
  | unclassified
deriving DecidableEq, Repr, Inhabited

namespace Role

/-- All roles, in order. -/
def all : List Role :=
  [orphan, hub, entryPoint, terminal, utility, unclassified]

/-- The name of a role. -/
def name : Role → String
  | orphan => "orphan"
  | hub => "hub"
  | entryPoint => "entry_point"
  | terminal => "terminal"
  | utility => "utility"
  | unclassified => "unclassified"

end Role

/-! ## Settings -/

/-- What the rules compare with; percentiles lie between zero and one. -/
structure RoleSettings where
  /-- The quantile of degree and betweenness that makes a hub. -/
  hubPercentile : Float := 0.9
  /-- The quantile of the outgoing degree that a utility reaches. -/
  utilityOutDegreePercentile : Float := 0.75
  /-- The quantile of complexity that a utility does not exceed. -/
  utilityComplexityPercentile : Float := 0.5
  /-- The number of connected nodes from which on they are no orphans. -/
  orphanComponentSize : Nat := 3

/-- A setting is outside its range. -/
structure ThresholdError where
  name : String
  value : Float

/-- The first setting that is outside its range. -/
def RoleSettings.error? (settings : RoleSettings) : Option ThresholdError :=
  let percentiles := [
    ("hub_percentile", settings.hubPercentile),
    ("utility_out_degree_percentile", settings.utilityOutDegreePercentile),
    ("utility_complexity_percentile", settings.utilityComplexityPercentile)]
  match percentiles.find? fun percentile => !(0.0 ≤ percentile.2 && percentile.2 ≤ 1.0) with
  | some (name, value) => some ⟨name, value⟩
  | none =>
      if settings.orphanComponentSize = 0 then some ⟨"orphan_component_size", 0.0⟩ else none

/-! ## Measures -/

/-- What the rules know of a node. -/
structure Measures where
  degrees : Graph.Degrees
  betweenness : Float
  pageRank : Float
  /-- Known only of nodes with source. -/
  complexity : Option Nat
  /-- The number of nodes that are weakly connected with the node, itself included. -/
  componentSize : Nat

/-- The value stored under an id, or zero. -/
def valueOf (values : List (String × Float)) (id : String) : Float :=
  ((values.find? (·.1 == id)).map (·.2)).getD 0.0

/-- The size of the first of the components that contains the id. -/
def sizeOfComponent (components : List (List String)) (id : String) : Nat :=
  ((components.find? (·.contains id)).map List.length).getD 1

/-- The measures of every node, in ascending order of the ids. -/
def Graph.measures (g : Graph) (settings : CentralitySettings) :
    Except DampingError (List (String × Measures)) := do
  let betweenness := g.betweenness settings
  let pageRank ← g.pageRank settings
  let components := g.components .weak
  return g.sortedNodes.map fun node =>
    (node.id, {
      degrees := ⟨(g.callersOf node.id).length, (g.calleesOf node.id).length⟩
      betweenness := valueOf betweenness node.id
      pageRank := valueOf pageRank node.id
      complexity := node.object.bind (·.complexity)
      componentSize := sizeOfComponent components node.id })

/-! ## Quantiles -/

/-- The smallest value with at least the part `p` of the values at or below it, in the total order
of all floating-point numbers. -/
def quantile? (values : List Float) (p : Float) : Option Float :=
  let n := values.length
  let rank := min (max (p * n.toFloat).ceil.toUInt64.toNat 1) n
  let sorted := values.mergeSort fun a b => decide (Binary64.place a ≤ Binary64.place b)
  sorted[rank - 1]?

/-- The quantiles that the rules compare with; there is none of complexity if no node has it. -/
structure Thresholds where
  hubDegree : Float
  hubBetweenness : Float
  utilityOutDegree : Float
  utilityComplexity : Option Float

/-- The quantiles of the given measures. -/
def Thresholds.ofMeasures (settings : RoleSettings) (measures : List Measures) : Thresholds where
  hubDegree :=
    (quantile? (measures.map (·.degrees.total.toFloat)) settings.hubPercentile).getD 0.0
  hubBetweenness := (quantile? (measures.map (·.betweenness)) settings.hubPercentile).getD 0.0
  utilityOutDegree :=
    (quantile? (measures.map (·.degrees.outgoing.toFloat))
      settings.utilityOutDegreePercentile).getD 0.0
  utilityComplexity :=
    quantile? (measures.filterMap fun m => m.complexity.map Nat.toFloat)
      settings.utilityComplexityPercentile

/-! ## Rules -/

/-- Whether many edges end or start at the node, or many shortest ways lead through it. -/
def Measures.isHub (m : Measures) (t : Thresholds) : Bool :=
  (0 < m.degrees.total && t.hubDegree ≤ m.degrees.total.toFloat) ||
    (0.0 < m.betweenness && t.hubBetweenness ≤ m.betweenness)

/-- Whether the node calls many others and is itself simple. -/
def Measures.isUtility (m : Measures) (t : Thresholds) : Bool :=
  match m.complexity, t.utilityComplexity with
  | some complexity, some most =>
      t.utilityOutDegree ≤ m.degrees.outgoing.toFloat && complexity.toFloat ≤ most
  | _, _ => false

/-- The role of a node. -/
def Measures.role (m : Measures) (settings : RoleSettings) (t : Thresholds) : Role :=
  if m.componentSize < settings.orphanComponentSize then .orphan
  else if m.isHub t then .hub
  else if m.degrees.incoming = 0 then .entryPoint
  else if m.degrees.outgoing = 0 then .terminal
  else if m.isUtility t then .utility
  else .unclassified

/-! ## Classification -/

/-- A node with its role and the measures that gave it the role. -/
structure Classified where
  id : String
  role : Role
  measures : Measures

/-- The roles of the nodes of a graph, in ascending order of their ids.  A role and the measures it
was found from stand in one entry: a node of a graph never has the one without the other, so that
there is no entry for a role whose measures are not known. -/
structure Classification where
  nodes : List Classified
  thresholds : Thresholds

namespace Classification

/-- The role of the node with the given id. -/
def role? (c : Classification) (id : String) : Option Role :=
  (c.nodes.find? (·.id == id)).map (·.role)

/-- The ids of the nodes with the given role. -/
def nodesWith (c : Classification) (role : Role) : List String :=
  (c.nodes.filter (·.role == role)).map (·.id)

/-- The roles that occur, each with the number of nodes that have it. -/
def counts (c : Classification) : List (Role × Nat) :=
  (Role.all.map fun role => (role, (c.nodesWith role).length)).filter (0 < ·.2)

end Classification

/-- Why nodes cannot be classified. -/
inductive ClassifyError where
  | threshold (error : ThresholdError)
  | damping (error : DampingError)

namespace Graph

/-- Finds the role of every node. -/
def classify (g : Graph) (settings : RoleSettings) (centrality : CentralitySettings) :
    Except ClassifyError Classification :=
  match settings.error? with
  | some error => .error (.threshold error)
  | none =>
      match g.measures centrality with
      | .error error => .error (.damping error)
      | .ok measures =>
          let thresholds := Thresholds.ofMeasures settings (measures.map (·.2))
          .ok {
            nodes := measures.map fun (id, m) => ⟨id, m.role settings thresholds, m⟩
            thresholds := thresholds }

/-- The node with its role and centrality among its attributes. -/
def annotateNode (classified : Classified) (node : Node) : Node :=
  ((node.setAttribute "role" classified.role.name).setAttribute
    "betweenness" (Number.fixed 6 classified.measures.betweenness)).setAttribute
    "pagerank" (Number.fixed 6 classified.measures.pageRank)

/-- Writes the roles into the attributes of the nodes that the graph has, and counts these.  Every
entry of a classification has measures, and so the centrality is always written with the role. -/
def annotate (g : Graph) (c : Classification) : Graph × Nat :=
  c.nodes.foldl
    (fun (g, updated) classified =>
      if g.contains classified.id then
        (g.modify classified.id (annotateNode classified), updated + 1)
      else (g, updated))
    (g, 0)

end Graph

end CallGraph
