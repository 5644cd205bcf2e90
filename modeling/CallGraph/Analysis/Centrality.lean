import CallGraph.Graph.Basic

/-!
# Centrality

Two measures of how central a node is: the share of shortest ways that lead through it, and the
share of time that a random walk spends at it.  Both number the nodes in the order in which they
were added.

Betweenness may be computed from a sample of the nodes, evenly spaced in the order of their ids.
Sums are taken in a fixed order, in groups of sources, so that equal graphs that were put together
alike get equal numbers.
-/

namespace CallGraph

/-- How centrality is computed. -/
structure CentralitySettings where
  /-- The number of nodes above which betweenness is computed from a sample. -/
  sampleAbove : Nat := 50000
  /-- The number of sources to sample, whatever the number of nodes. -/
  sampleSize : Option Nat := none
  /-- The probability that a random walk follows an edge. -/
  damping : Float := 0.85
  /-- The number of steps of a random walk. -/
  iterations : Nat := 100

namespace CentralitySettings

/-- The integer part of the square root of a count, in floating-point arithmetic. -/
def rootOf (n : Nat) : Nat :=
  n.toFloat.sqrt.toUInt64.toNat

/-- The number of sources from which betweenness is computed in a graph of `n` nodes. -/
def sourceCount (settings : CentralitySettings) (n : Nat) : Nat :=
  let wanted := match settings.sampleSize with
    | some k => k
    | none => if settings.sampleAbove < n then rootOf n else n
  min (max wanted 1) (max n 1)

end CentralitySettings

/-! ## Numbered nodes -/

/-- For each node the numbers of the nodes that it calls, the newest edge first. -/
structure Links where
  out : Array (List Nat)

namespace Links

/-- The number of nodes. -/
def size (links : Links) : Nat :=
  links.out.size

/-- The nodes that `v` calls. -/
def next (links : Links) (v : Nat) : List Nat :=
  links.out[v]?.getD []

end Links

/-- Every `step`-th item, beginning with the first. -/
def everyNth (step : Nat) (items : List α) : List α :=
  go 0 items
where
  go (skip : Nat) : List α → List α
    | [] => []
    | item :: rest => if skip = 0 then item :: go (step - 1) rest else go (skip - 1) rest

/-- At most `count` items, evenly spaced. -/
def evenSample (count : Nat) (items : List α) : List α :=
  if items.length ≤ count then items
  else (everyNth (max (items.length / count) 1) items).take count

/-! ## Betweenness -/

/-- A search for shortest ways from one source: the nodes in the order in which they are reached,
the latest first, and for each node its distance, the number of shortest ways to it and the nodes
before it on them. -/
structure ShortestWays where
  reached : List Nat
  distance : Array (Option Nat)
  ways : Array Float
  before : Array (List Nat)

namespace ShortestWays

/-- A search that has reached nothing but its source. -/
def start (size source : Nat) : ShortestWays where
  reached := []
  distance := (Array.replicate size none).setIfInBounds source (some 0)
  ways := (Array.replicate size 0.0).setIfInBounds source 1.0
  before := Array.replicate size []

/-- Looks at the edge from `v` to `w`; also gives the queue, to which `w` is added if it is reached
for the first time. -/
def look (v : Nat) (search : ShortestWays × List Nat) (w : Nat) : ShortestWays × List Nat :=
  let (s, queue) := search
  let far := (s.distance[v]?.join.getD 0) + 1
  let isNew := s.distance[w]?.join.isNone
  let distance := if isNew then s.distance.setIfInBounds w (some far) else s.distance
  let queue := if isNew then w :: queue else queue
  if distance[w]?.join = some far then
    let ways := s.ways.modify w (· + s.ways[v]?.getD 0.0)
    ({ s with distance := distance, ways := ways, before := s.before.modify w (v :: ·) }, queue)
  else
    ({ s with distance := distance }, queue)

/-- Visits the nodes of `level`, and then those that are reached from it for the first time, for at
most `rounds` rounds. -/
def run (links : Links) : (rounds : Nat) → (level : List Nat) → ShortestWays → ShortestWays
  | 0, _, s => s
  | rounds + 1, level, s =>
      if level.isEmpty then s
      else
        let (s, queue) := level.foldl
          (fun (s, queue) v =>
            (links.next v).foldl (look v) ({ s with reached := v :: s.reached }, queue))
          (s, [])
        run links rounds queue.reverse s

/-- Adds to `sums` the part of the shortest ways from `source` that lead through each node, going
back from the nodes that were reached last. -/
def addDependencies (s : ShortestWays) (source : Nat) (sums : Array Float) : Array Float :=
  let (_, sums) := s.reached.foldl
    (fun (dependency, sums) w =>
      let share := 1.0 + dependency[w]?.getD 0.0
      let waysTo := s.ways[w]?.getD 0.0
      let dependency := (s.before[w]?.getD []).reverse.foldl
        (fun (dependency : Array Float) v =>
          dependency.modify v (· + s.ways[v]?.getD 0.0 / waysTo * share))
        dependency
      let own := dependency[w]?.getD 0.0
      (dependency, if w = source then sums else sums.modify w (· + own)))
    (Array.replicate s.ways.size 0.0, sums)
  sums

end ShortestWays

/-- The number of sources whose sums are taken together. -/
def sourcesPerGroup : Nat := 32

/-- The items in groups of `size`, the last of which may be smaller. -/
def groups (size : Nat) (items : List α) : List (List α) :=
  go items.length items
where
  go : Nat → List α → List (List α)
    | _, [] => []
    | 0, _ => []
    | fuel + 1, items => items.take size :: go fuel (items.drop size)

/-- The sums over the shortest ways from the sources, in relation to the largest of them. -/
def Links.betweenness (links : Links) (sources : List Nat) : Array Float :=
  let zero := Array.replicate links.size 0.0
  let partials := (groups sourcesPerGroup sources).map fun group =>
    group.foldl
      (fun sums source =>
        ((ShortestWays.start links.size source |>.run links links.size [source])).addDependencies
          source sums)
      zero
  let sums := partials.foldl (fun total part => total.zipWith (· + ·) part) zero
  let largest := sums.foldl (fun most value => if most < value then value else most) 0.0
  if 0.0 < largest then sums.map (· / largest) else sums

/-! ## Random walks -/

/-- The distribution of a random walk after one more step.  At a node with edges, the walk follows
one of them with probability `damping`; at a node without, it goes anywhere. -/
def Links.walk (links : Links) (damping : Float) (ranks : Array Float) : Array Float :=
  let n := links.size.toFloat
  let terms := ranks.toList.zip links.out.toList
  let next := (List.range links.size).map fun v =>
    terms.foldl
      (fun sum (rank, targets) =>
        sum +
          (if targets.contains v then damping * rank / targets.length.toFloat
          else if targets.isEmpty then damping * rank / n
          else (1.0 - damping) * rank / n))
      0.0
  let total := next.foldl (· + ·) 0.0
  (next.map (· / total)).toArray

/-- The distribution of a random walk after some steps, from anywhere. -/
def Links.pageRank (links : Links) (damping : Float) : (steps : Nat) → Array Float → Array Float
  | 0, ranks => ranks
  | steps + 1, ranks => pageRank links damping steps (links.walk damping ranks)

/-! ## Centrality of a call graph -/

/-- The probability of following an edge is not a probability. -/
structure DampingError where
  damping : Float

namespace Graph

/-- The links between the nodes, numbered in the order in which they were added. -/
def links (g : Graph) : Links where
  out := (g.nodes.map fun node => (g.calleesOf node.id).filterMap g.indexOf?).toArray

/-- The values of the nodes by id, in ascending order of the ids. -/
def valuesById (g : Graph) (values : Array Float) : List (String × Float) :=
  sortByText (·.1) ((g.nodes.map (·.id)).zip values.toList)

/-- The ids from which betweenness is computed. -/
def sources (g : Graph) (settings : CentralitySettings) : List String :=
  evenSample (settings.sourceCount g.nodeCount) g.nodeIds

/-- The betweenness of each node, in relation to the largest. -/
def betweenness (g : Graph) (settings : CentralitySettings) : List (String × Float) :=
  g.valuesById (g.links.betweenness ((g.sources settings).filterMap g.indexOf?))

/-- The share of each node in a random walk.  In a graph with nodes, `damping` has to lie between
zero and one. -/
def pageRank (g : Graph) (settings : CentralitySettings) :
    Except DampingError (List (String × Float)) :=
  if g.isEmpty then .ok []
  else if 0.0 ≤ settings.damping && settings.damping ≤ 1.0 then
    let start := Array.replicate g.nodeCount (1.0 / g.nodeCount.toFloat)
    .ok (g.valuesById (g.links.pageRank settings.damping settings.iterations start))
  else .error ⟨settings.damping⟩

end Graph

end CallGraph
