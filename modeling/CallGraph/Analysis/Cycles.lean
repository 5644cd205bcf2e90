import CallGraph.Analysis.Components
import CallGraph.Analysis.Limits
import CallGraph.Analysis.Paths

/-!
# Cycles

Elementary cycles: closed ways along edges that meet no node twice.  A cycle is written with its
least id first, so that it has exactly one form.

Without a limit on their length, cycles are enumerated component by component.  A strong component
is searched for the cycles through its least node; then that node is removed, and what is left
falls into smaller components.  Within a search, a node from which the start could not be reached
is blocked until one of the nodes that it waits for can be left towards the start again.  With a
limit on their length, cycles are found by extending ways step by step.
-/

namespace CallGraph

/-! ## Cycles as lists of ids -/

/-- A cycle, as the list of its nodes in the order of its edges. -/
structure Cycle where
  nodes : List String
deriving DecidableEq, Repr

namespace Cycle

/-- The place of the first least id. -/
def leastIndex : List String → Nat
  | [] => 0
  | id :: rest => if rest.all (fun other => decide (id ≤ other)) then 0 else leastIndex rest + 1

/-- The cycle that meets the ids in the given order, turned to begin with its least id. -/
def canonical (ids : List String) : Cycle where
  nodes := ids.rotateLeft (leastIndex ids)

/-- The cycle as a closed way. -/
def text (cycle : Cycle) : String :=
  match cycle.nodes with
  | [] => ""
  | first :: _ => String.join (cycle.nodes.map (· ++ " -> ")) ++ first

end Cycle

/-! ## Collecting cycles -/

/-- Whether the number of cycles that were found is all that may be reported. -/
def reachesLimit (limit : Option Nat) (count : Nat) : Bool :=
  match limit with
  | none => false
  | some limit => limit ≤ count

/-- What a search has found, the latest cycle first, with the number of cycles it may report.  It
is truncated once a further cycle had to be dropped, which ends the search. -/
structure CycleList where
  found : List (List String)
  limit : Option Nat
  isTruncated : Bool
  full_of_isTruncated : isTruncated = true → reachesLimit limit found.length = true
deriving DecidableEq, Repr

namespace CycleList

/-- An empty list for at most `limit` cycles. -/
def start (limit : Option Nat) : CycleList where
  found := []
  limit := limit
  isTruncated := false
  full_of_isTruncated := by simp

/-- Whether no further cycle may be added. -/
def isFull (list : CycleList) : Bool :=
  reachesLimit list.limit list.found.length

/-- Adds a cycle, or notes that it was dropped. -/
def add (list : CycleList) (cycle : List String) : CycleList :=
  if h : list.isFull = true then
    { list with isTruncated := true, full_of_isTruncated := fun _ => h }
  else
    { list with
      found := cycle :: list.found
      full_of_isTruncated := fun ht => absurd (list.full_of_isTruncated ht) h }

end CycleList

/-! ## Blocked nodes -/

/-- The nodes that wait for `v`.  A pair `(w, u)` in `waiting` says that `u` waits for `w`. -/
def waitersOf [DecidableEq α] (v : α) (waiting : List (α × α)) : List α :=
  (waiting.filter (·.1 = v)).map (·.2)

/-- The pairs that say who waits for other nodes than `v`. -/
def waitingElsewhere [DecidableEq α] (v : α) (waiting : List (α × α)) : List (α × α) :=
  waiting.filter (¬ ·.1 = v)

/-- The blocked nodes other than `v`. -/
def blockedElsewhere [DecidableEq α] (v : α) (blocked : List α) : List α :=
  blocked.filter (¬ · = v)

theorem length_waitersOf_add [DecidableEq α] (v : α) (waiting : List (α × α)) :
    (waitersOf v waiting).length + (waitingElsewhere v waiting).length = waiting.length := by
  induction waiting with
  | nil => rfl
  | cons pair rest ih =>
    by_cases h : pair.1 = v <;> simp_all [waitersOf, waitingElsewhere] <;> omega

/-- Unblocks the nodes in `work`, the nodes that wait for a node unblocked here, and so on.  The
pairs of unblocked nodes are removed. -/
def unblockAll [DecidableEq α] (work blocked : List α) (waiting : List (α × α)) :
    List α × List (α × α) :=
  match work with
  | [] => (blocked, waiting)
  | v :: work =>
      if v ∈ blocked then
        unblockAll (waitersOf v waiting ++ work) (blockedElsewhere v blocked)
          (waitingElsewhere v waiting)
      else
        unblockAll work blocked waiting
termination_by work.length + waiting.length
decreasing_by
  · have h := length_waitersOf_add v waiting
    simp only [List.length_append, List.length_cons]
    omega
  · simp

/-- Unblocks `v` and everything that waits for it. -/
def unblock [DecidableEq α] (v : α) (blocked : List α) (waiting : List (α × α)) :
    List α × List (α × α) :=
  unblockAll [v] blocked waiting

/-! ## Cycles through one node -/

/-- The state of a search for cycles through one node: the blocked nodes, who waits for whom, and
the cycles. -/
structure CircuitSearch where
  blocked : List String
  waiting : List (String × String)
  cycles : CycleList

namespace CircuitSearch

/-- Blocks a node, which is entered. -/
def enter (search : CircuitSearch) (here : String) : CircuitSearch :=
  { search with blocked := here :: search.blocked }

/-- Tries one of the nodes after the last node of `path`, which is in reverse order.  A cycle is
closed at `start`; a node that is not blocked is searched by `descend`.  Also says whether a cycle
was found, now or before. -/
def tryNext (start : String) (path : List String)
    (descend : String → CircuitSearch → CircuitSearch × Bool) :
    CircuitSearch × Bool → String → CircuitSearch × Bool
  | (search, closed), w =>
      if search.cycles.isTruncated then (search, closed)
      else if w = start then ({ search with cycles := search.cycles.add path.reverse }, true)
      else if w ∈ search.blocked then (search, closed)
      else
        let (search, closedBehind) := descend w search
        (search, closed || closedBehind)

/-- Leaves a node.  It is unblocked if a cycle was found behind it, and otherwise waits for each of
the nodes after it. -/
def leave (search : CircuitSearch) (here : String) (after : List String) (closed : Bool) :
    CircuitSearch :=
  if closed then
    let (blocked, waiting) := unblock here search.blocked search.waiting
    { search with blocked := blocked, waiting := waiting }
  else
    let waits := (after.map fun w => (w, here)).filter (· ∉ search.waiting)
    { search with waiting := waits ++ search.waiting }

/-- Searches for ways on from `here`, the last node of `path`, back to `start`.  The path is in
reverse order, `next` gives the nodes to try, and at most `depth` further nodes are added.  Also
says whether a cycle was found. -/
def run (next : String → List String) (start : String) :
    (depth : Nat) → (path : List String) → (here : String) → CircuitSearch →
      CircuitSearch × Bool
  | 0, _, _, search => (search, false)
  | depth + 1, path, here, search =>
      let (search, closed) := (next here).foldl
        (tryNext start path fun w => run next start depth (w :: path) w)
        (search.enter here, false)
      (search.leave here (next here) closed, closed)

end CircuitSearch

/-! ## All cycles -/

namespace Graph

/-- The other members that `id` calls, in the order in which they are tried. -/
def calleesWithin (g : Graph) (members : List String) (id : String) : List String :=
  (g.otherCallees id).reverse.filter members.contains

/-- The members that call `id`. -/
def callersWithin (g : Graph) (members : List String) (id : String) : List String :=
  (g.callersOf id).filter members.contains

/-- The strong components with at least two nodes of the part of the graph between the members, in
the order in which they are searched. -/
def cyclicParts (g : Graph) (members : List String) : List (List String) :=
  let next := g.calleesWithin members
  let back := g.callersWithin members
  (classes (strongClass next back members) (leavingOrder next members)).filter (1 < ·.length)

/-- Searches parts of the graph for the cycles through their least nodes, and then what is left of
each part, at most `rounds` times. -/
def searchParts (g : Graph) : (rounds : Nat) → (parts : List (List String)) → CycleList → CycleList
  | rounds + 1, (start :: rest) :: parts, cycles =>
      let members := start :: rest
      let (search, _) := CircuitSearch.run (g.calleesWithin members) start members.length [start]
        start ⟨[], [], cycles⟩
      if search.cycles.isTruncated then search.cycles
      else searchParts g rounds (g.cyclicParts rest ++ parts) search.cycles
  | _, _, cycles => cycles

/-- Adds all cycles of at least two nodes, of whatever length. -/
def searchAll (g : Graph) (cycles : CycleList) : CycleList :=
  g.searchParts g.nodeCount (g.cyclicParts g.nodeIds) cycles

/-- Adds the cycles that continue `path`, which is in reverse order and begins with `start`, by at
most `hops` nodes, all of them greater than `start`. -/
def extendCycle (g : Graph) (start : String) :
    (hops : Nat) → (path : List String) → (here : String) → CycleList → CycleList
  | 0, _, _, cycles => cycles
  | hops + 1, path, here, cycles =>
      (g.otherCallees here).foldl
        (fun cycles next =>
          if cycles.isTruncated then cycles
          else if next = start then cycles.add path.reverse
          else if start < next ∧ next ∉ path ∧ 0 < hops then
            extendCycle g start hops (next :: path) next cycles
          else cycles)
        cycles

/-- Adds all cycles of at least two and at most `length` nodes. -/
def searchShort (g : Graph) (length : Nat) (cycles : CycleList) : CycleList :=
  if length < 2 then cycles
  else
    g.nodeIds.foldl
      (fun cycles start =>
        if cycles.isTruncated then cycles
        else g.extendCycle start (min length g.nodeCount) [start] start cycles)
      cycles

/-- Adds all cycles of one node. -/
def searchLoops (g : Graph) (cycles : CycleList) : CycleList :=
  g.nodeIds.foldl
    (fun cycles id =>
      if cycles.isTruncated then cycles
      else if g.hasEdge id id then cycles.add [id]
      else cycles)
    cycles

/-- The cycles of a graph in ascending order, and whether some were left out because of a limit on
their number. -/
structure Cycles where
  cycles : List Cycle
  isTruncated : Bool
deriving DecidableEq, Repr

/-- The cycles of the graph within the limits.  Nodes that call themselves are looked for first,
and longer cycles only if there is room left after them. -/
def cycles (g : Graph) (limits : SearchLimits) : Cycles :=
  if limits.maxCycleLength = some 0 then ⟨[], false⟩
  else
    let loops := g.searchLoops (.start limits.maxCycles)
    let all :=
      if loops.isFull then loops
      else match limits.maxCycleLength with
        | some length => g.searchShort length loops
        | none => g.searchAll loops
    ⟨(sortPaths all.found).map Cycle.mk, all.isTruncated⟩

/-- All cycles of the graph. -/
def allCycles (g : Graph) : List Cycle :=
  (g.cycles {}).cycles

end Graph

end CallGraph
