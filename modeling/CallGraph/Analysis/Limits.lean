/-!
# Limits of searches

The number of simple paths and of cycles can be exponential in the size of a graph, so searches
for them can be limited.
-/

namespace CallGraph

/-- Limits of the searches for paths and cycles; a limit that is not set does not bind. -/
structure SearchLimits where
  /-- The most edges a path may have. -/
  pathCutoff : Option Nat := none
  /-- The most nodes a cycle may have. -/
  maxCycleLength : Option Nat := none
  /-- The number of cycles after which a search ends. -/
  maxCycles : Option Nat := none
deriving DecidableEq, Repr

namespace SearchLimits

/-- Whether the search for cycles is not limited. -/
def isUnbounded (limits : SearchLimits) : Bool :=
  limits.maxCycleLength.isNone && limits.maxCycles.isNone

/-- The name of the first limit that is set to zero, which would leave nothing to search. -/
def zeroLimit? (limits : SearchLimits) : Option String :=
  if limits.pathCutoff = some 0 then some "path_cutoff"
  else if limits.maxCycleLength = some 0 then some "max_cycle_length"
  else if limits.maxCycles = some 0 then some "max_cycles"
  else none

end SearchLimits

end CallGraph
