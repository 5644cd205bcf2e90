/-!
# Progress

How far a task has come, counted in items.
-/

namespace CallGraph

/-- What a task reports. -/
inductive ProgressEvent where
  | start
  | advance (items : Nat)
  | finish
  | message
deriving DecidableEq, Repr

/-- The number of items completed since the task was started, kept in 64 bits. -/
def ProgressEvent.count (completed : Nat) : ProgressEvent → Nat
  | start => 0
  | advance items => (completed + items) % Nat.pow 2 64
  | finish => completed
  | message => completed

/-- The number of completed items after each of the events. -/
def ProgressEvent.counts (completed : Nat) : List ProgressEvent → List Nat
  | [] => []
  | event :: rest => event.count completed :: counts (event.count completed) rest

end CallGraph
