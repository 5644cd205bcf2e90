import CallGraph.Analysis.Reach

/-!
# Connected components

Nodes are strongly connected if each reaches the other along edges, and weakly connected if they
are joined when the direction of edges does not matter.  Both relations divide the nodes into
classes.

Strong components come in the order in which a depth-first search leaves them: the class that is
left last, from which others may be reached but which none of them reaches, comes first.
-/

namespace CallGraph

/-! ## Depth-first order -/

/-- A depth-first search: what it has entered, and what it has left, the latest first. -/
structure DepthFirst (α : Type) where
  entered : List α
  left : List α

/-- Enters `v`, unless it was entered before, visits everything behind it and leaves it again.  The
search goes at most `depth` steps deep. -/
def DepthFirst.visit [BEq α] (next : α → List α) :
    (depth : Nat) → (v : α) → DepthFirst α → DepthFirst α
  | 0, _, search => search
  | depth + 1, v, search =>
      if search.entered.contains v then search
      else
        let search := { search with entered := v :: search.entered }
        let search := (next v).foldl (fun search w => visit next depth w search) search
        { search with left := v :: search.left }

/-- The members in the order in which a depth-first search leaves them, the latest first.  It
starts at the members in the order given. -/
def leavingOrder [BEq α] (next : α → List α) (members : List α) : List α :=
  (members.foldl (fun search v => DepthFirst.visit next members.length v search) ⟨[], []⟩).left

/-! ## Classes -/

/-- The classes found so far, with the class of `v` if it is a new one. -/
def openClass [BEq α] (classOf : α → List α) (found : List (List α)) (v : α) : List (List α) :=
  if found.any (·.contains v) then found else found ++ [classOf v]

/-- The classes of the members, in the order of their first members. -/
def classes [BEq α] (classOf : α → List α) (members : List α) : List (List α) :=
  members.foldl (openClass classOf) []

/-- The members that `v` reaches and that reach it, inside the members. -/
def strongClass [BEq α] (next back : α → List α) (members : List α) (v : α) : List α :=
  let forth := reach next members.length v
  let home := reach back members.length v
  members.filter fun w => forth.contains w && home.contains w

namespace Graph

/-- Whether components respect the direction of edges. -/
inductive Connection where
  | strong
  | weak
deriving DecidableEq, Repr

/-- The ids on the other side of the edges at `id`, whatever their direction. -/
def joinedTo (g : Graph) (id : String) : List String :=
  g.calleesOf id ++ g.callersOf id

/-- The ids connected with `id`, in ascending order. -/
def component (g : Graph) (connection : Connection) (id : String) : List String :=
  match connection with
  | .strong => strongClass g.calleesOf g.callersOf g.nodeIds id
  | .weak =>
      let joined := reach g.joinedTo g.nodeCount id
      g.nodeIds.filter joined.contains

/-- The components, each in ascending order, and in the order of their first members. -/
def components (g : Graph) (connection : Connection) : List (List String) :=
  classes (g.component connection) g.nodeIds

end Graph

end CallGraph
