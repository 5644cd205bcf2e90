import CallGraph.Document.Basic
import CallGraph.Proofs.Calendar.Reader

/-!
# What files keep of a document

A document holds a few numbers: the version of its format, the time it was saved at, and the lines
and spans of calls.  They are in range if they have at most as many bits as files keep of them, and
a document as a whole is kept up to the spelling of its time.

Main results:

- Definitions `Document.InRange` and `Document.HasDetail`: the documents that are written.
- Definition `Document.settled`: what is kept of such a document.
- Theorem `Document.hasDetail_ofGraph`: the document of a graph has its detail.
-/

namespace CallGraph

/-- The line of the call has 32 bits, and the ends of its span have 64 bits. -/
structure CallSite.InRange (call : CallSite) : Prop where
  line_lt : call.line < 2 ^ 32
  first_lt : call.span.1 < 2 ^ 64
  last_lt : call.span.2 < 2 ^ 64

/-- The numbers of all calls of the object are in range. -/
def CodeObject.InRange (object : CodeObject) : Prop :=
  ∀ call ∈ object.calls, call.InRange

/-- The numbers of the code object of the node, if it has one, are in range. -/
def Node.InRange (node : Node) : Prop :=
  ∀ object ∈ node.object, object.InRange

/-- The numbers of the document are in range, and it was saved at a time in the calendar. -/
structure Document.InRange (doc : Document) : Prop where
  formatVersion_lt : doc.formatVersion < 2 ^ 32
  savedAt_inCalendar : doc.savedAt.InCalendar
  nodes_inRange : ∀ node ∈ doc.nodes, node.InRange

/-- The document with the time that its text names. -/
def Document.settled (doc : Document) : Document :=
  { doc with savedAt := doc.savedAt.settled }

/-- Code objects are there only if the document is in full. -/
def Document.HasDetail (doc : Document) : Prop :=
  ∀ node ∈ doc.nodes, doc.detail = .full ∨ node.object = none

theorem Document.hasDetail_ofGraph (g : Graph) (detail : Detail) (savedAt : Instant) :
    (ofGraph g detail savedAt).HasDetail := by
  intro node hnode
  cases detail with
  | full => exact .inl rfl
  | structureOnly =>
    obtain ⟨original, -, rfl⟩ := List.mem_map.1 hnode
    exact .inr rfl

end CallGraph
