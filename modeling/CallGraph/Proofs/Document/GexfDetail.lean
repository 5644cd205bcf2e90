import CallGraph.Proofs.Document.Gexf
import CallGraph.Proofs.Document.Graph

/-!
# The detail of GEXF documents

GEXF has no place for the detail of a document, which is told from the titles of the attributes that
are declared.  Attributes of the graph are declared by their own names among the others, and one of
them may have the name of the attribute for code objects.

Main results:

- Theorem `Document.mem_attributeKeys_ofGraph`: the names of attributes that are declared.
- Theorem `Gexf.detail_read_back_iff`: when the detail that was written is read back.
-/

namespace CallGraph

variable {g : Graph} {detail : Detail}

/-- The attributes of all nodes of a graph are written, whatever the detail. -/
theorem Document.mem_attributeKeys_ofGraph {name : String} {savedAt : Instant} :
    name ∈ attributeKeys (ofGraph g detail savedAt).nodes ↔
      ∃ n ∈ g.nodes, name ∈ n.attributes.keys := by
  have hkeys (n : Node) : (atDetail detail n).attributes = n.attributes := by
    cases detail <;> rfl
  simp only [attributeKeys, mem_sortDistinct, ofGraph, List.flatMap_map, hkeys, List.mem_flatMap,
    (Graph.perm_sortedNodes g).mem_iff]

namespace Gexf

/-- The document of a graph is always read back.  One that was written in full is read as a full
one, and one that was written without code objects is read as such just if no node has an attribute
with the name of the one for code objects. -/
theorem detail_read_back_iff (savedAt : Instant)
    (hrange : detail = .full → ∀ n ∈ g.nodes, n.InRange) :
    ∃ doc, read (write (Document.ofGraph g detail savedAt)) = .ok doc ∧
      (detail = .full → doc.detail = .full) ∧
      (doc.detail = detail ↔
        detail = .full ∨ ∀ n ∈ g.nodes, "code_object" ∉ n.attributes.keys) := by
  refine ⟨_, read_write (Document.nodes_inRange_ofGraph hrange)
    (Document.hasDetail_ofGraph g detail savedAt), ?_⟩
  simp only [Document.mem_attributeKeys_ofGraph]
  cases detail with
  | full => simp [Document.ofGraph]
  | structureOnly => simp [Document.ofGraph]

/-- A node that has an attribute of its own with the name of the one for code objects. -/
def taggedNode : Graph :=
  Graph.after [.addNode {
    id := "a", name := "A", packageName := "", kind := .procedure
    attributes := TextMap.empty.insert "code_object" "x" }]

/-- The graph is written without code objects, and read as if it were in full. -/
theorem detail_of_taggedNode_not_read_back :
    ∃ doc, read (write (Document.ofGraph taggedNode .structureOnly .epoch)) = .ok doc ∧
      doc.detail = .full := by
  have hrange : Detail.structureOnly = .full → ∀ n ∈ taggedNode.nodes, n.InRange := nofun
  obtain ⟨doc, hread, -, hback⟩ := detail_read_back_iff .epoch hrange
  refine ⟨doc, hread, ?_⟩
  have htagged : ¬ ∀ n ∈ taggedNode.nodes, "code_object" ∉ n.attributes.keys := by decide
  cases hdetail : doc.detail with
  | full => rfl
  | structureOnly => exact absurd ((hback.1 hdetail).resolve_left nofun) htagged

end Gexf

end CallGraph
