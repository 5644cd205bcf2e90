import CallGraph.Document.File
import CallGraph.Proofs.Document.Binary
import CallGraph.Proofs.Document.Gexf
import CallGraph.Proofs.Document.Graph
import CallGraph.Proofs.Document.Json

/-!
# Graphs written and read in all formats

A document that is written in some format and read again describes the same graph: what comes back
of the document may be at another time and, in GEXF, at another level of detail, but its nodes and
edges are the same.  The binary format takes a limited number of bytes, and GraphML takes years of
four digits.

Main results:

- Definition `Document.FitsInto`: the documents that a format takes.
- Theorem `Graph.ofFile_write`: the graph of a file that was written.
-/

namespace CallGraph

/-- The graph in a file of the given format. -/
def Graph.ofFile (format : Format) (bytes : List UInt8) : Except DocumentFault Graph := do
  (← Document.read format bytes).toGraph

namespace Document

/-- The format takes the document: in binary its fields are not too long, and in GraphML the year of
its time has four digits. -/
def FitsInto (doc : Document) : Format → Prop
  | .binary => (Binary.document.encode doc).length ≤ Binary.sizeLimit
  | .graphml => 0 ≤ doc.savedAt.date.year ∧ doc.savedAt.date.year ≤ 9999
  | .json | .gexf => True

variable {doc : Document} {format : Format}

/-- The time of a document does not matter to its graph. -/
theorem toGraph_settled (doc : Document) : doc.settled.toGraph = doc.toGraph :=
  rfl

/-- A document with all of its detail is the same at this level and in full. -/
theorem HasDetail.atDetail_eq (h : doc.HasDetail) {detail : Detail}
    (hfull : doc.detail = .full → detail = .full) {n : Node} (hn : n ∈ doc.nodes) :
    atDetail detail n = atDetail doc.detail n := by
  rcases h n hn with hdoc | hobject
  · rw [hfull hdoc, hdoc]
  · rw [atDetail_of_object_eq_none hobject, atDetail_of_object_eq_none hobject]

end Document

open Document

/-- The graph of a file that was written is the one that the document describes. -/
theorem Graph.ofFile_write {doc : Document} {format : Format} (h : doc.InRange)
    (hdetail : doc.HasDetail) (hversion : doc.formatVersion = currentVersion)
    (hfits : doc.FitsInto format) : Graph.ofFile format (doc.write format) = doc.toGraph := by
  cases format with
  | binary =>
    have hread : Document.read .binary (doc.write .binary) = .ok doc.settled :=
      Binary.read_write h hfits
    rw [ofFile, hread, ok_bind, toGraph_settled]
  | graphml =>
    have hread : Document.read .graphml (doc.write .graphml) = .ok doc.settled :=
      (Graphml.read_write h hdetail).trans (if_pos hfits)
    rw [ofFile, hread, ok_bind, toGraph_settled]
  | json =>
    have hread : Document.read .json (doc.write .json) = .ok doc.settled := ofJson_toJson h
    rw [ofFile, hread, ok_bind, toGraph_settled]
  | gexf =>
    have hread : Document.read .gexf (doc.write .gexf) = .ok _ :=
      Gexf.read_write h.nodes_inRange hdetail
    rw [ofFile, hread, ok_bind]
    refine toGraph_congr hversion.symm rfl rfl fun n hn => hdetail.atDetail_eq (fun hfull => ?_) hn
    exact if_pos (.inl hfull)

end CallGraph
