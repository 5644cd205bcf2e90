import CallGraph.Document.File
import CallGraph.Proofs.Document.GexfAnnotations
import CallGraph.Proofs.Document.GraphmlAnnotations

/-!
# What is said of edges

Other tools say more of an edge than which nodes it joins.  Readers of XML documents have no place
for this, but they do not pass over it either.  What comes of it is told by the names of the keys of
edges in GraphML, and by the ids and titles of their attributes in GEXF.

Main results:

- Theorem `Document.read_with_edge_annotations`: a document compared with the same document where
  nothing is said of edges.
-/

namespace CallGraph

open Xml

namespace Document

variable {bytes other : List UInt8} {forest otherForest : Forest}

/-- Two well-formed texts, where the second one is the first one without what is said of edges.  In
GraphML the same document is read, or the same fault, unless a key of an edge has the name of one
that describes documents; no document is read if its text is not in order, and nodes and edges are
the same in any case.  In GEXF, if no value of a node has another title for the attributes of edges,
all but the detail is the same, and the detail as well unless there is an attribute of edges with
the title of code objects. -/
theorem read_with_edge_annotations (hscan : scan bytes = forest.events)
    (hother : scan other = otherForest.events) :
    (Graphml.annotations.Bares {} {} forest otherForest →
      Graphml.ReadsAnnotated (Graphml.edgeData forest) (read .graphml bytes)
        (read .graphml other)) ∧
    (Gexf.annotations.Bares {} {} forest otherForest →
      Gexf.ReadsAnnotated (Gexf.annotations.remember {} {} forest) (read .gexf bytes)
        (read .gexf other)) :=
  ⟨Graphml.read_of_bares hscan hother, Gexf.read_of_bares hscan hother⟩

/-! ## Loops -/

/-- A node that calls itself, and what is said of the edge. -/
def loopForest (said : Forest) : Forest :=
  .empty ⟨ascii "node", ascii " id=\"a\""⟩
    (.element ⟨ascii "edge", ascii " source=\"a\" target=\"a\""⟩ said .nil)

def loopText (said : List UInt8) : List UInt8 :=
  ascii "<node id=\"a\"/><edge source=\"a\" target=\"a\">" ++ said ++ ascii "</edge>"

/-- A GraphML document with a key for modes of edges. -/
def modeForest (said : Forest) : Forest :=
  .element ⟨ascii "graphml", []⟩
    (.empty ⟨ascii "key", ascii " id=\"d\" attr.name=\"mode\""⟩ (loopForest said)) .nil

def modeText (said : List UInt8) : List UInt8 :=
  ascii "<graphml><key id=\"d\" attr.name=\"mode\"/>" ++ loopText said ++ ascii "</graphml>"

/-- The mode of an edge. -/
def asyncForest : Forest :=
  .element ⟨ascii "data", ascii " key=\"d\""⟩ (.plain (.text (ascii "async")) rfl .nil) .nil

def asyncText : List UInt8 :=
  ascii "<data key=\"d\">async</data>"

/-- A GEXF document where the attribute of edges has the title of code objects. -/
def objectForest : Forest :=
  .element ⟨ascii "gexf", []⟩
    (.element ⟨ascii "attributes", ascii " class=\"edge\""⟩
      (.empty ⟨ascii "attribute", ascii " id=\"0\" title=\"code_object\""⟩ .nil)
      (loopForest (.element ⟨ascii "attvalues", []⟩
        (.empty ⟨ascii "attvalue", ascii " for=\"0\" value=\"x\""⟩ .nil) .nil))) .nil

def objectText : List UInt8 :=
  ascii "<gexf><attributes class=\"edge\"><attribute id=\"0\" title=\"code_object\"/>" ++
    ascii "</attributes>" ++
    loopText (ascii "<attvalues><attvalue for=\"0\" value=\"x\"/></attvalues>") ++ ascii "</gexf>"

/-- A GEXF document without attributes of edges. -/
def plainForest : Forest :=
  .element ⟨ascii "gexf", []⟩ (loopForest .nil) .nil

def plainText : List UInt8 :=
  ascii "<gexf>" ++ loopText [] ++ ascii "</gexf>"

/-- No document is read for the mode of an edge, and a document is taken for a full one for an
attribute of its edge.  Without these, the same documents are read as what they are. -/
theorem loops_read_with_edge_annotations :
    (∃ doc, read .graphml (modeText []) = .ok doc) ∧
      (¬ ∃ doc, read .graphml (modeText asyncText) = .ok doc) ∧
      ∃ doc, read .gexf plainText = .ok doc ∧ doc.detail = .structureOnly ∧
        read .gexf objectText = .ok { doc with detail := .full } := by
  have hasync : scan (modeText asyncText) = (modeForest asyncForest).events := by decide +kernel
  have hmode : scan (modeText []) = (modeForest .nil).events := by decide +kernel
  have hobject : scan objectText = objectForest.events := by decide +kernel
  have hplain : scan plainText = plainForest.events := by decide +kernel
  have hgraphml : Graphml.annotations.Bares {} {} (modeForest asyncForest) (modeForest .nil) :=
    ⟨by decide, by decide, by decide, rfl⟩
  have hgexf : Gexf.annotations.Bares {} {} objectForest plainForest :=
    ⟨by decide, by decide, by decide, rfl⟩
  have hloop : ∃ doc, read .graphml (modeText []) = .ok doc := by
    rw [read, Graphml.read, hmode]
    exact ⟨_, rfl⟩
  have hread : read .gexf plainText = .ok {
      formatVersion := currentVersion
      detail := .structureOnly
      savedAt := .epoch
      nodes := [⟨"a", "a", "", .unknown, none, .empty⟩]
      edges := [⟨"a", "a"⟩] } := rfl
  refine ⟨hloop, fun hasyncLoop => ?_, _, hread, rfl, ?_⟩
  · have haccepts := ((read_with_edge_annotations hasync hmode).1 hgraphml).exists_iff.1 hasyncLoop
    have hsaid : ("mode", "async") ∈ Graphml.edgeData (modeForest asyncForest) := by decide
    obtain ⟨after, hafter⟩ := haccepts.2 _ hsaid ⟨1, none, .epoch⟩
    cases hafter
  · rw [((read_with_edge_annotations hobject hplain).2 hgexf).eq_map, hread]
    rfl

end Document

end CallGraph
