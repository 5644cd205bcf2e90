import CallGraph.Proofs.Document.Graph
import CallGraph.Proofs.Xml.Parts

/-!
# Readers of documents that break off

A reader of XML documents goes through events and makes a document of what it has read at the end.
If what it makes of first events always describes the graph of the first nodes and edges, and all
such graphs are arrived at, then they are the graphs of the parts of the text.

Main results:

- Definition `Document.ReadsCuts`: what a reader makes of the first events of a document.
- Theorem `Document.ReadsCuts.exists_part_toGraph_iff`: the graphs of the parts of its text.
-/

namespace CallGraph

namespace Document

open Xml

/-- The part of a list that has been read, the latest first, is the list as far as it goes. -/
theorem reverse_eq_take {read items : List α} (h : read <:+ items.reverse) :
    read.reverse = items.take read.length := by
  have hbegin := h.reverse
  rwa [List.reverse_reverse, List.prefix_iff_eq_take, List.length_reverse] at hbegin

/-- A reader refuses faults, and texts do not count at its end.  What it makes of some first events
describes the graph of the first nodes and edges of a document, as long as no edge is left without
all nodes, and it makes such a document for all numbers of nodes and edges. -/
structure ReadsCuts (step : σ → Event → Except DocumentFault σ)
    (finish : σ → Except DocumentFault Document) (start : σ) (events : List Event)
    (doc : Document) : Prop where
  fault_ne : ∀ r s, step r .fault ≠ .ok s
  finish_text : ∀ r s text, step r (.text text) = .ok s → finish s = finish r
  exists_cut : ∀ first r d, first <+: events → first.foldlM step start = .ok r →
    finish r = .ok d → ∃ i j, (j = 0 ∨ doc.nodes.length ≤ i) ∧ d.toGraph = (doc.cut i j).toGraph
  exists_first : ∀ i j, (j = 0 ∨ doc.nodes.length ≤ i) → ∃ first r d, first <+: events ∧
    first ≠ events ∧ first.foldlM step start = .ok r ∧ finish r = .ok d ∧
    d.toGraph = (doc.cut i j).toGraph

/-- The graphs of the parts of a text are those of the first nodes and edges. -/
theorem ReadsCuts.exists_part_toGraph_iff {step : σ → Event → Except DocumentFault σ}
    {finish : σ → Except DocumentFault Document} {start : σ} {bytes : List UInt8} {doc : Document}
    (h : ReadsCuts step finish start (scan bytes) doc) (hmark : bytes.head? ≠ some 0xef)
    {loaded : Graph} :
    (∃ part, part <+: bytes ∧ part ≠ bytes ∧
        ((scan part).foldlM step start >>= finish) >>= toGraph = .ok loaded) ↔
      ∃ i j, (j = 0 ∨ doc.nodes.length ≤ i) ∧ (doc.cut i j).toGraph = .ok loaded := by
  constructor
  · rintro ⟨part, hpart, -, hloaded⟩
    obtain ⟨d, hd, hgraph⟩ := bind_eq_ok.1 hloaded
    obtain ⟨first, r, hfirst, hread, hfinish⟩ :=
      exists_first_of_part h.fault_ne h.finish_text hmark hpart hd
    obtain ⟨i, j, hij, hcut⟩ := h.exists_cut first r d hfirst hread hfinish
    exact ⟨i, j, hij, hcut ▸ hgraph⟩
  · rintro ⟨i, j, hij, hgraph⟩
    obtain ⟨first, r, d, hfirst, hne, hread, hfinish, hcut⟩ := h.exists_first i j hij
    obtain ⟨part, hpart, hscan⟩ := exists_part_scan hmark hfirst
    refine ⟨part, hpart, fun heq => hne (heq ▸ hscan.symm), ?_⟩
    rw [hscan, hread, ok_bind, hfinish, ok_bind, hcut, hgraph]

end Document

end CallGraph
