import CallGraph.Document.Json
import CallGraph.Proofs.Code.Data
import CallGraph.Proofs.Document.Range
import CallGraph.Proofs.Json.Parts

/-!
# JSON documents read back

A document is the record of its fields, and every field is decoded as it was written.  Code objects
are there or not, whatever the detail of the document is.  A file that breaks off is no JSON.

Main results:

- Theorem `Document.ofData?_toData`: a document in range is decoded from its record.
- Theorem `Document.isPlain_toData`: its record has nothing in it that JSON would not keep.
- Theorem `Document.json_reads_back_and_refuses_parts`: a document is read back from JSON, and a
  part of its text is refused.
-/

namespace CallGraph

open Data

namespace Document

/-! ## Nodes and edges -/

/-- An optional code object is read back, whether or not there is one. -/
theorem optional?_object {object : Option CodeObject} (h : ∀ o ∈ object, o.InRange) :
    optional? CodeObject.ofData? (.ofOptional CodeObject.toData object) = some object :=
  optional?_ofOptional (fun o ho => CodeObject.ofData?_toData (h o ho))
    (by simp [CodeObject.toData])

/-- A node is read back. -/
theorem nodeOfData?_nodeToData {node : Node} (h : node.InRange) :
    nodeOfData? (nodeToData node) = some node := by
  have hfields : fields? ["id", "name", "package_name", "kind", "attributes", "object"]
      (nodeToData node) =
      some [some (.text node.id), some (.text node.name), some (.text node.packageName),
        some (.text node.kind.name), some node.attributes.toData,
        some (.ofOptional CodeObject.toData node.object)] := rfl
  have hlist : isList (nodeToData node) = false := rfl
  rw [nodeOfData?, hfields]
  simp [hlist, required?_some, orElse?_some, text?, choice?, Kind.ofName?_name,
    TextMap.ofData?_toData, optional?_object h]

/-- The tree of a node has nothing in it that JSON would not keep. -/
theorem isPlain_nodeToData {node : Node} (h : node.InRange) : (nodeToData node).IsPlain :=
  ⟨trivial, trivial, trivial, trivial, node.attributes.isPlain_toData,
    isPlain_ofOptional fun o ho => CodeObject.isPlain_toData (h o ho), trivial⟩

theorem edgeOfData?_edgeToData (edge : Edge) : edgeOfData? (edgeToData edge) = some edge := by
  have hfields : fields? ["source", "target"] (edgeToData edge) =
      some [some (.text edge.caller), some (.text edge.callee)] := rfl
  rw [edgeOfData?, hfields]
  simp [required?_some, text?]

theorem isPlain_edgeToData (edge : Edge) : (edgeToData edge).IsPlain :=
  ⟨trivial, trivial, trivial⟩

/-! ## Documents -/

variable {doc : Document}

/-- A moment is read back as it was settled. -/
theorem instantOfData?_toText {t : Instant} (h : t.InCalendar) :
    instantOfData? (.text (t.toText zone)) = some t.settled := by
  have htext : (Data.text (t.toText zone)).text? = some (t.toText zone) := by rw [text?]
  rw [instantOfData?, htext, Option.bind_eq_bind, Option.bind_some, zone,
    Calendar.lenient?_toText h]

/-- The name of a detail means that detail. -/
theorem ofName?_detailName (detail : Detail) : Detail.ofName? detail.name = some detail := by
  cases detail <;> decide

/-- A document is decoded from a record if each of its fields is. -/
theorem ofData?_eq_some {tree : Data} {version detail savedAt nodes edges : Option Data}
    (hfields : fields? ["format_version", "mode", "saved_at", "nodes", "edges"] tree =
      some [version, detail, savedAt, nodes, edges])
    (hversion : required? word32? version = some doc.formatVersion)
    (hdetail : required? (choice? isNull Detail.ofName?) detail = some doc.detail)
    (hsavedAt : required? instantOfData? savedAt = some doc.savedAt)
    (hnodes : required? (list? nodeOfData?) nodes = some doc.nodes)
    (hedges : required? (list? edgeOfData?) edges = some doc.edges) : ofData? tree = some doc := by
  rw [ofData?, hfields]
  simp [hversion, hdetail, hsavedAt, hnodes, hedges]

/-- A document in range is decoded from its record, with the time that its text names. -/
theorem ofData?_toData (h : doc.InRange) : ofData? doc.toData = some doc.settled := by
  refine ofData?_eq_some rfl ?_ ?_ ?_ ?_ ?_
  · exact (required?_some _ _).trans (word32?_integer h.formatVersion_lt)
  · exact (required?_some _ _).trans (ofName?_detailName doc.detail)
  · exact (required?_some _ _).trans (instantOfData?_toText h.savedAt_inCalendar)
  · exact mapM_map_some fun n hn => nodeOfData?_nodeToData (h.nodes_inRange n hn)
  · exact mapM_map_some fun e _ => edgeOfData?_edgeToData e

/-- The record of a document in range has nothing in it that JSON would not keep. -/
theorem isPlain_toData (h : doc.InRange) : doc.toData.IsPlain :=
  ⟨isPlain_integer (Nat.lt_trans h.formatVersion_lt (by decide)), trivial, trivial,
    arePlain_map fun n hn => isPlain_nodeToData (h.nodes_inRange n hn),
    arePlain_map fun e _ => isPlain_edgeToData e, trivial⟩

/-- A document in range is read back, with its time settled. -/
theorem ofJson_toJson (h : doc.InRange) : ofJson doc.toJson = .ok doc.settled := by
  rw [ofJson, toJson, Json.read_pretty (isPlain_toData h), Option.bind_some, ofData?_toData h]

/-- A document is read back from its JSON text with all its nodes and edges, their code objects
among them, and with the time that its text names.  A text that breaks off early is refused. -/
theorem json_reads_back_and_refuses_parts (h : doc.InRange) :
    ofJson doc.toJson = .ok doc.settled ∧
    doc.settled.savedAt.toText zone = doc.savedAt.toText zone ∧
    ∀ part, part <+: doc.toJson → part ≠ doc.toJson → ofJson part = .error .malformed := by
  refine ⟨ofJson_toJson h, Instant.toText_settled h.savedAt_inCalendar zone,
    fun part hpart hne => ?_⟩
  rw [ofJson, Json.read_part_of_record (isPlain_toData h) hpart hne, Option.bind_none]

/-- A document of a newer version, with signs that are escaped in JSON, the largest numbers that
are kept, and a code object although it is not in full. -/
def escapes : Document where
  formatVersion := 4294967295
  detail := .structureOnly
  savedAt := ⟨20455, 11045, 5⟩
  nodes := [{
    id := "", name := "\"\\\n\x07", packageName := "\u00e9", kind := .type
    object := some {
      id := "a", name := "\x7d", kind := .type
      calls := [{ callee := "b", line := 4294967295, span := (0, 18446744073709551615) }] }
    attributes := TextMap.empty.insert "\t" "" }]
  edges := [⟨"x", "x"⟩]

/-- Texts that have to be escaped are read back, and a file without its last brace is refused. -/
theorem json_reads_escapes_back :
    escapes.InRange ∧ ofJson escapes.toJson = .ok escapes ∧
    ofJson escapes.toJson.dropLast = .error .malformed := by
  have hrange : escapes.InRange := by
    refine ⟨by decide, ⟨by decide, by decide, by decide⟩, ?_⟩
    simp only [escapes, List.mem_singleton, forall_eq, Node.InRange, CodeObject.InRange,
      Option.mem_some_iff, forall_eq']
    exact ⟨by decide, by decide, by decide⟩
  have hsettled : escapes.settled = escapes := by
    rw [Document.settled, Instant.settled_eq_self (.inr (by decide))]
  obtain ⟨hback, -, hparts⟩ := json_reads_back_and_refuses_parts hrange
  rw [hsettled] at hback
  have hne : escapes.toJson ≠ [] := by
    intro hempty
    rw [hempty] at hback
    cases hback
  have hshorter : escapes.toJson.dropLast ≠ escapes.toJson := by
    intro hsame
    have hlength := congrArg List.length hsame
    rw [List.length_dropLast] at hlength
    have hpos := List.length_pos_of_ne_nil hne
    omega
  exact ⟨hrange, hback, hparts _ (List.dropLast_prefix _) hshorter⟩

end Document

end CallGraph
