import CallGraph.Document.Binary
import CallGraph.Proofs.Bytes.Codec
import CallGraph.Proofs.Calendar.Reader
import CallGraph.Proofs.Document.Range

/-!
# Binary documents read back

The codec of documents is put together from lawful codecs, so that it is lawful itself: a document
is read back from its bytes, and bytes that break off early are refused.

Main results:

- Theorem `Binary.lawful_document`: the codec of documents is lawful.
- Theorem `Binary.reads_back_and_refuses_parts`: a document is read back, a part of its bytes is
  refused, and no other document begins with its bytes.
-/

namespace CallGraph

namespace Binary

open Codec

/-! ## Lawful codecs -/

theorem mem_allKinds (kind : Kind) : kind ∈ Kind.all := by
  cases kind <;> decide

theorem mem_allModes (mode : ParameterMode) : mode ∈ ParameterMode.all := by
  cases mode <;> decide

theorem mem_allDetails (detail : Detail) : detail ∈ Detail.all := by
  cases detail <;> decide

theorem lawful_parameter : parameter.Lawful fun _ => True :=
  ((lawful_pair lawful_text (lawful_pair lawful_text (lawful_pair (lawful_choice (by decide))
    (lawful_option lawful_text)))).via _ _).mono fun p _ =>
      ⟨⟨trivial, trivial, mem_allModes p.mode, fun _ _ => trivial⟩, rfl⟩

theorem lawful_callSite : callSite.Lawful CallSite.InRange :=
  ((lawful_pair lawful_text (lawful_pair lawful_word32 (lawful_pair (lawful_pair lawful_word64
    lawful_word64) (lawful_pair (lawful_list lawful_text) lawful_textMap)))).via _ _).mono
      fun _ h => ⟨⟨trivial, h.line_lt, ⟨h.first_lt, h.last_lt⟩, fun _ _ => trivial, trivial⟩, rfl⟩

/-- Code objects in range are coded lawfully, field by field. -/
theorem lawful_codeObject : codeObject.Lawful CodeObject.InRange :=
  ((lawful_pair lawful_text (lawful_pair lawful_text (lawful_pair lawful_text (lawful_pair
    (lawful_choice (by decide)) (lawful_pair lawful_bool (lawful_pair (lawful_list
      lawful_parameter) (lawful_pair (lawful_option lawful_text) (lawful_pair (lawful_list
        lawful_callSite) (lawful_pair (lawful_option lawful_text) (lawful_option
          lawful_textMap)))))))))).via _ _).mono fun object h =>
            ⟨⟨trivial, trivial, trivial, mem_allKinds object.kind, trivial,
              fun _ _ => trivial, fun _ _ => trivial, h, fun _ _ => trivial, fun _ _ => trivial⟩,
              rfl⟩

/-- Nodes in range are coded lawfully. -/
theorem lawful_node : node.Lawful Node.InRange :=
  ((lawful_pair lawful_text (lawful_pair lawful_text (lawful_pair lawful_text (lawful_pair
    (lawful_choice (by decide)) (lawful_pair lawful_textMap (lawful_option
      lawful_codeObject)))))).via _ _).mono fun n h =>
        ⟨⟨trivial, trivial, trivial, mem_allKinds n.kind, trivial, h⟩, rfl⟩

theorem lawful_edge : edge.Lawful fun _ => True :=
  ((lawful_pair lawful_text lawful_text).via _ _).mono fun _ _ => ⟨⟨trivial, trivial⟩, rfl⟩

/-- Moments in the calendar are coded lawfully, once they are settled. -/
theorem lawful_instant : instant.Lawful fun t => t.InCalendar ∧ t.settled = t :=
  (lawful_text.via _ _).mono fun t h =>
    ⟨trivial, by rw [Calendar.lenient?_toText h.1, h.2]⟩

/-- A document in range is read back if its time is named by its text. -/
theorem lawful_document :
    document.Lawful fun doc => doc.InRange ∧ doc.savedAt.settled = doc.savedAt :=
  ((lawful_pair lawful_word32 (lawful_pair (lawful_choice (by decide)) (lawful_pair lawful_instant
    (lawful_pair (lawful_list lawful_node) (lawful_list lawful_edge))))).via _ _).mono fun doc h =>
      ⟨⟨h.1.formatVersion_lt, mem_allDetails doc.detail, ⟨h.1.savedAt_inCalendar, h.2⟩,
        h.1.nodes_inRange, fun _ _ => trivial⟩, rfl⟩

/-! ## Times -/

/-- The time that a text names is named by its own text. -/
theorem settled_savedAt {t : Instant} (h : t.InCalendar) :
    t.settled.InCalendar ∧ t.settled.settled = t.settled := by
  have hdate := t.date_settled
  obtain ⟨hyear, hsecond, hnanosecond⟩ := h
  by_cases hend : t.second % 60 = 59
  · have hself : t.settled = t := Instant.settled_eq_self (.inl hend)
    rw [hself]
    exact ⟨⟨hyear, hsecond, hnanosecond⟩, hself⟩
  · have hlt : t.settled.nanosecond < 1000000000 := by
      rw [Instant.settled, if_neg hend]
      exact Nat.mod_lt _ (by decide)
    refine ⟨⟨hdate ▸ hyear, ?_, by omega⟩, Instant.settled_eq_self (.inr hlt)⟩
    rw [Instant.settled, if_neg hend]
    simp only
    omega

/-- Settling the time of a document does not change its bytes. -/
theorem encode_settled {doc : Document} (h : doc.InRange) :
    document.encode doc.settled = document.encode doc := by
  simp only [document, instant, via, pair, Document.settled,
    Instant.toText_settled h.savedAt_inCalendar]

/-- A settled document is in range, and settling it again changes nothing. -/
theorem inRange_settled {doc : Document} (h : doc.InRange) :
    doc.settled.InRange ∧ doc.settled.savedAt.settled = doc.settled.savedAt :=
  have ht := settled_savedAt h.savedAt_inCalendar
  ⟨⟨h.formatVersion_lt, ht.1, h.nodes_inRange⟩, ht.2⟩

/-! ## Whole documents -/

/-- The bytes with which every binary file begins. -/
theorem bytesOf_magic : Text.bytesOf Document.magic = [0x44, 0x47, 0x42, 0x31] := by
  rw [Text.bytesOf_eq_encoded]
  decide

/-- What follows the letters is read as the fields of a document. -/
theorem read_magic_append (payload : List UInt8) :
    read (Text.bytesOf Document.magic ++ payload) =
      match document.decode payload with
      | some (doc, rest) =>
          if payload.length - rest.length ≤ sizeLimit then .ok doc else .error .badPayload
      | none => .error .badPayload := by
  have hlength : ¬ (Text.bytesOf Document.magic ++ payload).length < 4 := by
    rw [bytesOf_magic, List.length_append]
    simp
  have hfour : (Text.bytesOf Document.magic).length = 4 := by
    rw [bytesOf_magic]
    rfl
  rw [read, if_neg hlength, List.take_left' hfour, List.drop_left' hfour]
  exact if_neg (by simp)

/-- A payload that may be written has a length of sixty-four bits. -/
theorem lt_of_le_sizeLimit {n : Nat} (h : n ≤ sizeLimit) : n < 2 ^ 64 :=
  Nat.lt_of_le_of_lt h (by decide)

/-- A document is read back from its bytes. -/
theorem read_write {doc : Document} (h : doc.InRange)
    (hsize : (document.encode doc).length ≤ sizeLimit) : read (write doc) = .ok doc.settled := by
  have hdecode := lawful_document.decode_encode (inRange_settled h)
    (by rw [encode_settled h]; exact lt_of_le_sizeLimit hsize) []
  rw [List.append_nil, encode_settled h] at hdecode
  rw [write, read_magic_append, hdecode]
  exact if_pos hsize

/-- Bytes of a document that break off early are refused. -/
theorem read_of_breaks_off {doc : Document} (h : doc.InRange)
    (hsize : (document.encode doc).length ≤ sizeLimit) {bytes : List UInt8}
    (hstart : bytes <+: write doc) (hne : bytes ≠ write doc) :
    read bytes = .error (if bytes.length < 4 then .tooShort else .badPayload) := by
  by_cases hshort : bytes.length < 4
  · rw [read, if_pos hshort, if_pos hshort]
  · obtain ⟨missing, heq⟩ := hstart
    obtain ⟨payload, rfl⟩ : ∃ payload, bytes = Text.bytesOf Document.magic ++ payload := by
      refine ⟨bytes.drop 4, ?_⟩
      have hletters := congrArg (List.take 4) heq
      rw [List.take_append_of_le_length (Nat.not_lt.1 hshort), write, bytesOf_magic] at hletters
      rw [bytesOf_magic]
      exact (List.take_append_drop 4 bytes).symm.trans (congrArg (· ++ bytes.drop 4) hletters)
    rw [write, List.append_assoc, List.append_cancel_left_eq, ← encode_settled h] at heq
    rw [← encode_settled h] at hsize
    have hnone := lawful_document.decode_eq_none_of_breaks_off (inRange_settled h)
      (lt_of_le_sizeLimit hsize) ⟨missing, heq⟩
      fun hwhole => hne (by rw [hwhole, write, encode_settled h])
    rw [read_magic_append, hnone, if_neg hshort]

/-- A document whose fields are not too long is read back from its bytes, with the time that its
text names.  Bytes that break off early are refused, and no other document begins with the bytes of
this one. -/
theorem reads_back_and_refuses_parts {doc : Document} (h : doc.InRange)
    (hsize : (document.encode doc).length ≤ sizeLimit) :
    read (write doc) = .ok doc.settled ∧
    doc.settled.savedAt.toText "Z" = doc.savedAt.toText "Z" ∧
    (∀ bytes, bytes <+: write doc → bytes ≠ write doc →
      read bytes = .error (if bytes.length < 4 then .tooShort else .badPayload)) ∧
    (∀ other : Document, other.InRange → (document.encode other).length ≤ sizeLimit →
      write doc <+: write other → doc.settled = other.settled) := by
  refine ⟨read_write h hsize, Instant.toText_settled h.savedAt_inCalendar "Z",
    fun bytes => read_of_breaks_off h hsize, fun other hother hfits hstart => ?_⟩
  have hread := read_write h hsize
  by_cases heq : write doc = write other
  · rw [heq, read_write hother hfits] at hread
    exact (Except.ok.inj hread).symm
  · rw [read_of_breaks_off hother hfits hstart heq] at hread
    cases hread

/-- A document in full, of one node with a call and an attribute, and an edge. -/
def selfCall : Document where
  formatVersion := 1
  detail := .full
  savedAt := ⟨20455, 11045, 0⟩
  nodes := [{
    id := "a", name := "A", packageName := "", kind := .procedure
    object := some {
      id := "a", name := "A", kind := .procedure
      calls := [{ callee := "a", line := 300, span := (70000, 4294967296) }] }
    attributes := TextMap.empty.insert "role" "hub" }]
  edges := [⟨"a", "a"⟩]

/-- A document with a loop is read back, and its first thirty bytes are refused. -/
theorem reads_selfCall_back :
    selfCall.InRange ∧ (document.encode selfCall).length ≤ sizeLimit ∧
    read (write selfCall) = .ok selfCall ∧
    read ((write selfCall).take 30) = .error .badPayload := by
  have hrange : selfCall.InRange := by
    refine ⟨by decide, ⟨by decide, by decide, by decide⟩, ?_⟩
    simp only [selfCall, List.mem_singleton, forall_eq, Node.InRange, CodeObject.InRange,
      Option.mem_some_iff, forall_eq']
    exact ⟨by decide, by decide, by decide⟩
  have hsize : (document.encode selfCall).length ≤ sizeLimit := by decide +kernel
  have hlong : ¬ ((write selfCall).take 30).length < 4 := by decide +kernel
  obtain ⟨hback, -, hparts, -⟩ := reads_back_and_refuses_parts hrange hsize
  refine ⟨hrange, hsize, hback, ?_⟩
  rw [hparts ((write selfCall).take 30) (List.take_prefix _ _) (by decide +kernel), if_neg hlong]

end Binary

end CallGraph
