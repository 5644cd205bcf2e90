import CallGraph.Proofs.Xml.Nesting
import CallGraph.Proofs.Xml.Scanner

/-!
# Texts that break off

A byte gives at most one event, and an event that has been given stays.  The events of a text that
breaks off are therefore the first events of the whole text, and after them there is at most the
rest of a text or the fault of markup that is cut off.  All numbers of first events can be left.

A reader that refuses faults and does not count texts therefore reads from a part of a text what it
reads from some first events.

Main results:

- Theorem `Scanner.step_cases`: what one byte does to the events.
- Theorem `scan_part`: the events of a text that breaks off.
- Theorem `exists_part_scan`: each number of first events is left by some part of a text.
- Theorem `exists_first_of_part`: what is read of a text that breaks off.
-/

namespace CallGraph.Xml

namespace Scanner

variable {s t : Scanner}

/-! ## Events one by one -/

/-- The second scanner has the events of the first, or one more and nothing pending. -/
def Notes (s t : Scanner) : Prop :=
  t.events = s.events ∨ ∃ event, t.events = event :: s.events ∧ t.finish = t.events.reverse

/-- The text before markup, if it is not empty, is noted with the sign that opens the markup.  Every
other event is noted where it ends. -/
theorem step_cases (s : Scanner) (b : UInt8) :
    (∃ read, s.place = .text read ∧ read ≠ [] ∧
        (s.step b).events = .text read.reverse :: s.events) ∨
      s.Notes (s.step b) := by
  cases outcome_step s b with
  | silent hevents hopen => exact .inr (.inl hevents)
  | text hplace hread hevents hopen => exact .inl ⟨_, hplace, hread, hevents⟩
  | event hevents hfinish hopen => exact .inr (.inr ⟨_, hevents, hfinish⟩)
  | fault hevents hfinish => exact .inr (.inr ⟨_, hevents, hfinish⟩)

/-! ## Events of parts -/

/-- A byte takes no event back. -/
theorem events_suffix_step (s : Scanner) (b : UInt8) : s.events <:+ (s.step b).events := by
  rcases step_cases s b with ⟨_, -, -, h⟩ | h | ⟨_, h, -⟩
  · exact h ▸ List.suffix_cons _ _
  · exact h ▸ List.suffix_refl _
  · exact h ▸ List.suffix_cons _ _

/-- Neither do several bytes. -/
theorem events_suffix_foldl (s : Scanner) (bytes : List UInt8) :
    s.events <:+ (bytes.foldl step s).events := by
  induction bytes generalizing s with
  | nil => exact List.suffix_refl _
  | cons b rest ih => exact (events_suffix_step s b).trans (ih (s.step b))

/-- What comes after the events of a text that ends: nothing, the text that is pending, or the fault
of markup that is cut off. -/
inductive Pending : Scanner → List Event → Prop
  | nothing (s : Scanner) : Pending s []
  | text (s : Scanner) {read : List UInt8} (hplace : s.place = .text read) (hread : read ≠ []) :
      Pending s [.text read.reverse]
  | fault (s : Scanner) : Pending s [.fault]

/-- A text that ends adds nothing to its events but what is pending. -/
theorem exists_finish_eq (s : Scanner) :
    ∃ pending, s.finish = s.events.reverse ++ pending ∧ Pending s pending := by
  rw [finish]
  split
  · rename_i read hplace
    by_cases hread : read = []
    · exact ⟨[], by simp [hread], .nothing s⟩
    · exact ⟨[.text read.reverse], by simp [hread], .text s hplace hread⟩
  · exact ⟨[], by simp, .nothing s⟩
  · exact ⟨[.fault], by simp, .fault s⟩

/-- The events before some bytes are the first of all events. -/
theorem events_prefix_finish (s : Scanner) (bytes : List UInt8) :
    s.events.reverse <+: (bytes.foldl step s).finish := by
  obtain ⟨pending, hfinish, -⟩ := exists_finish_eq (bytes.foldl step s)
  rw [hfinish]
  exact (List.reverse_prefix.2 (events_suffix_foldl s bytes)).trans (List.prefix_append _ _)

/-- Each longer start of the events is left by some part of the bytes.  The induction is on the
bytes: the one that gives the last event of the start is the last of the part, or, if that event is
a text, the first after it. -/
theorem exists_part_finish (bytes : List UInt8) (s : Scanner) {first : List Event}
    (hlonger : s.events.length < first.length)
    (hstart : first <+: (bytes.foldl step s).finish) :
    ∃ part, part <+: bytes ∧ (part.foldl step s).finish = first := by
  induction bytes generalizing s with
  | nil =>
    refine ⟨[], List.nil_prefix, ?_⟩
    rw [List.foldl_nil] at hstart ⊢
    obtain ⟨pending, hfinish, hpending⟩ := exists_finish_eq s
    refine (hstart.eq_of_length_le ?_).symm
    have hone : pending.length ≤ 1 := by
      cases hpending <;> simp
    rw [hfinish, List.length_append, List.length_reverse]
    omega
  | cons b rest ih =>
    have hnext {t : Scanner} (ht : s.step b = t) (hevents : t.events.length < first.length) :
        ∃ part, part <+: b :: rest ∧ (part.foldl step s).finish = first := by
      subst ht
      obtain ⟨part, hpart, hfirst⟩ := ih (s.step b) hevents hstart
      exact ⟨b :: part, List.prefix_cons_inj b |>.2 hpart, hfirst⟩
    -- The start ends with the event of this byte, or goes on after it.
    have hlast {event : Event} (hevents : (s.step b).events = event :: s.events)
        (hshort : ¬ (s.step b).events.length < first.length) :
        (s.step b).events.reverse = first := by
      have hbegin : (s.step b).events.reverse <+: ((b :: rest).foldl step s).finish :=
        events_prefix_finish (s.step b) rest
      refine (List.prefix_of_prefix_length_le hbegin hstart ?_).eq_of_length ?_
      · rw [hevents, List.length_reverse, List.length_cons]
        exact hlonger
      · rw [List.length_reverse]
        rw [hevents, List.length_cons] at hshort ⊢
        omega
    rcases step_cases s b with ⟨read, hplace, hread, hevents⟩ | hsame | ⟨event, hevents, hfinish⟩
    · by_cases hmore : (s.step b).events.length < first.length
      · exact hnext rfl hmore
      · refine ⟨[], List.nil_prefix, ?_⟩
        rw [← hlast hevents hmore, hevents, List.foldl_nil, finish, hplace]
        simp [hread]
    · exact hnext rfl (hsame ▸ hlonger)
    · by_cases hmore : (s.step b).events.length < first.length
      · exact hnext rfl hmore
      · exact ⟨[b], List.prefix_cons_inj b |>.2 List.nil_prefix,
          hfinish.trans (hlast hevents hmore)⟩

end Scanner

/-! ## Whole texts -/

variable {bytes part : List UInt8}

/-- A text that does not begin with a byte order mark is taken as it is. -/
theorem dropMark_of_head? (h : bytes.head? ≠ some 0xef) : dropMark bytes = bytes := by
  unfold dropMark
  split
  · exact absurd rfl h
  · rfl

/-- A part of a text does not begin with another byte than the text. -/
theorem head?_ne_of_part {b : UInt8} (hpart : part <+: bytes) (h : bytes.head? ≠ some b) :
    part.head? ≠ some b := by
  obtain ⟨missing, rfl⟩ := hpart
  cases part with
  | nil => simp
  | cons c part => simpa using h

/-- The events of a text that breaks off are the first events of the whole text, and perhaps a text
or a fault. -/
theorem scan_part (hmark : bytes.head? ≠ some 0xef) (hpart : part <+: bytes) :
    ∃ first last, first <+: scan bytes ∧ scan part = first ++ last ∧
      (last = [] ∨ last = [.fault] ∨ ∃ text, last = [.text text]) := by
  rw [scan, scan, dropMark_of_head? hmark, dropMark_of_head? (head?_ne_of_part hpart hmark)]
  obtain ⟨missing, rfl⟩ := hpart
  obtain ⟨pending, hfinish, hpending⟩ := Scanner.exists_finish_eq (part.foldl Scanner.step .start)
  refine ⟨_, pending, ?_, hfinish, ?_⟩
  · rw [List.foldl_append]
    exact Scanner.events_prefix_finish _ missing
  · cases hpending with
    | nothing => exact .inl rfl
    | text => exact .inr (.inr ⟨_, rfl⟩)
    | fault => exact .inr (.inl rfl)

/-- Each number of first events is left by some part of a text. -/
theorem exists_part_scan (hmark : bytes.head? ≠ some 0xef) {first : List Event}
    (hfirst : first <+: scan bytes) : ∃ part, part <+: bytes ∧ scan part = first := by
  rcases List.eq_nil_or_concat first with rfl | ⟨_, _, rfl⟩
  · exact ⟨[], List.nil_prefix, rfl⟩
  · rw [scan, dropMark_of_head? hmark] at hfirst
    obtain ⟨part, hpart, hfinish⟩ :=
      Scanner.exists_part_finish bytes .start (by simp [Scanner.start]) hfirst
    refine ⟨part, hpart, ?_⟩
    rw [scan, dropMark_of_head? (head?_ne_of_part hpart hmark), hfinish]

/-- A document that is written begins with markup. -/
theorem head?_document (root : Element) : (Text.bytesOf root.document).head? ≠ some 0xef := by
  have hdocument : root.document = String.ofList ('<' ::
      ("?xml version=\"1.0\" encoding=\"UTF-8\"?>".toList ++ root.lines 0)) := rfl
  rw [hdocument, Text.bytesOf_ofList, Scanner.encoded_open]
  simp

/-! ## Events of elements -/

/-- The first elements leave the first events. -/
theorem Element.allEvents_first {elements more : List Element} (h : elements <+: more)
    (depth : Nat) : Element.allEvents depth elements <+: Element.allEvents depth more := by
  obtain ⟨rest, rfl⟩ := h
  rw [Element.allEvents_append]
  exact List.prefix_append _ _

/-- The first events of the elements in a group, after its start tag, are first events of the
group. -/
theorem Element.prefix_events_group {name : String} {attributes : List (String × String)}
    {children : List Element} {depth : Nat} {inside : List Event}
    (h : inside <+: Element.allEvents (depth + 1) children) :
    lineEvent depth :: .start (tag name attributes) :: inside <+:
      (Element.group name attributes children).events depth := by
  rw [Element.events, List.prefix_cons_inj, List.prefix_cons_inj]
  exact List.prefix_append_of_prefix h

/-- They are not all events of the group, whose end tag is left. -/
theorem Element.ne_events_group {name : String} {attributes : List (String × String)}
    {children : List Element} {depth : Nat} {inside : List Event}
    (h : inside <+: Element.allEvents (depth + 1) children) :
    lineEvent depth :: .start (tag name attributes) :: inside ≠
      (Element.group name attributes children).events depth := by
  intro heq
  have hlength := congrArg List.length heq
  rw [Element.events] at hlength
  simp only [List.length_cons, List.length_append, List.length_nil] at hlength
  have hle := h.length_le
  omega

/-! ## Readers -/

section Readers

variable {step : σ → Event → Except ε σ} {s t u : σ} {first more : List Event}

/-- A relation that every step keeps to holds between what is read of first events and what is read
of more of them. -/
theorem foldlM_monotone {R : σ → σ → Prop} (hrefl : ∀ s, R s s)
    (htrans : ∀ {s t u}, R s t → R t u → R s u)
    (hstep : ∀ {s t event}, step s event = .ok t → R s t) (hbegin : first <+: more)
    (hfirst : first.foldlM step s = .ok t) (hmore : more.foldlM step s = .ok u) : R t u := by
  obtain ⟨rest, rfl⟩ := hbegin
  rw [foldlM_append_ok hfirst] at hmore
  clear hfirst
  induction rest generalizing t with
  | nil =>
    cases hmore
    exact hrefl _
  | cons event rest ih =>
    rw [List.foldlM_cons] at hmore
    obtain ⟨next, hnext, hrest⟩ := bind_eq_ok.1 hmore
    exact htrans (hstep hnext) (ih hrest)

/-- A reader that refuses faults, and gives the same result before and after a text, reads from a
part of a text no other results than from first events of it. -/
theorem exists_first_of_part {finish : σ → Except ε δ} {result : δ}
    (hfault : ∀ s t, step s .fault ≠ .ok t)
    (htext : ∀ s t text, step s (.text text) = .ok t → finish t = finish s)
    (hmark : bytes.head? ≠ some 0xef) (hpart : part <+: bytes)
    (hread : (scan part).foldlM step s >>= finish = .ok result) :
    ∃ first t, first <+: scan bytes ∧ first.foldlM step s = .ok t ∧ finish t = .ok result := by
  obtain ⟨first, last, hfirst, hscan, hlast⟩ := scan_part hmark hpart
  obtain ⟨u, hu, hresult⟩ := bind_eq_ok.1 hread
  rw [hscan, List.foldlM_append] at hu
  obtain ⟨t, ht, hrest⟩ := bind_eq_ok.1 hu
  refine ⟨first, t, hfirst, ht, ?_⟩
  rcases hlast with rfl | rfl | ⟨text, rfl⟩
  · cases hrest
    exact hresult
  · obtain ⟨other, hother, -⟩ := bind_eq_ok.1 hrest
    exact absurd hother (hfault t other)
  · obtain ⟨other, hother, hend⟩ := bind_eq_ok.1 hrest
    cases hend
    exact (htext t _ text hother).symm.trans hresult

end Readers

end CallGraph.Xml
