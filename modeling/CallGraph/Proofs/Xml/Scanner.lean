import CallGraph.Proofs.Data.Runs
import CallGraph.Proofs.Xml.Content

/-!
# Elements scanned back

The scanner finds in the text of an element just the tags and texts that the element was written
with.  This is shown by induction on the element: from outside of markup, its text leads outside of
markup again, with its events noted and the same elements open.

Main results:

- Definition `Element.events`: the tags and texts of an element.
- Theorem `Scanner.foldl_lines`: an element leaves its events, and nothing else.
- Theorems `Element.foldlM_group` and `Element.foldlM_allEvents`: what a reader makes of an element
  and of several of them.
- Theorem `scan_document`: the events of a whole document.
-/

namespace CallGraph.Xml

open Text

/-! ## Elements and their events -/

mutual
/-- Whether all names in the element are plain, and no attribute has the name of another one of
the same element. -/
def Element.IsWellNamed : Element → Prop
  | .group name attributes children => WellNamed name attributes ∧ Element.AreWellNamed children
  | .leaf name attributes _ => WellNamed name attributes
  | .empty name attributes => WellNamed name attributes

/-- `Element.IsWellNamed` for every element. -/
def Element.AreWellNamed : List Element → Prop
  | [] => True
  | child :: children => Element.IsWellNamed child ∧ Element.AreWellNamed children
end

/-- The text before an element or an end tag on a line of its own. -/
def lineEvent (depth : Nat) : Event :=
  .text (encoded (newLine depth))

/-- The event of a text, unless it is empty. -/
def textEvents (text : String) : List Event :=
  if text.isEmpty then [] else [.text (encoded (escape text))]

mutual
/-- The tags and texts of an element. -/
def Element.events (depth : Nat) : Element → List Event
  | .group name attributes children =>
      lineEvent depth :: .start (tag name attributes) ::
        (Element.allEvents (depth + 1) children ++ [lineEvent depth, .finish (ascii name)])
  | .leaf name attributes text =>
      lineEvent depth :: .start (tag name attributes) ::
        (textEvents text ++ [.finish (ascii name)])
  | .empty name attributes => [lineEvent depth, .empty (tag name attributes)]

/-- The tags and texts of elements. -/
def Element.allEvents (depth : Nat) : List Element → List Event
  | [] => []
  | child :: children => Element.events depth child ++ Element.allEvents depth children
end

theorem Element.allEvents_append (depth : Nat) (elements more : List Element) :
    Element.allEvents depth (elements ++ more) =
      Element.allEvents depth elements ++ Element.allEvents depth more := by
  induction elements with
  | nil => rfl
  | cons element elements ih =>
    rw [List.cons_append, Element.allEvents, Element.allEvents, ih, List.append_assoc]

theorem Element.areWellNamed_append {elements more : List Element}
    (h : Element.AreWellNamed elements) (hmore : Element.AreWellNamed more) :
    Element.AreWellNamed (elements ++ more) := by
  induction elements with
  | nil => exact hmore
  | cons element elements ih => exact ⟨h.1, ih h.2⟩

/-- Elements that are each well named are well named together. -/
theorem Element.areWellNamed_map {toElement : α → Element} {items : List α}
    (h : ∀ a ∈ items, (toElement a).IsWellNamed) :
    Element.AreWellNamed (items.map toElement) := by
  induction items with
  | nil => trivial
  | cons a items ih => exact ⟨h a (by simp), ih fun b hb => h b (List.mem_cons_of_mem _ hb)⟩

/-- An element without anything in it is read in one step. -/
theorem Element.foldlM_empty {step : σ → Event → Except ε σ} {name : String}
    {attributes : List (String × String)} {depth : Nat} {s after : σ}
    (hline : step s (lineEvent depth) = .ok s)
    (hempty : step s (.empty (tag name attributes)) = .ok after) :
    ((Element.empty name attributes).events depth).foldlM step s = .ok after := by
  rw [Element.events, foldlM_cons_ok hline, foldlM_cons_ok hempty]
  rfl

/-- An element is read in three steps: its start tag, the elements in it, and its end tag. -/
theorem Element.foldlM_group {step : σ → Event → Except ε σ} {name : String}
    {attributes : List (String × String)} {children : List Element} {depth : Nat}
    {s opened inside closed : σ} (hline : step s (lineEvent depth) = .ok s)
    (hopen : step s (.start (tag name attributes)) = .ok opened)
    (hchildren : (Element.allEvents (depth + 1) children).foldlM step opened = .ok inside)
    (hend : step inside (lineEvent depth) = .ok inside)
    (hclose : step inside (.finish (ascii name)) = .ok closed) :
    ((Element.group name attributes children).events depth).foldlM step s = .ok closed := by
  rw [Element.events, foldlM_cons_ok hline, foldlM_cons_ok hopen, foldlM_append_ok hchildren,
    foldlM_cons_ok hend, foldlM_cons_ok hclose]
  rfl

/-- A reader that adds what it makes of one element to what it has found adds what it makes of all
of them, the latest first. -/
theorem Element.foldlM_allEvents {step : σ → Event → Except ε σ} (state : List β → σ) (f : α → β)
    {toElement : α → Element} {depth : Nat} {items : List α}
    (h : ∀ a ∈ items, ∀ found,
      ((toElement a).events depth).foldlM step (state found) = .ok (state (f a :: found)))
    (found : List β) :
    (Element.allEvents depth (items.map toElement)).foldlM step (state found) =
      .ok (state ((items.map f).reverse ++ found)) := by
  induction items generalizing found with
  | nil => rfl
  | cons a items ih =>
    rw [List.map_cons, Element.allEvents, foldlM_append_ok (h a (by simp) found),
      ih fun b hb => h b (List.mem_cons_of_mem _ hb), List.map_cons, List.reverse_cons,
      List.append_assoc, List.singleton_append]

namespace Scanner

/-! ## Bytes that are collected -/

variable (openNames : List (List UInt8)) (events : List Event)

/-- Bytes that a place only collects stand there in reverse order. -/
theorem foldl_collect (place : List UInt8 → Place) {bytes : List UInt8}
    (h : ∀ b ∈ bytes, ∀ read,
      step ⟨place read, openNames, events⟩ b = ⟨place (b :: read), openNames, events⟩)
    (read : List UInt8) :
    bytes.foldl step ⟨place read, openNames, events⟩ =
      ⟨place (bytes.reverse ++ read), openNames, events⟩ := by
  induction bytes generalizing read with
  | nil => rfl
  | cons b bytes ih =>
    rw [List.foldl_cons, h b (by simp), ih fun d hd => h d (List.mem_cons_of_mem _ hd),
      List.reverse_cons, List.append_assoc, List.singleton_append]

/-- A text without the sign that opens markup is collected. -/
theorem foldl_text {bytes : List UInt8} (h : 0x3c ∉ bytes) :
    bytes.foldl step ⟨.text [], openNames, events⟩ =
      ⟨.text bytes.reverse, openNames, events⟩ := by
  have hcollect : ∀ b ∈ bytes, ∀ read,
      step ⟨.text read, openNames, events⟩ b = ⟨.text (b :: read), openNames, events⟩ := by
    intro b hb read
    have hopen : b ≠ 0x3c := by
      rintro rfl
      exact h hb
    simp [step, goTo, hopen]
  rw [foldl_collect openNames events .text hcollect, List.append_nil]

/-- A name holds no quotation marks. -/
theorem quoteAfter_of_mem {name : String} (h : IsName name) {b : UInt8} (hb : b ∈ ascii name) :
    quoteAfter none b = none := by
  have hdouble : b ≠ 0x22 := h.ne_of_mem hb (by decide)
  have hsingle : b ≠ 0x27 := h.ne_of_mem hb (by decide)
  simp [quoteAfter, hdouble, hsingle]

/-- The bytes of a name are collected in a start tag. -/
theorem foldl_name {name : String} (h : IsName name) {bytes : List UInt8}
    (hbytes : bytes ⊆ ascii name) (read : List UInt8) :
    bytes.foldl step ⟨.tag read none, openNames, events⟩ =
      ⟨.tag (bytes.reverse ++ read) none, openNames, events⟩ := by
  refine foldl_collect openNames events (.tag · none) (fun b hb read => ?_) read
  have hclose : b ≠ 0x3e := h.ne_of_mem (hbytes hb) (by decide)
  simp [step, goTo, hclose, quoteAfter_of_mem h (hbytes hb)]

/-- The bytes of an attribute value are collected between its quotation marks. -/
theorem foldl_value (value : String) (read : List UInt8) :
    (encoded (escape value)).foldl step ⟨.tag read (some 0x22), openNames, events⟩ =
      ⟨.tag ((encoded (escape value)).reverse ++ read) (some 0x22), openNames, events⟩ := by
  refine foldl_collect openNames events (.tag · (some 0x22)) (fun b hb read => ?_) read
  have hquote : b ≠ 0x22 := by
    rintro rfl
    exact not_mem_encoded_escape value (by decide) hb
  simp [step, goTo, quoteAfter, hquote]

/-- Attributes are collected in a start tag. -/
theorem foldl_attributes {attributes : List (String × String)}
    (h : ∀ entry ∈ attributes, IsName entry.1) (read : List UInt8) :
    (attributeBytes attributes).foldl step ⟨.tag read none, openNames, events⟩ =
      ⟨.tag ((attributeBytes attributes).reverse ++ read) none, openNames, events⟩ := by
  induction attributes generalizing read with
  | nil => rfl
  | cons entry attributes ih =>
    obtain ⟨name, value⟩ := entry
    have hname : IsName name := h (name, value) (by simp)
    have hplain {b : UInt8} (hb : b = 0x20 ∨ b = 0x3d) (read : List UInt8) :
        step ⟨.tag read none, openNames, events⟩ b =
          ⟨.tag (b :: read) none, openNames, events⟩ := by
      rcases hb with rfl | rfl <;> rfl
    have hopen (read : List UInt8) : step ⟨.tag read none, openNames, events⟩ 0x22 =
        ⟨.tag (0x22 :: read) (some 0x22), openNames, events⟩ := rfl
    have hclose (read : List UInt8) : step ⟨.tag read (some 0x22), openNames, events⟩ 0x22 =
        ⟨.tag (0x22 :: read) none, openNames, events⟩ := rfl
    rw [attributeBytes_cons hname]
    simp only [List.foldl_cons, List.foldl_append, hplain (.inl rfl), hplain (.inr rfl),
      foldl_name openNames events hname (List.Subset.refl _), hopen, foldl_value, hclose,
      ih fun other hother => h other (List.mem_cons_of_mem _ hother)]
    simp

/-! ## Tags -/

/-- The bytes of the inside of a start tag. -/
def tagBytes (name : String) (attributes : List (String × String)) : List UInt8 :=
  ascii name ++ attributeBytes attributes

/-- The bytes of a start tag with plain names. -/
theorem encoded_tagText {name : String} {attributes : List (String × String)}
    (h : WellNamed name attributes) :
    encoded (tagText name attributes) = tagBytes name attributes := by
  rw [tagText, encoded_append, h.isName.encoded_toList, tagBytes, attributeBytes]

/-- A byte of a name opens a start tag. -/
theorem openMarkup_of_mem {name : String} (h : IsName name) {b : UInt8} (hb : b ∈ ascii name)
    (s : Scanner) : s.openMarkup b = s.goTo (.tag [b] none) := by
  unfold openMarkup
  split
  · exact absurd rfl (h.ne_of_mem hb (by decide))
  · exact absurd rfl (h.ne_of_mem hb (by decide))
  · exact absurd rfl (h.ne_of_mem hb (by decide))
  · exact absurd rfl (h.ne_of_mem hb (by decide))
  · rw [quoteAfter_of_mem h hb]

/-- The inside of a start tag is collected. -/
theorem foldl_tagBytes {name : String} {attributes : List (String × String)}
    (h : WellNamed name attributes) :
    (tagBytes name attributes).foldl step ⟨.markup, openNames, events⟩ =
      ⟨.tag (tagBytes name attributes).reverse none, openNames, events⟩ := by
  obtain ⟨b, bytes, hbytes⟩ := h.isName.exists_ascii_eq_cons
  have hfirst : step ⟨.markup, openNames, events⟩ b = ⟨.tag [b] none, openNames, events⟩ :=
    openMarkup_of_mem h.isName (hbytes ▸ List.mem_cons_self) _
  have hname : bytes.foldl step ⟨.tag [b] none, openNames, events⟩ =
      ⟨.tag (bytes.reverse ++ [b]) none, openNames, events⟩ :=
    foldl_name openNames events h.isName (hbytes ▸ List.subset_cons_self b bytes) [b]
  rw [tagBytes, List.foldl_append, hbytes, List.foldl_cons, hfirst, hname,
    foldl_attributes openNames events h.isName_of_mem]
  simp

/-- Attributes end with a quotation mark. -/
theorem attributeBytes_concat (attributes : List (String × String)) (entry : String × String) :
    ∃ bytes, attributeBytes (attributes ++ [entry]) = bytes ++ [0x22] := by
  have hquote : encoded ['"'] = [0x22] := rfl
  rw [attributeBytes, List.flatMap_append, List.flatMap_singleton, attributeText,
    ← List.append_assoc, encoded_append, hquote]
  exact ⟨_, rfl⟩

/-- The inside of a start tag does not end with a slash. -/
theorem head?_reverse_tagBytes {name : String} {attributes : List (String × String)}
    (h : WellNamed name attributes) :
    (tagBytes name attributes).reverse.head? ≠ some 0x2f := by
  rw [List.head?_reverse, tagBytes]
  rcases List.eq_nil_or_concat attributes with rfl | ⟨front, entry, rfl⟩
  · intro hlast
    have hmem : (0x2f : UInt8) ∈ ascii name := by
      simpa [attributeBytes] using List.mem_of_getLast? hlast
    exact h.isName.ne_of_mem hmem (by decide) rfl
  · obtain ⟨bytes, hbytes⟩ := attributeBytes_concat front entry
    rw [List.concat_eq_append, hbytes, ← List.append_assoc, List.getLast?_concat]
    decide

/-- The inside of a start tag is divided into the name and the attributes. -/
theorem tagOf_tagBytes {name : String} {attributes : List (String × String)}
    (h : WellNamed name attributes) : tagOf (tagBytes name attributes) = tag name attributes := by
  have hname : ∀ b ∈ ascii name, (!isSpace b) = true := fun b hb => by
    rw [h.isName.isSpace_of_mem hb]
    rfl
  have hspace : (attributeBytes attributes).takeWhile (!isSpace ·) = [] ∧
      (attributeBytes attributes).dropWhile (!isSpace ·) = attributeBytes attributes := by
    cases attributes with
    | nil => exact ⟨rfl, rfl⟩
    | cons entry attributes =>
      obtain ⟨key, value⟩ := entry
      rw [attributeBytes_cons (h.isName_of_mem (key, value) (by simp))]
      exact ⟨rfl, rfl⟩
  rw [tagOf, tagBytes, List.takeWhile_append_of_pos hname, List.dropWhile_append_of_pos hname,
    hspace.1, hspace.2, List.append_nil, tag]

/-- A start tag that does not end with a slash opens an element. -/
theorem endStartTag_of_ne (s : Scanner) {read : List UInt8} (h : read.head? ≠ some 0x2f) :
    s.endStartTag read =
      { s.emit (.start (tagOf read.reverse)) with
        openNames := (tagOf read.reverse).name :: s.openNames } := by
  unfold endStartTag
  split
  · exact absurd rfl h
  · rfl

/-- A start tag opens its element. -/
theorem foldl_startTag {name : String} {attributes : List (String × String)}
    (h : WellNamed name attributes) (rest : List UInt8) :
    (tagBytes name attributes ++ 0x3e :: rest).foldl step ⟨.markup, openNames, events⟩ =
      rest.foldl step
        ⟨.text [], ascii name :: openNames, .start (tag name attributes) :: events⟩ := by
  have hclose (read : List UInt8) : step ⟨.tag read none, openNames, events⟩ 0x3e =
      endStartTag ⟨.tag read none, openNames, events⟩ read := rfl
  rw [List.foldl_append, foldl_tagBytes openNames events h, List.foldl_cons, hclose,
    endStartTag_of_ne _ (head?_reverse_tagBytes h), List.reverse_reverse, tagOf_tagBytes h]
  rfl

/-- An empty tag leaves the open elements as they are. -/
theorem foldl_emptyTag {name : String} {attributes : List (String × String)}
    (h : WellNamed name attributes) :
    (tagBytes name attributes ++ [0x2f, 0x3e]).foldl step ⟨.markup, openNames, events⟩ =
      ⟨.text [], openNames, .empty (tag name attributes) :: events⟩ := by
  have hclose (read : List UInt8) :
      [0x2f, 0x3e].foldl step ⟨.tag read none, openNames, events⟩ =
        ⟨.text [], openNames, .empty (tagOf read.reverse) :: events⟩ := rfl
  rw [List.foldl_append, foldl_tagBytes openNames events h, hclose, List.reverse_reverse,
    tagOf_tagBytes h]

/-- An end tag closes the element with its name. -/
theorem foldl_endTag {name : String} (h : IsName name) :
    (0x2f :: (ascii name ++ [0x3e])).foldl step ⟨.markup, ascii name :: openNames, events⟩ =
      ⟨.text [], openNames, .finish (ascii name) :: events⟩ := by
  have hslash : step ⟨.markup, ascii name :: openNames, events⟩ 0x2f =
      ⟨.endTag [] none, ascii name :: openNames, events⟩ := rfl
  have hcollect : (ascii name).foldl step ⟨.endTag [] none, ascii name :: openNames, events⟩ =
      ⟨.endTag (ascii name).reverse none, ascii name :: openNames, events⟩ := by
    rw [foldl_collect _ events (.endTag · none), List.append_nil]
    intro b hb read
    have hclose : b ≠ 0x3e := h.ne_of_mem hb (by decide)
    simp [step, goTo, hclose, quoteAfter_of_mem h hb]
  have hclose : step ⟨.endTag (ascii name).reverse none, ascii name :: openNames, events⟩ 0x3e =
      ⟨.text [], openNames, .finish (ascii name) :: events⟩ := by
    have hall : (ascii name).reverse.dropWhile isSpace = (ascii name).reverse := by
      cases hread : (ascii name).reverse with
      | nil => rfl
      | cons b bytes =>
        have hb : b ∈ ascii name := List.mem_reverse.1 (hread ▸ List.mem_cons_self)
        exact List.dropWhile_cons_of_neg (by simp [h.isSpace_of_mem hb])
    have hname : (if (ascii name).reverse.all isSpace then (ascii name).reverse.reverse
        else ((ascii name).reverse.dropWhile isSpace).reverse) = ascii name := by
      rw [hall, ite_self, List.reverse_reverse]
    have hend : step ⟨.endTag (ascii name).reverse none, ascii name :: openNames, events⟩ 0x3e =
        endEndTag ⟨.endTag (ascii name).reverse none, ascii name :: openNames, events⟩
          (ascii name).reverse := rfl
    rw [hend, endEndTag, hname]
    exact if_pos rfl
  rw [List.foldl_cons, hslash, List.foldl_append, hcollect, List.foldl_cons, hclose, List.foldl_nil]

/-! ## Elements -/

/-- The sign that opens markup ends the text before it. -/
theorem step_open (read : List UInt8) (hread : read ≠ []) :
    step ⟨.text read, openNames, events⟩ 0x3c =
      ⟨.markup, openNames, .text read.reverse :: events⟩ := by
  simp [step, hread]

/-- A new line before markup is noted. -/
theorem foldl_newLine (depth : Nat) (rest : List UInt8) :
    (encoded (newLine depth) ++ 0x3c :: rest).foldl step ⟨.text [], openNames, events⟩ =
      rest.foldl step ⟨.markup, openNames, lineEvent depth :: events⟩ := by
  have hplain : 0x3c ∉ encoded (newLine depth) := by
    intro hmem
    have hchar : '<' ∈ newLine depth := mem_of_mem_encoded (by decide) hmem
    rcases List.mem_cons.1 hchar with heq | hspaces
    · exact absurd heq (by decide)
    · exact absurd (List.mem_replicate.1 hspaces).2 (by decide)
  have hne : (encoded (newLine depth)).reverse ≠ [] := by
    have hcons : encoded (newLine depth) = 0x0a :: encoded (List.replicate (2 * depth) ' ') := rfl
    simp [hcons]
  rw [List.foldl_append, foldl_text openNames events hplain, List.foldl_cons,
    step_open openNames events _ hne, List.reverse_reverse, lineEvent]

/-- An escaped text before markup is noted, unless it is empty. -/
theorem foldl_escape (text : String) (rest : List UInt8) :
    (encoded (escape text) ++ 0x3c :: rest).foldl step ⟨.text [], openNames, events⟩ =
      rest.foldl step ⟨.markup, openNames, (textEvents text).reverse ++ events⟩ := by
  rw [textEvents]
  split
  · rename_i hempty
    rw [String.isEmpty_iff] at hempty
    subst hempty
    rfl
  · rename_i hfull
    have hne : (encoded (escape text)).reverse ≠ [] := by
      intro hnil
      have hback := unescape?_escape text
      rw [List.reverse_eq_nil_iff.1 hnil] at hback
      have hempty : text = "" := (Option.some.inj (hback.symm.trans (unescape?_escape "")))
      exact hfull (by rw [hempty]; rfl)
    have hplain : 0x3c ∉ encoded (escape text) := not_mem_encoded_escape text (by decide)
    rw [List.foldl_append, foldl_text openNames events hplain, List.foldl_cons,
      step_open openNames events _ hne, List.reverse_reverse]
    rfl

theorem encoded_open (cs : List Char) : encoded ('<' :: cs) = 0x3c :: encoded cs :=
  rfl

theorem encoded_close (cs : List Char) : encoded ('>' :: cs) = 0x3e :: encoded cs :=
  rfl

theorem encoded_slash (cs : List Char) : encoded ('/' :: cs) = 0x2f :: encoded cs :=
  rfl

mutual
/-- An element leaves its events, and nothing else. -/
theorem foldl_lines (depth : Nat) : ∀ (element : Element) (_ : element.IsWellNamed)
    (openNames : List (List UInt8)) (events : List Event),
    (encoded (element.lines depth)).foldl step ⟨.text [], openNames, events⟩ =
      ⟨.text [], openNames, (element.events depth).reverse ++ events⟩
  | .group name attributes children, h, openNames, events => by
    have hbytes : encoded ((Element.group name attributes children).lines depth) =
        encoded (newLine depth) ++ 0x3c :: (tagBytes name attributes ++ 0x3e ::
          (encoded (Element.allLines (depth + 1) children) ++ (encoded (newLine depth) ++
            0x3c :: 0x2f :: (ascii name ++ [0x3e])))) := by
      simp [Element.lines, encoded_open, encoded_close, encoded_slash, encoded_tagText h.1,
        h.1.isName.encoded_toList]
    rw [hbytes, foldl_newLine, foldl_startTag _ _ h.1, List.foldl_append,
      foldl_allLines (depth + 1) children h.2, foldl_newLine, foldl_endTag _ _ h.1.isName]
    simp [Element.events]
  | .leaf name attributes text, h, openNames, events => by
    have hwell : WellNamed name attributes := h
    have hbytes : encoded ((Element.leaf name attributes text).lines depth) =
        encoded (newLine depth) ++ 0x3c :: (tagBytes name attributes ++ 0x3e ::
          (encoded (escape text) ++ 0x3c :: 0x2f :: (ascii name ++ [0x3e]))) := by
      simp [Element.lines, encoded_open, encoded_close, encoded_slash, encoded_tagText hwell,
        hwell.isName.encoded_toList]
    rw [hbytes, foldl_newLine, foldl_startTag _ _ hwell, foldl_escape,
      foldl_endTag _ _ hwell.isName]
    simp [Element.events]
  | .empty name attributes, h, openNames, events => by
    have hwell : WellNamed name attributes := h
    have hbytes : encoded ((Element.empty name attributes).lines depth) =
        encoded (newLine depth) ++ 0x3c :: (tagBytes name attributes ++ [0x2f, 0x3e]) := by
      simp [Element.lines, encoded_open, encoded_close, encoded_slash, encoded_tagText hwell]
    rw [hbytes, foldl_newLine, foldl_emptyTag _ _ hwell]
    rfl

/-- Several elements leave their events, and nothing else. -/
theorem foldl_allLines (depth : Nat) : ∀ (elements : List Element)
    (_ : Element.AreWellNamed elements) (openNames : List (List UInt8)) (events : List Event),
    (encoded (Element.allLines depth elements)).foldl step ⟨.text [], openNames, events⟩ =
      ⟨.text [], openNames, (Element.allEvents depth elements).reverse ++ events⟩
  | [], _, _, _ => rfl
  | element :: elements, h, openNames, events => by
    rw [Element.allLines, encoded_append, List.foldl_append, foldl_lines depth element h.1,
      foldl_allLines depth elements h.2, Element.allEvents, List.reverse_append, List.append_assoc]
end

end Scanner

/-- The events of a document are those of its root, after the declaration of the language. -/
theorem scan_document {root : Element} (h : root.IsWellNamed) :
    scan (bytesOf root.document) = .other :: root.events 0 := by
  have hmark (cs : List Char) : dropMark (encoded ('<' :: cs)) = encoded ('<' :: cs) := rfl
  have hdeclaration : (encoded "<?xml version=\"1.0\" encoding=\"UTF-8\"?>".toList).foldl
      Scanner.step Scanner.start = ⟨.text [], [], [.other]⟩ := rfl
  have hdocument : root.document = String.ofList ('<' ::
      ("?xml version=\"1.0\" encoding=\"UTF-8\"?>".toList ++ root.lines 0)) := rfl
  rw [scan, hdocument, bytesOf_ofList, hmark, ← List.cons_append, encoded_append, List.foldl_append]
  have hrest := Scanner.foldl_lines 0 root h [] [.other]
  rw [← hdeclaration] at hrest
  refine (congrArg Scanner.finish hrest).trans ?_
  simp [Scanner.finish]

end CallGraph.Xml
