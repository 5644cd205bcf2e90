import CallGraph.Proofs.Xml.Parts

/-!
# Elements inside elements

The events of a text without faults, all of whose elements are closed, are those of a forest: a row
of elements, with texts and other markup between them, where each element that has an end tag has a
forest inside.

Main results:

- Definition `Forest.events`: the events of a forest.
- Theorem `isWellFormed_iff`: the well-formed texts are those with the events of a forest.
- Definitions `Forest.opened` and `Forest.ended`: all elements of a forest, in the order of their
  start tags and in the order of their ends.
-/

namespace CallGraph.Xml

/-- Whether the event is neither a tag nor a fault. -/
def Event.isPlain : Event → Bool
  | .text _ | .verbatim _ | .other => true
  | _ => false

/-- Elements in a row, with plain events between them.  Each constructor takes the first of them and
what comes after it. -/
inductive Forest where
  | nil
  | element (tag : Tag) (inside after : Forest)
  | empty (tag : Tag) (after : Forest)
  | plain (event : Event) (isPlain : event.isPlain = true) (after : Forest)

namespace Forest

/-- The events of a forest. -/
def events : Forest → List Event
  | nil => []
  | element tag inside after => .start tag :: (inside.events ++ .finish tag.name :: after.events)
  | empty tag after => .empty tag :: after.events
  | plain event _ after => event :: after.events

/-! ## The forest of events -/

/-- The end tags of open elements, the innermost first, each with a forest after it. -/
def closing : List (List UInt8 × Forest) → List Event
  | [] => []
  | (name, after) :: outer => .finish name :: (after.events ++ closing outer)

/-- An event between tags opens and closes nothing. -/
theorem nest?_of_isPlain {event : Event} (h : event.isPlain = true) (names : List (List UInt8)) :
    nest? names event = some names := by
  cases event with
  | text | verbatim | other => rfl
  | start | empty | finish | fault => cases h

/-- A forest leaves the open elements as they were. -/
theorem foldlM_events (forest : Forest) (names : List (List UInt8)) :
    forest.events.foldlM nest? names = some names := by
  induction forest generalizing names with
  | nil => rfl
  | element tag inside after ihInside ihAfter =>
    have hopen : nest? names (.start tag) = some (tag.name :: names) := rfl
    have hclose : nest? (tag.name :: names) (.finish tag.name) = some names := if_pos rfl
    simp only [events, List.foldlM_cons, List.foldlM_append, hopen, hclose, ihInside, ihAfter,
      Option.bind_eq_bind, Option.bind_some]
  | empty tag after ih =>
    have hempty : nest? names (.empty tag) = some names := rfl
    simp only [events, List.foldlM_cons, hempty, ih, Option.bind_eq_bind, Option.bind_some]
  | plain event hplain after ih =>
    simp only [events, List.foldlM_cons, nest?_of_isPlain hplain, ih, Option.bind_eq_bind,
      Option.bind_some]

/-- Events that close all open elements are a forest, and then the end tag of each of the open
elements with a forest after it. -/
theorem exists_of_foldlM_nest? {events : List Event} {names : List (List UInt8)}
    (h : events.foldlM nest? names = some []) :
    ∃ (forest : Forest) (outer : List (List UInt8 × Forest)),
      outer.map Prod.fst = names ∧ events = forest.events ++ closing outer := by
  -- The first event is put in front of what the induction gives for the events after it: a start
  -- tag takes the forest that comes first as the inside of its element, and an end tag comes after
  -- an empty one.
  induction events generalizing names with
  | nil =>
    obtain rfl : names = [] := Option.some.inj h
    exact ⟨nil, [], rfl, rfl⟩
  | cons event events ih =>
    rw [List.foldlM_cons, Option.bind_eq_bind, Option.bind_eq_some_iff] at h
    obtain ⟨after, hafter, hrest⟩ := h
    obtain ⟨forest, outer, rfl, rfl⟩ := ih hrest
    have hplain (hevent : event.isPlain = true) : ∃ (before : Forest) (around : _),
        around.map Prod.fst = names ∧
          event :: (forest.events ++ closing outer) = before.events ++ closing around := by
      rw [nest?_of_isPlain hevent] at hafter
      exact ⟨plain event hevent forest, outer, (Option.some.inj hafter).symm, rfl⟩
    cases event with
    | start tag =>
      obtain ⟨⟨name, after⟩, outer, rfl⟩ : ∃ last more, outer = last :: more := by
        cases outer with
        | nil => cases hafter
        | cons last more => exact ⟨last, more, rfl⟩
      obtain ⟨rfl, rfl⟩ : tag.name = name ∧ names = outer.map Prod.fst := by
        simpa [nest?] using hafter
      exact ⟨element tag forest after, outer, rfl, by simp [Forest.events, closing]⟩
    | finish name =>
      cases names with
      | nil => cases hafter
      | cons expected names =>
        rw [nest?] at hafter
        split at hafter
        · rename_i hname
          obtain rfl := Option.some.inj hafter
          exact ⟨nil, (name, forest) :: outer, by simp [hname], rfl⟩
        · cases hafter
    | empty tag =>
      exact ⟨empty tag forest, outer, (Option.some.inj hafter).symm, rfl⟩
    | text | verbatim | other => exact hplain rfl
    | fault => cases hafter

/-- Events open and close all their elements if they are those of a forest. -/
theorem foldlM_nest?_iff {events : List Event} :
    events.foldlM nest? [] = some [] ↔ ∃ forest : Forest, events = forest.events := by
  constructor
  · intro h
    obtain ⟨forest, outer, hnames, rfl⟩ := exists_of_foldlM_nest? h
    obtain rfl := List.map_eq_nil_iff.1 hnames
    exact ⟨forest, by simp [closing]⟩
  · rintro ⟨forest, rfl⟩
    exact forest.foldlM_events []

end Forest

/-! ## Well-formed texts -/

/-- A text without faults all of whose elements are closed. -/
structure IsWellFormed (bytes : List UInt8) : Prop where
  fault_not_mem : Event.fault ∉ scan bytes
  openNames_eq : ((dropMark bytes).foldl Scanner.step .start).openNames = []

/-- There is no fault among events that open and close elements. -/
theorem fault_not_mem_of_foldlM_nest? {events : List Event} {names after : List (List UInt8)}
    (h : events.foldlM nest? names = some after) : Event.fault ∉ events := by
  induction events generalizing names with
  | nil => exact List.not_mem_nil
  | cons event events ih =>
    rw [List.foldlM_cons, Option.bind_eq_bind, Option.bind_eq_some_iff] at h
    obtain ⟨next, hnext, hrest⟩ := h
    rw [List.mem_cons, not_or]
    refine ⟨?_, ih hrest⟩
    rintro rfl
    cases hnext

/-- The events of a text without faults lead to the elements that are open at its end. -/
theorem foldlM_scan {bytes : List UInt8} (h : Event.fault ∉ scan bytes) :
    (scan bytes).foldlM nest? [] =
      some ((dropMark bytes).foldl Scanner.step .start).openNames := by
  have hstart : Scanner.start.Nested := fun _ => rfl
  have hnested := Scanner.nested_foldl (dropMark bytes) hstart
  obtain ⟨pending, hfinish, hpending⟩ :=
    Scanner.exists_finish_eq ((dropMark bytes).foldl Scanner.step .start)
  rw [scan, hfinish, List.mem_append, List.mem_reverse, not_or] at h
  rw [scan, hfinish, List.foldlM_append, hnested h.1, Option.bind_eq_bind, Option.bind_some]
  cases hpending with
  | nothing | text => rfl
  | fault => exact absurd (List.mem_singleton_self _) h.2

/-- The well-formed texts are those with the events of a forest. -/
theorem isWellFormed_iff {bytes : List UInt8} :
    IsWellFormed bytes ↔ ∃ forest : Forest, scan bytes = forest.events := by
  rw [← Forest.foldlM_nest?_iff]
  constructor
  · intro h
    rw [foldlM_scan h.fault_not_mem, h.openNames_eq]
  · intro h
    have hfault := fault_not_mem_of_foldlM_nest? h
    exact ⟨hfault, Option.some.inj ((foldlM_scan hfault).symm.trans h)⟩

/-! ## The elements of a forest -/

/-- An element: its tag, and what is inside if it has an end tag. -/
structure Tree where
  tag : Tag
  inside : Option Forest

namespace Forest

/-- All elements, in the order of their start tags. -/
def opened : Forest → List Tree
  | nil => []
  | element tag inside after => ⟨tag, some inside⟩ :: (inside.opened ++ after.opened)
  | empty tag after => ⟨tag, none⟩ :: after.opened
  | plain _ _ after => after.opened

/-- All elements, in the order of their ends. -/
def ended : Forest → List Tree
  | nil => []
  | element tag inside after => inside.ended ++ ⟨tag, some inside⟩ :: after.ended
  | empty tag after => ⟨tag, none⟩ :: after.ended
  | plain _ _ after => after.ended

/-- The elements in the order of their ends are those in the order of their starts. -/
theorem perm_ended (forest : Forest) : forest.ended.Perm forest.opened := by
  induction forest with
  | nil => exact List.Perm.nil
  | element tag inside after ihInside ihAfter =>
    exact List.perm_middle.trans ((ihInside.append ihAfter).cons _)
  | empty tag after ih => exact ih.cons _
  | plain event hplain after ih => exact ih

end Forest

/-- Whether this is the name of the element, its prefix aside. -/
def Tag.isNamed (tag : Tag) (name : String) : Bool :=
  localName tag.name == ascii name

/-- Whether some element of this name has an end tag. -/
def Forest.hasPair (name : String) (forest : Forest) : Bool :=
  forest.opened.any fun tree => tree.tag.isNamed name && tree.inside.isSome

/-- Whether some element of this name that has an end tag is inside. -/
def Tree.hasPairInside (name : String) (tree : Tree) : Bool :=
  tree.inside.any (Forest.hasPair name)

namespace Forest

/-- An element has a pair of tags, and so do the elements in it and after it. -/
@[simp]
theorem hasPair_element (name : String) (tag : Tag) (inside after : Forest) :
    (element tag inside after).hasPair name =
      (tag.isNamed name || inside.hasPair name || after.hasPair name) := by
  simp [hasPair, opened, Bool.or_assoc]

/-- An empty element has no pair of tags. -/
@[simp]
theorem hasPair_empty (name : String) (tag : Tag) (after : Forest) :
    (empty tag after).hasPair name = after.hasPair name := by
  simp [hasPair, opened]

@[simp]
theorem hasPair_plain (name : String) (event : Event) (h : event.isPlain = true)
    (after : Forest) : (plain event h after).hasPair name = after.hasPair name :=
  rfl

end Forest

end CallGraph.Xml
