import CallGraph.Xml.Scanner

/-!
# Events and open elements

A byte gives at most one event.  The names of the open elements change only with the events of start
and end tags: a start tag opens an element, and an end tag closes the innermost one, whose name it
has to have.

Main results:

- Definition `nest?`: the names of the open elements after an event.
- Theorem `Scanner.outcome_step`: what one byte does to the events and to the open elements.
- Theorem `Scanner.nested_foldl`: the open elements follow from the events so far.
-/

namespace CallGraph.Xml

/-- The names of the open elements after an event, the innermost first, if there is no fault. -/
def nest? (names : List (List UInt8)) : Event → Option (List (List UInt8))
  | .start tag => some (tag.name :: names)
  | .finish name =>
      match names with
      | [] => none
      | expected :: outer => if name = expected then some outer else none
  | .empty _ | .text _ | .verbatim _ | .other => some names
  | .fault => none

namespace Scanner

variable {s t : Scanner}

/-! ## One byte -/

/-- What may become of a scanner with one byte. -/
inductive Outcome (s t : Scanner) : Prop
  /-- No event is noted. -/
  | silent (hevents : t.events = s.events) (hopen : t.openNames = s.openNames)
  /-- The text before markup is noted. -/
  | text {read : List UInt8} (hplace : s.place = .text read) (hread : read ≠ [])
      (hevents : t.events = .text read.reverse :: s.events) (hopen : t.openNames = s.openNames)
  /-- An event is noted where it ends, so that nothing is pending. -/
  | event {event : Event} (hevents : t.events = event :: s.events)
      (hfinish : t.finish = t.events.reverse) (hopen : nest? s.openNames event = some t.openNames)
  /-- A fault is noted, which is the last event. -/
  | fault (hevents : t.events = .fault :: s.events) (hfinish : t.finish = t.events.reverse)

/-- Going on at another place is silent. -/
theorem outcome_goTo (s : Scanner) (place : Place) : s.Outcome (s.goTo place) :=
  .silent rfl rfl

theorem outcome_fail (s : Scanner) : s.Outcome s.fail :=
  .fault rfl rfl

/-- The end of a start tag notes it and opens its element, unless the tag is empty. -/
theorem outcome_endStartTag (s : Scanner) (read : List UInt8) :
    s.Outcome (s.endStartTag read) := by
  unfold endStartTag
  split
  · exact .event rfl rfl rfl
  · exact .event rfl rfl rfl

/-- The end of an end tag closes the innermost element, or is a fault. -/
theorem outcome_endEndTag (s : Scanner) (read : List UInt8) : s.Outcome (s.endEndTag read) := by
  unfold endEndTag
  generalize (if read.all isSpace then read.reverse else (read.dropWhile isSpace).reverse) = name
  cases hopen : s.openNames with
  | nil => exact outcome_fail s
  | cons expected outer =>
    dsimp only
    split
    · rename_i hname
      exact .event rfl rfl (by rw [hopen, nest?, if_pos hname])
    · exact outcome_fail s

/-- Markup that is not a tag is noted, or is a fault. -/
theorem outcome_ite (s : Scanner) (condition : Prop) [Decidable condition] {event : Event}
    (h : nest? s.openNames event = some s.openNames) :
    s.Outcome (if condition then s.emit event else s.fail) := by
  split
  · exact .event rfl rfl h
  · exact outcome_fail s

/-- The byte after the sign that opens markup is silent, or ends a tag without name. -/
theorem outcome_openMarkup (s : Scanner) (b : UInt8) : s.Outcome (s.openMarkup b) := by
  unfold openMarkup
  split
  · exact outcome_goTo s _
  · exact outcome_goTo s _
  · exact outcome_goTo s _
  · exact outcome_endStartTag s _
  · exact outcome_goTo s _

/-- The byte after an exclamation mark is silent, or a fault. -/
theorem outcome_openBang (s : Scanner) (b : UInt8) : s.Outcome (s.openBang b) := by
  unfold openBang
  split
  · exact outcome_goTo s _
  · exact outcome_goTo s _
  · exact outcome_goTo s _
  · exact outcome_goTo s _
  · exact outcome_fail s

/-- The text before markup, if it is not empty, is noted with the sign that opens the markup.  Every
other event is noted where it ends. -/
theorem outcome_step (s : Scanner) (b : UInt8) : s.Outcome (s.step b) := by
  rw [step]
  split
  · rename_i read hplace
    split
    · by_cases hread : read = []
      · exact .silent (by simp [hread]) rfl
      · exact .text hplace hread (by simp [hread]) rfl
    · exact outcome_goTo s _
  · exact outcome_openMarkup s b
  · split
    · exact outcome_endStartTag s _
    · exact outcome_goTo s _
  · split
    · exact outcome_endEndTag s _
    · exact outcome_goTo s _
  · split
    · exact outcome_ite s _ rfl
    · exact outcome_goTo s _
  · exact outcome_openBang s b
  · split
    · exact outcome_ite s _ rfl
    · exact outcome_goTo s _
  · split
    · exact outcome_ite s _ rfl
    · exact outcome_goTo s _
  · split
    · exact outcome_goTo s _
    · split
      · split
        · exact outcome_ite s _ rfl
        · exact outcome_goTo s _
      · exact outcome_goTo s _
  · exact .silent rfl rfl

/-! ## All bytes -/

/-- Unless there was a fault, the events so far lead to the open elements. -/
def Nested (s : Scanner) : Prop :=
  Event.fault ∉ s.events → s.events.reverse.foldlM nest? [] = some s.openNames

/-- Without an event, the open elements stay as they are. -/
theorem Nested.of_events_eq (h : s.Nested) (hevents : t.events = s.events)
    (hopen : t.openNames = s.openNames) : t.Nested := by
  rw [Nested, hevents, hopen]
  exact h

/-- An event after those so far. -/
theorem Nested.of_events_cons (h : s.Nested) {event : Event}
    (hevents : t.events = event :: s.events)
    (hopen : nest? s.openNames event = some t.openNames) : t.Nested := by
  intro hfault
  rw [hevents, List.mem_cons, not_or] at hfault
  rw [hevents, List.reverse_cons, List.foldlM_append, h hfault.2]
  simp [hopen]

/-- The open elements follow from the events after one byte more. -/
theorem Nested.step (h : s.Nested) (b : UInt8) : (s.step b).Nested := by
  cases outcome_step s b with
  | silent hevents hopen => exact h.of_events_eq hevents hopen
  | text hplace hread hevents hopen => exact h.of_events_cons hevents (congrArg some hopen.symm)
  | event hevents hfinish hopen => exact h.of_events_cons hevents hopen
  | fault hevents hfinish => exact fun hfault => absurd (by simp [hevents]) hfault

/-- So they do after all bytes, by induction on them. -/
theorem nested_foldl (bytes : List UInt8) (h : s.Nested) : (bytes.foldl step s).Nested := by
  induction bytes generalizing s with
  | nil => exact h
  | cons b rest ih => exact ih (h.step b)

end Scanner

end CallGraph.Xml
