import CallGraph.Proofs.Document.GexfParts
import CallGraph.Proofs.Document.Openings
import CallGraph.Proofs.Xml.Pruning

/-!
# Attributes of edges in GEXF

The values of an edge are passed over, since no node is open there.  But the attributes that edges
may have are declared like those of nodes, and their ids and titles go where those of nodes go.  So
they can take the place of the titles that values of nodes have, and the detail is told from them
as well.

Main results:

- Definition `Gexf.annotations`: the declarations and the values of edges as what is left out of a
  forest.
- Theorem `Gexf.preserves_annotations`: what is declared for edges comes to the titles, and nothing
  else depends on it.
- Theorem `Gexf.read_of_bares`: what is declared for edges does to the detail of the document.
-/

namespace CallGraph

open Xml

namespace Gexf

open Graphml

/-! ## The attributes of edges -/

/-- The names of the elements that are read. -/
def readNames : List String :=
  ["gexf", "meta", "attribute", "node", "attvalue", "edge"]

/-- The id that a tag declares, with its title. -/
def declaredTitle? (tag : Tag) : Option (String × String) :=
  if tag.isNamed "attribute" then
    (tag.attribute? "id").map fun id => (id, (tag.attribute? "title").getD id)
  else none

/-- The id that is declared at an event. -/
def eventTitle? : Event → Option (String × String)
  | .start tag | .empty tag => declaredTitle? tag
  | _ => none

/-- The title that values with this key have. -/
def titleOf (titles : List (String × String)) (key : String) : String :=
  ((titles.find? (·.1 == key)).map (·.2)).getD key

/-- Whether a title is that of code objects. -/
def hasObjectTitle (titles : List (String × String)) : Bool :=
  titles.any (·.2 == "code_object")

/-- Whether an event does no more than to declare an attribute.  Values may stand outside of nodes,
if they have a key. -/
def isPassive (inNode : Bool) : Event → Bool
  | .start tag | .empty tag =>
      isNoneOf readNames tag.name ||
        tag.isNamed "attribute" && (tag.attribute? "id").isSome ||
        tag.isNamed "attvalue" && !inNode && (tag.attribute? "for").isSome
  | .finish name => localName name != ascii "node"
  | .text _ | .verbatim _ | .other => true
  | .fault => false

/-- Where an element stands: anywhere inside a node, or anywhere inside an edge. -/
structure Surroundings where
  inNode : Bool := false
  inEdge : Bool := false

/-- The titles that have been declared, all of them and those that are not for edges.  The latest
come first. -/
structure Titles where
  all : List (String × String) := []
  own : List (String × String) := []

/-- Declarations for edges are left out, and the values of edges, and all texts.  Where values are
not left out, the title of their key has to be the same with and without the declarations for
edges. -/
def annotations : Pruning Surroundings Titles where
  enter place tag :=
    { inNode := place.inNode || tag.isNamed "node"
      inEdge := place.inEdge || tag.isNamed "edge" }
  drops place tag :=
    tag.isNamed "attributes" && tag.attribute? "class" == some "edge" ||
      place.inEdge && tag.isNamed "attvalues"
  dropsPlain _ _ := true
  learn memory tag :=
    { all := (declaredTitle? tag).toList ++ memory.all
      own := (declaredTitle? tag).toList ++ memory.own }
  note memory tree :=
    { memory with all := (tree.innerEvents.filterMap eventTitle?).reverse ++ memory.all }
  admits place memory tag :=
    !place.inNode || !tag.isNamed "attvalue" ||
      (tag.attribute? "for").all fun key => titleOf memory.all key == titleOf memory.own key
  spares place _ tree := tree.innerEvents.all (isPassive place.inNode)
  sparesPlain _ _ := true

namespace Reading

variable {r s t : Reading} {tag : Tag} {isEmpty : Bool} {place : Surroundings}
  {all own : List (String × String)} {key value : String}

/-- The reading with other titles. -/
def titled (r : Reading) (titles : List (String × String)) : Reading :=
  { r with titles := titles, declaresObject := hasObjectTitle titles }

/-- A declaration adds its title to the others. -/
theorem titled_cons (r : Reading) (titles : List (String × String)) (id title : String) :
    { r.titled titles with
      titles := (id, title) :: titles
      declaresObject := hasObjectTitle titles || title == "code_object" } =
      r.titled ((id, title) :: titles) := by
  simp only [titled, hasObjectTitle, List.any_cons, Bool.or_comm]

/-! ## Passive events -/

/-- What is read of the tag of an attribute. -/
theorem openElement_of_isAttribute (hname : tag.isNamed "attribute" = true) (r : Reading)
    (titles : List (String × String)) (isEmpty : Bool) :
    (r.titled titles).openElement tag isEmpty = do
      let attributes ← attributesOf tag
      let id ← required "attribute" "id" attributes
      return r.titled ((id, (valueOf? attributes "title").getD id) :: titles) := by
  have hother := Tag.not_isNamed hname
  simp only [openElement, ← Tag.isNamed_iff, if_neg (hother "gexf" (by decide)),
    if_neg (hother "meta" (by decide)), if_pos hname, ← titled_cons]
  rfl

/-- A declaration with an id gives it its title, or the id itself. -/
theorem declaredTitle?_eq_some (hname : tag.isNamed "attribute" = true)
    {attributes : List (List UInt8 × String)} (hattributes : tag.attributes? = some attributes)
    {id : String} (hid : valueOf? attributes "id" = some id) :
    declaredTitle? tag = some (id, (valueOf? attributes "title").getD id) := by
  simp only [declaredTitle?, hname, if_true, Tag.attribute?, hattributes, Option.bind_some, hid,
    Option.map_some]

/-- Only declarations give titles. -/
theorem declaredTitle?_eq_none (h : tag.isNamed "attribute" = false) :
    declaredTitle? tag = none := by
  simp [declaredTitle?, h]

/-- An element that is not read changes nothing. -/
theorem openElement_of_isNoneOf (h : isNoneOf readNames tag.name = true) (r : Reading)
    (isEmpty : Bool) : r.openElement tag isEmpty = .ok r := by
  simp only [isNoneOf, readNames, List.all_cons, List.all_nil, Bool.and_true, Bool.and_eq_true,
    bne_iff_ne] at h
  obtain ⟨hgexf, hmeta, hattribute, hnode, hattvalue, hedge⟩ := h
  simp only [openElement, if_neg hgexf, if_neg hmeta, if_neg hattribute, if_neg hnode,
    if_neg hattvalue, if_neg hedge]
  rfl

/-- A declaration adds its title before the others. -/
theorem openElement_of_attribute (hname : tag.isNamed "attribute" = true)
    (hid : (tag.attribute? "id").isSome = true) (r : Reading) (titles : List (String × String))
    (isEmpty : Bool) :
    (r.titled titles).openElement tag isEmpty =
      .ok (r.titled ((declaredTitle? tag).toList ++ titles)) := by
  obtain ⟨id, hid⟩ := Option.isSome_iff_exists.1 hid
  obtain ⟨attributes, hattributes, hvalue⟩ := Option.bind_eq_some_iff.1 hid
  rw [openElement_of_isAttribute hname, attributesOf_eq_ok.2 hattributes, ok_bind,
    required_eq_ok.2 hvalue, ok_bind, declaredTitle?_eq_some hname hattributes hvalue]
  rfl

/-- Outside of nodes, values are left out. -/
theorem openElement_of_attvalue (hname : tag.isNamed "attvalue" = true)
    (hkey : tag.attribute? "for" = some key) (hopen : r.openNode = none) (isEmpty : Bool) :
    r.openElement tag isEmpty = .ok r := by
  obtain ⟨attributes, hattributes, hvalue⟩ := Option.bind_eq_some_iff.1 hkey
  have hother := Tag.not_isNamed hname
  simp only [openElement, ← Tag.isNamed_iff, if_neg (hother "gexf" (by decide)),
    if_neg (hother "meta" (by decide)), if_neg (hother "attribute" (by decide)),
    if_neg (hother "node" (by decide)), if_pos hname, attributesOf_eq_ok.2 hattributes, ok_bind,
    required_eq_ok.2 hvalue, store, hopen]
  rfl

/-- A passive event adds what it declares to the titles. -/
theorem step_titled {inNode : Bool} {event : Event} (h : isPassive inNode event = true)
    (hopen : inNode = false → r.openNode = none) (titles : List (String × String)) :
    (r.titled titles).step event =
      .ok (r.titled ((eventTitle? event).toList ++ titles)) := by
  have htag (tag : Tag) (isEmpty : Bool) (h : isPassive inNode (.start tag) = true) :
      (r.titled titles).openElement tag isEmpty =
        .ok (r.titled ((declaredTitle? tag).toList ++ titles)) := by
    simp only [isPassive, Bool.or_eq_true, Bool.and_eq_true, Bool.not_eq_true'] at h
    rcases h with (hnone | ⟨hname, hid⟩) | ⟨⟨hname, hnode⟩, hkey⟩
    · have hother : tag.isNamed "attribute" = false := by
        simp only [isNoneOf, readNames, List.all_cons, Bool.and_eq_true] at hnone
        simpa [Tag.isNamed] using hnone.2.2.1
      rw [declaredTitle?_eq_none hother]
      exact openElement_of_isNoneOf hnone _ isEmpty
    · exact openElement_of_attribute hname hid r titles isEmpty
    · obtain ⟨key, hkey⟩ := Option.isSome_iff_exists.1 hkey
      rw [declaredTitle?_eq_none (Tag.isNamed_of_ne hname (by decide))]
      exact openElement_of_attvalue (r := r.titled titles) hname hkey (hopen hnode) isEmpty
  cases event with
  | start tag => exact htag tag false h
  | empty tag => exact htag tag true h
  | finish name =>
    rw [isPassive, bne_iff_ne] at h
    simp only [step, closeElement, if_neg h]
    rfl
  | text | verbatim | other => rfl
  | fault => cases h

/-- Events that are passed over add the titles that they declare, and nothing else. -/
theorem foldlM_titled {inNode : Bool} {events : List Event}
    (h : events.all (isPassive inNode) = true) (hopen : inNode = false → r.openNode = none)
    (titles : List (String × String)) :
    events.foldlM step (r.titled titles) =
      .ok (r.titled ((events.filterMap eventTitle?).reverse ++ titles)) := by
  induction events generalizing titles with
  | nil => rfl
  | cons event events ih =>
    rw [List.all_cons, Bool.and_eq_true] at h
    rw [foldlM_cons_ok (step_titled h.1 hopen titles), ih h.2]
    cases htitle : eventTitle? event <;> simp [htitle]

/-! ## Where a reading stands -/

/-- No node is open outside of nodes. -/
def Stands (r : Reading) (place : Surroundings) : Prop :=
  place.inNode = false → r.openNode = none

/-- In an element the reader stands where the element is. -/
theorem Stands.enter (h : r.Stands place) (tag : Tag) (isEmpty : Bool) :
    r.Stands (if isEmpty then place else annotations.enter place tag) := by
  cases isEmpty with
  | true => exact h
  | false => exact fun hnode => h (Bool.or_eq_false_iff.1 hnode).1

/-- After the start tag of an element the reader stands in it. -/
theorem Stands.openElement (h : r.Stands place) (hopen : r.openElement tag isEmpty = .ok t) :
    t.Stands (if isEmpty then place else annotations.enter place tag) := by
  have hsame := h.enter tag isEmpty
  cases opened_of_openElement hopen with
  | root | day | declaration | emptyNode | edge | other => exact hsame
  | openNode hname hempty =>
    intro hnode
    simp [hempty, annotations, hname] at hnode
  | value _ _ _ hstore =>
    rcases stored_cases hstore with ⟨-, rfl⟩ | ⟨n, m, hn, -, rfl⟩
    · exact hsame
    · intro hnode
      cases hn.symm.trans (hsame hnode)

/-- After the end tag of an element the reader stands around it. -/
theorem Stands.closeElement (h : r.Stands (annotations.enter place tag)) :
    (r.closeElement tag.name).Stands place := by
  intro hout
  simp only [Reading.closeElement, ← Tag.isNamed_iff]
  split
  · split
    · rfl
    · assumption
  · rename_i hnode
    rw [Bool.not_eq_true] at hnode
    exact h (by simp [annotations, hout, hnode])

/-! ## Two readings -/

/-- Two readings that are the same but for the titles. -/
def Titled (all own : List (String × String)) (r s : Reading) : Prop :=
  ∃ base : Reading, r = base.titled all ∧ s = base.titled own

/-- A value comes to the same node if its key has the same title. -/
theorem titled_store (r : Reading) (value : String)
    (h : r.openNode = none ∨ titleOf all key = titleOf own key) :
    Alike (Titled all own) ((r.titled all).store key value) ((r.titled own).store key value) := by
  cases hopen : r.openNode with
  | none =>
    simp only [store, titled, hopen]
    exact .ok ⟨r, by simp only [titled, hopen], by simp only [titled, hopen]⟩
  | some n =>
    have htitle : titleOf all key = titleOf own key :=
      h.resolve_left (by simp [hopen])
    have hnode (m : Node) : Titled all own
        { r.titled all with openNode := some m } { r.titled own with openNode := some m } :=
      ⟨{ r with openNode := some m }, rfl, rfl⟩
    simp only [titleOf] at htitle
    simp only [store, titled, hopen, htitle]
    split
    · exact .ok (hnode _)
    · exact .ok (hnode _)
    · split
      · exact .ok (hnode _)
      · exact .error _
    · exact .ok (hnode _)

/-- Readers with different titles accept the same start tags, if a value in a node has the same
title for both. -/
theorem Titled.openElement (h : Titled all own r s)
    (hvalue : tag.isNamed "attvalue" = true →
      r.openNode = none ∨ ∀ key, tag.attribute? "for" = some key →
        titleOf all key = titleOf own key) (isEmpty : Bool) :
    Alike (Titled ((declaredTitle? tag).toList ++ all) ((declaredTitle? tag).toList ++ own))
      (r.openElement tag isEmpty) (s.openElement tag isEmpty) := by
  obtain ⟨base, rfl, rfl⟩ := h
  by_cases hattribute : tag.isNamed "attribute" = true
  · rw [openElement_of_isAttribute hattribute, openElement_of_isAttribute hattribute]
    refine .bind_same fun attributes hattributes => .bind_same fun id hid => ?_
    rw [declaredTitle?_eq_some hattribute (attributesOf_eq_ok.1 hattributes)
      (required_eq_ok.1 hid)]
    exact .ok ⟨base, rfl, rfl⟩
  rw [declaredTitle?_eq_none (by simpa using hattribute), Option.toList_none, List.nil_append,
    List.nil_append]
  -- The root, the description, nodes, values and edges are left, and what is not read.
  simp only [Reading.openElement, ← Tag.isNamed_iff, if_neg hattribute]
  split
  · exact .ok ⟨{ base with sawRoot := true }, rfl, rfl⟩
  split
  · exact .bind_same fun attributes _ => .ok ⟨{ base with savedAt := _ }, rfl, rfl⟩
  split
  · refine .bind_same fun attributes _ => .bind_same fun id _ => ?_
    split
    · exact .ok ⟨{ base with nodes := _ }, rfl, rfl⟩
    · exact .ok ⟨{ base with openNode := _ }, rfl, rfl⟩
  split
  · rename_i hname
    refine .bind_same fun attributes hattributes => .bind_same fun key hkey => ?_
    refine titled_store base _ ((hvalue hname).imp_right fun h => h key ?_)
    exact attribute?_of_required hattributes hkey
  split
  · refine .bind_same fun attributes _ => .bind_same fun source _ => .bind_same fun target _ => ?_
    exact .ok ⟨{ base with edges := _ }, rfl, rfl⟩
  · exact .ok ⟨base, rfl, rfl⟩

/-- Readers with different titles accept the same end tags. -/
theorem Titled.closeElement (h : Titled all own r s) (name : List UInt8) :
    Titled all own (r.closeElement name) (s.closeElement name) := by
  obtain ⟨base, rfl, rfl⟩ := h
  have hclose (titles : List (String × String)) :
      (base.titled titles).closeElement name = (base.closeElement name).titled titles := by
    simp only [Reading.closeElement, titled]
    split
    · split <;> rfl
    · rfl
  exact ⟨base.closeElement name, hclose all, hclose own⟩

/-- How a reading stands to the same one without the attributes of edges. -/
def Annotates (place : Surroundings) (memory : Titles) (r s : Reading) : Prop :=
  r.Stands place ∧ Titled memory.all memory.own r s

/-- Outside of annotations both readers learn the same titles, and a value has the title that it has
without the annotations. -/
theorem Annotates.openElement {memory : Titles} (h : Annotates place memory r s)
    (hadmits : annotations.admits place memory tag = true) (isEmpty : Bool) :
    Alike (Annotates (if isEmpty then place else annotations.enter place tag)
      (annotations.learn memory tag)) (r.openElement tag isEmpty) (s.openElement tag isEmpty) := by
  refine (h.2.openElement (fun hname => ?_) isEmpty).and_left fun t ht => h.1.openElement ht
  -- Outside of nodes a value is passed over, so that its title does not count.
  cases hnode : place.inNode with
  | false => exact .inl (h.1 hnode)
  | true =>
    right
    intro key hkey
    simpa [annotations, hnode, hname, hkey] using hadmits

/-- A block of attributes for edges, or of values, adds what is declared inside. -/
theorem foldlM_annotation {tree : Tree} {inNode : Bool}
    (hname : tree.tag.isNamed "attributes" = true ∨ tree.tag.isNamed "attvalues" = true)
    (hinside : tree.innerEvents.all (isPassive inNode) = true)
    (hopen : inNode = false → r.openNode = none) (titles : List (String × String)) :
    tree.events.foldlM step (r.titled titles) =
      .ok (r.titled ((tree.innerEvents.filterMap eventTitle?).reverse ++ titles)) := by
  obtain ⟨tag, inside⟩ := tree
  have hnone : isNoneOf readNames tag.name = true := by
    rcases hname with hname | hname
    · rw [isNoneOf, Tag.isNamed_iff.1 hname]
      decide
    · rw [isNoneOf, Tag.isNamed_iff.1 hname]
      decide
  have htag (isEmpty : Bool) := openElement_of_isNoneOf hnone (r.titled titles) isEmpty
  cases inside with
  | none =>
    have hempty : step (r.titled titles) (.empty tag) = .ok (r.titled titles) := htag true
    rw [Tree.events, foldlM_cons_ok hempty]
    rfl
  | some inside =>
    have hstart : step (r.titled titles) (.start tag) = .ok (r.titled titles) := htag false
    have hinner : inside.events.foldlM step (r.titled titles) = .ok _ :=
      foldlM_titled hinside hopen titles
    have hnode : localName tag.name ≠ ascii "node" := by
      simp only [isNoneOf, readNames, List.all_cons, Bool.and_eq_true, bne_iff_ne] at hnone
      exact hnone.2.2.2.1
    rw [Tree.events, foldlM_cons_ok hstart, foldlM_append_ok hinner]
    simp only [List.foldlM_cons, List.foldlM_nil, step, closeElement, if_neg hnode]
    rfl

end Reading

open Reading in
/-- What is declared for edges comes to the titles, and nothing else depends on it. -/
theorem preserves_annotations : annotations.Preserves Reading.step Reading.Annotates where
  start h _ hadmits := h.openElement hadmits false
  empty h _ hadmits := h.openElement hadmits true
  finish h _ := .ok ⟨h.1.closeElement, h.2.closeElement _⟩
  plain {place memory r s event} h hplain hdrops := nomatch hdrops
  element {place memory r s} tree h hdrops hspares := by
    obtain ⟨hstands, base, rfl, rfl⟩ := h
    have hname : tree.tag.isNamed "attributes" = true ∨ tree.tag.isNamed "attvalues" = true := by
      simp only [annotations, Bool.or_eq_true, Bool.and_eq_true] at hdrops
      exact hdrops.imp And.left And.right
    exact ⟨_, foldlM_annotation hname hspares hstands _, hstands, base, rfl, rfl⟩
  between {place memory r s event} h hplain _ _ := by
    cases event with
    | start | empty | finish | fault => cases hplain
    | text | verbatim | other => exact ⟨r, rfl, h⟩

/-! ## The document that is read -/

/-- Titles decide about nothing but the detail of the document. -/
theorem Reading.finish_titled (r : Reading) (all own : List (String × String)) :
    (r.titled all).finish = (r.titled own).finish.map fun doc =>
      { doc with detail := if hasObjectTitle all then .full else .structureOnly } := by
  have hsame (titles : List (String × String)) : (r.titled titles).sawRoot = r.sawRoot := rfl
  rw [Reading.finish, Reading.finish, hsame, hsame]
  split <;> rfl

/-- Other titles make no difference if they say the same about code objects. -/
theorem Reading.finish_titled_eq_iff (r : Reading) (all : List (String × String))
    {own : List (String × String)} {doc : Document} (h : (r.titled own).finish = .ok doc) :
    (r.titled all).finish = (r.titled own).finish ↔ hasObjectTitle all = hasObjectTitle own := by
  have hdetail : doc.detail = if hasObjectTitle own then .full else .structureOnly := by
    obtain ⟨savedAt, rfl⟩ := exists_savedAt_of_finish h
    rfl
  rw [finish_titled r all own, h]
  constructor
  · intro hsame
    have hequal : (if hasObjectTitle all then Detail.full else .structureOnly) =
        if hasObjectTitle own then .full else .structureOnly := by
      rw [← hdetail]
      exact congrArg Document.detail (Except.ok.inj hsame)
    revert hequal
    cases hasObjectTitle all <;> cases hasObjectTitle own <;> decide
  · intro hsame
    rw [hsame, ← hdetail]
    rfl

/-- What the attributes of edges do to a document that is read, if no value of a node has another
title for them, compared with the same document without such attributes.  Nothing but the detail may
be different: it is full if some title is that of code objects.  So it is the same document unless
there is such a title for edges only. -/
structure ReadsAnnotated (titles : Titles) (annotated bare : Except DocumentFault Document) :
    Prop where
  eq_map : annotated = bare.map fun doc =>
    { doc with detail := if hasObjectTitle titles.all then .full else .structureOnly }
  eq_iff : ∀ doc, bare = .ok doc →
    (annotated = bare ↔ hasObjectTitle titles.all = hasObjectTitle titles.own)

/-- A text with annotations is read as the one without them, with the detail that all titles say. -/
theorem read_of_bares {bytes other : List UInt8} {forest otherForest : Forest}
    (hscan : scan bytes = forest.events) (hother : scan other = otherForest.events)
    (hbares : annotations.Bares {} {} forest otherForest) :
    ReadsAnnotated (annotations.remember {} {} forest) (read bytes) (read other) := by
  have hstart : ({} : Reading).Annotates {} {} {} := ⟨fun _ => rfl, {}, rfl, rfl⟩
  have hown : (annotations.remember {} {} otherForest).all =
      (annotations.remember {} {} otherForest).own :=
    Pruning.remember_of_isBare (P := fun memory => memory.all = memory.own)
      (fun _ _ h => congrArg _ h) hbares.other_isBare rfl
  have halike := preserves_annotations.alike_of_bares hstart hbares
  rw [read, read, hscan, hother]
  generalize forest.events.foldlM Reading.step {} = annotated at halike ⊢
  generalize otherForest.events.foldlM Reading.step {} = bare at halike ⊢
  generalize annotations.remember {} {} forest = titles at halike ⊢
  cases halike with
  | error fault =>
    refine ⟨rfl, fun doc hdoc => ?_⟩
    cases hdoc
  | ok h =>
    obtain ⟨s, ⟨-, base, rfl, hbase⟩, -, other, rfl, hsame⟩ := h
    rw [hown, ← hsame, hbase]
    exact ⟨base.finish_titled _ _, fun doc hdoc => base.finish_titled_eq_iff _ hdoc⟩

end Gexf

end CallGraph
