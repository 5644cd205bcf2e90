import CallGraph.Document.Gexf
import CallGraph.Proofs.Xml.Forest

/-!
# What readers of XML documents make of a tag

A reader tells elements apart by their names alone.  For each kind of element there is one thing
that it does with the start tag, and all that it knows of the element is in the attributes of the
tag; a tag that is not read as one of these kinds changes nothing.

Main results:

- Theorem `Graphml.Reading.opened_of_openElement`: what a reader of GraphML makes of a tag.
- Theorem `Gexf.Reading.opened_of_openElement`: what a reader of GEXF makes of a tag.
-/

namespace CallGraph

open Xml

namespace Xml.Tag

/-- The value of the attribute with this name. -/
def attribute? (tag : Tag) (name : String) : Option String :=
  tag.attributes?.bind fun attributes => valueOf? attributes name

theorem isNamed_iff {tag : Tag} {name : String} :
    tag.isNamed name = true ↔ localName tag.name = ascii name :=
  beq_iff_eq

/-- An element has no more than one name. -/
theorem isNamed_of_ne {tag : Tag} {name other : String} (h : tag.isNamed name = true)
    (hne : ascii name ≠ ascii other) : tag.isNamed other = false := by
  refine Bool.eq_false_iff.2 fun hother => hne ?_
  rw [← isNamed_iff.1 h, isNamed_iff.1 hother]

theorem not_isNamed {tag : Tag} {name : String} (h : tag.isNamed name = true) (other : String)
    (hne : ascii name ≠ ascii other) : ¬ tag.isNamed other = true :=
  Bool.eq_false_iff.1 (isNamed_of_ne h hne)

end Xml.Tag

/-- The event of a tag, which may also be the end of its element. -/
def Xml.Event.ofTag (tag : Tag) (isEmpty : Bool) : Event :=
  if isEmpty then .empty tag else .start tag

namespace Graphml

variable {tag : Tag} {attributes : List (List UInt8 × String)} {element name value : String}

theorem attributesOf_eq_ok :
    attributesOf tag = .ok attributes ↔ tag.attributes? = some attributes := by
  rw [attributesOf]
  cases tag.attributes? <;> simp

theorem required_eq_ok :
    required element name attributes = .ok value ↔ valueOf? attributes name = some value := by
  rw [required]
  cases valueOf? attributes name <;> simp

/-- An attribute that is found is an attribute of the tag. -/
theorem attribute?_of_required (hattributes : attributesOf tag = .ok attributes)
    (h : required element name attributes = .ok value) : tag.attribute? name = some value := by
  rw [Tag.attribute?, attributesOf_eq_ok.1 hattributes, Option.bind_some, required_eq_ok.1 h]

namespace Reading

/-- The reading after a start tag, or after the only tag of an element. -/
inductive Opened (r : Reading) (tag : Tag) (isEmpty : Bool) : Reading → Prop
  | root (hname : tag.isNamed "graphml" = true) : Opened r tag isEmpty { r with sawRoot := true }
  | key (hname : tag.isNamed "key" = true) {id name : String} (hid : tag.attribute? "id" = some id)
      (hkey : name = (tag.attribute? "attr.name").getD id) :
      Opened r tag isEmpty { r with keys := (id, name) :: r.keys }
  | emptyNode (hname : tag.isNamed "node" = true) (hempty : isEmpty = true) {id : String}
      (hid : tag.attribute? "id" = some id) :
      Opened r tag isEmpty
        { r with nodes := ⟨id, id, "", .unknown, none, .empty⟩ :: r.nodes }
  | openNode (hname : tag.isNamed "node" = true) (hempty : isEmpty = false) {id : String}
      (hid : tag.attribute? "id" = some id) :
      Opened r tag isEmpty { r with openNode := some ⟨id, []⟩ }
  | edge (hname : tag.isNamed "edge" = true) {e : Edge}
      (hsource : tag.attribute? "source" = some e.caller)
      (htarget : tag.attribute? "target" = some e.callee) :
      Opened r tag isEmpty { r with edges := e :: r.edges }
  | emptyData (hname : tag.isNamed "data" = true) (hempty : isEmpty = true) {key : String}
      (hkey : tag.attribute? "key" = some key) : Opened r tag isEmpty (r.store key "")
  | openData (hname : tag.isNamed "data" = true) (hempty : isEmpty = false) {key : String}
      (hkey : tag.attribute? "key" = some key) :
      Opened r tag isEmpty { r with openData := some (key, []) }
  | other (hnames : ∀ name ∈ ["graphml", "key", "node", "edge", "data"],
      tag.isNamed name = false) : Opened r tag isEmpty r

theorem opened_of_openElement {r s : Reading} {tag : Tag} {isEmpty : Bool}
    (h : r.openElement tag isEmpty = .ok s) : r.Opened tag isEmpty s := by
  simp only [openElement, ← Tag.isNamed_iff] at h
  split at h
  · rename_i hname
    cases h
    exact .root hname
  rename_i hgraphml
  split at h
  · rename_i hname
    obtain ⟨attributes, hattributes, hrest⟩ := bind_eq_ok.1 h
    obtain ⟨id, hid, hread⟩ := bind_eq_ok.1 hrest
    cases hread
    refine .key hname (attribute?_of_required hattributes hid) ?_
    rw [Tag.attribute?, attributesOf_eq_ok.1 hattributes, Option.bind_some]
  rename_i hkey
  split at h
  · rename_i hname
    obtain ⟨attributes, hattributes, hrest⟩ := bind_eq_ok.1 h
    obtain ⟨id, hid, hread⟩ := bind_eq_ok.1 hrest
    have hid := attribute?_of_required hattributes hid
    cases isEmpty with
    | true =>
      cases hread
      exact .emptyNode hname rfl hid
    | false =>
      cases hread
      exact .openNode hname rfl hid
  rename_i hnode
  split at h
  · rename_i hname
    obtain ⟨attributes, hattributes, hrest⟩ := bind_eq_ok.1 h
    obtain ⟨source, hsource, hrest⟩ := bind_eq_ok.1 hrest
    obtain ⟨target, htarget, hread⟩ := bind_eq_ok.1 hrest
    cases hread
    exact .edge hname (attribute?_of_required hattributes hsource)
      (attribute?_of_required hattributes htarget)
  rename_i hedge
  split at h
  · rename_i hname
    obtain ⟨attributes, hattributes, hrest⟩ := bind_eq_ok.1 h
    obtain ⟨key, hkey, hread⟩ := bind_eq_ok.1 hrest
    have hkey := attribute?_of_required hattributes hkey
    cases isEmpty with
    | true =>
      cases hread
      exact .emptyData hname rfl hkey
    | false =>
      cases hread
      exact .openData hname rfl hkey
  rename_i hdata
  cases h
  refine .other ?_
  simp only [Bool.not_eq_true] at hgraphml hkey hnode hedge hdata
  simp [hgraphml, hkey, hnode, hedge, hdata]

end Reading

end Graphml

namespace Gexf

open Graphml

namespace Reading

/-- A value changes nothing but the node that is open, whose id it keeps. -/
theorem stored_cases {r s : Reading} {key value : String} (h : r.store key value = .ok s) :
    r.openNode = none ∧ s = r ∨
      ∃ n m : Node, r.openNode = some n ∧ m.id = n.id ∧ s = { r with openNode := some m } := by
  simp only [store] at h
  split at h
  · rename_i hopen
    cases h
    exact .inl ⟨hopen, rfl⟩
  · rename_i n hopen
    right
    split at h
    · cases h
      refine ⟨n, _, hopen, ?_, rfl⟩
      rfl
    · cases h
      refine ⟨n, _, hopen, ?_, rfl⟩
      rfl
    · split at h
      · cases h
        refine ⟨n, _, hopen, ?_, rfl⟩
        rfl
      · cases h
    · cases h
      refine ⟨n, _, hopen, ?_, rfl⟩
      rfl

/-- The reading after a start tag, or after the only tag of an element. -/
inductive Opened (r : Reading) (tag : Tag) (isEmpty : Bool) : Reading → Prop
  | root (hname : tag.isNamed "gexf" = true) : Opened r tag isEmpty { r with sawRoot := true }
  | day (hname : tag.isNamed "meta" = true) (savedAt : Option Instant) :
      Opened r tag isEmpty { r with savedAt := savedAt }
  | declaration (hname : tag.isNamed "attribute" = true) {id title : String}
      (hid : tag.attribute? "id" = some id) (htitle : title = (tag.attribute? "title").getD id) :
      Opened r tag isEmpty
        { r with
          titles := (id, title) :: r.titles
          declaresObject := r.declaresObject || title == "code_object" }
  | emptyNode (hname : tag.isNamed "node" = true) (hempty : isEmpty = true) {n : Node}
      (hid : tag.attribute? "id" = some n.id) :
      Opened r tag isEmpty { r with nodes := n :: r.nodes }
  | openNode (hname : tag.isNamed "node" = true) (hempty : isEmpty = false) {n : Node}
      (hid : tag.attribute? "id" = some n.id) :
      Opened r tag isEmpty { r with openNode := some n }
  | value (hname : tag.isNamed "attvalue" = true) {key text : String} {s : Reading}
      (hkey : tag.attribute? "for" = some key) (htext : text = (tag.attribute? "value").getD "")
      (hstore : r.store key text = .ok s) : Opened r tag isEmpty s
  | edge (hname : tag.isNamed "edge" = true) {e : Edge}
      (hsource : tag.attribute? "source" = some e.caller)
      (htarget : tag.attribute? "target" = some e.callee) :
      Opened r tag isEmpty { r with edges := e :: r.edges }
  | other (hnames : ∀ name ∈ ["gexf", "meta", "attribute", "node", "attvalue", "edge"],
      tag.isNamed name = false) : Opened r tag isEmpty r

theorem opened_of_openElement {r s : Reading} {tag : Tag} {isEmpty : Bool}
    (h : r.openElement tag isEmpty = .ok s) : r.Opened tag isEmpty s := by
  simp only [openElement, ← Tag.isNamed_iff] at h
  split at h
  · rename_i hname
    cases h
    exact .root hname
  rename_i hgexf
  split at h
  · rename_i hname
    obtain ⟨attributes, hattributes, hread⟩ := bind_eq_ok.1 h
    cases hread
    exact .day hname _
  rename_i hmeta
  split at h
  · rename_i hname
    obtain ⟨attributes, hattributes, hrest⟩ := bind_eq_ok.1 h
    obtain ⟨id, hid, hread⟩ := bind_eq_ok.1 hrest
    cases hread
    refine .declaration hname (attribute?_of_required hattributes hid) ?_
    rw [Tag.attribute?, attributesOf_eq_ok.1 hattributes, Option.bind_some]
  rename_i hattribute
  split at h
  · rename_i hname
    obtain ⟨attributes, hattributes, hrest⟩ := bind_eq_ok.1 h
    obtain ⟨id, hid, hread⟩ := bind_eq_ok.1 hrest
    have hid := attribute?_of_required hattributes hid
    cases isEmpty with
    | true =>
      cases hread
      exact .emptyNode hname rfl hid
    | false =>
      cases hread
      exact .openNode hname rfl hid
  rename_i hnode
  split at h
  · rename_i hname
    obtain ⟨attributes, hattributes, hrest⟩ := bind_eq_ok.1 h
    obtain ⟨key, hkey, hread⟩ := bind_eq_ok.1 hrest
    refine .value hname (attribute?_of_required hattributes hkey) ?_ hread
    rw [Tag.attribute?, attributesOf_eq_ok.1 hattributes, Option.bind_some]
  rename_i hattvalue
  split at h
  · rename_i hname
    obtain ⟨attributes, hattributes, hrest⟩ := bind_eq_ok.1 h
    obtain ⟨source, hsource, hrest⟩ := bind_eq_ok.1 hrest
    obtain ⟨target, htarget, hread⟩ := bind_eq_ok.1 hrest
    cases hread
    exact .edge hname (attribute?_of_required hattributes hsource)
      (attribute?_of_required hattributes htarget)
  rename_i hedge
  cases h
  refine .other ?_
  simp only [Bool.not_eq_true] at hgexf hmeta hattribute hnode hattvalue hedge
  simp [hgexf, hmeta, hattribute, hnode, hattvalue, hedge]

end Reading

end Gexf

end CallGraph
