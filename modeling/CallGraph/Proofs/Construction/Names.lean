import CallGraph.Proofs.Construction.Scope
import Mathlib.Data.List.Nodup

/-!
# Names and the objects that answer to them

An object answers to its own name in lower case, with the name of its package before a dot if it is
in one.  This module says what the lookups of a scope find in terms of the objects that it was made
of, and how a name is taken apart at its dots.

Main results:

- Theorems `Scope.isCandidates_candidates` and `Scope.candidates_eq_nil_iff`: the candidates for a
  name are the ids of the objects that answer to it.
- Theorems `Scope.idOf?_eq_none_iff` and `Scope.idOf?_eq_some`: the object with a given id.
- Theorem `Scope.accepts_iff`: whether the object with a given id takes the arguments of a call.
- Theorem `Scope.splitAtDots_segments`: the parts of a name between its dots.
-/

namespace CallGraph

/-- The call gives all required arguments of the object, not more than it has parameters, and names
only parameters that it has. -/
structure CodeObject.Takes (object : CodeObject) (call : CallSite) : Prop where
  enough : object.requiredArity ≤ call.argumentCount
  not_too_many : call.argumentCount ≤ object.arity
  known : ∀ name ∈ call.named.keys, ∃ parameter ∈ object.parameters,
    Text.lower parameter.name = Text.lower name

namespace Scope

variable {objects : List CodeObject} {object : CodeObject} {call : CallSite} {name : CallName}
  {id key : String}

/-! ## Candidates -/

/-- Whether the object is called by that name. -/
def CallName.Names (object : CodeObject) : CallName → Prop
  | .member qualified => object.packageName ≠ "" ∧
      memberName (Text.lower object.packageName) (Text.lower object.name) = qualified
  | .schemaLevel name => object.packageName = "" ∧ Text.lower object.name = name

/-- An object is declared with the name that it is called by. -/
theorem name_ofObject_eq_iff : (Callable.ofObject object).name = name ↔ name.Names object := by
  by_cases hpackage : object.packageName = ""
  · cases name <;> simp [Callable.ofObject, CallName.Names, hpackage]
  · cases name <;> simp [Callable.ofObject, CallName.Names, hpackage]

/-- The ids of all objects that are called by a name, in ascending order and each once. -/
structure IsCandidates (objects : List CodeObject) (name : CallName) (ids : List String) :
    Prop where
  ascending : ids.Pairwise (· < ·)
  mem_iff : ∀ id, id ∈ ids ↔ ∃ object ∈ objects, name.Names object ∧ object.id = id

/-- The candidates for a name are the objects with this name. -/
theorem isCandidates_candidates (objects : List CodeObject) (name : CallName) :
    IsCandidates objects name ((ofObjects objects).candidates name) where
  ascending := pairwise_sortDistinct _
  mem_iff id := by
    simp only [candidates, ofObjects, mem_sortDistinct, List.mem_map, List.mem_filter, beq_iff_eq]
    constructor
    · rintro ⟨_, ⟨⟨object, hobject, rfl⟩, hname⟩, rfl⟩
      exact ⟨object, hobject, name_ofObject_eq_iff.1 hname, rfl⟩
    · rintro ⟨object, hobject, hname, rfl⟩
      exact ⟨_, ⟨⟨object, hobject, rfl⟩, name_ofObject_eq_iff.2 hname⟩, rfl⟩

/-- There are no candidates if no object has the name. -/
theorem candidates_eq_nil_iff :
    (ofObjects objects).candidates name = [] ↔ ∀ object ∈ objects, ¬ name.Names object := by
  rw [List.eq_nil_iff_forall_not_mem]
  simp only [(isCandidates_candidates objects name).mem_iff]
  constructor
  · intro hnone object hobject hname
    exact hnone object.id ⟨object, hobject, hname, rfl⟩
  · rintro hnone id ⟨object, hobject, hname, -⟩
    exact hnone object hobject hname

/-! ## Objects by id -/

/-- Nothing has a key as its id if no object has an id that is the key in lower case. -/
theorem idOf?_eq_none_iff :
    (ofObjects objects).idOf? key = none ↔ ∀ object ∈ objects, Text.lower object.id ≠ key := by
  simp [idOf?, ofObjects, Callable.ofObject]

/-- No two objects have ids that are equal in lower case. -/
def DistinctIds (objects : List CodeObject) : Prop :=
  (objects.map fun object => Text.lower object.id).Nodup

instance (objects : List CodeObject) : Decidable (DistinctIds objects) :=
  inferInstanceAs (Decidable (List.Nodup _))

/-- Objects whose ids are equal in lower case are one object. -/
theorem DistinctIds.eq_of_lower (hids : DistinctIds objects) {a b : CodeObject} (ha : a ∈ objects)
    (hb : b ∈ objects) (hsame : Text.lower a.id = Text.lower b.id) : a = b :=
  List.inj_on_of_nodup_map hids ha hb hsame

/-- The object whose id reads `key` in lower case is found by it. -/
theorem idOf?_eq_some (hids : DistinctIds objects) (hobject : object ∈ objects)
    (hkey : Text.lower object.id = key) : (ofObjects objects).idOf? key = some object.id := by
  cases hfound : (ofObjects objects).idOf? key with
  | none => exact absurd hkey (idOf?_eq_none_iff.1 hfound object hobject)
  | some id =>
    obtain ⟨other, hother, rfl, hsame⟩ := exists_object_of_idOf? hfound
    rw [hids.eq_of_lower hobject hother (hkey.trans hsame.symm)]

/-- An object takes a call by the number of its arguments. -/
theorem accepts_ofObject_iff :
    (Callable.ofObject object).accepts call = true ↔ object.Takes call := by
  have hparameters : (Callable.ofObject object).parameters =
      object.parameters.map fun parameter => Text.lower parameter.name := rfl
  simp only [Callable.accepts, Bool.and_eq_true, decide_eq_true_eq, List.all_eq_true,
    List.contains_iff_mem, hparameters, List.mem_map]
  exact ⟨fun ⟨⟨henough, hmost⟩, hknown⟩ => ⟨henough, hmost, hknown⟩,
    fun h => ⟨⟨h.enough, h.not_too_many⟩, h.known⟩⟩

/-- The object with the given id takes the arguments of the call. -/
def Fits (objects : List CodeObject) (call : CallSite) (id : String) : Prop :=
  ∃ object ∈ objects, object.id = id ∧ object.Takes call

/-- An id takes a call if the object with this id does. -/
theorem accepts_iff (hids : DistinctIds objects) :
    (ofObjects objects).accepts id call = true ↔ Fits objects call id := by
  rw [accepts]
  split
  · rename_i callable hfound
    have hid : callable.id = id := by simpa using List.find?_some hfound
    obtain ⟨object, hobject, rfl⟩ :=
      List.mem_map.1 (List.mem_reverse.1 (List.mem_of_find?_eq_some hfound))
    rw [accepts_ofObject_iff]
    constructor
    · intro htakes
      exact ⟨object, hobject, hid, htakes⟩
    · rintro ⟨other, hother, hsame, htakes⟩
      obtain rfl : object = other :=
        hids.eq_of_lower hobject hother (congrArg Text.lower (hid.trans hsame.symm))
      exact htakes
  · rename_i hnone
    constructor
    · intro hfalse
      cases hfalse
    · rintro ⟨object, hobject, hsame, -⟩
      have hmissing := List.find?_eq_none.1 hnone (Callable.ofObject object)
        (List.mem_reverse.2 (List.mem_map_of_mem hobject))
      exact absurd (beq_iff_eq.2 hsame) hmissing

/-! ## The parts of a name -/

/-- The name of a member is that of its package, a dot, and its own. -/
theorem toList_memberName (package name : String) :
    (memberName package name).toList = package.toList ++ '.' :: name.toList := by
  rw [memberName, String.toList_append, String.toList_append, List.append_assoc]
  rfl

/-- A text without dots is one segment. -/
theorem segments_of_not_mem {cs : List Char} (h : '.' ∉ cs) : segments cs = [cs] := by
  induction cs with
  | nil => rfl
  | cons c rest ih =>
    obtain ⟨hc, hrest⟩ := not_or.1 (List.mem_cons.not.1 h)
    rw [segments, ih hrest]
    exact fun heq => hc heq.symm

/-- The first segment ends at the first dot. -/
theorem segments_append_dot {first : List Char} (h : '.' ∉ first) (rest : List Char) :
    segments (first ++ '.' :: rest) = first :: segments rest := by
  induction first with
  | nil => rfl
  | cons c first ih =>
    obtain ⟨hc, hfirst⟩ := not_or.1 (List.mem_cons.not.1 h)
    rw [List.cons_append, segments, ih hfirst]
    exact fun heq => hc heq.symm

/-- A text with a dot begins with a part that has none. -/
theorem eq_append_dot_of_mem {cs : List Char} (h : '.' ∈ cs) :
    ∃ first rest, cs = first ++ '.' :: rest ∧ '.' ∉ first ∧ rest.length < cs.length := by
  obtain ⟨first, rest, rfl, hfirst⟩ := List.eq_append_cons_of_mem h
  refine ⟨first, rest, rfl, hfirst, ?_⟩
  simp only [List.length_append, List.length_cons]
  omega

/-- There is always a segment. -/
theorem segments_ne_nil (cs : List Char) : segments cs ≠ [] := by
  by_cases h : '.' ∈ cs
  · obtain ⟨first, rest, rfl, hfirst, -⟩ := eq_append_dot_of_mem h
    simp [segments_append_dot hfirst]
  · simp [segments_of_not_mem h]

/-- With dots between them the parts of a text are the text again. -/
theorem intercalate_segments (cs : List Char) : ['.'].intercalate (segments cs) = cs := by
  induction hlength : cs.length using Nat.strong_induction_on generalizing cs with
  | _ n ih =>
    by_cases h : '.' ∈ cs
    · obtain ⟨first, rest, rfl, hfirst, hshort⟩ := eq_append_dot_of_mem h
      rw [segments_append_dot hfirst, List.intercalate_cons_of_ne_nil (segments_ne_nil rest),
        ih _ (hlength ▸ hshort) rest rfl, List.append_assoc, List.singleton_append]
    · rw [segments_of_not_mem h, List.intercalate_singleton]

/-- No segment has a dot in it. -/
theorem not_mem_of_mem_segments (cs : List Char) : ∀ part ∈ segments cs, '.' ∉ part := by
  induction hlength : cs.length using Nat.strong_induction_on generalizing cs with
  | _ n ih =>
    by_cases h : '.' ∈ cs
    · obtain ⟨first, rest, rfl, hfirst, hshort⟩ := eq_append_dot_of_mem h
      rw [segments_append_dot hfirst, List.forall_mem_cons]
      exact ⟨hfirst, ih _ (hlength ▸ hshort) rest rfl⟩
    · rw [segments_of_not_mem h, List.forall_mem_singleton]
      exact h

/-- The parts of a text between its dots. -/
structure SplitAtDots (text : String) (parts : List String) : Prop where
  joined : ['.'].intercalate (parts.map String.toList) = text.toList
  ne_nil : parts ≠ []
  no_dot : ∀ part ∈ parts, '.' ∉ part.toList

/-- A text is split at all of its dots. -/
theorem splitAtDots_segments (text : String) :
    SplitAtDots text ((segments text.toList).map String.ofList) where
  joined := by
    simp only [List.map_map, Function.comp_def, String.toList_ofList, List.map_id']
    exact intercalate_segments text.toList
  ne_nil := by
    rw [Ne, List.map_eq_nil_iff]
    exact segments_ne_nil text.toList
  no_dot := by
    simp only [List.forall_mem_map, String.toList_ofList]
    exact not_mem_of_mem_segments text.toList

end Scope

end CallGraph
