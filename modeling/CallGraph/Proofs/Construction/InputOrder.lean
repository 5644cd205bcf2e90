import CallGraph.Proofs.Construction.Build

/-!
# Constructions and the order of their input

A construction sorts its objects by their ids.  The order in which they are given is therefore seen
only where ids are equal: of several objects with one id the first is accepted, and what the others
hold is lost.

Main results:

- Theorem `Construction.mem_accepted_iff_find?`: an accepted object is the first with its id.
- Theorem `Construction.same_graph_iff_of_perm`: two orders of the same objects give the same graph
  if and only if each accepted object is the first with its id in both.
- Theorem `Construction.not_same_graph_of_swapped`: two different objects with one id, in both
  orders.
-/

namespace CallGraph

namespace Construction

variable {object : CodeObject} {objects reordered : List CodeObject}

/-! ## Accepted objects -/

/-- An accepted object is the first with its id, and its id is the least among those that are equal
to it in lower case. -/
theorem mem_accepted_iff_find? :
    object ∈ accepted objects ↔
      Text.isBlankText object.id = false ∧
        objects.find? (·.id == object.id) = some object ∧
          ∀ other ∈ objects, Text.lower other.id = Text.lower object.id →
            object.id ≤ other.id := by
  rw [mem_accepted_iff]
  constructor
  · rintro ⟨place, hplace, hblank, hfirst⟩
    have hbefore : ∀ otherPlace other, objects[otherPlace]? = some other →
        Text.lower other.id = Text.lower object.id →
          object.id < other.id ∨ object.id = other.id ∧ place ≤ otherPlace := by
      intro otherPlace other hother hsame
      by_cases heq : otherPlace = place
      · subst heq
        rw [hplace, Option.some.injEq] at hother
        exact .inr ⟨by rw [hother], le_rfl⟩
      · exact (hfirst otherPlace other hother heq hsame).imp_right fun h => ⟨h.1, h.2.le⟩
    refine ⟨hblank, List.find?_eq_some_iff_getElem.2 ⟨by simp, ?_⟩, ?_⟩
    · obtain ⟨hlt, heq⟩ := List.getElem?_eq_some_iff.1 hplace
      refine ⟨place, hlt, heq, fun earlier hearlier => ?_⟩
      have hat := List.getElem?_eq_getElem (hearlier.trans hlt)
      by_contra hid
      have hsame : objects[earlier].id = object.id := by simpa using hid
      rcases hbefore earlier _ hat (by rw [hsame]) with hless | ⟨-, hle⟩
      · exact hless.ne hsame.symm
      · omega
    · intro other hother hsame
      obtain ⟨otherPlace, hat⟩ := List.mem_iff_getElem?.1 hother
      exact (hbefore otherPlace other hat hsame).elim le_of_lt fun h => h.1.le
  · rintro ⟨hblank, hfind, hleast⟩
    obtain ⟨-, place, hlt, heq, hbefore⟩ := List.find?_eq_some_iff_getElem.1 hfind
    refine ⟨place, by rw [List.getElem?_eq_getElem hlt, heq], hblank, ?_⟩
    intro otherPlace other hother hne hsame
    rcases (hleast other (List.mem_of_getElem? hother) hsame).lt_or_eq with hless | hid
    · exact .inl hless
    · refine .inr ⟨hid, lt_of_not_ge fun hle => ?_⟩
      obtain ⟨hinside, hat⟩ := List.getElem?_eq_some_iff.1 hother
      have hdiffers := hbefore otherPlace (lt_of_le_of_ne hle hne)
      simp [hat, hid] at hdiffers

/-- Two orders of the same objects have the same accepted objects if and only if each of these is
the first with its id in both. -/
theorem accepted_eq_iff_of_perm (hperm : objects.Perm reordered) :
    accepted objects = accepted reordered ↔
      ∀ object ∈ accepted objects, reordered.find? (·.id == object.id) = some object := by
  constructor
  · intro heq object hobject
    rw [heq] at hobject
    exact (mem_accepted_iff_find?.1 hobject).2.1
  · intro hfirst
    have hmem : ∀ object, object ∈ accepted objects ↔ object ∈ accepted reordered := by
      intro object
      constructor
      · intro hobject
        obtain ⟨hblank, -, hleast⟩ := mem_accepted_iff_find?.1 hobject
        exact mem_accepted_iff_find?.2 ⟨hblank, hfirst object hobject,
          fun other hother => hleast other (hperm.mem_iff.2 hother)⟩
      · intro hobject
        obtain ⟨hblank, hfind, hleast⟩ := mem_accepted_iff_find?.1 hobject
        -- The first object with the id in `objects` is accepted, and it is this object.
        obtain ⟨first, hfound⟩ : ∃ first, objects.find? (·.id == object.id) = some first := by
          rw [← Option.isSome_iff_exists, List.find?_isSome]
          exact ⟨object, hperm.mem_iff.2 (List.mem_of_find?_eq_some hfind), by simp⟩
        have hid : first.id = object.id := by simpa using List.find?_some hfound
        have haccepted : first ∈ accepted objects := by
          rw [mem_accepted_iff_find?, hid]
          exact ⟨hblank, hfound, fun other hother => hleast other (hperm.mem_iff.1 hother)⟩
        have hsame := hfirst first haccepted
        rw [hid, hfind, Option.some.injEq] at hsame
        exact hsame ▸ haccepted
    refine List.Perm.eq_of_pairwise ?_ (pairwise_accepted objects) (pairwise_accepted reordered) ?_
    · intro a b _ _ hab hba
      exact absurd hab hba.asymm
    · refine (List.perm_ext_iff_of_nodup ?_ ?_).2 hmem
      · exact (nodup_ids_accepted objects).of_map
      · exact (nodup_ids_accepted reordered).of_map

/-! ## Graphs -/

/-- A node tells which object it was made of. -/
theorem ofObject_injective : Function.Injective Node.ofObject := by
  intro a b h
  have hobject := congrArg Node.object h
  simpa [Node.ofObject] using hobject

/-- The nodes of a construction in the order of their ids are the accepted objects. -/
theorem sortedNodes_ofObjects (objects : List CodeObject) :
    (ofObjects objects).graph.sortedNodes = (accepted objects).map Node.ofObject := by
  rw [Graph.sortedNodes, (draws_ofObjects objects).nodes]
  exact sortByText_of_pairwise (List.pairwise_map.2 ((pairwise_accepted objects).imp le_of_lt))

/-- Two inputs give the same graph if and only if the same objects are accepted. -/
theorem same_graph_iff :
    (ofObjects objects).graph.same (ofObjects reordered).graph = true ↔
      accepted objects = accepted reordered := by
  constructor
  · intro hsame
    have hnodes : (ofObjects objects).graph.sortedNodes =
        (ofObjects reordered).graph.sortedNodes := by
      simp only [Graph.same, Bool.and_eq_true, beq_iff_eq] at hsame
      exact hsame.1.2
    rw [sortedNodes_ofObjects, sortedNodes_ofObjects] at hnodes
    exact ofObject_injective.list_map hnodes
  · intro heq
    have hgraph : (ofObjects objects).graph = (ofObjects reordered).graph := by
      rw [ofObjects_eq, ofObjects_eq, heq]
    simp [hgraph, Graph.same]

/-- Two orders of the same objects give the same graph if and only if each accepted object is the
first with its id in both.  If no two different objects have one id, everything about the two
constructions is the same. -/
theorem same_graph_iff_of_perm (hperm : objects.Perm reordered) :
    ((ofObjects objects).graph.same (ofObjects reordered).graph = true ↔
      ∀ object ∈ accepted objects, reordered.find? (·.id == object.id) = some object) ∧
    ((∀ a ∈ objects, ∀ b ∈ objects, a.id = b.id → a = b) →
      ofObjects objects = ofObjects reordered) := by
  constructor
  · rw [same_graph_iff, accepted_eq_iff_of_perm hperm]
  · intro hids
    rw [ofObjects, ofObjects, sortByText_eq_of_perm hperm hids]

/-- Two different objects with one id, in both orders: each is accepted only where it is first, and
the graphs differ. -/
theorem not_same_graph_of_swapped :
    let a : CodeObject := { id := "a", name := "first", kind := .procedure }
    let b : CodeObject := { id := "a", name := "second", kind := .procedure }
    [a, b].Perm [b, a] ∧ ¬ (ofObjects [a, b]).graph.same (ofObjects [b, a]).graph = true := by
  intro a b
  have hperm : [a, b].Perm [b, a] := List.Perm.swap b a []
  refine ⟨hperm, fun hsame => ?_⟩
  have haccepted : a ∈ accepted [a, b] := by
    refine mem_accepted_iff_find?.2 ⟨by decide, rfl, fun other hother _ => ?_⟩
    rcases List.mem_cons.1 hother with rfl | hother
    · exact le_rfl
    · obtain rfl := List.mem_singleton.1 hother
      exact le_rfl
  have hfind := (same_graph_iff_of_perm hperm).1.1 hsame a haccepted
  have hname := congrArg (Option.map (·.name)) hfind
  exact absurd hname (by decide)

end Construction

end CallGraph
