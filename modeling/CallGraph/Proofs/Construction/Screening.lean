import CallGraph.Construction.Build
import CallGraph.Proofs.Data.Sorting
import CallGraph.Proofs.Text.LowerCase

/-!
# Which objects are accepted

Of the objects whose ids are equal in lower case one is accepted: the one that comes first in the
order of ids and, among equal ids, in the order of the input.  Objects with a blank id are never
accepted, and since a blank id equals only blank ids in lower case, they take no other object's id.

Main results:

- Theorem `Construction.mem_accepted_iff`: which objects are accepted.
- Theorem `Construction.pairwise_accepted`: accepted objects are in strictly ascending order.
- Theorem `Construction.length_screen`: each object is accepted or recorded.
-/

namespace CallGraph

namespace Construction

variable {seen : List String} {object : CodeObject} {objects rest : List CodeObject}

/-! ## One object after the other -/

/-- An object is accepted if its id is neither blank nor seen before in any case. -/
theorem rejection?_eq_none_iff :
    rejection? seen object = none ↔
      Text.isBlankText object.id = false ∧ Text.lower object.id ∉ seen := by
  rw [rejection?]
  split
  · simp_all
  · split <;> simp_all

theorem screen_cons_of_accepted (h : rejection? seen object = none) :
    screen seen (object :: rest) =
      (object :: (screen (Text.lower object.id :: seen) rest).1,
        (screen (Text.lower object.id :: seen) rest).2) := by
  rw [screen, h]

theorem screen_cons_of_rejected {why : Rejection} (h : rejection? seen object = some why) :
    screen seen (object :: rest) =
      ((screen seen rest).1, ⟨object.id, why⟩ :: (screen seen rest).2) := by
  rw [screen, h]

/-- Each object is accepted or recorded. -/
theorem length_screen (seen : List String) (objects : List CodeObject) :
    (screen seen objects).1.length + (screen seen objects).2.length = objects.length := by
  induction objects generalizing seen with
  | nil => rfl
  | cons object rest ih =>
    cases h : rejection? seen object with
    | none =>
      have hrest := ih (Text.lower object.id :: seen)
      rw [screen_cons_of_accepted h]
      simp only [List.length_cons]
      omega
    | some why =>
      have hrest := ih seen
      rw [screen_cons_of_rejected h]
      simp only [List.length_cons]
      omega

theorem sublist_screen (seen : List String) (objects : List CodeObject) :
    (screen seen objects).1.Sublist objects := by
  induction objects generalizing seen with
  | nil => exact List.Sublist.refl _
  | cons object rest ih =>
    cases h : rejection? seen object with
    | none =>
      rw [screen_cons_of_accepted h]
      exact (ih _).cons_cons object
    | some why =>
      rw [screen_cons_of_rejected h]
      exact (ih _).cons object

/-- An object stands in a list with none before it that have its id in lower case. -/
def FirstWithId (objects : List CodeObject) (object : CodeObject) : Prop :=
  ∃ before after, objects = before ++ object :: after ∧
    ∀ other ∈ before, Text.lower other.id ≠ Text.lower object.id

theorem firstWithId_cons_iff {first : CodeObject} :
    FirstWithId (first :: objects) object ↔
      first = object ∨ Text.lower first.id ≠ Text.lower object.id ∧ FirstWithId objects object := by
  constructor
  · rintro ⟨before, after, hsplit, hbefore⟩
    cases before with
    | nil => exact .inl (List.cons.inj hsplit).1
    | cons head before =>
      obtain ⟨rfl, rfl⟩ := List.cons.inj hsplit
      exact .inr ⟨hbefore first (by simp), before, after, rfl,
        fun other hother => hbefore other (List.mem_cons_of_mem _ hother)⟩
  · rintro (rfl | ⟨hne, before, after, rfl, hbefore⟩)
    · exact ⟨[], objects, rfl, by simp⟩
    · exact ⟨first :: before, after, rfl, List.forall_mem_cons.2 ⟨hne, hbefore⟩⟩

/-- An object is accepted if its id is not blank, not taken, and not that of an object before it. -/
theorem mem_screen_iff :
    object ∈ (screen seen objects).1 ↔
      Text.isBlankText object.id = false ∧ Text.lower object.id ∉ seen ∧
        FirstWithId objects object := by
  induction objects generalizing seen with
  | nil => simp [screen, FirstWithId]
  | cons first rest ih =>
    rw [firstWithId_cons_iff]
    cases h : rejection? seen first with
    | none =>
      obtain ⟨hblank, hseen⟩ := rejection?_eq_none_iff.1 h
      rw [screen_cons_of_accepted h, List.mem_cons, ih, List.mem_cons, not_or]
      constructor
      · rintro (rfl | ⟨hnotBlank, ⟨hne, hnew⟩, hrest⟩)
        · exact ⟨hblank, hseen, .inl rfl⟩
        · exact ⟨hnotBlank, hnew, .inr ⟨Ne.symm hne, hrest⟩⟩
      · rintro ⟨hnotBlank, hnew, rfl | ⟨hne, hrest⟩⟩
        · exact .inl rfl
        · exact .inr ⟨hnotBlank, ⟨Ne.symm hne, hnew⟩, hrest⟩
    | some why =>
      have hrejected : ¬ (Text.isBlankText first.id = false ∧ Text.lower first.id ∉ seen) := by
        rw [← rejection?_eq_none_iff, h]
        simp
      rw [screen_cons_of_rejected h, ih]
      constructor
      · rintro ⟨hnotBlank, hnew, hrest⟩
        refine ⟨hnotBlank, hnew, .inr ⟨fun hsame => hrejected ⟨?_, hsame ▸ hnew⟩, hrest⟩⟩
        -- An object with the same id in lower case is not blank either.
        rw [← Text.isBlankText_lower, hsame, Text.isBlankText_lower, hnotBlank]
      · rintro ⟨hnotBlank, hnew, rfl | ⟨-, hrest⟩⟩
        · exact absurd ⟨hnotBlank, hnew⟩ hrejected
        · exact ⟨hnotBlank, hnew, hrest⟩

/-- No two accepted objects have ids that are equal in lower case. -/
theorem pairwise_screen (seen : List String) (objects : List CodeObject) :
    (screen seen objects).1.Pairwise fun a b => Text.lower a.id ≠ Text.lower b.id := by
  induction objects generalizing seen with
  | nil => exact .nil
  | cons object rest ih =>
    cases h : rejection? seen object with
    | none =>
      rw [screen_cons_of_accepted h, List.pairwise_cons]
      refine ⟨fun other hother hsame => ?_, ih _⟩
      exact (mem_screen_iff.1 hother).2.1 (List.mem_cons.2 (.inl hsame.symm))
    | some why =>
      rw [screen_cons_of_rejected h]
      exact ih seen

/-! ## The accepted objects -/

/-- The objects that are accepted. -/
def accepted (objects : List CodeObject) : List CodeObject :=
  (screen [] (sortByText (·.id) objects)).1

/-- The object at a place has an id that is not blank, and comes before all others with that id in
lower case: in the order of ids, and then in the order of the list. -/
structure ComesFirst (objects : List CodeObject) (place : Nat) (object : CodeObject) : Prop where
  at_place : objects[place]? = some object
  not_blank : Text.isBlankText object.id = false
  before_others : ∀ otherPlace other, objects[otherPlace]? = some other → otherPlace ≠ place →
    Text.lower other.id = Text.lower object.id →
      object.id < other.id ∨ object.id = other.id ∧ place < otherPlace

/-- The accepted objects are those that come first. -/
theorem mem_accepted_iff :
    object ∈ accepted objects ↔ ∃ place, ComesFirst objects place object := by
  obtain ⟨placed, hplaced, hmem, hsorted⟩ := exists_placed_sortByText (·.id) objects
  rw [accepted, mem_screen_iff, ← hplaced]
  constructor
  · rintro ⟨hblank, -, before, after, hsplit, hbefore⟩
    obtain ⟨placedBefore, placedRest, rfl, rfl, hrest⟩ := List.map_eq_append_iff.1 hsplit
    obtain ⟨⟨_, place⟩, placedAfter, rfl, rfl, rfl⟩ := List.map_eq_cons_iff.1 hrest
    refine ⟨place, (hmem _ _).1 (by simp), hblank, fun otherPlace other hother hne hsame => ?_⟩
    rcases List.mem_append.1 ((hmem _ _).2 hother) with hother | hother
    · exact absurd hsame (hbefore other (List.mem_map_of_mem hother))
    · rcases List.mem_cons.1 hother with heq | hother
      · exact absurd (congrArg Prod.snd heq) hne
      · exact (List.pairwise_cons.1 (List.pairwise_append.1 hsorted).2.1).1 _ hother
  · rintro ⟨place, hplace, hblank, hfirst⟩
    obtain ⟨placedBefore, placedAfter, rfl⟩ := List.append_of_mem ((hmem _ _).2 hplace)
    refine ⟨hblank, by simp, placedBefore.map (·.1), placedAfter.map (·.1), by simp, ?_⟩
    intro other hother hsame
    obtain ⟨⟨_, otherPlace⟩, hplacedBefore, rfl⟩ := List.mem_map.1 hother
    have hat := (hmem _ _).1 (List.mem_append_left _ hplacedBefore)
    -- The other object comes before the one at `place`, which is said to come before it.
    have hbefore := (List.pairwise_append.1 hsorted).2.2 _ hplacedBefore _ List.mem_cons_self
    have hne : otherPlace ≠ place := by
      rintro rfl
      rw [hplace, Option.some.injEq] at hat
      subst hat
      rcases hbefore with hlt | ⟨-, hlt⟩
      · exact hlt.false
      · exact hlt.false
    have hafter := hfirst otherPlace _ hat hne hsame
    rcases hbefore with hlt | ⟨heq, hlt⟩ <;> rcases hafter with hlt' | ⟨heq', hlt'⟩
    · exact lt_asymm hlt hlt'
    · exact hlt.ne heq'.symm
    · exact hlt'.ne heq.symm
    · exact lt_asymm hlt hlt'

/-- The accepted objects are in strictly ascending order of their ids. -/
theorem pairwise_accepted (objects : List CodeObject) :
    (accepted objects).Pairwise fun a b => a.id < b.id := by
  have hsorted : (accepted objects).Pairwise fun a b => a.id ≤ b.id :=
    (pairwise_sortByText (·.id) objects).sublist (sublist_screen _ _)
  refine (hsorted.and (pairwise_screen [] _)).imp fun {a b} h => ?_
  exact lt_of_le_of_ne h.1 fun hsame => h.2 (congrArg Text.lower hsame)

theorem nodup_ids_accepted (objects : List CodeObject) :
    ((accepted objects).map (·.id)).Nodup :=
  List.pairwise_map.2 ((pairwise_accepted objects).imp ne_of_lt)

end Construction

end CallGraph
