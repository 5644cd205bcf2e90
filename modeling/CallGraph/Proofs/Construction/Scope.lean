import CallGraph.Construction.Scope
import CallGraph.Proofs.Data.Sorting

/-!
# What calls are taken to mean

A call is understood as the object whose id is the name, as one of the candidates that the first
matching rule finds, or not at all.  Whatever it is taken to mean is the id of an object in scope.

Main results:

- Theorem `Scope.resolve_cases`: how a call can be understood.
- Theorem `Scope.exists_object_of_resolve`: a call is taken to mean an object in scope.
- Theorem `Scope.candidates_of_resolve`: an ambiguous call has several candidates, and its target is
  one of them.
-/

namespace CallGraph

namespace Scope

variable {scope : Scope} {objects : List CodeObject} {caller : CodeObject} {call : CallSite}

/-! ## Looking up names -/

theorem exists_object_of_idOf? {key id : String} (h : (ofObjects objects).idOf? key = some id) :
    ∃ object ∈ objects, object.id = id ∧ Text.lower object.id = key := by
  rw [idOf?, Option.map_eq_some_iff] at h
  obtain ⟨callable, hfind, rfl⟩ := h
  have hkey : callable.key = key := by simpa using List.find?_some hfind
  have hmem : callable ∈ objects.map Callable.ofObject :=
    List.mem_reverse.1 (List.mem_of_find?_eq_some hfind)
  obtain ⟨object, hobject, rfl⟩ := List.mem_map.1 hmem
  exact ⟨object, hobject, rfl, hkey⟩

theorem exists_object_of_mem_candidates {name : CallName} {id : String}
    (h : id ∈ (ofObjects objects).candidates name) : ∃ object ∈ objects, object.id = id := by
  rw [candidates, mem_sortDistinct] at h
  obtain ⟨callable, hcallable, rfl⟩ := List.mem_map.1 h
  obtain ⟨object, hobject, rfl⟩ := List.mem_map.1 (List.mem_filter.1 hcallable).1
  exact ⟨object, hobject, rfl⟩

theorem nodup_candidates (scope : Scope) (name : CallName) : (scope.candidates name).Nodup :=
  nodup_sortDistinct _

/-! ## Choosing among candidates -/

/-- The target is one of the candidates, and if it is recorded as ambiguous there are several. -/
theorem choose_cases (scope : Scope) (rule : Rule) (call : CallSite) (ids : List String) :
    (ids = [] ∧ scope.choose rule call ids = .unresolved) ∨
      (∃ target ∈ ids, scope.choose rule call ids = .resolved rule target) ∨
        ∃ target ∈ ids, 2 ≤ ids.length ∧
          scope.choose rule call ids = .ambiguous rule target ids := by
  rcases ids with _ | ⟨first, _ | ⟨second, rest⟩⟩
  · exact .inl ⟨rfl, rfl⟩
  · exact .inr (.inl ⟨first, by simp, rfl⟩)
  · right
    have hsubset : ∀ id ∈ (first :: second :: rest).filter (scope.accepts · call),
        id ∈ first :: second :: rest := fun id hid => (List.mem_filter.1 hid).1
    rw [choose]
    · split
      · rename_i one hone
        exact .inl ⟨one, hsubset one (by simp [hone]), rfl⟩
      · rename_i one others _ hseveral
        exact .inr ⟨one, hsubset one (by simp [hseveral]), by simp, rfl⟩
      · exact .inr ⟨first, by simp, by simp, rfl⟩
    · simp

/-- The rules find nothing, or the first that finds candidates decides. -/
theorem tryRules_cases (scope : Scope) (call : CallSite) (rules : List (Rule × CallName)) :
    scope.tryRules call rules = .unresolved ∨
      ∃ rule name, (rule, name) ∈ rules ∧ scope.candidates name ≠ [] ∧
        scope.tryRules call rules = scope.choose rule call (scope.candidates name) := by
  induction rules with
  | nil => exact .inl rfl
  | cons head rest ih =>
    obtain ⟨rule, name⟩ := head
    rw [tryRules]
    by_cases h : scope.candidates name = []
    · simp only [h, List.isEmpty_nil, if_true]
      refine ih.imp_right ?_
      rintro ⟨rule, name, hmem, hfound⟩
      exact ⟨rule, name, List.mem_cons_of_mem _ hmem, hfound⟩
    · right
      refine ⟨rule, name, by simp, h, ?_⟩
      simp [h]

/-! ## Understanding a call -/

/-- A call is understood as the object whose id is the name, as one of the candidates of a rule, or
not at all. -/
theorem resolve_cases (scope : Scope) (caller : CodeObject) (call : CallSite) :
    scope.resolve caller call = .unresolved ∨
      (∃ id, scope.idOf? (Text.lower (Text.trim call.callee)) = some id ∧
        scope.resolve caller call = .resolved .exactId id) ∨
      ∃ rule name, scope.candidates name ≠ [] ∧
        scope.resolve caller call = scope.choose rule call (scope.candidates name) := by
  rw [resolve]
  dsimp only
  split
  · exact .inl rfl
  · split
    · rename_i id hid
      exact .inr (.inl ⟨id, hid, rfl⟩)
    · split
      · exact .inl rfl
      · rcases scope.tryRules_cases call _ with h | ⟨rule, name, -, hne, h⟩
        · exact .inl h
        · exact .inr (.inr ⟨rule, name, hne, h⟩)

/-- What a call is taken to mean is the id of an object in scope. -/
theorem exists_object_of_resolve {target : String}
    (h : ((ofObjects objects).resolve caller call).target? = some target) :
    ∃ object ∈ objects, object.id = target := by
  rcases (ofObjects objects).resolve_cases caller call with
    heq | ⟨id, hid, heq⟩ | ⟨rule, name, -, heq⟩
  · rw [heq] at h
    cases h
  · rw [heq] at h
    obtain rfl : id = target := Option.some.inj h
    obtain ⟨object, hobject, hid, -⟩ := exists_object_of_idOf? hid
    exact ⟨object, hobject, hid⟩
  · rw [heq] at h
    rcases (ofObjects objects).choose_cases rule call ((ofObjects objects).candidates name) with
      ⟨-, heq⟩ | ⟨one, hone, heq⟩ | ⟨one, hone, -, heq⟩
    · rw [heq] at h
      cases h
    · rw [heq] at h
      obtain rfl : one = target := Option.some.inj h
      exact exists_object_of_mem_candidates hone
    · rw [heq] at h
      obtain rfl : one = target := Option.some.inj h
      exact exists_object_of_mem_candidates hone

/-- An ambiguous call has at least two candidates, all different, and its target is one of them. -/
theorem candidates_of_resolve {rule : Rule} {target : String} {candidates : List String}
    (h : scope.resolve caller call = .ambiguous rule target candidates) :
    target ∈ candidates ∧ 2 ≤ candidates.length ∧ candidates.Nodup := by
  rcases scope.resolve_cases caller call with heq | ⟨id, -, heq⟩ | ⟨rule', name, -, heq⟩
  · rw [heq] at h
    cases h
  · rw [heq] at h
    cases h
  · rw [heq] at h
    rcases scope.choose_cases rule' call (scope.candidates name) with
      ⟨-, heq⟩ | ⟨one, -, heq⟩ | ⟨one, hone, htwo, heq⟩
    · rw [heq] at h
      cases h
    · rw [heq] at h
      cases h
    · rw [heq, Resolution.ambiguous.injEq] at h
      obtain ⟨-, rfl, rfl⟩ := h
      exact ⟨hone, htwo, scope.nodup_candidates name⟩

end Scope

end CallGraph
