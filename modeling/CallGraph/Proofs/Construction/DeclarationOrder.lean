import CallGraph.Proofs.Construction.Rules
import CallGraph.Proofs.Construction.Screening

/-!
# Names and the order of declarations

In a scope a later object hides an earlier one with the same id, so in general the order in which
objects are declared can be seen.  If no two of them have ids that are equal in lower case, as is so
for the objects that a construction accepts, nothing is hidden: whatever is looked up is told by
which objects there are, and every call means the same in every order.

Main results:

- Theorem `Construction.distinctIds_accepted`: accepted objects have such ids.
- Theorem `Scope.AnswersAlike.resolve_eq`: what a call means depends on three lookups alone.
- Theorem `Scope.answersAlike_of_mem_iff`: these depend on nothing but which objects there are.
- Theorem `Scope.resolve_eq_of_perm`: a call means the same in every order of declarations.
-/

namespace CallGraph

/-- No two accepted objects have ids that are equal in lower case. -/
theorem Construction.distinctIds_accepted (objects : List CodeObject) :
    Scope.DistinctIds (accepted objects) :=
  List.pairwise_map.2 (pairwise_screen [] _)

namespace Scope

variable {objects reordered : List CodeObject}

/-! ## The lookups behind a call -/

/-- Two scopes in which every lookup gives the same. -/
structure AnswersAlike (scope other : Scope) : Prop where
  idOf?_eq : ∀ key, scope.idOf? key = other.idOf? key
  candidates_eq : ∀ name, scope.candidates name = other.candidates name
  accepts_eq : ∀ id call, scope.accepts id call = other.accepts id call

namespace AnswersAlike

variable {scope other : Scope} (halike : AnswersAlike scope other)

include halike

theorem choose_eq (rule : Rule) (call : CallSite) (ids : List String) :
    scope.choose rule call ids = other.choose rule call ids := by
  have haccepts : (scope.accepts · call) = (other.accepts · call) :=
    funext fun id => halike.accepts_eq id call
  rcases ids with _ | ⟨first, _ | ⟨second, rest⟩⟩
  · rfl
  · rfl
  · simp only [choose, haccepts]

theorem tryRules_eq (call : CallSite) (rules : List (Rule × CallName)) :
    scope.tryRules call rules = other.tryRules call rules := by
  induction rules with
  | nil => rfl
  | cons tried rest ih =>
    simp only [tryRules, halike.candidates_eq, halike.choose_eq, ih]

/-- What a call means depends on these lookups alone. -/
theorem resolve_eq (caller : CodeObject) (call : CallSite) :
    scope.resolve caller call = other.resolve caller call := by
  simp only [resolve, halike.idOf?_eq, halike.tryRules_eq]

end AnswersAlike

/-! ## Lookups in any order -/

/-- Candidates are sorted without repetitions, so they show which objects answer to a name and
nothing else. -/
theorem candidates_eq_of_mem_iff (hmem : ∀ object, object ∈ objects ↔ object ∈ reordered)
    (name : CallName) :
    (ofObjects objects).candidates name = (ofObjects reordered).candidates name := by
  have hfirst := isCandidates_candidates objects name
  have hsecond := isCandidates_candidates reordered name
  refine hfirst.ascending.eq_of_mem_iff hsecond.ascending fun id => ?_
  rw [hfirst.mem_iff, hsecond.mem_iff]
  simp only [hmem]

/-- The object with an id is the last one with it.  If there is only one, it is the same in both
lists. -/
theorem idOf?_eq_of_mem_iff (hids : DistinctIds objects) (hids' : DistinctIds reordered)
    (hmem : ∀ object, object ∈ objects ↔ object ∈ reordered) (key : String) :
    (ofObjects objects).idOf? key = (ofObjects reordered).idOf? key := by
  by_cases hkey : ∃ object ∈ objects, Text.lower object.id = key
  · obtain ⟨object, hobject, hkey⟩ := hkey
    rw [idOf?_eq_some hids hobject hkey, idOf?_eq_some hids' ((hmem object).1 hobject) hkey]
  · have hnone : ∀ object ∈ objects, Text.lower object.id ≠ key := fun object hobject hsame =>
      hkey ⟨object, hobject, hsame⟩
    rw [idOf?_eq_none_iff.2 hnone,
      idOf?_eq_none_iff.2 fun object hobject => hnone object ((hmem object).2 hobject)]

/-- Which calls an id takes depends on nothing but which objects there are. -/
theorem accepts_eq_of_mem_iff (hids : DistinctIds objects) (hids' : DistinctIds reordered)
    (hmem : ∀ object, object ∈ objects ↔ object ∈ reordered) (id : String) (call : CallSite) :
    (ofObjects objects).accepts id call = (ofObjects reordered).accepts id call := by
  rw [Bool.eq_iff_iff, accepts_iff hids, accepts_iff hids', Fits, Fits]
  simp only [hmem]

/-- Without ids that are equal in lower case, the lookups depend on nothing but which objects there
are. -/
theorem answersAlike_of_mem_iff (hids : DistinctIds objects) (hids' : DistinctIds reordered)
    (hmem : ∀ object, object ∈ objects ↔ object ∈ reordered) :
    AnswersAlike (ofObjects objects) (ofObjects reordered) where
  idOf?_eq := idOf?_eq_of_mem_iff hids hids' hmem
  candidates_eq := candidates_eq_of_mem_iff hmem
  accepts_eq := accepts_eq_of_mem_iff hids hids' hmem

/-! ## Calls in any order of declarations -/

/-- Without ids that are equal in lower case, every call in every object means the same in every
order of declarations: the same rule decides, with the same target and the same candidates. -/
theorem resolve_eq_of_perm (hids : DistinctIds objects) (hperm : objects.Perm reordered)
    (caller : CodeObject) (call : CallSite) :
    (ofObjects objects).resolve caller call = (ofObjects reordered).resolve caller call := by
  have hids' : DistinctIds reordered := (hperm.map _).nodup_iff.1 hids
  exact (answersAlike_of_mem_iff hids hids' fun _ => hperm.mem_iff).resolve_eq caller call

/-- A call of a member of a package with one argument, which both members of this name take. -/
def logCall : CallSite :=
  { callee := " PKG.Log", positional := ["text"] }

theorem candidates_overloads :
    (ofObjects overloads).candidates (.member "pkg.log") = ["pkg.log-1", "pkg.log-2"] := by
  have hfound : ((ofObjects overloads).callables.filter (·.name == .member "pkg.log")).map (·.id) =
      ["pkg.log-2", "pkg.log-1"] := by
    decide +kernel
  rw [candidates, hfound]
  refine (pairwise_sortDistinct _).eq_of_mem_iff (by decide +kernel) fun id => ?_
  rw [mem_sortDistinct, List.mem_pair, List.mem_pair, or_comm]

/-- The call is ambiguous.  The candidates are named in the same order, and the same one is taken,
although the objects are declared in reverse. -/
theorem resolve_overloads_reverse :
    let caller : CodeObject := { id := "main", name := "main", kind := .procedure }
    DistinctIds overloads ∧ overloads.Perm overloads.reverse ∧
      (ofObjects overloads.reverse).resolve caller logCall =
        .ambiguous .qualified "pkg.log-1" ["pkg.log-1", "pkg.log-2"] := by
  intro caller
  have hids : DistinctIds overloads := by decide +kernel
  have hperm : overloads.Perm overloads.reverse := (List.reverse_perm overloads).symm
  have hid : (ofObjects overloads).idOf? (calledName logCall) = none := by decide +kernel
  have hparts : calledParts logCall = ["pkg", "log"] := by decide +kernel
  have hfits : ["pkg.log-1", "pkg.log-2"].filter ((ofObjects overloads).accepts · logCall) =
      ["pkg.log-1", "pkg.log-2"] := by
    decide +kernel
  have hmember : memberName "pkg" "log" = "pkg.log" := rfl
  refine ⟨hids, hperm, (resolve_eq_of_perm hids hperm caller logCall).symm.trans ?_⟩
  rw [resolve_of_idOf?_eq_none caller (.inr hid), hparts]
  simp [rulesFor, tryRules, hmember, candidates_overloads, choose, hfits]

-- Where two ids are equal in lower case, the order is seen: the later object is meant.
example :
    let upper : CodeObject := { id := "A", name := "upper", kind := .procedure }
    let lower : CodeObject := { id := "a", name := "lower", kind := .procedure }
    (ofObjects [upper, lower]).resolve upper { callee := "a" } = .resolved .exactId "a" ∧
      (ofObjects [lower, upper]).resolve upper { callee := "a" } = .resolved .exactId "A" := by
  decide +kernel

end Scope

end CallGraph
