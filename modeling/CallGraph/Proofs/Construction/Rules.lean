import CallGraph.Proofs.Construction.Names
import CallGraph.Proofs.Text.LowerCase

/-!
# The rules by which calls are understood

A call whose name is an id means the object with this id.  Any other name is taken apart at its
dots, the number of its parts says which rules apply, and the first rule under which an object
answers decides.  Of several objects the only one that takes the arguments of the call is meant;
otherwise the call is ambiguous.

Main results:

- Theorem `Scope.isChoice_choose`: what is chosen among candidates.
- Theorem `Scope.decides_tryRules`: the first rule with candidates decides.
- Theorem `Scope.resolve_eq_unresolved_iff`: when a call means nothing.
- Theorem `Scope.resolve_by_rules`: what a call means, from its name and the objects alone.
-/

namespace CallGraph

namespace Scope

variable {objects : List CodeObject} {caller : CodeObject} {call : CallSite} {rule : Rule}
  {name : CallName} {rules rest : List (Rule × CallName)} {answer : Resolution}
  {fits : String → Prop} {ids : List String}

/-! ## Choosing among candidates -/

/-- The answer is the only candidate, or the only one that fits.  If there is no such candidate, all
candidates are named, and the least that fits is taken, or the least of all if none fits. -/
structure IsChoice (fits : String → Prop) (rule : Rule) (ids : List String) (answer : Resolution) :
    Prop where
  resolved_iff : ∀ target, answer = .resolved rule target ↔
    ids = [target] ∨ target ∈ ids ∧ fits target ∧ ∀ id ∈ ids, fits id → id = target
  ambiguous : (∀ target, answer ≠ .resolved rule target) →
    ∃ target ∈ ids, answer = .ambiguous rule target ids ∧
      (fits target ∧ (∀ id ∈ ids, fits id → target ≤ id) ∨
        (∀ id ∈ ids, ¬ fits id) ∧ ∀ id ∈ ids, target ≤ id)

/-- The only candidate is chosen. -/
theorem isChoice_only (only : String) : IsChoice fits rule [only] (.resolved rule only) where
  resolved_iff target := by
    constructor
    · rintro ⟨⟩
      exact .inl rfl
    · rintro (h | ⟨h, -⟩)
      · rw [List.singleton_inj.1 h]
      · rw [List.mem_singleton.1 h]
  ambiguous h := absurd rfl (h only)

/-- If exactly one of several candidates fits, it is chosen. -/
theorem isChoice_one {one : String} (hseveral : 2 ≤ ids.length)
    (hfitting : ∀ id, id ∈ ids ∧ fits id ↔ id = one) :
    IsChoice fits rule ids (.resolved rule one) where
  resolved_iff target := by
    obtain ⟨hone, hfits⟩ := (hfitting one).2 rfl
    constructor
    · rintro ⟨⟩
      exact .inr ⟨hone, hfits, fun id hid hfits => (hfitting id).1 ⟨hid, hfits⟩⟩
    · rintro (rfl | ⟨-, -, honly⟩)
      · simp at hseveral
      · rw [honly one hone hfits]
  ambiguous h := absurd rfl (h one)

/-- If several candidates fit or none does, the call is ambiguous. -/
theorem isChoice_ambiguous {target : String} (hseveral : 2 ≤ ids.length) (htarget : target ∈ ids)
    (hmany : ∀ one ∈ ids, fits one → ∃ other ∈ ids, fits other ∧ other ≠ one)
    (hleast : fits target ∧ (∀ id ∈ ids, fits id → target ≤ id) ∨
      (∀ id ∈ ids, ¬ fits id) ∧ ∀ id ∈ ids, target ≤ id) :
    IsChoice fits rule ids (.ambiguous rule target ids) where
  resolved_iff one := by
    constructor
    · rintro ⟨⟩
    · rintro (rfl | ⟨hone, hfits, honly⟩)
      · simp at hseveral
      · obtain ⟨other, hother, hfits', hne⟩ := hmany one hone hfits
        exact absurd (honly other hother hfits') hne
  ambiguous _ := ⟨target, htarget, rfl, hleast⟩

/-- Among several candidates, the choice is made by the arguments. -/
theorem isChoice_choose {scope : Scope} (hfits : ∀ id, scope.accepts id call = true ↔ fits id)
    (hascending : ids.Pairwise (· < ·)) (hne : ids ≠ []) :
    IsChoice fits rule ids (scope.choose rule call ids) := by
  have hmem : ∀ id, id ∈ ids.filter (scope.accepts · call) ↔ id ∈ ids ∧ fits id := by
    intro id
    rw [List.mem_filter, hfits]
  have hsorted := hascending.filter (scope.accepts · call)
  rcases ids with _ | ⟨first, _ | ⟨second, rest⟩⟩
  · exact absurd rfl hne
  · exact isChoice_only first
  · have hseveral : 2 ≤ (first :: second :: rest).length := by simp
    rw [choose]
    · generalize (first :: second :: rest).filter (scope.accepts · call) = fitting at hmem hsorted
      rcases fitting with _ | ⟨one, _ | ⟨other, others⟩⟩
      · -- No candidate fits.
        have hnone : ∀ id ∈ first :: second :: rest, ¬ fits id := fun id hid hfit =>
          List.not_mem_nil ((hmem id).2 ⟨hid, hfit⟩)
        refine isChoice_ambiguous hseveral List.mem_cons_self
          (fun one hone hfit => absurd hfit (hnone one hone)) (.inr ⟨hnone, ?_⟩)
        intro id hid
        rcases List.mem_cons.1 hid with rfl | hid
        · exact le_rfl
        · exact ((List.pairwise_cons.1 hascending).1 id hid).le
      · exact isChoice_one hseveral fun id => by rw [← hmem, List.mem_singleton]
      · -- Several candidates fit, of which the first is the least.
        obtain ⟨hfirst, -⟩ := List.pairwise_cons.1 hsorted
        have hone := (hmem one).1 (by simp)
        have hother := (hmem other).1 (by simp)
        have hne : one ≠ other := (hfirst other (by simp)).ne
        refine isChoice_ambiguous hseveral hone.1 ?_ (.inl ⟨hone.2, fun id hid hfit => ?_⟩)
        · intro id _ _
          by_cases hid : id = one
          · exact ⟨other, hother.1, hother.2, hid ▸ hne.symm⟩
          · exact ⟨one, hone.1, hone.2, Ne.symm hid⟩
        · rcases List.mem_cons.1 ((hmem id).2 ⟨hid, hfit⟩) with rfl | hid
          · exact le_rfl
          · exact (hfirst id hid).le
    · simp

/-! ## Trying rules -/

/-- The first of the rules under which an object answers decides: the answer is a choice among all
objects that answer under it.  The call means nothing exactly if no object answers at all. -/
structure Decides (objects : List CodeObject) (call : CallSite) (rules : List (Rule × CallName))
    (answer : Resolution) : Prop where
  unresolved_iff : answer = .unresolved ↔ ∀ tried ∈ rules, ∀ object ∈ objects,
    ¬ tried.2.Names object
  first : ∀ before rule name after, rules = before ++ (rule, name) :: after →
    (∀ tried ∈ before, ∀ object ∈ objects, ¬ tried.2.Names object) →
      (∃ object ∈ objects, name.Names object) →
        ∃ ids, IsCandidates objects name ids ∧ IsChoice (Fits objects call) rule ids answer

/-- A choice among candidates always means something. -/
theorem IsChoice.ne_unresolved (h : IsChoice fits rule ids answer) : answer ≠ .unresolved := by
  rintro rfl
  obtain ⟨target, -, hambiguous, -⟩ := h.ambiguous fun target hresolved => by cases hresolved
  cases hambiguous

/-- A rule under which no object answers can be left out. -/
theorem Decides.cons_of_none (h : Decides objects call rest answer)
    (hnone : ∀ object ∈ objects, ¬ name.Names object) :
    Decides objects call ((rule, name) :: rest) answer where
  unresolved_iff := by
    rw [h.unresolved_iff, List.forall_mem_cons]
    exact (and_iff_right hnone).symm
  first := by
    intro before rule' name' after hsplit hbefore hanswers
    cases before with
    | nil =>
      obtain ⟨heq, rfl⟩ := List.cons.inj hsplit
      obtain ⟨object, hobject, hname⟩ := hanswers
      rw [Prod.mk.injEq] at heq
      exact absurd hname (heq.2 ▸ hnone object hobject)
    | cons tried before =>
      obtain ⟨-, rfl⟩ := List.cons.inj hsplit
      exact h.first before rule' name' after rfl
        (fun tried htried => hbefore tried (List.mem_cons_of_mem _ htried)) hanswers

/-- A rule under which an object answers decides. -/
theorem decides_cons_of_isChoice (hids : IsCandidates objects name ids) (hne : ids ≠ [])
    (hchoice : IsChoice (Fits objects call) rule ids answer) :
    Decides objects call ((rule, name) :: rest) answer := by
  obtain ⟨id, hid⟩ := List.exists_mem_of_ne_nil ids hne
  obtain ⟨object, hobject, hname, -⟩ := (hids.mem_iff id).1 hid
  constructor
  · constructor
    · intro hunresolved
      exact absurd hunresolved hchoice.ne_unresolved
    · intro hnone
      exact absurd hname (hnone (rule, name) List.mem_cons_self object hobject)
  · intro before rule' name' after hsplit hbefore _
    cases before with
    | nil =>
      obtain ⟨heq, -⟩ := List.cons.inj hsplit
      obtain ⟨rfl, rfl⟩ := Prod.mk.inj heq
      exact ⟨ids, hids, hchoice⟩
    | cons tried before =>
      obtain ⟨rfl, -⟩ := List.cons.inj hsplit
      exact absurd hname (hbefore (rule, name) List.mem_cons_self object hobject)

/-- A call means nothing exactly if no object answers under any of the rules. -/
theorem tryRules_eq_unresolved_iff :
    (ofObjects objects).tryRules call rules = .unresolved ↔
      ∀ tried ∈ rules, ∀ object ∈ objects, ¬ tried.2.Names object := by
  induction rules with
  | nil => simp [tryRules]
  | cons tried rest ih =>
    obtain ⟨rule, name⟩ := tried
    rw [tryRules, List.forall_mem_cons, ← candidates_eq_nil_iff, ← ih]
    by_cases hnone : (ofObjects objects).candidates name = []
    · simp [hnone]
    · have hmeant : (ofObjects objects).choose rule call ((ofObjects objects).candidates name) ≠
          .unresolved := by
        rcases choose_cases (ofObjects objects) rule call ((ofObjects objects).candidates name) with
          ⟨hnil, -⟩ | ⟨target, -, heq⟩ | ⟨target, -, -, heq⟩
        · exact absurd hnil hnone
        · simp [heq]
        · simp [heq]
      simp [hnone, hmeant]

/-- The first rule with candidates decides, by induction on the rules. -/
theorem decides_tryRules (hids : DistinctIds objects) (call : CallSite)
    (rules : List (Rule × CallName)) :
    Decides objects call rules ((ofObjects objects).tryRules call rules) := by
  induction rules with
  | nil =>
    constructor
    · simp [tryRules]
    · intro before rule name after hsplit
      exact absurd hsplit (by simp)
  | cons tried rest ih =>
    obtain ⟨rule, name⟩ := tried
    have hcandidates := isCandidates_candidates objects name
    by_cases hnone : (ofObjects objects).candidates name = []
    · rw [tryRules, if_pos (List.isEmpty_iff.2 hnone)]
      exact ih.cons_of_none (candidates_eq_nil_iff.1 hnone)
    · rw [tryRules, if_neg fun h => hnone (List.isEmpty_iff.1 h)]
      exact decides_cons_of_isChoice hcandidates hnone
        (isChoice_choose (fun _ => accepts_iff hids) hcandidates.ascending hnone)

/-! ## Which rules apply -/

/-- The rules for a name of the given parts, in their order, as called from the given package.  A
name of one part is looked for in this package and then outside of all packages; one of two parts as
a member of a package, and then outside of all packages without what stands before it; and of a
longer name only the last two parts count. -/
inductive RulesFor (package : String) : List String → List (Rule × CallName) → Prop
  | alone (name : String) : RulesFor package [name]
      [(.samePackage, .member (memberName (Text.lower package) name)),
        (.schemaLevel, .schemaLevel name)]
  | qualified (qualifier name : String) : RulesFor package [qualifier, name]
      [(.qualified, .member (memberName qualifier name)), (.crossSchema, .schemaLevel name)]
  | inSchema (outer : List String) (qualifier name : String) : outer ≠ [] →
      RulesFor package (outer ++ [qualifier, name])
        [(.crossSchema, .member (memberName qualifier name))]

/-- No object is called as a member of the package without a name. -/
theorem not_names_member_of_empty {name : String} (hname : '.' ∉ name.toList)
    (object : CodeObject) : ¬ (CallName.member (memberName (Text.lower "") name)).Names object := by
  rintro ⟨hpackage, hqualified⟩
  have hempty : Text.lower "" = "" := Text.lower_eq_empty_iff.2 rfl
  have hchars := congrArg String.toList hqualified
  rw [toList_memberName, toList_memberName, hempty, String.toList_empty, List.nil_append] at hchars
  cases hlower : (Text.lower object.packageName).toList with
  | nil =>
    rw [String.toList_eq_nil_iff, Text.lower_eq_empty_iff] at hlower
    exact hpackage hlower
  | cons c front =>
    -- A dot after the first character of the qualified name would be one in `name`.
    rw [hlower] at hchars
    have hrest : front ++ '.' :: (Text.lower object.name).toList = name.toList :=
      (List.cons.inj hchars).2
    exact hname (hrest ▸ by simp)

/-- A text of at least three parts ends with two of them. -/
theorem exists_lastTwo {parts : List String} (hlength : 3 ≤ parts.length) :
    ∃ outer qualifier name, outer ≠ [] ∧ parts = outer ++ [qualifier, name] := by
  have htwo : (parts.drop (parts.length - 2)).length = 2 := by
    rw [List.length_drop]
    omega
  obtain ⟨qualifier, name, hlast⟩ := List.length_eq_two.1 htwo
  refine ⟨parts.take (parts.length - 2), qualifier, name, ?_, ?_⟩
  · intro hempty
    have hzero := congrArg List.length hempty
    rw [List.length_take, List.length_nil] at hzero
    omega
  · rw [← hlast, List.take_append_drop]

/-- Of three parts or more the last two count. -/
theorem rulesFor_lastTwo {outer : List String} (hne : outer ≠ [])
    (package qualifier name : String) :
    rulesFor package (outer ++ [qualifier, name]) =
      [(.crossSchema, .member (memberName qualifier name))] := by
  obtain ⟨first, rest, rfl⟩ := List.exists_cons_of_ne_nil hne
  rw [List.cons_append, rulesFor]
  · simp
  · simp
  · intro last hlast
    simpa using congrArg List.length hlast

/-- Which rules are tried depends on the number of parts alone, but for a caller outside of all
packages, where there is no package to look in. -/
theorem decides_rulesFor (hids : DistinctIds objects) (call : CallSite) (package : String)
    {parts : List String} (hparts : parts ≠ []) (hdots : ∀ part ∈ parts, '.' ∉ part.toList) :
    ∃ rules, RulesFor package parts rules ∧
      Decides objects call rules ((ofObjects objects).tryRules call (rulesFor package parts)) := by
  have htried := decides_tryRules hids call (rulesFor package parts)
  rcases parts with _ | ⟨first, _ | ⟨second, _ | ⟨third, others⟩⟩⟩
  · exact absurd rfl hparts
  · refine ⟨_, .alone first, ?_⟩
    by_cases hpackage : package = ""
    · subst hpackage
      exact htried.cons_of_none fun object _ =>
        not_names_member_of_empty (hdots first (by simp)) object
    · rwa [rulesFor, if_neg (by simpa using hpackage)] at htried ⊢
  · exact ⟨_, .qualified first second, htried⟩
  · have hlength : 3 ≤ (first :: second :: third :: others).length := by simp
    obtain ⟨outer, qualifier, name, hne, heq⟩ := exists_lastTwo hlength
    rw [heq]
    rw [heq, rulesFor_lastTwo hne] at htried
    exact ⟨_, .inSchema outer qualifier name hne, rulesFor_lastTwo hne package _ _ ▸ htried⟩

/-! ## Understanding a call -/

/-- The name that a call is looked up by. -/
def calledName (call : CallSite) : String :=
  Text.lower (Text.trim call.callee)

/-- A call by an id means the object with this id. -/
theorem resolve_of_idOf?_eq_some {scope : Scope} {id : String} (hname : calledName call ≠ "")
    (hid : scope.idOf? (calledName call) = some id) :
    scope.resolve caller call = .resolved .exactId id := by
  rw [calledName] at hname hid
  rw [resolve]
  simp [hname, hid]

/-- The parts of this name between its dots. -/
def calledParts (call : CallSite) : List String :=
  (segments (calledName call).toList).map String.ofList

/-- The parts of a call are what stands between its dots. -/
theorem splitAtDots_calledParts (call : CallSite) :
    SplitAtDots (calledName call) (calledParts call) :=
  splitAtDots_segments (calledName call)

/-- A name that is not an id is looked up by its parts.  The empty name has one part, which is
empty. -/
theorem resolve_of_idOf?_eq_none {scope : Scope} (caller : CodeObject)
    (h : calledName call = "" ∨ scope.idOf? (calledName call) = none) :
    scope.resolve caller call =
      if "" ∈ calledParts call then .unresolved
      else scope.tryRules call (rulesFor caller.packageName (calledParts call)) := by
  have hempty : (segments (calledName call).toList).any (·.isEmpty) = true ↔
      "" ∈ calledParts call := by
    rw [List.any_eq_true, calledParts, List.mem_map]
    refine exists_congr fun part => and_congr_right fun _ => ?_
    rw [List.isEmpty_iff, String.ofList_eq_empty_iff]
  by_cases hname : calledName call = ""
  · have hpart : "" ∈ calledParts call := by simp [calledParts, hname, segments]
    rw [if_pos hpart, resolve]
    rw [calledName] at hname
    simp [hname]
  · have hid := h.resolve_left hname
    simp only [← hempty]
    rw [calledName] at hname hid
    rw [resolve]
    simp only [hname, hid, String.isEmpty_iff, if_false]
    rfl

/-- A call with a name means nothing exactly if the name is not an id, and a part of it is empty or
no object answers under the rules for its parts. -/
theorem resolve_eq_unresolved_iff (caller : CodeObject) (hname : calledName call ≠ "") :
    (ofObjects objects).resolve caller call = .unresolved ↔
      (∀ object ∈ objects, Text.lower object.id ≠ calledName call) ∧
        ("" ∈ calledParts call ∨ ∀ tried ∈ rulesFor caller.packageName (calledParts call),
          ∀ object ∈ objects, ¬ tried.2.Names object) := by
  rw [← idOf?_eq_none_iff, ← tryRules_eq_unresolved_iff]
  cases hid : (ofObjects objects).idOf? (calledName call) with
  | some id => simp [resolve_of_idOf?_eq_some hname hid]
  | none =>
    rw [resolve_of_idOf?_eq_none caller (.inr hid), and_iff_right rfl]
    by_cases hempty : "" ∈ calledParts call
    · simp [hempty]
    · rw [if_neg hempty, or_iff_right hempty]

/-- What a call means.  If its name, without blanks around it and in lower case, is the id of an
object in lower case, it means this object.  Otherwise it means nothing if a part of the name is
empty, and else the first rule for its parts under which an object answers decides. -/
theorem resolve_by_rules (hids : DistinctIds objects) (caller : CodeObject) (call : CallSite) :
    let answer := (ofObjects objects).resolve caller call
    (∀ object ∈ objects, calledName call ≠ "" → Text.lower object.id = calledName call →
      answer = .resolved .exactId object.id) ∧
    ((calledName call = "" ∨ ∀ object ∈ objects, Text.lower object.id ≠ calledName call) →
      ∃ parts, SplitAtDots (calledName call) parts ∧ ("" ∈ parts → answer = .unresolved) ∧
        ("" ∉ parts → ∃ rules, RulesFor caller.packageName parts rules ∧
          Decides objects call rules answer)) := by
  intro answer
  constructor
  · intro object hobject hname hid
    exact resolve_of_idOf?_eq_some hname (idOf?_eq_some hids hobject hid)
  · intro hnone
    have hanswer := resolve_of_idOf?_eq_none caller (hnone.imp_right idOf?_eq_none_iff.2)
    have hsplit := splitAtDots_calledParts call
    refine ⟨_, hsplit, fun hempty => ?_, fun hparts => ?_⟩
    · exact hanswer.trans (if_pos hempty)
    · obtain ⟨rules, hrules, hdecides⟩ := decides_rulesFor hids call caller.packageName
        hsplit.ne_nil hsplit.no_dot
      have htried : answer = _ := hanswer.trans (if_neg hparts)
      exact ⟨rules, hrules, htried ▸ hdecides⟩

/-- Two members of a package with one name, of which the second takes a level, but does not need
it. -/
def overloads : List CodeObject :=
  [{ id := "pkg.log-2", name := "log", packageName := "pkg", kind := .procedure,
     parameters := [⟨"message", "VARCHAR2", .input, none⟩, ⟨"level", "NUMBER", .input, some "1"⟩] },
   { id := "pkg.log-1", name := "LOG", packageName := "Pkg", kind := .procedure,
     parameters := [⟨"message", "VARCHAR2", .input, none⟩] }]

/-- A call with one argument of a name that is overloaded, written in another case. -/
theorem resolve_overloads_by_rules :
    let caller : CodeObject := { id := "main", name := "main", kind := .procedure }
    let call : CallSite := { callee := " PKG.Log", positional := ["text"] }
    DistinctIds overloads ∧
      (∀ object ∈ overloads, calledName call ≠ "" → Text.lower object.id = calledName call →
        (ofObjects overloads).resolve caller call = .resolved .exactId object.id) ∧
      ((calledName call = "" ∨ ∀ object ∈ overloads, Text.lower object.id ≠ calledName call) →
        ∃ parts, SplitAtDots (calledName call) parts ∧
          ("" ∈ parts → (ofObjects overloads).resolve caller call = .unresolved) ∧
          ("" ∉ parts → ∃ rules, RulesFor caller.packageName parts rules ∧
            Decides overloads call rules ((ofObjects overloads).resolve caller call))) := by
  intro caller call
  have hids : DistinctIds overloads := by decide +kernel
  exact ⟨hids, resolve_by_rules hids caller call⟩

end Scope

end CallGraph
