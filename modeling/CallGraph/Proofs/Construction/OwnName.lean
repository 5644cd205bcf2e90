import CallGraph.Proofs.Construction.Rules
import CallGraph.Proofs.Text.Sigma

/-!
# Calls of objects by their own names

A member of a package is called by the name of the package, a dot and its own name.  The call looks
for this text in lower case, while the object answers to its two names in lower case, one by one.
The two are the same text but for a sigma next to the dot, which may end a word in one of them and
not in the other.

Main results:

- Theorem `Scope.memberName_eq_lower_iff`: when an object answers to its own name.
- Theorem `Scope.unresolved_by_own_name_iff`: when a call by the name of an object means nothing.
- Theorem `Scope.sigmaBeforeDot_unresolved`: an object that its own name does not find.
-/

namespace CallGraph

/-- The object is in a package, neither of the two names is empty or contains a dot, and no blank
character stands at either end of the qualified name. -/
structure CodeObject.HasPlainNames (object : CodeObject) : Prop where
  package_ne : object.packageName ≠ ""
  name_ne : object.name ≠ ""
  package_no_dot : '.' ∉ object.packageName.toList
  name_no_dot : '.' ∉ object.name.toList
  first_not_blank : ∀ c ∈ object.qualifiedName.toList.head?, Text.isBlank c = false
  last_not_blank : ∀ c ∈ object.qualifiedName.toList.getLast?, Text.isBlank c = false

namespace Scope

variable {objects : List CodeObject} {object : CodeObject} {call : CallSite}

/-! ## The name in lower case -/

/-- A sigma next to the dot between two names, whose place in its word changes when they are joined:
one at the end of the first name, followed by a letter after the dot, or one at the beginning of the
second name with no letter after it, preceded by a letter before the dot. -/
def SigmaAtDot (package name : String) : Prop :=
  Text.EndsInSigma package.toList ∧ Text.startsCased name.toList = true ∨
    Text.BeginsWithLastSigma name.toList ∧ Text.startsCased package.toList.reverse = true

theorem toList_qualifiedName (hpackage : object.packageName ≠ "") :
    object.qualifiedName.toList = object.packageName.toList ++ '.' :: object.name.toList := by
  rw [CodeObject.qualifiedName, if_neg (by simpa using hpackage), String.toList_append,
    String.toList_append, List.append_assoc]
  rfl

/-- An object answers to its own name unless there is a sigma at the dot. -/
theorem memberName_eq_lower_iff (hpackage : object.packageName ≠ "") :
    memberName (Text.lower object.packageName) (Text.lower object.name) =
        Text.lower object.qualifiedName ↔ ¬ SigmaAtDot object.packageName object.name := by
  rw [SigmaAtDot, not_or, ← Text.lowerChars_append_dot_iff, ← toList_qualifiedName hpackage,
    ← String.toList_inj, toList_memberName, Text.toList_lower, Text.toList_lower, Text.toList_lower,
    eq_comm]

/-! ## Calling an object -/

/-- A call by a plain qualified name looks for this name in lower case. -/
theorem calledName_eq (h : object.HasPlainNames) (hcall : call.callee = object.qualifiedName) :
    calledName call = Text.lower object.qualifiedName := by
  rw [calledName, hcall, Text.trim, Text.trimChars_eq_self h.first_not_blank h.last_not_blank,
    String.ofList_toList]

/-- In lower case a plain qualified name has one dot, with something on either side of it. -/
theorem exists_toList_lower (h : object.HasPlainNames) :
    ∃ first last : List Char, (Text.lower object.qualifiedName).toList = first ++ '.' :: last ∧
      (first ≠ [] ∧ '.' ∉ first) ∧ last ≠ [] ∧ '.' ∉ last := by
  have hchars := Text.lowerChars_append_dot object.packageName.toList object.name.toList
  rw [← toList_qualifiedName h.package_ne, ← Text.toList_lower, ← Text.lowerBetween_nil] at hchars
  refine ⟨_, _, hchars, ⟨?_, Text.not_mem_lowerBetween h.package_no_dot⟩, ?_,
    Text.not_mem_lowerBetween h.name_no_dot⟩
  · rw [Ne, Text.lowerBetween_eq_nil_iff, String.toList_eq_nil_iff]
    exact h.package_ne
  · rw [Ne, Text.lowerBetween_eq_nil_iff, String.toList_eq_nil_iff]
    exact h.name_ne

/-- A call by a plain qualified name is looked up by two parts, neither of them empty. -/
theorem exists_calledParts (h : object.HasPlainNames) (hcall : call.callee = object.qualifiedName) :
    ∃ first last, calledParts call = [first, last] ∧ "" ∉ [first, last] ∧
      memberName first last = Text.lower object.qualifiedName := by
  obtain ⟨first, last, hchars, ⟨hfirst, hfirstDot⟩, hlast, hlastDot⟩ := exists_toList_lower h
  refine ⟨String.ofList first, String.ofList last, ?_, ?_, ?_⟩
  · rw [calledParts, calledName_eq h hcall, hchars, segments_append_dot hfirstDot,
      segments_of_not_mem hlastDot]
    rfl
  · simp [hfirst, hlast]
  · rw [← String.toList_inj, toList_memberName, String.toList_ofList, String.toList_ofList, hchars]

/-- A call by the qualified name of an object means nothing exactly if there is a sigma at the dot
and, besides, the name in lower case is not an id, no other member of a package answers to it, and
nothing outside of all packages answers to its last part. -/
theorem unresolved_by_own_name_iff (caller : CodeObject) (hobject : object ∈ objects)
    (h : object.HasPlainNames) (hcall : call.callee = object.qualifiedName) :
    ∃ first last, SplitAtDots (Text.lower object.qualifiedName) [first, last] ∧
      ((ofObjects objects).resolve caller call = .unresolved ↔
        SigmaAtDot object.packageName object.name ∧ ∀ other ∈ objects,
          Text.lower other.id ≠ Text.lower object.qualifiedName ∧
            ¬ (CallName.member (Text.lower object.qualifiedName)).Names other ∧
              ¬ (CallName.schemaLevel last).Names other) := by
  obtain ⟨first, last, hparts, hne, hmember⟩ := exists_calledParts h hcall
  have hname := calledName_eq h hcall
  have hsplit := splitAtDots_calledParts call
  have hnonempty : calledName call ≠ "" := by
    rw [hname, Ne, Text.lower_eq_empty_iff, ← String.toList_eq_nil_iff,
      toList_qualifiedName h.package_ne]
    simp
  rw [hname, hparts] at hsplit
  refine ⟨first, last, hsplit, ?_⟩
  rw [resolve_eq_unresolved_iff caller hnonempty, hname, hparts, or_iff_right hne, rulesFor,
    hmember]
  simp only [List.forall_mem_cons, List.not_mem_nil, false_imp_iff, implies_true, and_true]
  constructor
  · rintro ⟨hid, hmembers, hschemaLevel⟩
    refine ⟨by_contra fun hsigma => ?_, fun other hother =>
      ⟨hid other hother, hmembers other hother, hschemaLevel other hother⟩⟩
    -- Without a sigma at the dot the object itself answers.
    exact hmembers object hobject ⟨h.package_ne, (memberName_eq_lower_iff h.package_ne).2 hsigma⟩
  · rintro ⟨-, hnone⟩
    exact ⟨fun other hother => (hnone other hother).1, fun other hother => (hnone other hother).2.1,
      fun other hother => (hnone other hother).2.2⟩

/-- A member of a package whose name ends in a sigma, with the id that it has by convention. -/
def sigmaBeforeDot : CodeObject :=
  { id := CodeObject.conventionalId "AΣ" "b", name := "b", packageName := "AΣ", kind := .procedure }

/-- With a sigma before the dot, an object is not found by its own name. -/
theorem sigmaBeforeDot_unresolved :
    sigmaBeforeDot ∈ [sigmaBeforeDot] ∧ sigmaBeforeDot.HasPlainNames ∧
      (ofObjects [sigmaBeforeDot]).resolve sigmaBeforeDot
        { callee := sigmaBeforeDot.qualifiedName } = .unresolved := by
  have hmem : sigmaBeforeDot ∈ [sigmaBeforeDot] := List.mem_singleton_self _
  have hchars : sigmaBeforeDot.qualifiedName.toList = ['A', 'Σ', '.', 'b'] := by decide
  have hfirst : ∀ c ∈ sigmaBeforeDot.qualifiedName.toList.head?, Text.isBlank c = false := by
    rw [hchars]
    rintro c ⟨⟩
    decide
  have hlast : ∀ c ∈ sigmaBeforeDot.qualifiedName.toList.getLast?, Text.isBlank c = false := by
    rw [hchars]
    rintro c ⟨⟩
    decide
  have hplain : sigmaBeforeDot.HasPlainNames :=
    ⟨by decide, by decide, by decide, by decide, hfirst, hlast⟩
  obtain ⟨first, last, -, hiff⟩ := unresolved_by_own_name_iff sigmaBeforeDot hmem hplain
    (rfl : ({ callee := sigmaBeforeDot.qualifiedName } : CallSite).callee = _)
  refine ⟨hmem, hplain, hiff.2 ⟨.inl ⟨⟨['A'], [], ?_⟩, ?_⟩, ?_⟩⟩
  · decide
  · decide
  · intro other hother
    obtain rfl := List.mem_singleton.1 hother
    refine ⟨by decide +kernel, ?_, ?_⟩
    · rintro ⟨-, hsame⟩
      exact absurd hsame (by decide +kernel)
    · rintro ⟨hpackage, -⟩
      exact absurd hpackage (by decide)

end Scope

end CallGraph
