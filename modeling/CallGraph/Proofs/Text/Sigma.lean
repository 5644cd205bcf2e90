import CallGraph.Proofs.Text.LowerCase
import Mathlib.Data.List.Basic

/-!
# Lower case inside a longer text

A text in lower case reads the same wherever it stands, but for its sigmas: a sigma that ends a word
has a form of its own, and whether it does depends on what stands around the text.  A dot is passed
over when the letters next to a sigma are looked for, so two names that are joined by a dot may read
differently in lower case than the two by themselves.

Main results:

- Theorem `lowerAfter_append`: the lower case of a text from that of its parts.
- Theorem `lowerBetween_eq_iff`: a text reads the same in two places if its sigmas do.
- Theorem `not_mem_lowerBetween`: lower-casing makes no dots.
- Theorem `lowerChars_append_dot_iff`: when two names and a dot between them are lower-cased one by
  one.
-/

namespace CallGraph.Text

/-! ## Parts of a text -/

/-- Whether a sigma with this before it, last character first, and this after it ends a word. -/
def endsWord (before rest : List Char) : Bool :=
  startsCased before && !startsCased rest

/-- The lower-case form of a character with this before it, last character first, and this after
it. -/
def lowerAt (before : List Char) (c : Char) (rest : List Char) : List Char :=
  if c = 'Σ' then (if endsWord before rest then ['ς'] else ['σ']) else lowerChar c

/-- The part `cs` of a text in lower case, where `before` is what stands before it, last character
first, and `after` what stands after it. -/
def lowerBetween (before after : List Char) : List Char → List Char
  | [] => []
  | c :: rest => lowerAt before c (rest ++ after) ++ lowerBetween (c :: before) after rest

/-- A text in lower case is one of its parts after the other. -/
theorem lowerAfter_append (before cs after : List Char) :
    lowerAfter before (cs ++ after) =
      lowerBetween before after cs ++ lowerAfter (cs.reverse ++ before) after := by
  induction cs generalizing before with
  | nil => rfl
  | cons c rest ih =>
    have hcons : lowerAfter before (c :: (rest ++ after)) =
        lowerAt before c (rest ++ after) ++ lowerAfter (c :: before) (rest ++ after) := rfl
    rw [List.cons_append, hcons, ih, lowerBetween, List.append_assoc, List.reverse_cons,
      List.append_assoc, List.singleton_append]

/-- With nothing after it, a part is the rest of the text. -/
theorem lowerBetween_nil (before cs : List Char) :
    lowerBetween before [] cs = lowerAfter before cs := by
  have happend := lowerAfter_append before cs []
  rwa [List.append_nil, lowerAfter, List.append_nil, eq_comm] at happend

/-- Lower case leaves no text empty that was not. -/
theorem lowerBetween_eq_nil_iff {before after cs : List Char} :
    lowerBetween before after cs = [] ↔ cs = [] := by
  cases cs with
  | nil => simp [lowerBetween]
  | cons c rest =>
    have hne : lowerAt before c (rest ++ after) ≠ [] := by
      rw [lowerAt]
      split
      · split <;> simp
      · exact lowerChar_ne_nil c
    simp [lowerBetween, hne]

/-! ## Sigmas -/

/-- The lower case of a character is as long in every place. -/
theorem length_lowerAt (before before' : List Char) (c : Char) (rest rest' : List Char) :
    (lowerAt before c rest).length = (lowerAt before' c rest').length := by
  unfold lowerAt
  split
  · split <;> split <;> rfl
  · rfl

/-- Two places give a character one lower case, unless it is a sigma that ends a word in one of
them. -/
theorem lowerAt_eq_iff {before before' rest rest' : List Char} {c : Char} :
    lowerAt before c rest = lowerAt before' c rest' ↔
      (c = 'Σ' → endsWord before rest = endsWord before' rest') := by
  unfold lowerAt
  by_cases hsigma : c = 'Σ'
  · cases endsWord before rest <;> cases endsWord before' rest' <;> simp [hsigma]
  · simp [hsigma]

/-- A text reads the same in two places exactly if each of its sigmas ends a word in both or in
neither. -/
theorem lowerBetween_eq_iff {before before' after after' cs : List Char} :
    lowerBetween before after cs = lowerBetween before' after' cs ↔
      ∀ front back, cs = front ++ 'Σ' :: back →
        endsWord (front.reverse ++ before) (back ++ after) =
          endsWord (front.reverse ++ before') (back ++ after') := by
  induction cs generalizing before before' with
  | nil => simp [lowerBetween]
  | cons c rest ih =>
    rw [lowerBetween, lowerBetween,
      List.append_eq_append_iff_of_size_eq_left (length_lowerAt before before' c _ _),
      lowerAt_eq_iff, ih]
    constructor
    · rintro ⟨hfirst, hrest⟩ front back hsplit
      cases front with
      | nil =>
        obtain ⟨rfl, rfl⟩ := List.cons.inj hsplit
        exact hfirst rfl
      | cons d front =>
        obtain ⟨rfl, rfl⟩ := List.cons.inj hsplit
        simpa using hrest front back rfl
    · intro hall
      refine ⟨fun hsigma => hall [] rest (by rw [hsigma]; rfl), fun front back hsplit => ?_⟩
      simpa using hall (c :: front) back (by rw [hsplit]; rfl)

/-- The lower case of a text is as long in every place. -/
theorem length_lowerBetween (before before' after after' cs : List Char) :
    (lowerBetween before after cs).length = (lowerBetween before' after' cs).length := by
  induction cs generalizing before before' with
  | nil => rfl
  | cons c rest ih =>
    rw [lowerBetween, lowerBetween, List.length_append, List.length_append,
      length_lowerAt before before' c _ (rest ++ after'), ih]

/-! ## The letters next to a sigma -/

/-- A character that is passed over does not decide whether a letter follows. -/
theorem startsCased_cons_of_passed {c : Char} (hc : caseIgnorable.contains c = true)
    (rest : List Char) : startsCased (c :: rest) = startsCased rest := by
  rw [startsCased, startsCased, List.dropWhile_cons_of_pos hc]

/-- The first character that is not passed over does. -/
theorem startsCased_cons_of_not_passed {c : Char} (hc : caseIgnorable.contains c ≠ true)
    (rest : List Char) : startsCased (c :: rest) = cased.contains c := by
  rw [startsCased, List.dropWhile_cons_of_neg hc]

/-- What follows is looked at only if everything before it is passed over. -/
theorem startsCased_append (cs rest : List Char) :
    startsCased (cs ++ rest) =
      if cs.all caseIgnorable.contains = true then startsCased rest else startsCased cs := by
  induction cs with
  | nil => rfl
  | cons c cs ih =>
    rw [List.cons_append]
    by_cases hc : caseIgnorable.contains c = true
    · rw [startsCased_cons_of_passed hc, startsCased_cons_of_passed hc, ih, List.all_cons, hc,
        Bool.true_and]
    · rw [startsCased_cons_of_not_passed hc, startsCased_cons_of_not_passed hc]
      simp [hc]

/-- Characters that are passed over do not count as letters. -/
theorem startsCased_of_all {cs : List Char} (h : cs.all caseIgnorable.contains = true) :
    startsCased cs = false := by
  have happend := startsCased_append cs []
  rwa [List.append_nil, if_pos h] at happend

/-- A dot is passed over. -/
theorem startsCased_dot (cs : List Char) : startsCased ('.' :: cs) = startsCased cs :=
  startsCased_cons_of_passed (by decide) cs

/-- A sigma ends the text as its last letter, after another letter. -/
def EndsInSigma (cs : List Char) : Prop :=
  ∃ front back, cs = front ++ 'Σ' :: back ∧ startsCased front.reverse = true ∧
    back.all caseIgnorable.contains = true

/-- A sigma begins the text, and no letter follows it. -/
def BeginsWithLastSigma (cs : List Char) : Prop :=
  ∃ front back, cs = front ++ 'Σ' :: back ∧ front.all caseIgnorable.contains = true ∧
    startsCased back = false

/-- Before a dot a text reads as by itself, unless a sigma at its end is followed by a letter after
the dot. -/
theorem lowerBetween_before_dot_iff {cs rest : List Char} :
    lowerBetween [] ('.' :: rest) cs = lowerChars cs ↔
      ¬ (EndsInSigma cs ∧ startsCased rest = true) := by
  rw [lowerChars, ← lowerBetween_nil, lowerBetween_eq_iff]
  have hplace : ∀ front back : List Char,
      endsWord (front.reverse ++ []) (back ++ '.' :: rest) =
          endsWord (front.reverse ++ []) (back ++ []) ↔
        ¬ (startsCased front.reverse = true ∧ back.all caseIgnorable.contains = true ∧
          startsCased rest = true) := by
    intro front back
    rw [endsWord, endsWord, startsCased_append back, startsCased_dot, List.append_nil,
      List.append_nil]
    by_cases hall : back.all caseIgnorable.contains = true
    · rw [if_pos hall, startsCased_of_all hall, and_iff_right hall]
      cases startsCased front.reverse <;> cases startsCased rest <;> decide
    · simp [hall]
  simp only [hplace]
  constructor
  · rintro hall ⟨⟨front, back, hsplit, hfront, hback⟩, hrest⟩
    exact hall front back hsplit ⟨hfront, hback, hrest⟩
  · rintro hnot front back hsplit ⟨hfront, hback, hrest⟩
    exact hnot ⟨⟨front, back, hsplit, hfront, hback⟩, hrest⟩

/-- After a dot a text reads as by itself, unless a sigma at its beginning, with no letter after it,
is preceded by a letter before the dot. -/
theorem lowerAfter_dot_iff {cs before : List Char} :
    lowerAfter ('.' :: before) cs = lowerChars cs ↔
      ¬ (BeginsWithLastSigma cs ∧ startsCased before = true) := by
  rw [lowerChars, ← lowerBetween_nil, ← lowerBetween_nil, lowerBetween_eq_iff]
  have hplace : ∀ front back : List Char,
      endsWord (front.reverse ++ '.' :: before) (back ++ []) =
          endsWord (front.reverse ++ []) (back ++ []) ↔
        ¬ (front.all caseIgnorable.contains = true ∧ startsCased back = false ∧
          startsCased before = true) := by
    intro front back
    rw [endsWord, endsWord, startsCased_append front.reverse, startsCased_dot, List.append_nil,
      List.append_nil, List.all_reverse]
    by_cases hall : front.all caseIgnorable.contains = true
    · have hnone : startsCased front.reverse = false :=
        startsCased_of_all (List.all_reverse.trans hall)
      rw [if_pos hall, hnone, and_iff_right hall]
      cases startsCased back <;> cases startsCased before <;> decide
    · simp [hall]
  simp only [hplace]
  constructor
  · rintro hall ⟨⟨front, back, hsplit, hfront, hback⟩, hbefore⟩
    exact hall front back hsplit ⟨hfront, hback, hbefore⟩
  · rintro hnot front back hsplit ⟨hfront, hback, hbefore⟩
    exact hnot ⟨⟨front, back, hsplit, hfront, hback⟩, hbefore⟩

/-! ## Two names and a dot -/

/-- Two names that are joined by a dot, in lower case. -/
theorem lowerChars_append_dot (first last : List Char) :
    lowerChars (first ++ '.' :: last) =
      lowerBetween [] ('.' :: last) first ++ '.' :: lowerAfter ('.' :: first.reverse) last := by
  rw [lowerChars, lowerAfter_append, List.append_nil]
  rfl

/-- Two names that are joined by a dot read in lower case as they do one by one, unless the letters
of the one make a sigma of the other end a word, or keep it from doing so. -/
theorem lowerChars_append_dot_iff {first last : List Char} :
    lowerChars (first ++ '.' :: last) = lowerChars first ++ '.' :: lowerChars last ↔
      ¬ (EndsInSigma first ∧ startsCased last = true) ∧
        ¬ (BeginsWithLastSigma last ∧ startsCased first.reverse = true) := by
  have hlength : (lowerBetween [] ('.' :: last) first).length = (lowerChars first).length := by
    rw [lowerChars, ← lowerBetween_nil]
    exact length_lowerBetween _ _ _ _ _
  rw [lowerChars_append_dot, List.append_eq_append_iff_of_size_eq_left hlength, List.cons_inj_right,
    lowerBetween_before_dot_iff, lowerAfter_dot_iff]

/-! ## Dots -/

/-- No letter has a dot as its lower-case form. -/
theorem all_lower_gt_dot : caseRuns.all (fun run => decide (0x2e < run.lower)) = true := by
  decide +kernel

/-- Among ASCII characters, only the dot is a dot in lower case. -/
theorem toLower_ne_dot_of_lt :
    ∀ code < 0x80, (Char.ofNat code).toLower = '.' → Char.ofNat code = '.' := by
  decide +kernel

theorem ofNat_ne_dot {code : Nat} (h : 0x2e < code) : Char.ofNat code ≠ '.' := by
  intro heq
  by_cases hvalid : code.isValidChar
  · have hcode := toNat_ofNat hvalid
    rw [heq] at hcode
    exact absurd hcode (Nat.ne_of_lt h)
  · -- A code point that is not one of a character is read as zero.
    rw [Char.ofNat, dif_neg hvalid] at heq
    exact absurd heq (by decide)

/-- Only a dot has a dot in its lower case. -/
theorem eq_dot_of_mem_lowerChar {c : Char} (h : '.' ∈ lowerChar c) : c = '.' := by
  rw [lowerChar] at h
  split at h
  · rename_i hascii
    have hlower := toLower_ne_dot_of_lt c.toNat hascii
    rw [Char.ofNat_toNat] at hlower
    exact hlower (List.mem_singleton.1 h).symm
  · split at h
    · exact absurd h (by decide)
    · split at h
      · rename_i image himage
        obtain ⟨run, hrun, himage⟩ := List.exists_of_findSome?_eq_some himage
        obtain ⟨-, -, rfl⟩ := bounds_of_image? himage
        have hlow : 0x2e < run.lower := by
          simpa using List.all_eq_true.1 all_lower_gt_dot run hrun
        exact absurd (List.mem_singleton.1 h).symm (ofNat_ne_dot (Nat.lt_add_right _ hlow))
      · exact (List.mem_singleton.1 h).symm

/-- Lower-casing makes no dots. -/
theorem not_mem_lowerBetween {before after cs : List Char} (h : '.' ∉ cs) :
    '.' ∉ lowerBetween before after cs := by
  induction cs generalizing before with
  | nil => exact List.not_mem_nil
  | cons c rest ih =>
    obtain ⟨hc, hrest⟩ := not_or.1 (List.mem_cons.not.1 h)
    rw [lowerBetween, List.mem_append, not_or]
    refine ⟨fun hmem => ?_, ih hrest⟩
    rw [lowerAt] at hmem
    split at hmem
    · split at hmem
      · exact absurd hmem (by decide)
      · exact absurd hmem (by decide)
    · exact hc (eq_dot_of_mem_lowerChar hmem).symm

end CallGraph.Text
