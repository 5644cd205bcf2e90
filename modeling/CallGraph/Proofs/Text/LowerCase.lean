import CallGraph.Text.Blank
import CallGraph.Text.LowerCase
import Mathlib.Tactic.Common

/-!
# Blank texts in lower case

Lower-casing neither makes nor removes blank characters: none of them has another form in lower
case, and no letter has a blank one.  So texts that read the same in lower case are blank together.

Main results:

- Theorem `isBlank_of_mem_lowerChar`: what a character becomes is as blank as the character.
- Theorem `lower_eq_empty_iff`: no text vanishes in lower case.
- Theorem `isBlankText_lower`: a text is blank if and only if it is blank in lower case.
-/

namespace CallGraph.Text

/-! ## Runs of letters -/

/-- The code points of the blank characters, as ranges from a first to a last one. -/
def blankRanges : List (Nat × Nat) :=
  [(0x9, 0xd), (0x20, 0x20), (0x85, 0x85), (0xa0, 0xa0), (0x1680, 0x1680), (0x2000, 0x200a),
    (0x2028, 0x2029), (0x202f, 0x202f), (0x205f, 0x205f), (0x3000, 0x3000)]

/-- Whether no code point from `first` to `last` is that of a blank character. -/
def isClear (first last : Nat) : Bool :=
  blankRanges.all fun range => range.2 < first || last < range.1

/-- A blank character lies in one of the blank ranges. -/
theorem exists_range_of_isBlank {c : Char} (h : isBlank c = true) :
    ∃ range ∈ blankRanges, range.1 ≤ c.toNat ∧ c.toNat ≤ range.2 := by
  simp only [isBlank, Bool.or_eq_true, Bool.and_eq_true, decide_eq_true_eq, beq_iff_eq] at h
  simp only [blankRanges, List.mem_cons, List.not_mem_nil, or_false, exists_eq_or_imp,
    exists_eq_left]
  omega

/-- A character between two code points that keep clear of blank characters is not blank. -/
theorem isBlank_eq_false_of_isClear {c : Char} {first last : Nat} (h : isClear first last = true)
    (hfirst : first ≤ c.toNat) (hlast : c.toNat ≤ last) : isBlank c = false := by
  refine Bool.eq_false_iff.2 fun hblank => ?_
  obtain ⟨range, hrange, hlow, hhigh⟩ := exists_range_of_isBlank hblank
  have hapart := List.all_eq_true.1 h range hrange
  simp only [Bool.or_eq_true, decide_eq_true_eq] at hapart
  omega

/-- Neither a run of letters nor their lower-case forms contain a blank character. -/
theorem all_isClear_caseRuns :
    caseRuns.all (fun run => isClear run.first run.last &&
      isClear run.lower (run.lower + (run.last - run.first))) = true := by
  decide +kernel

/-! ## Characters -/

/-- The code of a character with a valid code. -/
theorem toNat_ofNat {code : Nat} (h : code.isValidChar) : (Char.ofNat code).toNat = code := by
  rw [Char.ofNat, dif_pos h]
  rfl

/-- An ASCII character is blank just if its lower case is. -/
theorem isBlank_toLower_of_lt :
    ∀ code < 0x80, isBlank (Char.ofNat code).toLower = isBlank (Char.ofNat code) := by
  decide +kernel

/-- No run of the table meets the blank characters, with its letters or their images. -/
theorem isClear_of_mem_caseRuns {run : CaseRun} (h : run ∈ caseRuns) :
    isClear run.first run.last = true ∧
      isClear run.lower (run.lower + (run.last - run.first)) = true := by
  simpa using List.all_eq_true.1 all_isClear_caseRuns run h

/-- The image of a letter of a run lies as far into its images as the letter into the run. -/
theorem bounds_of_image? {run : CaseRun} {code image : Nat} (h : run.image? code = some image) :
    run.first ≤ code ∧ code ≤ run.last ∧ image = run.lower + (code - run.first) := by
  rw [CaseRun.image?] at h
  split at h
  · rename_i hinside
    exact ⟨hinside.1, hinside.2.1, (Option.some.inj h).symm⟩
  · cases h

/-- A letter of a run is not blank. -/
theorem isBlank_of_image? {run : CaseRun} (hrun : run ∈ caseRuns) {c : Char} {image : Nat}
    (h : run.image? c.toNat = some image) : isBlank c = false := by
  obtain ⟨hfirst, hlast, -⟩ := bounds_of_image? h
  exact isBlank_eq_false_of_isClear (isClear_of_mem_caseRuns hrun).1 hfirst hlast

/-- Neither is its image. -/
theorem isBlank_ofNat_of_image? {run : CaseRun} (hrun : run ∈ caseRuns) {code image : Nat}
    (h : run.image? code = some image) : isBlank (Char.ofNat image) = false := by
  obtain ⟨hfirst, hlast, himage⟩ := bounds_of_image? h
  by_cases hvalid : image.isValidChar
  · have hcode : (Char.ofNat image).toNat = image := toNat_ofNat hvalid
    refine isBlank_eq_false_of_isClear (isClear_of_mem_caseRuns hrun).2 ?_ ?_
    · omega
    · omega
  · -- A code point that is not one of a character is read as zero.
    have hcode : Char.ofNat image = Char.ofNat 0 := by rw [Char.ofNat, dif_neg hvalid]; rfl
    rw [hcode]
    decide

/-- What a character becomes in lower case is as blank as the character. -/
theorem isBlank_of_mem_lowerChar {c d : Char} (h : d ∈ lowerChar c) : isBlank d = isBlank c := by
  rw [lowerChar] at h
  split at h
  · rename_i hascii
    obtain rfl : d = c.toLower := by simpa using h
    have hcode := isBlank_toLower_of_lt c.toNat hascii
    rwa [Char.ofNat_toNat] at hcode
  · split at h
    · rename_i hdotted
      subst hdotted
      rcases List.mem_cons.1 h with rfl | h
      · decide
      · obtain rfl := List.mem_singleton.1 h
        decide
    · split at h
      · rename_i image himage
        obtain rfl : d = Char.ofNat image := by simpa using h
        obtain ⟨run, hrun, himage⟩ := List.exists_of_findSome?_eq_some himage
        rw [isBlank_of_image? hrun himage, isBlank_ofNat_of_image? hrun himage]
      · obtain rfl : d = c := by simpa using h
        rfl

/-- Every character has a lower case. -/
theorem lowerChar_ne_nil (c : Char) : lowerChar c ≠ [] := by
  rw [lowerChar]
  split
  · simp
  · split
    · simp
    · split <;> simp

/-! ## Texts -/

/-- The part of a text that a character becomes, with what the characters around it make of a
sigma. -/
theorem exists_lowerAfter_cons (before : List Char) (c : Char) (rest : List Char) :
    ∃ lower, lower ≠ [] ∧ (∀ d ∈ lower, isBlank d = isBlank c) ∧
      lowerAfter before (c :: rest) = lower ++ lowerAfter (c :: before) rest := by
  by_cases hsigma : c = 'Σ'
  · refine ⟨if startsCased before && !startsCased rest then ['ς'] else ['σ'], ?_, ?_, ?_⟩
    · split <;> simp
    · subst hsigma
      intro d hd
      split at hd
      · obtain rfl := List.mem_singleton.1 hd
        decide
      · obtain rfl := List.mem_singleton.1 hd
        decide
    · simp [lowerAfter, hsigma]
  · exact ⟨lowerChar c, lowerChar_ne_nil c, fun d => isBlank_of_mem_lowerChar,
      by simp [lowerAfter, hsigma]⟩

/-- Lower case leaves no text empty that was not. -/
theorem lowerAfter_eq_nil_iff {before cs : List Char} : lowerAfter before cs = [] ↔ cs = [] := by
  cases cs with
  | nil => simp [lowerAfter]
  | cons c rest =>
    obtain ⟨lower, hne, -, heq⟩ := exists_lowerAfter_cons before c rest
    simp [heq, hne]

theorem toList_lower (s : String) : (lower s).toList = lowerChars s.toList :=
  String.toList_ofList

/-- No text vanishes in lower case. -/
theorem lower_eq_empty_iff {s : String} : lower s = "" ↔ s = "" := by
  rw [← String.toList_inj, ← String.toList_inj, toList_lower, String.toList_empty, lowerChars,
    lowerAfter_eq_nil_iff]

/-- A text is blank just if its lower case is. -/
theorem all_isBlank_lowerAfter (before cs : List Char) :
    (lowerAfter before cs).all isBlank = cs.all isBlank := by
  induction cs generalizing before with
  | nil => rfl
  | cons c rest ih =>
    obtain ⟨lower, hne, hblank, heq⟩ := exists_lowerAfter_cons before c rest
    rw [heq, List.all_append, ih, List.all_cons]
    congr 1
    -- As `lower` has a member, all its members are blank exactly if `c` is.
    rw [Bool.eq_iff_iff, List.all_eq_true]
    constructor
    · intro hall
      obtain ⟨d, hd⟩ := List.exists_mem_of_ne_nil lower hne
      exact hblank d hd ▸ hall d hd
    · intro hc d hd
      rw [hblank d hd, hc]

/-- A text is blank if and only if it is blank in lower case. -/
theorem isBlankText_lower (s : String) : isBlankText (lower s) = isBlankText s := by
  rw [isBlankText, toList_lower, lowerChars, all_isBlank_lowerAfter, isBlankText]

end CallGraph.Text
