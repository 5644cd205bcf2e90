import CallGraph.Number.Decimal
import Mathlib.Algebra.Group.Nat.Defs
import Mathlib.Data.List.Basic

/-!
# Decimal digits read back

The digits of a whole number, with or without zeros before them, stand for that number.

Main results:

- Theorem `Number.ofDigits_digits`: digits stand for the number that they were written for.
- Theorem `Number.ofDigits_padZeros`: zeros before them do not count.
- Theorem `Number.exists_digits_eq_cons`: no zero begins a number that has more digits.
- Theorem `Number.length_padZeros_digits`: a number that is not too large fills its places exactly.
-/

namespace CallGraph.Number

theorem ofDigits_digits (n : Nat) : ofDigits (digits n) = n :=
  Nat.ofDigitChars_ten_toDigits

theorem ofDigits_padZeros (width : Nat) (ds : List Char) :
    ofDigits (padZeros width ds) = ofDigits ds := by
  have hzeros : (List.replicate (width - ds.length) '0').foldl
      (fun n c => 10 * n + (c.toNat - '0'.toNat)) 0 = 0 := by
    rw [← Nat.ofDigitChars_eq_foldl, Nat.ofDigitChars_replicate_zero, Nat.mul_zero]
  rw [ofDigits, ofDigits, padZeros, List.foldl_append, hzeros]

theorem isDigit_of_mem_digits {n : Nat} {c : Char} (h : c ∈ digits n) : c.isDigit = true :=
  Nat.isDigit_of_mem_toDigits (by decide) (Nat.le_refl 10) h

theorem isDigit_of_mem_padZeros {width n : Nat} {c : Char} (h : c ∈ padZeros width (digits n)) :
    c.isDigit = true := by
  rcases List.mem_append.1 h with hzero | hdigit
  · rw [(List.mem_replicate.1 hzero).2]
    decide
  · exact isDigit_of_mem_digits hdigit

theorem digits_ne_nil (n : Nat) : digits n ≠ [] :=
  Nat.toDigits_ne_nil

/-- No zero begins a number, except that zero itself is written with one. -/
theorem exists_digits_eq_cons (n : Nat) :
    ∃ d ds, digits n = d :: ds ∧ (d = '0' → ds = []) := by
  induction n using Nat.strongRecOn with
  | ind n ih =>
    by_cases hlt : n < 10
    · exact ⟨_, [], Nat.toDigits_of_lt_base hlt, fun _ => rfl⟩
    · obtain ⟨d, ds, hdigits, hzero⟩ := ih (n / 10) (by omega)
      refine ⟨d, ds ++ [(n % 10).digitChar], ?_, fun hd => ?_⟩
      · rw [digits, Nat.toDigits_of_base_le (by decide) (Nat.not_lt.1 hlt), ← List.cons_append,
          ← hdigits, digits]
      · -- the number without its last digit would be zero
        have hvalue := ofDigits_digits (n / 10)
        rw [hdigits, hd, hzero hd] at hvalue
        have hsmall : n / 10 = 0 := hvalue.symm
        omega

theorem le_length_padZeros (width : Nat) (ds : List Char) :
    width ≤ (padZeros width ds).length := by
  rw [padZeros, List.length_append, List.length_replicate]
  omega

/-- A number with at most `width` digits fills `width` places exactly. -/
theorem length_padZeros_digits {width n : Nat} (hwidth : 0 < width) (hn : n < 10 ^ width) :
    (padZeros width (digits n)).length = width := by
  have hlength : (digits n).length ≤ width :=
    (Nat.length_toDigits_le_iff (by decide) hwidth).2 hn
  rw [padZeros, List.length_append, List.length_replicate]
  omega

end CallGraph.Number
